/-! What a computation that may fail establishes when it succeeds: each of its steps has succeeded.
Shared by the decoders, the arithmetic and the patch builders. -/
namespace WorkloadAdmission.Fallible

variable {ε ε' α β : Type}

@[simp] theorem bind_eq_ok {step : Except ε α} {next : α → Except ε β} {result : β} :
    (step >>= next) = .ok result ↔ ∃ value, step = .ok value ∧ next value = .ok result := by
  cases step <;> simp [bind, Except.bind]

@[simp] theorem ok_bind {value : α} {next : α → Except ε β} :
    (Except.ok value >>= next) = next value := rfl

@[simp] theorem pure_eq_ok {value result : α} :
    (pure value : Except ε α) = .ok result ↔ value = result := by
  simp only [pure, Except.pure, Except.ok.injEq]

@[simp] theorem mapError_eq_ok {step : Except ε α} {relabel : ε → ε'} {value : α} :
    step.mapError relabel = .ok value ↔ step = .ok value := by
  cases step with
  | ok result =>
    constructor
    · intro same
      cases same
      rfl
    · intro same
      cases same
      rfl
  | error cause =>
    constructor
    · intro same
      cases same
    · intro same
      cases same

@[simp] theorem mapError_ok {relabel : ε → ε'} {value : α} :
    (Except.ok value : Except ε α).mapError relabel = .ok value := rfl

@[simp] theorem map_ok {f : α → β} {value : α} :
    (Except.ok value : Except ε α).map f = .ok (f value) := rfl

theorem map_eq_ok {f : α → β} {step : Except ε α} {result : β} :
    step.map f = .ok result ↔ ∃ value, step = .ok value ∧ f value = result := by
  cases step with
  | ok value =>
    constructor
    · intro same
      cases same
      exact ⟨value, rfl, rfl⟩
    · rintro ⟨_, same, rfl⟩
      cases same
      rfl
  | error cause =>
    constructor
    · intro same
      cases same
    · rintro ⟨_, same, -⟩
      cases same

theorem map_eq_error {f : α → β} {step : Except ε α} {cause : ε} :
    step.map f = .error cause ↔ step = .error cause := by
  cases step <;> simp [Except.map]

theorem bind_eq_error {step : Except ε α} {next : α → Except ε β} {cause : ε} :
    (step >>= next) = .error cause ↔
      step = .error cause ∨ ∃ value, step = .ok value ∧ next value = .error cause := by
  cases step <;> simp [bind, Except.bind]

theorem mapError_eq_error {step : Except ε α} {relabel : ε → ε'} {cause : ε'} :
    step.mapError relabel = .error cause ↔ ∃ before, step = .error before ∧ relabel before = cause := by
  cases step with
  | ok value =>
    constructor
    · intro fails
      cases fails
    · rintro ⟨before, fails, -⟩
      cases fails
  | error before =>
    constructor
    · intro fails
      exact ⟨before, rfl, Except.error.inj fails⟩
    · rintro ⟨_, same, rfl⟩
      cases same
      rfl

theorem mapM_cons_eq_ok {f : α → Except ε β} {a : α} {rest : List α} {results : List β} :
    (a :: rest).mapM f = .ok results ↔
      ∃ b others, f a = .ok b ∧ rest.mapM f = .ok others ∧ results = b :: others := by
  simp only [List.mapM_cons, bind_eq_ok, pure_eq_ok]
  constructor
  · rintro ⟨b, first, others, remaining, rfl⟩
    exact ⟨b, others, first, remaining, rfl⟩
  · rintro ⟨b, others, first, remaining, rfl⟩
    exact ⟨b, first, others, remaining, rfl⟩

/-- A list is refused for its first item that is. -/
theorem mapM_eq_error_iff {f : α → Except ε β} {list : List α} {cause : ε} :
    list.mapM f = .error cause ↔ ∃ before a after, list = before ++ a :: after ∧
      (∃ results, before.mapM f = .ok results) ∧ f a = .error cause := by
  induction list with
  | nil =>
    constructor
    · intro fails
      cases fails
    · rintro ⟨before, a, after, empty, -⟩
      simp at empty
  | cons first rest ih =>
    rw [List.mapM_cons, bind_eq_error]
    constructor
    · rintro (here | ⟨b, ahead, there⟩)
      · exact ⟨[], first, rest, rfl, ⟨[], rfl⟩, here⟩
      · rcases bind_eq_error.mp there with later | ⟨others, -, none⟩
        · obtain ⟨before, a, after, rfl, ⟨results, decoded⟩, fails⟩ := ih.mp later
          exact ⟨first :: before, a, after, rfl,
            ⟨b :: results, mapM_cons_eq_ok.mpr ⟨b, results, ahead, decoded, rfl⟩⟩, fails⟩
        · cases none
    · rintro ⟨before, a, after, split, ⟨results, decoded⟩, fails⟩
      cases before with
      | nil =>
        cases split
        exact .inl fails
      | cons b before =>
        cases split
        obtain ⟨value, others, ahead, remaining, -⟩ := mapM_cons_eq_ok.mp decoded
        exact .inr ⟨value, ahead, bind_eq_error.mpr
          (.inl (ih.mpr ⟨before, a, after, rfl, ⟨others, remaining⟩, fails⟩))⟩

theorem option_mapM_eq_error_iff {f : α → Except ε β} {held : Option α} {cause : ε} :
    held.mapM f = .error cause ↔ ∃ a, held = some a ∧ f a = .error cause := by
  cases held with
  | none =>
    constructor
    · intro fails
      cases fails
    · rintro ⟨a, none, -⟩
      cases none
  | some a =>
    rw [Option.mapM_some]
    constructor
    · intro fails
      exact ⟨a, rfl, map_eq_error.mp fails⟩
    · rintro ⟨_, same, fails⟩
      cases same
      exact map_eq_error.mpr fails

theorem isOk_mapM_iff {f : α → Except ε β} {list : List α} :
    (∃ results, list.mapM f = .ok results) ↔ ∀ a ∈ list, ∃ b, f a = .ok b := by
  induction list with
  | nil => simp [pure, Except.pure]
  | cons a rest ih =>
    rw [List.forall_mem_cons, ← ih]
    constructor
    · rintro ⟨results, mapped⟩
      obtain ⟨b, others, here, there, -⟩ := mapM_cons_eq_ok.mp mapped
      exact ⟨⟨b, here⟩, others, there⟩
    · rintro ⟨⟨b, here⟩, others, there⟩
      exact ⟨b :: others, mapM_cons_eq_ok.mpr ⟨b, others, here, there, rfl⟩⟩

theorem mapM_map {f : α → Except ε β} {g : β → α} (reads : ∀ b, f (g b) = .ok b) (list : List β) :
    (list.map g).mapM f = .ok list := by
  induction list with
  | nil => rfl
  | cons b rest ih =>
    rw [List.map_cons, mapM_cons_eq_ok]
    exact ⟨b, rest, reads b, ih, rfl⟩

end WorkloadAdmission.Fallible
