import WorkloadAdmission.Proofs.Fallible
import WorkloadAdmission.Review

/-! Reading fields after one of them has been set. Setting replaces a field in its place, so writing
the value that already stands there changes nothing. Maps of texts are read back as they were
written. -/
namespace WorkloadAdmission.Fields

variable {α : Type} {fields : Fields α} {key other : Text}

@[simp] theorem get?_insert_self (fields : Fields α) (key : Text) (value : α) :
    get? (insert key value fields) key = some value := by
  induction fields with
  | nil => simp [insert, get?]
  | cons field rest ih =>
    obtain ⟨name, found⟩ := field
    by_cases same : name = key
    · simp [insert, get?, same]
    · have apart : (key == name) = false := by simpa using Ne.symm same
      simpa [insert, get?, same, List.lookup_cons, apart] using ih

@[simp] theorem get?_insert_ne (fields : Fields α) (value : α) (apart : other ≠ key) :
    get? (insert key value fields) other = get? fields other := by
  induction fields with
  | nil =>
    have behind : (other == key) = false := by simpa using apart
    simp [insert, get?, List.lookup_cons, behind]
  | cons field rest ih =>
    obtain ⟨name, found⟩ := field
    by_cases same : name = key
    · have behind : (other == key) = false := by simpa using apart
      simp [insert, get?, same, List.lookup_cons, behind]
    · by_cases here : (other == name) = true
      · simp [insert, get?, same, List.lookup_cons, here]
      · simpa [insert, get?, same, List.lookup_cons, here] using ih

theorem get?_erase_ne (fields : Fields α) (apart : other ≠ key) :
    get? (erase fields key) other = get? fields other := by
  induction fields with
  | nil => rfl
  | cons field rest ih =>
    obtain ⟨name, value⟩ := field
    by_cases gone : name = key
    · subst gone
      have behind : (other == name) = false := by simpa using apart
      simpa [erase, get?, List.lookup_cons, behind] using ih
    · by_cases here : (other == name) = true
      · simp [erase, get?, gone, List.lookup_cons, here]
      · simpa [erase, get?, gone, List.lookup_cons, here] using ih

theorem get?_erase_self (fields : Fields α) (key : Text) : get? (erase fields key) key = none := by
  rw [get?, List.lookup_eq_none_iff]
  intro field member
  have kept : field.1 ≠ key := of_decide_eq_true (List.mem_filter.mp member).2
  simpa using Ne.symm kept

theorem get?_isSome_iff : (get? fields key).isSome ↔ key ∈ fields.map Prod.fst := by
  rw [get?, List.lookup_isSome_iff, List.mem_map]
  constructor
  · rintro ⟨field, member, same⟩
    exact ⟨field, member, (eq_of_beq same).symm⟩
  · rintro ⟨field, member, rfl⟩
    exact ⟨field, member, BEq.rfl⟩

/-- Setting a field to the value that it has changes nothing, order included. -/
theorem insert_get? {value : α} (found : get? fields key = some value) :
    insert key value fields = fields := by
  induction fields with
  | nil => simp [get?] at found
  | cons field rest ih =>
    obtain ⟨name, held⟩ := field
    by_cases same : name = key
    · subst same
      simp only [get?, List.lookup_cons, BEq.rfl, Option.some.injEq] at found
      simp [insert, found]
    · have apart : (key == name) = false := by simpa using Ne.symm same
      simp only [get?, List.lookup_cons, apart] at found
      simp [insert, same, ih found]

/-- A field with a new name becomes the last one. -/
theorem insert_of_not_mem (fresh : key ∉ fields.map Prod.fst) (value : α) :
    insert key value fields = fields ++ [(key, value)] := by
  induction fields with
  | nil => rfl
  | cons field rest ih =>
    obtain ⟨name, held⟩ := field
    simp only [List.map_cons, List.mem_cons, not_or] at fresh
    simp [insert, Ne.symm fresh.1, ih fresh.2]

@[simp] theorem insert_insert (fields : Fields α) (key : Text) (first second : α) :
    insert key second (insert key first fields) = insert key second fields := by
  induction fields with
  | nil => simp [insert]
  | cons field rest ih =>
    obtain ⟨name, held⟩ := field
    by_cases same : name = key
    · simp [insert, same]
    · simp [insert, same, ih]

/-- Two fields can be set in either order. -/
theorem get?_insert_comm (fields : Fields α) (apart : key ≠ other) (first second : α) (name : Text) :
    get? (insert other second (insert key first fields)) name =
      get? (insert key first (insert other second fields)) name := by
  by_cases here : name = key
  · rw [here, get?_insert_ne _ _ apart, get?_insert_self, get?_insert_self]
  · by_cases there : name = other
    · rw [there, get?_insert_ne _ _ (Ne.symm apart), get?_insert_self, get?_insert_self]
    · simp only [get?_insert_ne _ _ here, get?_insert_ne _ _ there]

theorem get_of_get? {fields : Fields Json} {value : Json} (found : get? fields key = some value) :
    get fields key = value := by
  have found : fields.lookup key = some value := found
  simp [get, found]

theorem get_congr {fields changed : Fields Json} (same : get? changed key = get? fields key) :
    get changed key = get fields key := by
  simpa [get, get?] using congrArg (·.getD Json.null) same

@[simp] theorem get_insert_self (fields : Fields Json) (key : Text) (value : Json) :
    get (insert key value fields) key = value := get_of_get? (get?_insert_self fields key value)

@[simp] theorem get_insert_ne (fields : Fields Json) (value : Json) (apart : other ≠ key) :
    get (insert key value fields) other = get fields other := get_congr (get?_insert_ne fields value apart)

theorem part_of_get? {fields inner : Fields Json} (found : get? fields key = some (.obj inner)) :
    part fields key = inner := by
  simp [part, get_of_get? found]

theorem part_congr {fields changed : Fields Json} (same : get? changed key = get? fields key) :
    part changed key = part fields key := by
  rw [part, part, get_congr same]

theorem get?_of_get {fields : Fields Json} {value : Json} (held : get fields key = value)
    (given : value ≠ .null) : get? fields key = some value := by
  cases found : get? fields key with
  | none =>
    have nothing : fields.lookup key = none := found
    exact absurd (by rw [← held, get, nothing]; rfl) given
  | some other => rw [← held, get_of_get? found]

theorem objectOrEmpty_of_get? {fields inner : Fields Json} (found : get? fields key = some (.obj inner))
    (part : String) : objectOrEmpty fields key part = .ok inner := by
  rw [objectOrEmpty, get_of_get? found]

/-- What is not empty has been given as an object. -/
theorem get?_of_objectOrEmpty {fields inner : Fields Json} {part : String}
    (read : objectOrEmpty fields key part = .ok inner) (some : inner ≠ []) :
    get? fields key = .some (.obj inner) := by
  apply get?_of_get _ (by simp)
  unfold objectOrEmpty at read
  split at read
  · rename_i object held
    rw [held, Except.ok.inj read]
  · split at read
    · exact absurd (Except.ok.inj read).symm some
    · contradiction

/-- An object in which something is found has been given. -/
theorem get?_of_found {fields inner : Fields Json} {part : String} {name : Text} {value : Json}
    (read : objectOrEmpty fields key part = .ok inner) (found : get? inner name = some value) :
    get? fields key = some (.obj inner) := by
  apply get?_of_objectOrEmpty read
  rintro rfl
  cases found

/-! ### Frames -/

/-- Outside some keys the fields are the same. -/
def AgreeBeside (keys : List Text) (before after : Fields α) : Prop :=
  ∀ key ∉ keys, get? after key = get? before key

/-- No entry is lost, and outside some keys the entries are the same. -/
structure Extends (keys : List Text) (before after : Fields α) : Prop where
  agree : AgreeBeside keys before after
  kept : ∀ key, (get? before key).isSome → (get? after key).isSome

section Frames

variable {keys : List Text} {before middle after : Fields α}

theorem AgreeBeside.refl (keys : List Text) (fields : Fields α) : AgreeBeside keys fields fields :=
  fun _ _ => rfl

theorem AgreeBeside.trans (first : AgreeBeside keys before middle) (second : AgreeBeside keys middle after) :
    AgreeBeside keys before after :=
  fun key apart => (second key apart).trans (first key apart)

theorem AgreeBeside.get {before after : Fields Json} (agree : AgreeBeside keys before after)
    (apart : key ∉ keys) : get after key = get before key := get_congr (agree key apart)

theorem AgreeBeside.mono {wider : List Text} (agree : AgreeBeside keys before after) (within : keys ⊆ wider) :
    AgreeBeside wider before after :=
  fun key apart => agree key fun member => apart (within member)

theorem AgreeBeside.insert (agree : AgreeBeside keys before after) (member : key ∈ keys) (value : α) :
    AgreeBeside keys before (insert key value after) := by
  intro other apart
  have differ : other ≠ key := fun same => apart (same ▸ member)
  rw [get?_insert_ne _ _ differ, agree other apart]

theorem Extends.refl (keys : List Text) (fields : Fields α) : Extends keys fields fields :=
  ⟨.refl keys fields, fun _ held => held⟩

theorem Extends.insert (grown : Extends keys before after) (member : key ∈ keys) (value : α) :
    Extends keys before (insert key value after) where
  agree := grown.agree.insert member value
  kept other held := by
    by_cases same : other = key
    · rw [same, get?_insert_self]
      rfl
    · rw [get?_insert_ne _ _ same]
      exact grown.kept other held

end Frames

/-! ### Maps of texts -/

section Texts

variable {key : String}

theorem texts_congr {fields changed : Fields Json} (same : get changed key = get fields key)
    (kind : String) : texts changed kind key = texts fields kind key := by
  simp [texts, same]

/-- A map of texts that has been written is read back with its order. -/
theorem texts_textsToJson {fields : Fields Json} {written : Fields Text}
    (found : get fields key = textsToJson written) (kind : String) :
    texts fields kind key = .ok (some written) := by
  simp only [texts, found, textsToJson]
  rw [Fallible.mapM_map]
  · rfl
  · intro entry
    rfl

/-- What is read as a map of texts is written as one. -/
theorem eq_textsToJson_of_texts {fields : Fields Json} {kind : String} {written : Fields Text}
    (read : texts fields kind key = .ok (some written)) : get fields key = textsToJson written := by
  unfold texts at read
  split at read
  · cases read
  next entries held =>
    simp only [Fallible.bind_eq_ok, Fallible.pure_eq_ok, Option.some.injEq] at read
    obtain ⟨found, readAll, rfl⟩ := read
    rw [held, textsToJson, Json.obj.injEq]
    clear held
    induction entries generalizing found with
    | nil =>
      cases readAll
      rfl
    | cons entry rest ih =>
      obtain ⟨text, others, here, there, rfl⟩ := Fallible.mapM_cons_eq_ok.mp readAll
      obtain ⟨name, v⟩ := entry
      cases v with
      | str s =>
        cases here
        rw [List.map_cons, ← ih others there]
      | null | bool | int | float | arr | obj => cases here
  · cases read

/-- A map of texts as it stands in a document. One that is not given counts as empty. -/
theorem part_of_texts {fields : Fields Json} {kind : String} {found : Option (Fields Text)}
    (read : texts fields kind key = .ok found) :
    part fields key = (found.getD []).map fun (k, s) => (k, .str s) := by
  cases found with
  | some written =>
    rw [part, eq_textsToJson_of_texts read]
    rfl
  | none =>
    unfold texts at read
    split at read
    next nothing =>
      rw [part, nothing]
      rfl
    next entries held =>
      obtain ⟨found, -, given⟩ := Fallible.bind_eq_ok.mp read
      cases given
    next => cases read

theorem part_insert_texts (fields : Fields Json) (written : Fields Text) (key : Text) :
    part (insert key (textsToJson written) fields) key = written.map fun (k, s) => (k, .str s) :=
  part_of_get? (get?_insert_self ..)

theorem textsToJson_of_get?_obj {fields entries : Fields Json} {kind : String}
    {texts : Option (Fields Text)} (held : get? fields key = some (.obj entries))
    (read : Fields.texts fields kind key = .ok texts) :
    ∃ written, texts = some written ∧ entries = written.map fun (k, s) => (k, .str s) := by
  cases texts with
  | none =>
    rw [Fields.texts, get_of_get? held] at read
    obtain ⟨found, -, given⟩ := Fallible.bind_eq_ok.mp read
    cases given
  | some written =>
    refine ⟨written, rfl, ?_⟩
    simpa [textsToJson] using (get_of_get? held).symm.trans (eq_textsToJson_of_texts read)

end Texts

theorem insert_texts (written : Fields Text) (key value : Text) :
    insert key (Json.str value) (written.map fun (k, s) => (k, .str s)) =
      (insert key value written).map fun (k, s) => (k, .str s) := by
  induction written with
  | nil => rfl
  | cons entry rest ih =>
    obtain ⟨name, held⟩ := entry
    by_cases same : name = key
    · simp [insert, same]
    · simp [insert, same, ih]

end WorkloadAdmission.Fields
