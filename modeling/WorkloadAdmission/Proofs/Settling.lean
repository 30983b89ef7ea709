import WorkloadAdmission.Proofs.Quantity
import WorkloadAdmission.Proofs.Shrinking

/-! What shrinking leaves of a container, as a decoder sees it afterwards. The request written into a
document is read back as the count it was written from, so decoding the patched items gives the
containers that one settling step leaves. A settled container has nothing left to shrink: no further
step touches it, whatever its factor. -/
namespace WorkloadAdmission.Container

/-- A CPU request that every product keeps to the millicore. -/
def IsExact (c : Container) : Prop := ∀ millis ∈ c.cpuMillis, millis < 10 ^ 28

/-- The CPU request ends in the digit that shrinking leaves on it. -/
def IsStamped (c : Container) : Prop := ∃ millis, c.cpuMillis = some millis ∧ millis % 10 = 1

/-- What an admission that shrinks by a factor leaves of a container. -/
def settled (factor : Binary64) (c : Container) : Container :=
  match c.reducible? with
  | none => c
  | some millis =>
    match reducedMillis millis factor with
    | .ok reduced => ⟨c.name, c.requestsWith (toString reduced), some reduced⟩
    | .error _ => c

variable {c : Container} {factor : Binary64} {millis : Int}

theorem settled_of_none (nothing : c.reducible? = none) : c.settled factor = c := by
  simp only [settled, nothing]

theorem settled_of_some (reducible : c.reducible? = some millis) (exact : c.IsExact)
    (above : factor.isPositive = true) (below : factor.isAtLeastOne = false) :
    ∃ r : Nat, reducedMillis millis factor = .ok r ∧ 0 < r ∧ r < 10 ^ 28 ∧ r % 10 = 1 ∧
      c.settled factor = ⟨c.name, c.requestsWith (toString r), some (r : Int)⟩ := by
  obtain ⟨held, positive, -⟩ := reducible?_eq_some.mp reducible
  obtain ⟨r, reduced, some, bound, stamp⟩ :=
    reducedMillis_stamped positive (exact millis held) above below
  refine ⟨r, reduced, some, bound, stamp, ?_⟩
  simp only [settled, reducible, reduced]
  rfl

theorem isStamped_settled (reducible : c.reducible? = some millis) (exact : c.IsExact)
    (above : factor.isPositive = true) (below : factor.isAtLeastOne = false) :
    (c.settled factor).IsStamped := by
  obtain ⟨r, -, -, -, stamp, settles⟩ := settled_of_some reducible exact above below
  refine ⟨r, ?_, ?_⟩
  · rw [settles]
  · omega

theorem IsStamped.reducible? (stamped : c.IsStamped) : c.reducible? = none := by
  obtain ⟨millis, held, stamp⟩ := stamped
  rw [Option.eq_none_iff_forall_ne_some]
  intro other shrinks
  obtain ⟨same, -, apart⟩ := reducible?_eq_some.mp shrinks
  rw [held, Option.some.injEq] at same
  omega

/-- A settled container has nothing left to shrink. -/
theorem reducible?_settled (exact : c.IsExact) (above : factor.isPositive = true)
    (below : factor.isAtLeastOne = false) : (c.settled factor).reducible? = none := by
  cases reducible : c.reducible? with
  | none => rwa [settled_of_none reducible]
  | some millis => exact (isStamped_settled reducible exact above below).reducible?

theorem isExact_settled (exact : c.IsExact) (above : factor.isPositive = true)
    (below : factor.isAtLeastOne = false) : (c.settled factor).IsExact := by
  cases reducible : c.reducible? with
  | none => rwa [settled_of_none reducible]
  | some millis =>
    obtain ⟨r, -, -, bound, -, settles⟩ := settled_of_some reducible exact above below
    rw [settles]
    intro counted same
    simp only [Option.mem_def, Option.some.injEq] at same
    omega

/-! ### Items of a document -/

theorem requestedMillis_written {r : Nat} (bound : r < 10 ^ 28) :
    requestedMillis (.str (toString r ++ "m")) = .ok r := by
  have counted : Quantity.cpuMillis (.str (toString r ++ "m")) = .ok r :=
    Quantity.cpuMillis_millicores (n := r) bound
  simp only [requestedMillis, counted]

theorem integerText_written {r : Nat} (bound : r < 10 ^ 28) : integerText r = .ok (toString r) := by
  have length : Number.decimalLength r ≤ 28 := (Number.decimalLength_le_iff (by decide)).mpr bound
  have few : ¬ maxDigits < Number.decimalLength (r : Int).natAbs := by
    simp only [maxDigits, Int.natAbs_natCast]
    omega
  rw [integerText, if_neg few]
  rfl

/-- Writing a smaller request into an item settles the container that it holds. -/
theorem ofJson_written {item item' : Json} (decoded : ofJson item = .ok c)
    (held : c.cpuMillis = some millis) {r : Nat} (bound : r < 10 ^ 28)
    (added : Patch.addAt? (.obj (c.requestsWith (toString r))) ["resources", "requests"] item =
      some item') :
    ofJson item' = .ok ⟨c.name, c.requestsWith (toString r), some (r : Int)⟩ := by
  obtain ⟨fields, resources, rfl, name, outer, -⟩ := ofJson_requests decoded held
  rw [addAt?_requests _ outer] at added
  cases added
  rw [ofJson_eq_ok]
  refine ⟨_, Fields.insert "requests" (.obj (c.requestsWith (toString r))) resources, rfl, ?_, ?_, ?_, ?_⟩
  · simpa using name
  · exact Fields.objectOrEmpty_of_get? (Fields.get?_insert_self ..) _
  · exact Fields.objectOrEmpty_of_get? (Fields.get?_insert_self ..) _
  · have cpu : Fields.get? (c.requestsWith (toString r)) "cpu" = some (.str (toString r ++ "m")) := by
      simp [requestsWith, Fields.get?]
    rw [cpu, Option.mapM_some, requestedMillis_written bound]
    rfl

/-- A shrunk item holds the settled container. -/
theorem Shrinks.ofJson_settled {item item' : Json} (shrinks : Shrinks factor item item')
    (decoded : ofJson item = .ok c) (exact : c.IsExact) (above : factor.isPositive = true)
    (below : factor.isAtLeastOne = false) : ofJson item' = .ok (c.settled factor) := by
  cases shrinks with
  | spared decodedToo nothing =>
    cases decodedToo.symm.trans decoded
    rw [settled_of_none (nothing.resolve_left (by simp [below]))]
    exact decoded
  | shrunk decodedToo _ reducible reduced added =>
    cases decodedToo.symm.trans decoded
    obtain ⟨r, reducedToo, -, bound, -, settles⟩ := settled_of_some reducible exact above below
    cases reduced.symm.trans reducedToo
    rw [settles]
    exact ofJson_written decoded (reducible?_eq_some.mp reducible).1 bound added

/-! ### Lists of containers in a document -/

variable {kind : Text} {index : Nat} {containers others : List Container} {entries : List Patch.Entry}

theorem mapM_ofJson_settled {items items' : List Json} (shrinks : List.Forall₂ (Shrinks factor) items items')
    (decoded : items.mapM ofJson = .ok containers) (exact : ∀ c ∈ containers, c.IsExact)
    (above : factor.isPositive = true) (below : factor.isAtLeastOne = false) :
    items'.mapM ofJson = .ok (containers.map (settled factor)) := by
  induction shrinks generalizing containers with
  | nil =>
    cases decoded
    rfl
  | cons here there ih =>
    obtain ⟨c, others, first, remaining, rfl⟩ := Fallible.mapM_cons_eq_ok.mp decoded
    obtain ⟨exactHere, exactThere⟩ := List.forall_mem_cons.mp exact
    rw [List.map_cons, Fallible.mapM_cons_eq_ok]
    exact ⟨_, _, here.ofJson_settled first exactHere above below, ih remaining exactThere, rfl⟩

theorem eq_of_shrinks (atLeastOne : factor.isAtLeastOne = true) {items items' : List Json}
    (shrinks : List.Forall₂ (Shrinks factor) items items') : items = items' := by
  induction shrinks with
  | nil => rfl
  | cons here there ih =>
    cases here with
    | spared decoded nothing => rw [ih]
    | shrunk decoded below => simp [atLeastOne] at below

theorem reductionsFrom_none (nothing : c.reducible? = none)
    (remaining : reductionsFrom kind factor (index + 1) others = .ok entries) :
    reductionsFrom kind factor index (c :: others) = .ok entries := by
  have entry : reduction kind factor index c = .ok none := by rw [reduction, nothing]; rfl
  rw [reductionsFrom, entry, Fallible.ok_bind, remaining]
  rfl

theorem reductionsFrom_some (reducible : c.reducible? = some millis) {r : Nat}
    (reduced : reducedMillis millis factor = .ok r) (bound : r < 10 ^ 28)
    (remaining : reductionsFrom kind factor (index + 1) others = .ok entries) :
    reductionsFrom kind factor index (c :: others) = .ok
      (.add (requestsPath kind index) (.obj (c.requestsWith (toString r))) :: entries) := by
  have entry : reduction kind factor index c = .ok (some
      (.add (requestsPath kind index) (.obj (c.requestsWith (toString r))))) := by
    rw [reduction, reducible, Option.mapM_some, reduced, Fallible.ok_bind, integerText_written bound]
    rfl
  rw [reductionsFrom, entry, Fallible.ok_bind, remaining]
  rfl

/-- Exact requests shrink without a fault. -/
theorem reductionsFrom_isOk (kind : Text) (index : Nat) (exact : ∀ c ∈ containers, c.IsExact)
    (above : factor.isPositive = true) (below : factor.isAtLeastOne = false) :
    ∃ entries, reductionsFrom kind factor index containers = .ok entries := by
  induction containers generalizing index with
  | nil => exact ⟨[], rfl⟩
  | cons c rest ih =>
    obtain ⟨exactHere, exactThere⟩ := List.forall_mem_cons.mp exact
    obtain ⟨entries, remaining⟩ := ih (index + 1) exactThere
    cases reducible : c.reducible? with
    | none => exact ⟨entries, reductionsFrom_none reducible remaining⟩
    | some millis =>
      obtain ⟨r, reduced, -, bound, -, -⟩ := settled_of_some reducible exactHere above below
      exact ⟨_, reductionsFrom_some reducible reduced bound remaining⟩

theorem reductionsFrom_nothing (nothing : ∀ c ∈ containers, c.reducible? = none) :
    reductionsFrom kind factor index containers = .ok [] := by
  induction containers generalizing index with
  | nil => rfl
  | cons c rest ih =>
    exact reductionsFrom_none (nothing c List.mem_cons_self)
      (ih fun other member => nothing other (List.mem_cons_of_mem _ member))

/-! ### All containers under a field -/

/-- What an admission under a factor leaves of a list of containers: a factor of one or more
touches none. -/
def settledAll (factor : Binary64) (containers : List Container) : List Container :=
  if factor.isAtLeastOne then containers else containers.map (settled factor)

theorem reductions_isOk (kind : Text) (exact : ∀ c ∈ containers, c.IsExact)
    (above : factor.isPositive = true) :
    ∃ entries, reductions kind factor containers = .ok entries := by
  cases below : factor.isAtLeastOne with
  | true => exact ⟨[], by simp only [reductions, below, if_true]⟩
  | false =>
    simp only [reductions, below, Bool.false_eq_true, if_false]
    exact reductionsFrom_isOk kind 0 exact above below

theorem listOf_settledAll {kind : String} {spec changed : Fields Json}
    (decoded : listOf spec kind = .ok containers)
    (exact : ∀ c ∈ containers, c.IsExact) (above : factor.isPositive = true)
    (become : ItemsBecome (Shrinks factor) (Fields.get? spec kind) (Fields.get? changed kind)) :
    listOf changed kind = .ok (settledAll factor containers) := by
  rcases listOf_eq_ok.mp decoded with ⟨nothing, rfl⟩ | ⟨items, held, itemwise⟩
  · have none : settledAll factor [] = [] := by
      unfold settledAll
      split <;> rfl
    rw [none, listOf_congr (Fields.get_congr ((itemsBecome_of_null nothing _).mp become)), decoded]
  · rw [Fields.get?_of_get held (by simp)] at become
    obtain ⟨items', heldToo, shrinks⟩ := become
    rw [listOf_eq_ok]
    refine .inr ⟨items', Fields.get_of_get? heldToo, ?_⟩
    cases below : factor.isAtLeastOne with
    | true =>
      rw [settledAll, if_pos below, ← eq_of_shrinks below shrinks]
      exact itemwise
    | false =>
      rw [settledAll, if_neg (by simp [below])]
      exact mapM_ofJson_settled shrinks itemwise exact above below

theorem isExact_settledAll (above : factor.isPositive = true) (exact : ∀ c ∈ containers, c.IsExact) :
    ∀ c ∈ settledAll factor containers, c.IsExact := by
  cases below : factor.isAtLeastOne with
  | true => simpa only [settledAll, below, if_true] using exact
  | false =>
    simp only [settledAll, below, Bool.false_eq_true, if_false, List.mem_map]
    rintro _ ⟨c, member, rfl⟩
    exact isExact_settled (exact c member) above below

/-- Containers that a factor has settled are left alone by the same factor. -/
theorem reductions_settledAll (above : factor.isPositive = true)
    (exact : ∀ c ∈ containers, c.IsExact) :
    reductions kind factor (settledAll factor containers) = .ok [] := by
  cases below : factor.isAtLeastOne with
  | true => simp only [reductions, below, if_true]
  | false =>
    simp only [reductions, settledAll, below, Bool.false_eq_true, if_false]
    apply reductionsFrom_nothing
    simp only [List.mem_map]
    rintro _ ⟨c, member, rfl⟩
    exact reducible?_settled (exact c member) above below

end WorkloadAdmission.Container
