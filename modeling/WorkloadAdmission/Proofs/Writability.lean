import WorkloadAdmission.Proofs.FailOpen
import WorkloadAdmission.Proofs.Magnitude

/-! When the patch of a decoded pod can be written. All of its entries but the ones that shrink requests
hold texts, so what stands in the way is in a container whose CPU request is reduced: a result that is
too long, or another request with a number that JSON has no text for. -/
namespace WorkloadAdmission

namespace Json

theorem haveFinite_eq_all (fields : Fields Json) : haveFinite fields = fields.all fun (_, v) => v.isFinite := by
  induction fields with
  | nil => rfl
  | cons field rest ih =>
    obtain ⟨key, v⟩ := field
    rw [haveFinite, ih, List.all_cons]

theorem isFinite_textsToJson (texts : Fields Text) : (Fields.textsToJson texts).isFinite = true := by
  rw [Fields.textsToJson, isFinite, haveFinite_eq_all, List.all_map, List.all_eq_true]
  intro field _
  rfl

end Json

/-- A count with more digits than are written. -/
def IsOverlong (r : Int) : Prop := maxDigits < Number.decimalLength r.natAbs

theorem integerText_of_isOverlong {r : Int} (long : IsOverlong r) :
    integerText r = .error .tooManyDigits := if_pos long

theorem integerText_of_not_isOverlong {r : Int} (short : ¬ IsOverlong r) :
    integerText r = .ok (toString r) := if_neg short

namespace Container

/-- A factor below one reduces the CPU request of a container to so many millicores. -/
def ReducesTo (factor : Binary64) (c : Container) (r : Int) : Prop :=
  factor.isAtLeastOne = false ∧
    ∃ millis, c.reducible? = some millis ∧ reducedMillis millis factor = .ok r

/-- A request beside the one for CPU holds a number that is not finite. -/
def RequestsInfinite (c : Container) : Prop :=
  ∃ key v, (key, v) ∈ c.requests ∧ key ≠ "cpu" ∧ v.isFinite = false

/-- The CPU request of a container is reduced, but the requests that result cannot be written. -/
def IsUnwritable (factor : Binary64) (c : Container) : Prop :=
  ∃ r, c.ReducesTo factor r ∧ (IsOverlong r ∨ c.RequestsInfinite)

variable {c : Container} {factor : Binary64} {r : Int} {containers : List Container}

theorem ReducesTo.unique {r' : Int} (reduces : c.ReducesTo factor r) (reducesToo : c.ReducesTo factor r') :
    r = r' := by
  obtain ⟨-, millis, reducible, reduced⟩ := reduces
  obtain ⟨-, millis', reducible', reduced'⟩ := reducesToo
  cases reducible.symm.trans reducible'
  cases reduced.symm.trans reduced'
  rfl

theorem isFinite_requestsWith (count : String) :
    (Json.obj (c.requestsWith count)).isFinite = true ↔ ¬ c.RequestsInfinite := by
  have others : (Json.obj (c.requestsWith count)).isFinite =
      c.requests.all fun (key, v) => decide (key = "cpu") || v.isFinite := by
    have text : (Json.str (count ++ "m" : String)).isFinite = true := by rfl
    rw [requestsWith, Json.isFinite, Json.haveFinite, text, Bool.true_and, Json.haveFinite_eq_all,
      Fields.erase, List.all_filter]
    simp
  simp only [others, List.all_eq_true, Bool.or_eq_true, decide_eq_true_eq, RequestsInfinite,
    not_exists, not_and, Bool.not_eq_false]
  constructor
  · intro finite key v member apart
    exact (finite (key, v) member).resolve_left apart
  · rintro finite ⟨key, v⟩ member
    exact or_iff_not_imp_left.mpr (finite key v member)

/-- A counted container is not reduced, or is reduced to a count that is too long, or gets an entry. -/
theorem reduction_cases (counted : c.IsCounted) (above : factor.isPositive = true)
    (below : factor.isAtLeastOne = false) (kind : Text) (index : Nat) :
    (reduction kind factor index c = .ok none ∧ ∀ r, ¬ c.ReducesTo factor r) ∨
      ∃ r, c.ReducesTo factor r ∧
        ((IsOverlong r ∧ reduction kind factor index c = .error .tooManyDigits) ∨
          (¬ IsOverlong r ∧ reduction kind factor index c =
            .ok (some (.add (requestsPath kind index) (.obj (c.requestsWith (toString r))))))) := by
  cases reducible : c.reducible? with
  | none =>
    refine .inl ⟨?_, ?_⟩
    · rw [reduction, reducible]
      rfl
    · rintro r ⟨-, millis, held, -⟩
      rw [reducible] at held
      cases held
  | some millis =>
    obtain ⟨held, positive, -⟩ := reducible?_eq_some.mp reducible
    obtain ⟨r, reduced⟩ := reducedMillis_isOk positive (counted millis held) above below
    refine .inr ⟨r, ⟨below, millis, reducible, reduced⟩, ?_⟩
    rw [reduction, reducible, Option.mapM_some, reduced, Fallible.ok_bind]
    by_cases long : IsOverlong r
    · refine .inl ⟨long, ?_⟩
      rw [integerText_of_isOverlong long]
      rfl
    · refine .inr ⟨long, ?_⟩
      rw [integerText_of_not_isOverlong long]
      rfl

theorem reduction_eq_error_iff {cause : ArithmeticFault} (counted : c.IsCounted) (above : factor.isPositive = true)
    (below : factor.isAtLeastOne = false) (kind : Text) (index : Nat) :
    reduction kind factor index c = .error cause ↔
      cause = .tooManyDigits ∧ ∃ r, c.ReducesTo factor r ∧ IsOverlong r := by
  rcases reduction_cases counted above below kind index with
    ⟨spared, never⟩ | ⟨r, reduces, ⟨long, fails⟩ | ⟨short, written⟩⟩
  · rw [spared]
    exact iff_of_false (fun fails => by cases fails) (fun ⟨_, r, reduces, _⟩ => never r reduces)
  · rw [fails, Except.error.injEq]
    exact ⟨fun same => ⟨same.symm, r, reduces, long⟩, fun ⟨same, _⟩ => same.symm⟩
  · rw [written]
    refine iff_of_false (fun fails => by cases fails) ?_
    rintro ⟨-, r', reducesToo, long⟩
    cases reduces.unique reducesToo
    exact short long

/-- A count that cannot be written is all that can stand in the way of shrinking counted containers. -/
theorem reductionsFrom_eq_error_iff {cause : ArithmeticFault} (counted : ∀ c ∈ containers, c.IsCounted)
    (above : factor.isPositive = true) (below : factor.isAtLeastOne = false) (kind : Text) (index : Nat) :
    reductionsFrom kind factor index containers = .error cause ↔
      cause = .tooManyDigits ∧ ∃ c ∈ containers, ∃ r, c.ReducesTo factor r ∧ IsOverlong r := by
  induction containers generalizing index with
  | nil => simp [reductionsFrom]
  | cons c rest ih =>
    obtain ⟨countedHere, countedThere⟩ := List.forall_mem_cons.mp counted
    have there := ih countedThere (index + 1)
    rw [reductionsFrom, Fallible.bind_eq_error, reduction_eq_error_iff countedHere above below]
    simp only [Fallible.bind_eq_error, there, List.exists_mem_cons_iff]
    constructor
    · rintro (⟨fault, here⟩ | ⟨entry, -, ⟨fault, later⟩ | ⟨entries, -, none⟩⟩)
      · exact ⟨fault, .inl here⟩
      · exact ⟨fault, .inr later⟩
      · cases none
    · rintro ⟨fault, here | later⟩
      · exact .inl ⟨fault, here⟩
      · cases first : reduction kind factor index c with
        | ok entry => exact .inr ⟨entry, rfl, .inl ⟨fault, later⟩⟩
        | error cause' =>
          exact .inl ⟨fault, ((reduction_eq_error_iff countedHere above below kind index).mp first).2⟩

theorem reductions_eq_error_iff {cause : ArithmeticFault} (counted : ∀ c ∈ containers, c.IsCounted)
    (above : factor.isPositive = true) (kind : Text) :
    reductions kind factor containers = .error cause ↔
      cause = .tooManyDigits ∧ ∃ c ∈ containers, ∃ r, c.ReducesTo factor r ∧ IsOverlong r := by
  cases below : factor.isAtLeastOne with
  | false =>
    rw [reductions, below, if_neg (by decide)]
    exact reductionsFrom_eq_error_iff counted above below kind 0
  | true =>
    rw [reductions, below, if_pos rfl]
    refine iff_of_false (fun fails => by cases fails) ?_
    rintro ⟨-, c, -, r, ⟨notBelow, -⟩, -⟩
    rw [below] at notBelow
    cases notBelow

theorem reduction_writable_iff (counted : c.IsCounted) (above : factor.isPositive = true)
    (below : factor.isAtLeastOne = false) (kind : Text) (index : Nat) :
    (∃ entry : Option Patch.Entry, reduction kind factor index c = .ok entry ∧
      entry.toList.all (·.value.isFinite) = true) ↔ ¬ c.IsUnwritable factor := by
  rcases reduction_cases counted above below kind index with
    ⟨spared, never⟩ | ⟨r, reduces, ⟨long, fails⟩ | ⟨short, written⟩⟩
  · constructor
    · rintro - ⟨r, reduces, -⟩
      exact never r reduces
    · intro _
      exact ⟨none, spared, rfl⟩
  · constructor
    · rintro ⟨entry, found, -⟩
      rw [fails] at found
      cases found
    · intro writable
      exact absurd ⟨r, reduces, .inl long⟩ writable
  · constructor
    · rintro ⟨entry, found, finite⟩ ⟨r', reducesToo, cause⟩
      rw [written] at found
      cases found
      cases reduces.unique reducesToo
      have noneInfinite : ¬ c.RequestsInfinite :=
        (isFinite_requestsWith (toString r)).mp (by simpa [Patch.Entry.add] using finite)
      rcases cause with long | infinite
      · exact short long
      · exact noneInfinite infinite
    · intro writable
      have finite := (isFinite_requestsWith (toString r)).mpr
        fun infinite => writable ⟨r, reduces, .inr infinite⟩
      exact ⟨_, written, by simpa [Patch.Entry.add] using finite⟩

/-- The entries that shrink counted containers can be written unless one of these cannot. -/
theorem reductionsFrom_writable_iff (counted : ∀ c ∈ containers, c.IsCounted)
    (above : factor.isPositive = true) (below : factor.isAtLeastOne = false) (kind : Text)
    (index : Nat) :
    (∃ entries, reductionsFrom kind factor index containers = .ok entries ∧
      entries.all (·.value.isFinite) = true) ↔ ∀ c ∈ containers, ¬ c.IsUnwritable factor := by
  induction containers generalizing index with
  | nil => simp [reductionsFrom]
  | cons c rest ih =>
    obtain ⟨countedHere, countedThere⟩ := List.forall_mem_cons.mp counted
    have here := reduction_writable_iff countedHere above below kind index
    have there := ih countedThere (index + 1)
    rw [List.forall_mem_cons, ← here, ← there]
    simp only [reductionsFrom, Fallible.bind_eq_ok, Fallible.pure_eq_ok]
    constructor
    · rintro ⟨_, ⟨entry, first, entries, remaining, rfl⟩, finite⟩
      rw [List.all_append, Bool.and_eq_true] at finite
      exact ⟨⟨entry, first, finite.1⟩, ⟨entries, remaining, finite.2⟩⟩
    · rintro ⟨⟨entry, first, finite⟩, ⟨entries, remaining, finiteToo⟩⟩
      refine ⟨_, ⟨entry, first, entries, remaining, rfl⟩, ?_⟩
      rw [List.all_append, finite, finiteToo]
      rfl

theorem reductions_writable_iff (counted : ∀ c ∈ containers, c.IsCounted)
    (above : factor.isPositive = true) (kind : Text) :
    (∃ entries, reductions kind factor containers = .ok entries ∧
      entries.all (·.value.isFinite) = true) ↔ ∀ c ∈ containers, ¬ c.IsUnwritable factor := by
  cases below : factor.isAtLeastOne with
  | false =>
    simp only [reductions, below, Bool.false_eq_true, if_false]
    exact reductionsFrom_writable_iff counted above below kind 0
  | true =>
    simp only [reductions, below, if_true]
    constructor
    · rintro - c - ⟨r, ⟨notBelow, -⟩, -⟩
      rw [below] at notBelow
      cases notBelow
    · intro _
      exact ⟨[], rfl, rfl⟩

end Container

namespace Pod

variable {pod : Pod} {ns name : Text} {settings : Settings} {keyspace : Text} {s : Store}
  {factor : Binary64}

/-- Every CPU request of a pod is in range. -/
def IsCounted (pod : Pod) : Prop := ∀ c ∈ pod.initContainers ++ pod.containers, c.IsCounted

theorem isCounted_of_listOf {spec : Fields Json} {kind : String} {containers : List Container}
    (decoded : Container.listOf spec kind = .ok containers) : ∀ c ∈ containers, c.IsCounted := by
  rcases Container.listOf_eq_ok.mp decoded with ⟨-, rfl⟩ | ⟨items, -, itemwise⟩
  · simp
  · clear decoded
    induction items generalizing containers with
    | nil =>
      cases itemwise
      simp
    | cons item rest ih =>
      obtain ⟨c, others, first, remaining, rfl⟩ := Fallible.mapM_cons_eq_ok.mp itemwise
      rw [List.forall_mem_cons]
      exact ⟨Container.isCounted_of_ofJson first, ih remaining⟩

theorem isCounted_of_ofJson {document : Json} (decoded : ofJson document = .ok pod) : pod.IsCounted := by
  cases document with
  | obj fields =>
    simp only [ofJson, Fallible.bind_eq_ok, Fallible.pure_eq_ok] at decoded
    obtain ⟨labels, -, annotations, -, first, begins, second, follows, rfl⟩ := decoded
    rw [IsCounted, List.forall_mem_append]
    exact ⟨isCounted_of_listOf begins, isCounted_of_listOf follows⟩
  | null | bool | int | float | str | arr => cases decoded

theorem reductionEntries_writable_iff (counted : pod.IsCounted) (above : factor.isPositive = true) :
    (∃ entries, pod.reductionEntries factor = .ok entries ∧ entries.all (·.value.isFinite) = true) ↔
      ∀ c ∈ pod.initContainers ++ pod.containers, ¬ c.IsUnwritable factor := by
  obtain ⟨countedFirst, countedSecond⟩ := List.forall_mem_append.mp counted
  have first := Container.reductions_writable_iff countedFirst above "initContainers"
  have second := Container.reductions_writable_iff countedSecond above "containers"
  rw [List.forall_mem_append, ← first, ← second]
  simp only [reductionEntries, Fallible.bind_eq_ok, Fallible.pure_eq_ok]
  constructor
  · rintro ⟨_, ⟨before, begins, after, follows, rfl⟩, finite⟩
    rw [List.all_append, Bool.and_eq_true] at finite
    exact ⟨⟨before, begins, finite.1⟩, ⟨after, follows, finite.2⟩⟩
  · rintro ⟨⟨before, begins, finite⟩, ⟨after, follows, finiteToo⟩⟩
    refine ⟨_, ⟨before, begins, after, follows, rfl⟩, ?_⟩
    rw [List.all_append, finite, finiteToo]
    rfl

/-- Texts are all that the other entries hold. -/
theorem isFinite_standing (pod : Pod) (ns name : Text) (workload : WorkloadClass) :
    (pod.evictionEntries ns name).all (·.value.isFinite) = true ∧
      (poolEntries workload).all (·.value.isFinite) = true ∧
      (pod.labelEntries workload ns).all (·.value.isFinite) = true := by
  refine ⟨?_, rfl, ?_⟩
  · unfold evictionEntries
    split
    · simp [Patch.Entry.add, Json.isFinite_textsToJson]
    · rfl
  · simp [labelEntries, Patch.Entry.add, Json.isFinite_textsToJson]

/-- The patch of a pod under a store can be written unless the pod has a class and one of its
containers is reduced to requests that cannot be written. -/
theorem patch_writable_iff (counted : pod.IsCounted) (positive : settings.HasPositiveFactors) :
    (∃ workload patch, (pod.patch ns name settings (.store keyspace s)).outcome = .ok (workload, patch) ∧
      patch.toJson.isFinite = true) ↔
    (pod.classify ns name ≠ .unclassified → ∀ c ∈ pod.initContainers ++ pod.containers,
      ¬ c.IsUnwritable (settings.cpuFactor (pod.classify ns name))) := by
  obtain ⟨eviction, pool, labels⟩ := pod.isFinite_standing ns name (pod.classify ns name)
  by_cases outside : pod.classify ns name = .unclassified
  · rw [patch_unclassified outside]
    constructor
    · intro _ inside
      exact absurd outside inside
    · intro _
      exact ⟨_, _, rfl, (Patch.isFinite_toJson _).trans eviction⟩
  · rw [patch_classified outside (Verdict.tells_store keyspace s _), imp_iff_right outside,
      ← reductionEntries_writable_iff counted (positive.cpuFactor _)]
    simp only [Fallible.map_eq_ok, Fallible.mapError_eq_ok]
    constructor
    · rintro ⟨workload, patch, ⟨reductions, reduced, same⟩, finite⟩
      cases same
      rw [Patch.isFinite_toJson] at finite
      simp only [List.all_append, Bool.and_eq_true] at finite
      exact ⟨reductions, reduced, finite.1.1.1.2⟩
    · rintro ⟨reductions, reduced, finite⟩
      refine ⟨_, _, ⟨reductions, reduced, rfl⟩, ?_⟩
      rw [Patch.isFinite_toJson]
      simp only [List.all_append, eviction, finite, pool, isFinite_hostEntries, labels, Bool.and_true]

end Pod
end WorkloadAdmission
