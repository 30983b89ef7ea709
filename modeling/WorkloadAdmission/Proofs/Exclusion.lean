import WorkloadAdmission.Proofs.Consultation

/-! The hosts that an affinity keeps a pod off, as a scheduler reads it. Node affinities are given their
meaning for the operators that look for a label or compare it with some values: a node is admitted if one of
the terms selects it, and a term selects the nodes whose labels meet all its requirements. Under that
reading the affinity of a pod refuses the hosts that are listed for its class and no others, however the
list is ordered and whatever it repeats. -/
namespace WorkloadAdmission

namespace Affinity

/-! ### How a scheduler reads an affinity -/

/-- How a requirement judges the label under its key. Comparisons of numbers are left out. -/
inductive Operator where
  | within
  | notWithin
  | present
  | absent
  deriving DecidableEq

def Operator.ofName? : Text → Option Operator
  | .ofString "In" => some .within
  | .ofString "NotIn" => some .notWithin
  | .ofString "Exists" => some .present
  | .ofString "DoesNotExist" => some .absent
  | _ => none

structure Requirement where
  key : Text
  operator : Operator
  values : List Text
  deriving DecidableEq

/-- Whether the labels of a node meet a requirement. A label that is missing is not within any values. -/
def Requirement.IsMetBy (r : Requirement) (labels : Fields Text) : Prop :=
  match r.operator with
  | .within => ∃ value ∈ r.values, Fields.get? labels r.key = some value
  | .notWithin => ∀ value ∈ r.values, Fields.get? labels r.key ≠ some value
  | .present => (Fields.get? labels r.key).isSome
  | .absent => Fields.get? labels r.key = none

/-- Terms select the nodes that meet all requirements of one of them; a term without any selects none. -/
def Selects (terms : List (List Requirement)) (labels : Fields Text) : Prop :=
  ∃ term ∈ terms, term ≠ [] ∧ ∀ r ∈ term, r.IsMetBy labels

/-- The value of the only field of an object. -/
def sole? (key : Text) : Json → Option Json
  | .obj [(k, v)] => if k = key then some v else none
  | _ => none

/-- A requirement on the label under a key. -/
def requirement? (v : Json) : Option Requirement := do
  let fields ← v.fields?
  let key ← (Fields.get fields "key").text?
  let operator ← (Fields.get fields "operator").text? >>= Operator.ofName?
  let values ← (Fields.get fields "values").items?
  return ⟨key, operator, ← values.mapM Json.text?⟩

/-- The requirements of a term, if it judges nothing but labels. -/
def term? (v : Json) : Option (List Requirement) := do
  (← (← sole? "matchExpressions" v).items?).mapM requirement?

/-- The terms that an affinity requires of nodes, if that is all it asks for. -/
def required? (affinity : Json) : Option (List (List Requirement)) := do
  let rule ← sole? "nodeAffinity" affinity
  let selector ← sole? "requiredDuringSchedulingIgnoredDuringExecution" rule
  (← (← sole? "nodeSelectorTerms" selector).items?).mapM term?

/-- An affinity admits nodes with these labels: it can be read, and its terms select them. -/
def Admits (affinity : Json) (labels : Fields Text) : Prop :=
  ∃ terms, required? affinity = some terms ∧ Selects terms labels

variable {affinity : Json} {labels : Fields Text} {host : Text} {names : List Text} {values : List Json}

theorem mapM_text?_names (names : List Text) : (names.map Json.str).mapM Json.text? = some names := by
  induction names with
  | nil => rfl
  | cons name rest ih => simp [Json.text?, ih]

/-- The affinity that is written has one term with one requirement. -/
theorem required?_excluding (names : List Text) :
    required? (excluding names) = some [[⟨hostnameLabel, .notWithin, names⟩]] := by
  have one : requirement? (.obj [("key", .str hostnameLabel), ("operator", .str "NotIn"),
      ("values", .arr (names.map .str))]) = some ⟨hostnameLabel, .notWithin, names⟩ := by
    -- the list of texts is read by the lemma on it, not item by item
    simp [-List.mapM_map, requirement?, Json.fields?, Fields.get, List.lookup_cons, Json.text?,
      Operator.ofName?, Json.items?, mapM_text?_names]
  simp [required?, excluding, sole?, term?, Json.items?, one]

theorem selects_notWithin (labelled : Fields.get? labels hostnameLabel = some host) :
    Selects [[⟨hostnameLabel, .notWithin, names⟩]] labels ↔ host ∉ names := by
  simp only [Selects, List.mem_singleton, exists_eq_left, ne_eq, List.cons_ne_nil, not_false_eq_true, true_and,
    forall_eq, Requirement.IsMetBy, labelled, Option.some.injEq]
  constructor
  · intro apart member
    exact apart host member rfl
  · rintro apart _ member rfl
    exact apart member

/-- An affinity keeps pods off the listed hosts and no others: its one expression refuses the listed values of
the hostname label, each given once and in ascending order by code point. -/
def KeepsOff (affinity : Json) (listed : List Text) : Prop :=
  ∃ values : List Text, required? affinity = some [[⟨hostnameLabel, .notWithin, values⟩]] ∧
    values.Pairwise (· < ·) ∧ (∀ host, host ∈ values ↔ host ∈ listed) ∧
    ∀ labels host, Fields.get? labels hostnameLabel = some host → (Admits affinity labels ↔ host ∉ listed)

theorem admits_of_required (required : required? affinity = some [[⟨hostnameLabel, .notWithin, names⟩]])
    (labelled : Fields.get? labels hostnameLabel = some host) : Admits affinity labels ↔ host ∉ names := by
  simp only [Admits, required, Option.some.injEq, exists_eq_left', selects_notWithin labelled]

theorem keepsOff_excluding {listed : List Text} (once : names.Nodup)
    (same : ∀ host, host ∈ names ↔ host ∈ listed) :
    KeepsOff (excluding (names.mergeSort fun a b => decide (a ≤ b))) listed := by
  have perm := List.mergeSort_perm names fun a b => decide (a ≤ b)
  have members (host : Text) : (host ∈ names.mergeSort fun a b => decide (a ≤ b)) ↔ host ∈ listed :=
    perm.mem_iff.trans (same host)
  refine ⟨_, required?_excluding _, ?_, members, ?_⟩
  · -- ascending and without repetition is strictly ascending
    refine (pairwise_mergeSort names).imp₂ ?_ (perm.nodup_iff.mpr once)
    intro a b low apart
    exact Text.not_le.mp fun high => apart (Text.le_antisymm low high)
  · intro labels host labelled
    rw [admits_of_required (required?_excluding _) labelled, members]

/-! ### How an affinity is built from values -/

theorem ofHostnames_fails_iff :
    (∃ fault, ofHostnames values = .error fault) ↔ ∃ v ∈ values, ∀ text, v ≠ .str text := by
  rcases ofHostnames_spec values with ⟨names, rfl, built⟩ | ⟨v, member, other, refused⟩
  · constructor
    · rintro ⟨fault, refused⟩
      cases built.symm.trans refused
    · rintro ⟨v, member, other⟩
      obtain ⟨name, -, rfl⟩ := List.mem_map.mp member
      exact absurd rfl (other name)
  · exact ⟨fun _ => ⟨v, member, other⟩, fun _ => ⟨_, refused⟩⟩

theorem required?_ofHostnames (built : ofHostnames values = .ok affinity) :
    ∃ sorted : List Text, required? affinity = some [[⟨hostnameLabel, .notWithin, sorted⟩]] ∧
      sorted.Pairwise (· ≤ ·) ∧ (sorted.map Json.str).Perm values := by
  rcases ofHostnames_spec values with ⟨names, rfl, builtToo⟩ | ⟨v, -, -, refused⟩
  · cases built.symm.trans builtToo
    exact ⟨_, required?_excluding _, pairwise_mergeSort names, (List.mergeSort_perm names _).map _⟩
  · cases built.symm.trans refused

end Affinity

namespace Verdict

/-- A source has a list of hostnames for a class, in its table or under the key of the class. -/
inductive Source.Lists : Source → WorkloadClass → List Text → Prop where
  | table {t : Table} {workload : WorkloadClass} {names : List Text} :
      (t.precluded.lookup workload).getD [] = names.map .str → Lists (.table t) workload names
  | store {keyspace : Text} {s : Store} {workload : WorkloadClass} {names : List Text} :
      s.Holds (keyspace ++ ":preclude:" ++ workload.name) (.arr (names.map .str)) →
        Lists (.store keyspace s) workload names

theorem Source.Lists.tells {source : Source} {workload : WorkloadClass} {names : List Text}
    (listed : source.Lists workload names) : source.Tells workload names.eraseDups := by
  rw [Tells, ← eraseDups_map_str]
  cases listed with
  | table found =>
    rw [← found]
    rfl
  | store held =>
    obtain ⟨-, told, -⟩ := answer_spec (congrArg Reads.outcome (precludedHosts_store _ _ workload))
    rw [heeded, told _ held, hostsOf_names]
    rfl

end Verdict

namespace Pod

variable {names : List Text}

/-- The hosts of a set in whatever order lead to the entry of its names. -/
theorem affinityEntries_of_isSetOf {hosts : List Json} (set : Verdict.IsSetOf names hosts) :
    affinityEntries hosts = .ok (hostEntries names.eraseDups) := by
  obtain ⟨once, members⟩ := set
  obtain ⟨others, rfl⟩ : ∃ others : List Text, hosts = others.map .str := by
    rcases Affinity.names_or_other hosts with found | ⟨before, v, after, rfl, other⟩
    · exact found
    · obtain ⟨name, -, same⟩ := (members v).mp (by simp)
      exact absurd same (other name)
  have same (name : Text) : name ∈ others ↔ name ∈ names.eraseDups := by
    simpa using members (.str name)
  rw [affinityEntries_names, hostEntries_congr (nodup_of_map_str once) (nodup_eraseDups names) same]

theorem hostEntries_of_ne_nil (some : names ≠ []) :
    hostEntries names =
      [.add "/spec/affinity" (Affinity.excluding (names.mergeSort fun a b => decide (a ≤ b)))] := by
  rw [hostEntries, if_neg (by simpa using some)]

/-- The affinity in the patch of a pod of some class, around the other entries that it is made of. -/
theorem patch_listed {pod : Pod} {ns name : Text} {settings : Settings} {source : Verdict.Source}
    (inside : pod.classify ns name ≠ .unclassified) (lists : source.Lists (pod.classify ns name) names) :
    (∃ cause, pod.reductionEntries (settings.cpuFactor (pod.classify ns name)) = .error cause ∧
        (pod.patch ns name settings source).outcome = .error (.arithmetic cause)) ∨
      ∃ patch : Patch, (pod.patch ns name settings source).outcome = .ok (pod.classify ns name, patch) ∧
        patch.entries.filter (·.writesAffinity) = hostEntries names.eraseDups := by
  rw [patch_classified inside lists.tells]
  cases reduced : pod.reductionEntries (settings.cpuFactor (pod.classify ns name)) with
  | error cause => exact .inl ⟨cause, rfl, rfl⟩
  | ok reductions =>
    have apart := writesAffinity_around reduced ns name (pod.classify ns name)
    exact .inr ⟨_, rfl, (filter_affinity names.eraseDups apart).2⟩

/-- The patch of a pod of some class keeps it off the hosts that are listed for the class and no others, and
depends on the list by its members alone: not on how a source orders or repeats them, nor on the order in
which the set of them is gone through. Values that are no names are refused, whatever else is given. -/
theorem affinity_excludes_listed {pod : Pod} {ns name : Text} (settings : Settings) {source : Verdict.Source}
    {listed : List Text} (inside : pod.classify ns name ≠ .unclassified)
    (lists : source.Lists (pod.classify ns name) listed) :
    let workload := pod.classify ns name
    let outcome := (pod.patch ns name settings source).outcome
    ((∃ cause, pod.reductionEntries (settings.cpuFactor workload) = .error cause ∧
        outcome = .error (.arithmetic cause)) ∨
      ∃ patch : Patch, outcome = .ok (workload, patch) ∧
        (listed = [] → patch.entries.filter (·.writesAffinity) = []) ∧
        (listed ≠ [] → ∃ affinity, Affinity.KeepsOff affinity listed ∧
          patch.entries.filter (·.writesAffinity) = [.add "/spec/affinity" affinity]) ∧
        ∀ hosts, Verdict.IsSetOf listed hosts →
          affinityEntries hosts = .ok (patch.entries.filter (·.writesAffinity))) ∧
    (∀ (other : Verdict.Source) (relisted : List Text), other.Lists workload relisted →
      (∀ host, host ∈ relisted ↔ host ∈ listed) → (pod.patch ns name settings other).outcome = outcome) ∧
    ∀ values : List Json,
      ((∃ fault, Affinity.ofHostnames values = .error fault) ↔ ∃ v ∈ values, ∀ text, v ≠ .str text) ∧
      ∀ affinity, Affinity.ofHostnames values = .ok affinity → ∃ sorted : List Text,
        Affinity.required? affinity = some [[⟨Affinity.hostnameLabel, .notWithin, sorted⟩]] ∧
        sorted.Pairwise (· ≤ ·) ∧ (sorted.map Json.str).Perm values := by
  intro workload outcome
  refine ⟨?_, ?_, ?_⟩
  · rcases patch_listed inside lists with failed | ⟨patch, planned, written⟩
    · exact .inl failed
    · refine .inr ⟨patch, planned, ?_, ?_, ?_⟩
      · rintro rfl
        rw [written]
        rfl
      · intro some
        have left : listed.eraseDups ≠ [] := by
          obtain ⟨host, member⟩ := List.exists_mem_of_ne_nil listed some
          exact List.ne_nil_of_mem (List.mem_eraseDups.mpr member)
        refine ⟨_, Affinity.keepsOff_excluding (nodup_eraseDups listed) fun host => List.mem_eraseDups, ?_⟩
        rw [written, hostEntries_of_ne_nil left]
      · intro hosts set
        rw [written, affinityEntries_of_isSetOf set]
  · intro other relisted listsToo same
    refine patch_congr listsToo.tells lists.tells ?_ settings
    simpa using same
  · intro values
    exact ⟨Affinity.ofHostnames_fails_iff, fun _ => Affinity.required?_ofHostnames⟩

/-- A list in a store, out of order and with a name twice, and the same hosts in a table. -/
theorem affinity_excludes_listed_twice :
    let s : Store := ⟨[("ci:preclude:tests", "[\"b\", \"a\", \"b\"]".toUTF8)], true⟩
    let table : Verdict.Table := ⟨[(.tests, [.str "a", .str "b"])], []⟩
    let pod : Pod := ⟨"e2e", "ci-op-x", none, none, [], []⟩
    let outcome := (pod.patch "ci-op-x" "e2e" .default (.store "ci" s)).outcome
    (∃ patch : Patch, outcome = .ok (.tests, patch) ∧ ∃ affinity, Affinity.KeepsOff affinity ["b", "a", "b"] ∧
        patch.entries.filter (·.writesAffinity) = [.add "/spec/affinity" affinity]) ∧
      (pod.patch "ci-op-x" "e2e" .default (.table table)).outcome = outcome ∧
      ∃ fault, Affinity.ofHostnames [.str "a", .int 42] = .error fault := by
  intro s table pod outcome
  have tests : pod.classify "ci-op-x" "e2e" = .tests := by decide +kernel
  have stored : Verdict.Source.Lists (.store "ci" s) (pod.classify "ci-op-x" "e2e") ["b", "a", "b"] := by
    rw [tests]
    exact .store ⟨rfl, _, rfl, by decide +kernel⟩
  have tabled : Verdict.Source.Lists (.table table) (pod.classify "ci-op-x" "e2e") ["a", "b"] := by
    rw [tests]
    exact .table rfl
  obtain ⟨made, same, values⟩ := affinity_excludes_listed .default (by rw [tests]; decide) stored
  refine ⟨?_, same _ _ tabled (by simp [or_comm]), (values _).1.mpr ⟨.int 42, by simp, by simp⟩⟩
  rcases made with ⟨cause, failed, -⟩ | ⟨patch, planned, -, kept, -⟩
  · cases failed
  · rw [tests] at planned
    exact ⟨patch, planned, kept (by decide)⟩

end Pod
end WorkloadAdmission
