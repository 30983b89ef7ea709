import WorkloadAdmission.Proofs.FailOpen
import WorkloadAdmission.Proofs.Taints

/-! A store in which a table of verdicts has been published. Each verdict stands under a key of its
own, and no other key looks like one of a class or node. A list of hostnames may be published in any
order and with repetitions, since only its members are heeded. So pods and nodes are admitted under
the store as they are under the table itself. -/
namespace WorkloadAdmission

namespace Store

variable {s : Store} {key : Text} {document : ByteArray} {v : Json}

theorem read_of_document (reachable : s.reachable = true)
    (held : Fields.get? s.documents key = some document) (decoded : Json.ofBytes? document = some v) :
    s.read key = .ok (some v) := by
  simp only [read, reachable, Bool.not_true, Bool.false_eq_true, if_false, held, decoded]

theorem read_of_none (reachable : s.reachable = true) (missing : Fields.get? s.documents key = none) :
    s.read key = .ok none := by
  simp only [read, reachable, Bool.not_true, Bool.false_eq_true, if_false, missing]

end Store

theorem WorkloadClass.name_injective : Function.Injective name := by
  intro first second
  cases first <;> cases second <;> decide

namespace Verdict

/-- The table of verdicts on some classes, by sets of hostnames, and on some nodes. -/
def Table.ofNames (precluded : List (WorkloadClass × List Text))
    (avoidance : List (Text × Avoidance)) : Table :=
  ⟨precluded.map fun (workload, names) => (workload, names.map .str), avoidance⟩

/-- A store that can be reached holds a text of every verdict under the key of its class or node, and
nothing under any other key of that kind. A list of hostnames is published by its members. -/
structure Publishes (keyspace : Text) (s : Store) (precluded : List (WorkloadClass × List Text))
    (avoidance : List (Text × Avoidance)) : Prop where
  reachable : s.reachable = true
  class_document : ∀ workload names, precluded.lookup workload = some names →
    ∃ document, ∃ told : List Text,
      Fields.get? s.documents (keyspace ++ ":preclude:" ++ workload.name) = some document ∧
      Json.ofBytes? document = some (.arr (told.map .str)) ∧ ∀ name, name ∈ told ↔ name ∈ names
  node_document : ∀ node state, avoidance.lookup node = some state →
    ∃ document, Fields.get? s.documents (keyspace ++ ":avoidance:" ++ node) = some document ∧
      Json.ofBytes? document = some (.str state.name)
  class_listed : ∀ behind, (Fields.get? s.documents (keyspace ++ ":preclude:" ++ behind)).isSome →
    ∃ workload, workload.name = behind ∧ (precluded.lookup workload).isSome
  node_listed : ∀ behind, (Fields.get? s.documents (keyspace ++ ":avoidance:" ++ behind)).isSome →
    (avoidance.lookup behind).isSome

variable {keyspace : Text} {s : Store} {precluded : List (WorkloadClass × List Text)}
  {avoidance : List (Text × Avoidance)}

theorem lookup_ofNames (workload : WorkloadClass) :
    (Table.ofNames precluded avoidance).precluded.lookup workload =
      (precluded.lookup workload).map fun names => names.map .str := by
  induction precluded with
  | nil => rfl
  | cons listed rest ih =>
    obtain ⟨other, names⟩ := listed
    simp only [Table.ofNames, List.map_cons, List.lookup_cons] at ih ⊢
    split
    · rfl
    · exact ih

/-- The names that a table of verdicts tells of a class. -/
theorem tells_table (workload : WorkloadClass) :
    Source.Tells (.table (.ofNames precluded avoidance)) workload
      ((precluded.lookup workload).getD []).eraseDups := by
  have told : ((precluded.lookup workload).map fun names => names.map Json.str).getD [] =
      ((precluded.lookup workload).getD []).map .str := by
    cases precluded.lookup workload with
    | none => rfl
    | some names => rfl
  rw [Source.Tells, ← eraseDups_map_str, ← told, ← lookup_ofNames]
  rfl

/-- What is read of a class has the members that the table lists for it. -/
theorem Publishes.mem_hostnamesIn (published : Publishes keyspace s precluded avoidance)
    (workload : WorkloadClass) (name : Text) :
    name ∈ hostnamesIn (s.read (keyspace ++ ":preclude:" ++ workload.name)) ↔
      name ∈ ((precluded.lookup workload).getD []).eraseDups := by
  rw [List.mem_eraseDups]
  cases listed : precluded.lookup workload with
  | some names =>
    obtain ⟨document, told, held, decoded, same⟩ := published.class_document workload names listed
    rw [Store.read_of_document published.reachable held decoded, hostnamesIn_names, List.mem_eraseDups, same]
    rfl
  | none =>
    have missing : Fields.get? s.documents (keyspace ++ ":preclude:" ++ workload.name) = none := by
      rw [← Option.not_isSome_iff_eq_none]
      intro held
      obtain ⟨other, named, otherListed⟩ := published.class_listed _ held
      rw [WorkloadClass.name_injective named, listed] at otherListed
      cases otherListed
    rw [Store.read_of_none published.reachable missing]
    rfl

/-- What is read of a node is the state that the table lists for it. -/
theorem Publishes.avoidance_eq (published : Publishes keyspace s precluded avoidance) (node : Text) :
    (Source.avoidance (.store keyspace s) node).outcome = .ok (avoidance.lookup node) := by
  rw [avoidance_store]
  cases listed : avoidance.lookup node with
  | some state =>
    obtain ⟨document, held, decoded⟩ := published.node_document node state listed
    rw [Store.read_of_document published.reachable held decoded]
    cases state with
    | off => rfl
    | preferNoSchedule => rfl
    | noSchedule => rfl
  | none =>
    have missing : Fields.get? s.documents (keyspace ++ ":avoidance:" ++ node) = none := by
      rw [← Option.not_isSome_iff_eq_none]
      intro held
      have otherListed := published.node_listed _ held
      rw [listed] at otherListed
      cases otherListed
    rw [Store.read_of_none published.reachable missing]
    rfl

end Verdict

/-- A pod's patch depends on its source by the members of what that tells of one class. -/
theorem Pod.patch_congr {pod : Pod} {ns name : Text} {source other : Verdict.Source}
    {names others : List Text} (told : source.Tells (pod.classify ns name) names)
    (toldToo : other.Tells (pod.classify ns name) others)
    (same : ∀ name, name ∈ names ↔ name ∈ others) (settings : Settings) :
    (pod.patch ns name settings source).outcome = (pod.patch ns name settings other).outcome := by
  by_cases outside : pod.classify ns name = .unclassified
  · rw [patch_unclassified outside, patch_unclassified outside]
  · rw [patch_classified outside told, patch_classified outside toldToo,
      hostEntries_congr told.nodup toldToo.nodup same]

/-- The plan for a node depends on its source by what that tells of the node. -/
theorem Node.patch_congr {node : Node} {source other : Verdict.Source}
    (same : (source.avoidance node.name).outcome = (other.avoidance node.name).outcome) :
    (node.patch source).outcome = (node.patch other).outcome := by
  rw [patch_outcome, patch_outcome, Verdict.Source.heededState, Verdict.Source.heededState, same]

namespace Verdict

variable {keyspace : Text} {s : Store} {precluded : List (WorkloadClass × List Text)}
  {avoidance : List (Text × Avoidance)}

/-- A table and a store in which it has been published lead to the same patch or fault for every pod,
and to the same plan for every node. -/
theorem sources_agree (published : Publishes keyspace s precluded avoidance) :
    (∀ (pod : Pod) (ns name : Text) (settings : Settings),
      (pod.patch ns name settings (.store keyspace s)).outcome =
        (pod.patch ns name settings (.table (.ofNames precluded avoidance))).outcome) ∧
    ∀ node : Node, (node.patch (.store keyspace s)).outcome =
      (node.patch (.table (.ofNames precluded avoidance))).outcome := by
  constructor
  · intro pod ns name settings
    exact Pod.patch_congr (tells_store keyspace s _) (tells_table _) (published.mem_hostnamesIn _) settings
  · intro node
    exact Node.patch_congr (published.avoidance_eq node.name)

/-- A list that is published backwards and twice, and a node whose name holds a colon. -/
theorem sources_agree_reordered :
    let s : Store := ⟨[("ci:preclude:tests", "[\"b\", \"a\", \"b\"]".toUTF8),
      ("ci:avoidance:n:1", "\"NoSchedule\"".toUTF8), ("ci:other", "[".toUTF8)], true⟩
    let precluded : List (WorkloadClass × List Text) := [(.tests, ["a", "b"])]
    let avoidance : List (Text × Avoidance) := [("n:1", .noSchedule)]
    let pod : Pod := ⟨"e2e", "ci-op-x", none, none, [], []⟩
    let node : Node := ⟨"n:1", some [("ci-workload", "tests")], []⟩
    Publishes "ci" s precluded avoidance ∧
      (pod.patch "ci-op-x" "e2e" .default (.store "ci" s)).outcome =
        (pod.patch "ci-op-x" "e2e" .default (.table (.ofNames precluded avoidance))).outcome ∧
      (node.patch (.store "ci" s)).outcome = (node.patch (.table (.ofNames precluded avoidance))).outcome := by
  intro s precluded avoidance pod node
  have published : Publishes "ci" s precluded avoidance := by
    refine ⟨rfl, ?_, ?_, ?_, ?_⟩
    · intro workload names listed
      cases workload <;> cases listed
      exact ⟨_, ["b", "a", "b"], rfl, by decide +kernel, by simp [or_comm]⟩
    · intro other state listed
      simp only [avoidance, List.lookup_cons, List.lookup_nil] at listed
      split at listed
      next same =>
        cases listed
        rw [eq_of_beq same]
        exact ⟨_, rfl, by decide +kernel⟩
      next => cases listed
    · intro behind held
      have key := Fields.get?_isSome_iff.mp held
      simp only [s, List.map_cons, List.map_nil, List.mem_cons, List.not_mem_nil, or_false,
        ← Text.points_inj] at key
      have tests : behind = "tests" := by simpa [← Text.points_inj] using key
      exact ⟨.tests, tests.symm, rfl⟩
    · intro behind held
      have key := Fields.get?_isSome_iff.mp held
      simp only [s, List.map_cons, List.map_nil, List.mem_cons, List.not_mem_nil, or_false,
        ← Text.points_inj] at key
      have colon : behind = "n:1" := by simpa [← Text.points_inj] using key
      rw [colon]
      rfl
  obtain ⟨pods, nodes⟩ := sources_agree published
  exact ⟨published, pods pod "ci-op-x" "e2e" .default, nodes node⟩

end Verdict
end WorkloadAdmission
