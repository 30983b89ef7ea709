import WorkloadAdmission.Proofs.Reordering

/-! The patch of a pod as a whole. Each of its parts writes below a field of its own, and the entries of
one part write the requests of different containers, so the paths of all entries part and their order
does not matter. Wherever the class of the pod is written, it is the one that the pod is found of. -/
namespace WorkloadAdmission

namespace Patch

variable {part name part' name' path : Text} {rest : List Text} {entries : List Entry}

theorem endsInName_of_getLast? {path : List Text} (last : path.getLast? = some name) (named : IsName name) :
    EndsInName path := by
  intro other other'
  cases last.symm.trans other'
  exact named

/-- An entry adds a field at or below a field of a part of a document. -/
def Entry.AddsUnder (e : Entry) (place : Text × Text) : Prop :=
  e.op = "add" ∧ ∃ rest, Pointer.segments? e.path = some (place.1 :: place.2 :: rest) ∧
    EndsInName (place.1 :: place.2 :: rest)

theorem Entry.addsUnder_add (leads : Pointer.segments? path = some [part, name]) (named : IsName name)
    (value : Json) : (Entry.add path value).AddsUnder (part, name) :=
  ⟨rfl, [], leads, endsInName_of_getLast? rfl named⟩

theorem Entry.AddsUnder.addsField {e : Entry} {place : Text × Text} (under : e.AddsUnder place) :
    e.AddsField := by
  obtain ⟨adds, rest, leads, ends⟩ := under
  exact ⟨adds, _, leads, ends⟩

/-- Entries below different fields part. -/
theorem Entry.AddsUnder.apart {e e' : Entry} {place place' : Text × Text} (under : e.AddsUnder place)
    (under' : e'.AddsUnder place') (differ : place ≠ place') : e.Apart e' := by
  obtain ⟨-, rest, leads, -⟩ := under
  obtain ⟨-, rest', leads', -⟩ := under'
  refine ⟨_, _, leads, leads', ?_, ?_⟩
  · simp only [List.cons_prefix_cons]
    rintro ⟨first, second, -⟩
    exact differ (Prod.ext first second)
  · simp only [List.cons_prefix_cons]
    rintro ⟨first, second, -⟩
    exact differ (Prod.ext first.symm second.symm)

/-- Parts of a patch below different fields. -/
theorem pairwise_apart_of_addsUnder {parts : List ((Text × Text) × List Entry)}
    (differ : (parts.map Prod.fst).Nodup) (under : ∀ p ∈ parts, ∀ e ∈ p.2, e.AddsUnder p.1)
    (each : ∀ p ∈ parts, p.2.Pairwise Entry.Apart) : (parts.flatMap Prod.snd).Pairwise Entry.Apart := by
  rw [List.flatMap_def, List.pairwise_flatten, List.forall_mem_map, List.pairwise_map]
  refine ⟨each, ?_⟩
  have places : parts.Pairwise fun p p' => p.1 ≠ p'.1 := List.pairwise_map.mp differ
  refine places.imp_of_mem fun {p p'} member member' other => ?_
  intro e inside e' inside'
  exact (under p member e inside).apart (under p' member' e' inside') other

end Patch

/-! ### Requests -/

namespace Container

variable {kind : Text} {factor : Binary64} {containers : List Container} {entries : List Patch.Entry}

/-- The entry that shrinks the request of the container at a position. -/
def ShrunkAt (kind : Text) (factor : Binary64) (containers : List Container) (i : Nat) (e : Patch.Entry) :
    Prop :=
  ∃ c millis r, containers[i]? = some c ∧ c.reducible? = some millis ∧ reducedMillis millis factor = .ok r ∧
    e = .add (requestsPath kind i) (.obj (c.requestsWith (toString r)))

/-- The container at a position has something to shrink. -/
def ReducibleAt (containers : List Container) (i : Nat) : Prop :=
  ∃ c ∈ containers[i]?, c.reducible?.isSome

/-- Entries that shrink containers in the order of their positions, one for each container that has
something to shrink. -/
def ShrunkInOrder (kind : Text) (factor : Binary64) (containers : List Container)
    (entries : List Patch.Entry) : Prop :=
  ∃ positions : List Nat, positions.Pairwise (· < ·) ∧
    (∀ i, i ∈ positions ↔ factor.isAtLeastOne = false ∧ ReducibleAt containers i) ∧
    List.Forall₂ (ShrunkAt kind factor containers) positions entries

theorem reducibleAt_from_iff {c : Container} {start i : Nat} (held : containers[start]? = some c) :
    start ≤ i ∧ ReducibleAt containers i ↔
      (i = start ∧ c.reducible?.isSome) ∨ (start + 1 ≤ i ∧ ReducibleAt containers i) := by
  constructor
  · rintro ⟨least, shrinks⟩
    rcases Nat.eq_or_lt_of_le least with rfl | behind
    · obtain ⟨c', held', some⟩ := shrinks
      cases held.symm.trans held'
      exact .inl ⟨rfl, some⟩
    · exact .inr ⟨behind, shrinks⟩
  · rintro (⟨rfl, some⟩ | ⟨behind, shrinks⟩)
    · exact ⟨Nat.le_refl _, c, held, some⟩
    · exact ⟨Nat.le_of_succ_le behind, shrinks⟩

/-- The entries from a position on are those of the containers from there on. -/
theorem shrunkAt_of_reductionsFrom {done todo : List Container}
    (reduced : reductionsFrom kind factor done.length todo = .ok entries) :
    ∃ positions : List Nat, positions.Pairwise (· < ·) ∧
      (∀ i, i ∈ positions ↔ done.length ≤ i ∧ ReducibleAt (done ++ todo) i) ∧
      List.Forall₂ (ShrunkAt kind factor (done ++ todo)) positions entries := by
  induction todo generalizing done entries with
  | nil =>
    cases reduced
    refine ⟨[], .nil, fun i => ?_, .nil⟩
    simp only [List.not_mem_nil, false_iff, not_and, List.append_nil]
    rintro behind ⟨c, held, -⟩
    rw [List.getElem?_eq_none behind] at held
    cases held
  | cons c rest ih =>
    simp only [reductionsFrom, Fallible.bind_eq_ok, Fallible.pure_eq_ok] at reduced
    obtain ⟨entry, here, later, there, rfl⟩ := reduced
    have next : reductionsFrom kind factor (done ++ [c]).length rest = .ok later := by
      rwa [List.length_append, List.length_singleton]
    obtain ⟨positions, increasing, member_iff, shrunk⟩ := ih next
    rw [List.append_assoc, List.singleton_append] at member_iff shrunk
    rw [List.length_append, List.length_singleton] at member_iff
    have first : (done ++ c :: rest)[done.length]? = some c := by simp
    rcases reduction_eq_ok here with ⟨nothing, rfl⟩ | ⟨millis, r, reducible, reduced, rfl⟩
    · refine ⟨positions, increasing, fun i => ?_, shrunk⟩
      rw [member_iff, reducibleAt_from_iff first, nothing]
      simp
    · have shrunkHere : ShrunkAt kind factor (done ++ c :: rest) done.length
          (.add (requestsPath kind done.length) (.obj (c.requestsWith (toString r)))) :=
        ⟨c, millis, r, first, reducible, reduced, rfl⟩
      refine ⟨done.length :: positions, ?_, fun i => ?_, .cons shrunkHere shrunk⟩
      · exact List.pairwise_cons.mpr ⟨fun i member => ((member_iff i).mp member).1, increasing⟩
      · rw [List.mem_cons, member_iff, reducibleAt_from_iff first, reducible]
        simp

theorem shrunkInOrder_of_reductions (reduced : reductions kind factor containers = .ok entries) :
    ShrunkInOrder kind factor containers entries := by
  unfold reductions at reduced
  split at reduced
  next atLeastOne =>
    cases reduced
    exact ⟨[], .nil, by simp [atLeastOne], .nil⟩
  next below =>
    have fromStart : reductionsFrom kind factor ([] : List Container).length containers = .ok entries := reduced
    obtain ⟨positions, increasing, member_iff, shrunk⟩ := shrunkAt_of_reductionsFrom fromStart
    exact ⟨positions, increasing, by simpa [below] using member_iff, shrunk⟩

theorem exists_shrunkAt {positions : List Nat}
    (each : List.Forall₂ (ShrunkAt kind factor containers) positions entries) {e : Patch.Entry}
    (member : e ∈ entries) : ∃ i ∈ positions, ShrunkAt kind factor containers i e := by
  induction each with
  | nil => cases member
  | @cons i first _ _ here _ ih =>
    rcases List.mem_cons.mp member with rfl | later
    · exact ⟨i, List.mem_cons_self, here⟩
    · obtain ⟨j, among, there⟩ := ih later
      exact ⟨j, List.mem_cons_of_mem _ among, there⟩

theorem ShrunkAt.addsUnder (plain : Pointer.IsPlain kind) {i : Nat} {e : Patch.Entry}
    (shrunk : ShrunkAt kind factor containers i e) : e.AddsUnder ("spec", kind) := by
  have named : Patch.IsName "requests" := by decide
  obtain ⟨_, _, _, -, -, -, rfl⟩ := shrunk
  exact ⟨rfl, _, segments?_requestsPath plain i, Patch.endsInName_of_getLast? rfl named⟩

theorem ShrunkInOrder.addsUnder (plain : Pointer.IsPlain kind)
    (shrunk : ShrunkInOrder kind factor containers entries) : ∀ e ∈ entries, e.AddsUnder ("spec", kind) := by
  obtain ⟨positions, -, -, each⟩ := shrunk
  intro e member
  obtain ⟨i, -, here⟩ := exists_shrunkAt each member
  exact here.addsUnder plain

/-- Different containers have different requests. -/
theorem ShrunkAt.apart (plain : Pointer.IsPlain kind) {i j : Nat} {e e' : Patch.Entry}
    (shrunk : ShrunkAt kind factor containers i e) (shrunk' : ShrunkAt kind factor containers j e')
    (differ : i ≠ j) : e.Apart e' := by
  obtain ⟨_, _, _, -, -, -, rfl⟩ := shrunk
  obtain ⟨_, _, _, -, -, -, rfl⟩ := shrunk'
  refine ⟨_, _, segments?_requestsPath plain i, segments?_requestsPath plain j, ?_, ?_⟩
  · simp only [List.cons_prefix_cons]
    rintro ⟨-, -, same, -⟩
    exact differ (Patch.toString_position_inj (Text.ofString.inj same))
  · simp only [List.cons_prefix_cons]
    rintro ⟨-, -, same, -⟩
    exact differ (Patch.toString_position_inj (Text.ofString.inj same.symm))

theorem ShrunkInOrder.pairwise_apart (plain : Pointer.IsPlain kind)
    (shrunk : ShrunkInOrder kind factor containers entries) : entries.Pairwise Patch.Entry.Apart := by
  obtain ⟨positions, increasing, -, each⟩ := shrunk
  induction each with
  | nil => exact .nil
  | @cons i e positions entries here there ih =>
    obtain ⟨first, others⟩ := List.pairwise_cons.mp increasing
    refine List.pairwise_cons.mpr ⟨fun e' member => ?_, ih others⟩
    obtain ⟨j, among, shrunk'⟩ := exists_shrunkAt there member
    exact here.apart plain shrunk' (Nat.ne_of_lt (first j among))

end Container

/-! ### The whole patch -/

namespace Pod

variable {pod : Pod} {ns name : Text} {settings : Settings} {source : Verdict.Source}
  {workload : WorkloadClass} {patch : Patch} {names : List Text}
  {first second : List Patch.Entry}

/-- Entries that steer a pod to the pool of a class: first those that shrink its containers, the
initial ones before the others, last the one that labels it. -/
def SteeredTo (pod : Pod) (ns : Text) (workload : WorkloadClass) (factor : Binary64)
    (entries : List Patch.Entry) : Prop :=
  ∃ (first second hosts : List Patch.Entry) (labels : Fields Json),
    entries = first ++ second ++
      [.add "/spec/runtimeClassName" (.str ("ci-scheduler-runtime-" ++ workload.name)),
        .add "/spec/nodeSelector" (.obj [("ci-workload", .str workload.name)])] ++
      hosts ++ [.add "/metadata/labels" (.obj labels)] ∧
    Container.ShrunkInOrder "initContainers" factor pod.initContainers first ∧
    Container.ShrunkInOrder "containers" factor pod.containers second ∧
    (∀ e ∈ hosts, e.path = "/spec/affinity") ∧
    Fields.get? labels "ci-workload" = some (.str workload.name) ∧
    Fields.get? labels "ci-workload-namespace" = some (.str ns)

/-- The entries of a patch agree with one another and with the class that a pod is found of. -/
structure IsConsistent (pod : Pod) (ns name : Text) (settings : Settings) (workload : WorkloadClass)
    (patch : Patch) : Prop where
  additions : ∀ e ∈ patch.entries, e.op = "add"
  apart : patch.entries.Pairwise Patch.Entry.Apart
  classified : workload = pod.classify ns name
  marked : (∃ e ∈ patch.entries, e.path = "/metadata/annotations") ↔ needsSafeToEvict ns name = true
  unclassified : workload = .unclassified → ∀ e ∈ patch.entries, e.path = "/metadata/annotations"
  steered : workload ≠ .unclassified → ∃ marks steering, patch.entries = marks ++ steering ∧
    (∀ e ∈ marks, e.path = "/metadata/annotations") ∧
    pod.SteeredTo ns workload
      (if workload = .tests ∨ workload = .longTests then settings.shrinkTest else settings.shrinkBuild)
      steering

theorem path_evictionEntries (pod : Pod) (ns name : Text) :
    ∀ e ∈ pod.evictionEntries ns name, e.path = "/metadata/annotations" := by
  unfold evictionEntries
  split <;> simp [Patch.Entry.add]

theorem path_hostEntries (names : List Text) : ∀ e ∈ hostEntries names, e.path = "/spec/affinity" := by
  unfold hostEntries
  split <;> simp [Patch.Entry.add]

theorem steeredTo_of_reductions {factor : Binary64}
    (begins : Container.reductions "initContainers" factor pod.initContainers = .ok first)
    (follows : Container.reductions "containers" factor pod.containers = .ok second)
    (names : List Text) :
    pod.SteeredTo ns workload factor
      (first ++ second ++ poolEntries workload ++ hostEntries names ++ pod.labelEntries workload ns) := by
  refine ⟨first, second, hostEntries names, _, rfl, Container.shrunkInOrder_of_reductions begins,
    Container.shrunkInOrder_of_reductions follows, path_hostEntries names, ?_, ?_⟩
  · rw [← Fields.insert_texts, Fields.get?_insert_ne _ _ (by decide), ← Fields.insert_texts]
    exact Fields.get?_insert_self ..
  · rw [← Fields.insert_texts]
    exact Fields.get?_insert_self ..

/-! ### Its parts -/

/-- The parts of a patch, each with the field that it writes below. -/
def parts (pod : Pod) (ns name : Text) (workload : WorkloadClass) (first second : List Patch.Entry)
    (names : List Text) : List ((Text × Text) × List Patch.Entry) :=
  [(("metadata", "annotations"), pod.evictionEntries ns name),
    (("spec", "initContainers"), first),
    (("spec", "containers"), second),
    (("spec", "runtimeClassName"), [.add "/spec/runtimeClassName" (.str (runtimeClassName workload))]),
    (("spec", "nodeSelector"), [.add "/spec/nodeSelector" (.obj [(workloadLabel, .str workload.name)])]),
    (("spec", "affinity"), hostEntries names),
    (("metadata", "labels"), pod.labelEntries workload ns)]

theorem flatMap_parts (pod : Pod) (ns name : Text) (workload : WorkloadClass)
    (first second : List Patch.Entry) (names : List Text) :
    (pod.parts ns name workload first second names).flatMap Prod.snd =
      pod.evictionEntries ns name ++ (first ++ second) ++ poolEntries workload ++ hostEntries names ++
        pod.labelEntries workload ns := by
  simp [parts, poolEntries]

theorem addsUnder_evictionEntries (pod : Pod) (ns name : Text) :
    ∀ e ∈ pod.evictionEntries ns name, e.AddsUnder ("metadata", "annotations") := by
  have leads : Pointer.segments? "/metadata/annotations" = some (["metadata", "annotations"] : List Text) := by rfl
  unfold evictionEntries
  split
  · simp only [List.forall_mem_singleton]
    exact Patch.Entry.addsUnder_add leads (by decide) _
  · simp

theorem addsUnder_hostEntries (names : List Text) :
    ∀ e ∈ hostEntries names, e.AddsUnder ("spec", "affinity") := by
  have leads : Pointer.segments? "/spec/affinity" = some (["spec", "affinity"] : List Text) := by rfl
  unfold hostEntries
  split
  · simp
  · simp only [List.forall_mem_singleton]
    exact Patch.Entry.addsUnder_add leads (by decide) _

/-- Every part writes below its own field. -/
theorem addsUnder_parts {factor : Binary64}
    (begins : Container.ShrunkInOrder "initContainers" factor pod.initContainers first)
    (follows : Container.ShrunkInOrder "containers" factor pod.containers second) :
    ∀ p ∈ pod.parts ns name workload first second names, ∀ e ∈ p.2, e.AddsUnder p.1 := by
  have runtime : Pointer.segments? "/spec/runtimeClassName" = some (["spec", "runtimeClassName"] : List Text) := by rfl
  have selector : Pointer.segments? "/spec/nodeSelector" = some (["spec", "nodeSelector"] : List Text) := by rfl
  have labels : Pointer.segments? "/metadata/labels" = some (["metadata", "labels"] : List Text) := by rfl
  simp only [parts, labelEntries, List.forall_mem_cons, List.not_mem_nil, false_implies, implies_true,
    and_true]
  exact ⟨addsUnder_evictionEntries pod ns name, begins.addsUnder (by decide), follows.addsUnder (by decide),
    Patch.Entry.addsUnder_add runtime (by decide) _, Patch.Entry.addsUnder_add selector (by decide) _,
    addsUnder_hostEntries names, Patch.Entry.addsUnder_add labels (by decide) _⟩

theorem pairwise_parts {factor : Binary64}
    (begins : Container.ShrunkInOrder "initContainers" factor pod.initContainers first)
    (follows : Container.ShrunkInOrder "containers" factor pod.containers second) :
    ∀ p ∈ pod.parts ns name workload first second names, p.2.Pairwise Patch.Entry.Apart := by
  have eviction : (pod.evictionEntries ns name).Pairwise Patch.Entry.Apart := by
    unfold evictionEntries
    split <;> simp
  have hosts : (hostEntries names).Pairwise Patch.Entry.Apart := by
    unfold hostEntries
    split <;> simp
  simp only [parts, labelEntries, List.forall_mem_cons, List.pairwise_singleton, true_and]
  exact ⟨eviction, begins.pairwise_apart (by decide), follows.pairwise_apart (by decide), hosts, by simp⟩

theorem mem_evictionEntries_iff :
    (∃ e, e ∈ pod.evictionEntries ns name) ↔ needsSafeToEvict ns name = true := by
  unfold evictionEntries
  split
  next needed => simp [needed]
  next unneeded => simp [unneeded]

/-- Only the entry that marks a pod for eviction writes annotations. -/
theorem mem_evictionEntries_of_path {factor : Binary64} {e : Patch.Entry}
    (begins : Container.ShrunkInOrder "initContainers" factor pod.initContainers first)
    (follows : Container.ShrunkInOrder "containers" factor pod.containers second)
    (member : e ∈ (pod.parts ns name workload first second names).flatMap Prod.snd)
    (path : e.path = "/metadata/annotations") : e ∈ pod.evictionEntries ns name := by
  obtain ⟨p, among, inside⟩ := List.mem_flatMap.mp member
  obtain ⟨-, rest, leads, -⟩ := addsUnder_parts begins follows p among e inside
  have annotations : Pointer.segments? "/metadata/annotations" =
      some (["metadata", "annotations"] : List Text) := by rfl
  rw [path, annotations] at leads
  simp only [Option.some.injEq, List.cons.injEq] at leads
  obtain ⟨part, field, -⟩ := leads
  simp only [parts, List.mem_cons, List.not_mem_nil, or_false] at among
  rcases among with rfl | rfl | rfl | rfl | rfl | rfl | rfl
  · exact inside
  all_goals simp at part field

/-- A patch that is made has one of two forms. -/
theorem entries_of_patch (planned : (pod.patch ns name settings source).outcome = .ok (workload, patch)) :
    (workload = .unclassified ∧ patch.entries = pod.evictionEntries ns name) ∨
      ∃ first second names, workload ≠ .unclassified ∧
        Container.reductions "initContainers" (settings.cpuFactor workload) pod.initContainers = .ok first ∧
        Container.reductions "containers" (settings.cpuFactor workload) pod.containers = .ok second ∧
        patch.entries = (pod.parts ns name workload first second names).flatMap Prod.snd := by
  obtain ⟨-, ⟨outside, rfl⟩ | ⟨reductions, names, inside, reduced, rfl⟩⟩ := patch_eq_ok planned
  · exact .inl ⟨outside, rfl⟩
  · simp only [reductionEntries, Fallible.bind_eq_ok, Fallible.pure_eq_ok] at reduced
    obtain ⟨first, begins, second, follows, rfl⟩ := reduced
    exact .inr ⟨first, second, names, inside, begins, follows, (flatMap_parts ..).symm⟩

/-- All entries of a patch add fields, on paths that part. -/
theorem apart_of_patch (planned : (pod.patch ns name settings source).outcome = .ok (workload, patch)) :
    (∀ e ∈ patch.entries, e.AddsField) ∧ patch.entries.Pairwise Patch.Entry.Apart := by
  obtain ⟨-, entries⟩ | ⟨first, second, names, -, begins, follows, entries⟩ := entries_of_patch planned
  · rw [entries]
    constructor
    · intro e member
      exact (addsUnder_evictionEntries pod ns name e member).addsField
    · unfold evictionEntries
      split <;> simp
  · have inOrder := Container.shrunkInOrder_of_reductions begins
    have inOrderToo := Container.shrunkInOrder_of_reductions follows
    rw [entries]
    constructor
    · intro e member
      obtain ⟨p, among, inside⟩ := List.mem_flatMap.mp member
      exact (addsUnder_parts inOrder inOrderToo p among e inside).addsField
    · apply Patch.pairwise_apart_of_addsUnder
      · simp [parts]
      · exact addsUnder_parts inOrder inOrderToo
      · exact pairwise_parts inOrder inOrderToo

/-- A pod is marked for eviction exactly when it has to be, whatever its class. -/
theorem marked_iff_of_patch (planned : (pod.patch ns name settings source).outcome = .ok (workload, patch)) :
    (∃ e ∈ patch.entries, e.path = "/metadata/annotations") ↔ needsSafeToEvict ns name = true := by
  rw [← mem_evictionEntries_iff]
  obtain ⟨-, entries⟩ | ⟨first, second, names, -, begins, follows, entries⟩ := entries_of_patch planned
  · rw [entries]
    constructor
    · rintro ⟨e, member, -⟩
      exact ⟨e, member⟩
    · rintro ⟨e, member⟩
      exact ⟨e, member, path_evictionEntries pod ns name e member⟩
  · rw [entries]
    constructor
    · rintro ⟨e, member, path⟩
      exact ⟨e, mem_evictionEntries_of_path (Container.shrunkInOrder_of_reductions begins)
        (Container.shrunkInOrder_of_reductions follows) member path⟩
    · rintro ⟨e, member⟩
      refine ⟨e, ?_, path_evictionEntries pod ns name e member⟩
      rw [flatMap_parts]
      simp [member]

theorem isConsistent_of_patch
    (planned : (pod.patch ns name settings source).outcome = .ok (workload, patch)) :
    pod.IsConsistent ns name settings workload patch := by
  obtain ⟨fields, apart⟩ := apart_of_patch planned
  have marks := path_evictionEntries pod ns name
  refine ⟨fun e member => (fields e member).adds, apart, (patch_eq_ok planned).1,
    marked_iff_of_patch planned, ?_, ?_⟩
  · intro outside
    obtain ⟨-, entries⟩ | ⟨_, _, _, inside, -⟩ := entries_of_patch planned
    · rwa [entries]
    · exact absurd outside inside
  · intro inside
    obtain ⟨outside, -⟩ | ⟨first, second, names, -, begins, follows, entries⟩ := entries_of_patch planned
    · exact absurd outside inside
    · have factor : settings.cpuFactor workload =
          if workload = .tests ∨ workload = .longTests then settings.shrinkTest
          else settings.shrinkBuild := by
        simp [Settings.cpuFactor, WorkloadClass.isTest]
      rw [factor] at begins follows
      refine ⟨_, _, ?_, marks, steeredTo_of_reductions begins follows names⟩
      rw [entries, flatMap_parts]
      simp only [List.append_assoc]

/-- The patch of a pod is consistent, and its entries make the same document in any order. -/
theorem patch_consistent (planned : (pod.patch ns name settings source).outcome = .ok (workload, patch)) :
    pod.IsConsistent ns name settings workload patch ∧
      ∀ m : Manifest, ofJson m.toJson = .ok pod → ∃ target, patch.applied? m.toJson = some target ∧
        ∀ entries, entries.Perm patch.entries → ∃ target',
          (⟨entries⟩ : Patch).applied? m.toJson = some target' ∧ target.Alike target' := by
  refine ⟨isConsistent_of_patch planned, fun m decoded => ?_⟩
  obtain ⟨target, leads, -, -, -⟩ := reaches_patch decoded planned
  obtain ⟨fields, apart⟩ := apart_of_patch planned
  exact ⟨target.toJson, leads, fun entries perm => Patch.applied?_perm perm.symm fields apart (.refl _) leads⟩

/-- A pod of an operator catalog in the namespace of a job that is kept off a host. Its entries in
reverse add the fields of the spec in another order. -/
theorem patch_consistent_reversed :
    let shrinkable : Json := .obj [("resources", .obj [("requests", .obj [("memory", .str "1Gi"),
      ("cpu", .str "1500m")])])]
    let m : Manifest := .bare [("labels", .obj [("app", .str "x")])]
      [("initContainers", .arr [shrinkable]), ("containers", .arr [.obj [], shrinkable])]
    let settings := Settings.ofEnvironment [("SHRINK_TEST_CPU", "0.5")]
    let source := Verdict.Source.table ⟨[(.tests, [.str "a"])], []⟩
    ∃ pod patch target target', ofJson m.toJson = .ok pod ∧
      (pod.patch "ci-op-x" "a-catalog-b" settings source).outcome = .ok (.tests, patch) ∧
      pod.IsConsistent "ci-op-x" "a-catalog-b" settings .tests patch ∧
      patch.applied? m.toJson = some target ∧
      (⟨patch.entries.reverse⟩ : Patch).applied? m.toJson = some target' ∧
      target.Alike target' ∧ patch.applied? m.toJson ≠ (⟨patch.entries.reverse⟩ : Patch).applied? m.toJson := by
  intro shrinkable m settings source
  let c : Container := ⟨"", [("memory", .str "1Gi"), ("cpu", .str "1500m")], some 1500⟩
  let pod : Pod := ⟨"", "", some [("app", "x")], none, [c], [⟨"", [], none⟩, c]⟩
  let halved : Json := .obj [("cpu", .str "751m"), ("memory", .str "1Gi")]
  let patch : Patch := ⟨[
    .add "/metadata/annotations" (.obj [("cluster-autoscaler.kubernetes.io/safe-to-evict", .str "true")]),
    .add "/spec/initContainers/0/resources/requests" halved,
    .add "/spec/containers/1/resources/requests" halved,
    .add "/spec/runtimeClassName" (.str "ci-scheduler-runtime-tests"),
    .add "/spec/nodeSelector" (.obj [("ci-workload", .str "tests")]),
    .add "/spec/affinity" (Affinity.excluding ["a"]),
    .add "/metadata/labels" (.obj [("app", .str "x"), ("ci-workload", .str "tests"),
      ("ci-workload-namespace", .str "ci-op-x")])]⟩
  have decoded : ofJson m.toJson = .ok pod := by decide +kernel
  have planned : (pod.patch "ci-op-x" "a-catalog-b" settings source).outcome = .ok (.tests, patch) := by
    decide +kernel
  obtain ⟨consistent, reorders⟩ := patch_consistent planned
  obtain ⟨target, leads, reordered⟩ := reorders m decoded
  obtain ⟨target', leads', alike⟩ := reordered patch.entries.reverse (List.reverse_perm _)
  exact ⟨pod, patch, target, target', decoded, planned, consistent, leads, leads', alike, by decide +kernel⟩

end Pod
end WorkloadAdmission
