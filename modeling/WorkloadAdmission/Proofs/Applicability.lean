import WorkloadAdmission.Proofs.Draining
import WorkloadAdmission.Proofs.Footprint

/-! Which documents a patch applies to. Decoding reads metadata and spec of a wrong type as empty, but
a patch writes into them as they stand. So it applies to the document that it was made for exactly
when those of the two that its entries lead into are objects. -/
namespace WorkloadAdmission

/-- A document is an object that has an object under a field. -/
def Json.HasPart (document : Json) (part : Text) : Prop :=
  ∃ fields inner, document = .obj fields ∧ Fields.get? fields part = some (.obj inner)

theorem Fields.get?_of_part {fields : Fields Json} {key : Text} (some : part fields key ≠ []) :
    get? fields key = .some (.obj (part fields key)) := by
  unfold part at some ⊢
  split
  next inner held => exact get?_of_get held (by simp)
  next other =>
    split at some
    next inner held => exact absurd held (other inner)
    next => exact absurd rfl some

namespace Patch

/-- A segment that names no position in an array. -/
def IsName (segment : Text) : Prop :=
  segment ≠ "-" ∧ segment.points.any (fun p => p.char?.all (!·.isDigit)) = true

instance (segment : Text) : Decidable (IsName segment) := inferInstanceAs (Decidable (_ ∧ _))

/-- The path of an entry leads to a name inside a part of a document. -/
def Entry.LeadsInto (e : Entry) (part : Text) : Prop :=
  ∃ name rest, Pointer.segments? e.path = some (part :: name :: rest) ∧ IsName name

variable {path key next part : Text} {rest : List Text} {value inner changed document target : Json}
  {fields : Fields Json} {entries : List Entry}

theorem Entry.leadsInto_add (leads : Pointer.segments? path = some (part :: next :: rest))
    (named : IsName next) (value : Json) : (Entry.add path value).LeadsInto part :=
  ⟨next, rest, leads, named⟩

theorem position?_of_isName (named : IsName next) (length : Nat) : position? next length = none := by
  obtain ⟨apart, some⟩ := named
  obtain ⟨p, member, letter⟩ := List.any_eq_true.mp some
  rw [position?, if_neg apart, List.find?_eq_none]
  intro i _ same
  have same : toString i = next := of_decide_eq_true same
  rw [← same] at member
  obtain ⟨c, held, rfl⟩ := List.mem_map.mp member
  simp [CodePoint.char?, position_digits held] at letter

theorem addAt?_field_eq_some (added : addAt? value (key :: next :: rest) (.obj fields) = some changed) :
    ∃ inner inner', Fields.get? fields key = some inner ∧
      addAt? value (next :: rest) inner = some inner' ∧
      changed = .obj (Fields.insert key inner' fields) := by
  rw [addAt?] at added
  · simp only [Option.bind_eq_bind, Option.bind_eq_some_iff, Option.pure_def, Option.some.injEq] at added
    obtain ⟨inner, held, inner', there, rfl⟩ := added
    exact ⟨inner, inner', held, there, rfl⟩
  · simp

/-- A name leads into an object only. -/
theorem isObject_of_addAt? (named : IsName next)
    (added : addAt? value (next :: rest) inner = some changed) : ∃ fields, inner = .obj fields := by
  cases inner with
  | obj fields => exact ⟨fields, rfl⟩
  | arr items =>
    cases rest with
    | nil => simp [addAt?, position?_of_isName named] at added
    | cons after others => simp [addAt?, position?_of_isName named] at added
  | null | bool | int | float | str => simp [addAt?] at added

theorem applied?_singleton (e : Entry) (document : Json) :
    (⟨[e]⟩ : Patch).applied? document = e.applied? document := by
  rw [Patch.applied?, List.foldlM_cons]
  exact bind_pure _

theorem Entry.applied?_eq_some {e : Entry} (applied : e.applied? document = some changed) :
    ∃ segments, Pointer.segments? e.path = some segments ∧
      addAt? e.value segments document = some changed := by
  simp only [Entry.applied?, Option.bind_eq_bind, Option.bind_eq_some_iff] at applied
  obtain ⟨-, -, segments, leads, added⟩ := applied
  exact ⟨segments, leads, added⟩

/-- An entry that applies finds the part that it leads into, and changes that one only. -/
theorem Entry.LeadsInto.part_of_applied? {e : Entry} (leads : e.LeadsInto part)
    (applied : e.applied? (.obj fields) = some changed) :
    ∃ inner inner', Fields.get? fields part = some (.obj inner) ∧
      changed = .obj (Fields.insert part inner' fields) := by
  obtain ⟨next, rest, path, named⟩ := leads
  obtain ⟨segments, path', added⟩ := Entry.applied?_eq_some applied
  cases path.symm.trans path'
  obtain ⟨inner, inner', held, there, rfl⟩ := addAt?_field_eq_some added
  obtain ⟨entries, rfl⟩ := isObject_of_addAt? named there
  exact ⟨entries, inner', held, rfl⟩

/-- Entries that apply one after the other find every part that they lead into in the document that
they start from: none of them makes a part for the ones behind it. -/
theorem part_of_applied? (applied : (⟨entries⟩ : Patch).applied? (.obj fields) = some target)
    (inside : ∀ e ∈ entries, ∃ part, e.LeadsInto part) {e : Entry} (member : e ∈ entries)
    (leads : e.LeadsInto part) : ∃ inner, Fields.get? fields part = some (.obj inner) := by
  induction entries generalizing fields with
  | nil => contradiction
  | cons first rest ih =>
    simp only [Patch.applied?, List.foldlM_cons, Option.bind_eq_bind, Option.bind_eq_some_iff] at applied
    obtain ⟨changed, here, later⟩ := applied
    obtain ⟨firstPart, leadsFirst⟩ := inside first List.mem_cons_self
    obtain ⟨inner, inner', held, rfl⟩ := leadsFirst.part_of_applied? here
    rcases List.mem_cons.mp member with rfl | behind
    · obtain ⟨own, -, found, -⟩ := leads.part_of_applied? here
      exact ⟨own, found⟩
    · by_cases same : part = firstPart
      · exact ⟨inner, by rw [same, held]⟩
      · obtain ⟨own, found⟩ := ih later (fun e member => inside e (List.mem_cons_of_mem _ member)) behind
        exact ⟨own, by rwa [Fields.get?_insert_ne _ _ same] at found⟩

end Patch

/-- A document with both parts is a manifest. -/
theorem Manifest.of_hasPart {document : Json} (metadata : document.HasPart "metadata")
    (spec : document.HasPart "spec") : ∃ m : Manifest, m.toJson = document := by
  obtain ⟨fields, inner, rfl, held⟩ := metadata
  obtain ⟨_, inner', same, heldToo⟩ := spec
  cases same
  exact ⟨⟨fields, inner, inner', held, heldToo⟩, rfl⟩

/-! ### Pods -/

namespace Pod

open Manifest

variable {pod : Pod} {ns name : Text} {settings : Settings} {source : Verdict.Source}
  {workload : WorkloadClass} {patch : Patch} {names : List Text} {document target : Json}

theorem isObject_of_ofJson (decoded : ofJson document = .ok pod) : ∃ fields, document = .obj fields := by
  cases document with
  | obj fields => exact ⟨fields, rfl⟩
  | null | bool | int | float | str | arr => cases decoded

theorem leadsInto_evictionEntries (pod : Pod) (ns name : Text) :
    ∀ e ∈ pod.evictionEntries ns name, e.LeadsInto "metadata" := by
  have annotations : Pointer.segments? "/metadata/annotations" = some (["metadata", "annotations"] : List Text) := by
    rfl
  unfold evictionEntries
  split
  · simp only [List.forall_mem_singleton]
    exact Patch.Entry.leadsInto_add annotations (by decide) _
  · simp

theorem leadsInto_reductionEntries {factor : Binary64} {entries : List Patch.Entry}
    (reduced : pod.reductionEntries factor = .ok entries) : ∀ e ∈ entries, e.LeadsInto "spec" := by
  simp only [reductionEntries, Fallible.bind_eq_ok, Fallible.pure_eq_ok] at reduced
  obtain ⟨first, reduces, second, reducesToo, rfl⟩ := reduced
  intro e member
  rcases List.mem_append.mp member with member | member
  · obtain ⟨position, path⟩ := Container.path_reductions reduces e member
    exact ⟨"initContainers", _, by rw [path, Container.segments?_requestsPath (by decide)], by decide⟩
  · obtain ⟨position, path⟩ := Container.path_reductions reducesToo e member
    exact ⟨"containers", _, by rw [path, Container.segments?_requestsPath (by decide)], by decide⟩

theorem leadsInto_poolEntries (workload : WorkloadClass) :
    ∀ e ∈ poolEntries workload, e.LeadsInto "spec" := by
  have runtime : Pointer.segments? "/spec/runtimeClassName" = some (["spec", "runtimeClassName"] : List Text) := by rfl
  have selector : Pointer.segments? "/spec/nodeSelector" = some (["spec", "nodeSelector"] : List Text) := by rfl
  simp only [poolEntries, List.forall_mem_cons]
  exact ⟨Patch.Entry.leadsInto_add runtime (by decide) _, Patch.Entry.leadsInto_add selector (by decide) _,
    by simp⟩

theorem leadsInto_hostEntries (names : List Text) : ∀ e ∈ hostEntries names, e.LeadsInto "spec" := by
  have affinity : Pointer.segments? "/spec/affinity" = some (["spec", "affinity"] : List Text) := by rfl
  unfold hostEntries
  split
  · simp
  · simp only [List.forall_mem_singleton]
    exact Patch.Entry.leadsInto_add affinity (by decide) _

theorem leadsInto_labelEntries (pod : Pod) (workload : WorkloadClass) (ns : Text) :
    ∀ e ∈ pod.labelEntries workload ns, e.LeadsInto "metadata" := by
  have labels : Pointer.segments? "/metadata/labels" = some (["metadata", "labels"] : List Text) := by rfl
  simp only [labelEntries, List.forall_mem_singleton]
  exact Patch.Entry.leadsInto_add labels (by decide) _

/-- Every entry of a patch leads into metadata or spec. -/
theorem leadsInto_of_patch (planned : (pod.patch ns name settings source).outcome = .ok (workload, patch)) :
    ∀ e ∈ patch.entries, ∃ part, e.LeadsInto part := by
  obtain ⟨-, ⟨-, rfl⟩ | ⟨reductions, names, -, reduced, rfl⟩⟩ := patch_eq_ok planned
  · exact fun e member => ⟨_, leadsInto_evictionEntries pod ns name e member⟩
  · simp only [List.forall_mem_append]
    refine ⟨⟨⟨⟨?_, ?_⟩, ?_⟩, ?_⟩, ?_⟩
    · exact fun e member => ⟨_, leadsInto_evictionEntries pod ns name e member⟩
    · exact fun e member => ⟨_, leadsInto_reductionEntries reduced e member⟩
    · exact fun e member => ⟨_, leadsInto_poolEntries workload e member⟩
    · exact fun e member => ⟨_, leadsInto_hostEntries names e member⟩
    · exact fun e member => ⟨_, leadsInto_labelEntries pod workload ns e member⟩

/-- A patch that applies finds metadata where it marks or labels, and spec where it steers. -/
theorem hasPart_of_applied? (decoded : ofJson document = .ok pod)
    (planned : (pod.patch ns name settings source).outcome = .ok (workload, patch))
    (applied : patch.applied? document = some target) :
    (needsSafeToEvict ns name = true ∨ workload ≠ .unclassified → document.HasPart "metadata") ∧
      (workload ≠ .unclassified → document.HasPart "spec") := by
  have inside := leadsInto_of_patch planned
  obtain ⟨fields, rfl⟩ := isObject_of_ofJson decoded
  have found {written : List Patch.Entry} {part : Text} (some : written ≠ [])
      (within : ∀ e ∈ written, e ∈ patch.entries) (leads : ∀ e ∈ written, e.LeadsInto part) :
      (Json.obj fields).HasPart part := by
    obtain ⟨e, member⟩ := List.exists_mem_of_ne_nil written some
    obtain ⟨inner, held⟩ := Patch.part_of_applied? applied inside (within e member) (leads e member)
    exact ⟨fields, inner, rfl, held⟩
  have marks (needed : needsSafeToEvict ns name = true) : (Json.obj fields).HasPart "metadata" := by
    refine found ?_ ?_ (leadsInto_evictionEntries pod ns name)
    · simp [evictionEntries, needed]
    · obtain ⟨-, ⟨-, rfl⟩ | ⟨_, _, -, -, rfl⟩⟩ := patch_eq_ok planned <;> simp +contextual
  obtain ⟨-, ⟨rfl, -⟩ | ⟨reductions, names, -, -, rfl⟩⟩ := patch_eq_ok planned
  · simpa using marks
  · constructor
    · intro _
      exact found (by simp [labelEntries]) (by simp +contextual) (leadsInto_labelEntries pod workload ns)
    · intro _
      exact found (by simp [poolEntries]) (by simp +contextual) (leadsInto_poolEntries workload)

theorem applied?_evictionEntries
    (marked : needsSafeToEvict ns name = true → document.HasPart "metadata") :
    ∃ target, (⟨pod.evictionEntries ns name⟩ : Patch).applied? document = some target := by
  unfold evictionEntries
  split
  next needed =>
    obtain ⟨fields, metadata, rfl, held⟩ := marked needed
    have leads : Pointer.segments? "/metadata/annotations" = some (["metadata", "annotations"] : List Text) := by rfl
    rw [Patch.applied?_singleton, Manifest.applied?_add leads]
    exact ⟨_, Patch.addAt?_field held rfl⟩
  next => exact ⟨document, rfl⟩

/-- Which documents the patch of a pod applies to. -/
theorem applies_iff (decoded : ofJson document = .ok pod)
    (planned : (pod.patch ns name settings source).outcome = .ok (workload, patch)) :
    (∃ target, patch.applied? document = some target) ↔
      (needsSafeToEvict ns name = true ∨ workload ≠ .unclassified → document.HasPart "metadata") ∧
        (workload ≠ .unclassified → document.HasPart "spec") := by
  constructor
  · rintro ⟨target, applied⟩
    exact hasPart_of_applied? decoded planned applied
  · rintro ⟨metadata, spec⟩
    by_cases outside : workload = .unclassified
    · obtain ⟨-, ⟨-, rfl⟩ | ⟨_, _, inside, -, -⟩⟩ := patch_eq_ok planned
      · exact applied?_evictionEntries fun needed => metadata (.inl needed)
      · exact absurd outside inside
    · obtain ⟨m, rfl⟩ := Manifest.of_hasPart (metadata (.inr outside)) (spec outside)
      obtain ⟨target, leads, -, -, -⟩ := reaches_patch decoded planned
      exact ⟨target.toJson, leads⟩

end Pod

/-! ### Nodes -/

namespace Node

open Manifest

variable {node : Node} {source : Verdict.Source} {document target : Json} {fields : Fields Json}

theorem isObject_of_ofJson (decoded : ofJson document = .ok node) : ∃ fields, document = .obj fields := by
  cases document with
  | obj fields => exact ⟨fields, rfl⟩
  | null | bool | int | float | str | arr => cases decoded

theorem leadsInto_taints (taints : Json) : (Patch.Entry.add "/spec/taints" taints).LeadsInto "spec" := by
  have path : Pointer.segments? "/spec/taints" = some (["spec", "taints"] : List Text) := by rfl
  exact Patch.Entry.leadsInto_add path (by decide) taints

theorem leadsInto_taintEntries (taints : List Taint) (state : Avoidance) :
    ∀ e ∈ taintEntries taints state, ∃ part, e.LeadsInto part := by
  have label : Pointer.segments? ("/metadata/labels/" ++ Pointer.escape scaleDownDisabledLabel) =
      some (["metadata", "labels", scaleDownDisabledLabel] : List Text) := by rfl
  simp only [taintEntries, List.forall_mem_cons]
  exact ⟨⟨_, leadsInto_taints _⟩, ⟨_, Patch.Entry.leadsInto_add label (by decide) _⟩, by simp⟩

/-- A node that gets entries serves some class, which is told by one of its labels. -/
theorem hasLabels_of_patch (decoded : ofJson (.obj fields) = .ok node)
    (some : (node.patch source).outcome.patch ≠ .empty) :
    ∃ metadata labels, Fields.get? fields "metadata" = .some (.obj metadata) ∧
      Fields.get? metadata "labels" = .some (.obj labels) := by
  have serves : node.workload? ≠ none := by
    intro none
    apply some
    simp only [patch, none]
  have labelled : node.labels.getD [] ≠ [] := by
    intro nothing
    apply serves
    simp [workload?, nothing, Fields.get?]
  have read : Fields.texts (Fields.part fields "metadata") "node" "labels" = .ok node.labels := by
    simp only [ofJson, Fallible.bind_eq_ok, Fallible.mapError_eq_ok, Fallible.pure_eq_ok] at decoded
    obtain ⟨taints, -, labels, read, rfl⟩ := decoded
    exact read
  have labels : Fields.part (Fields.part fields "metadata") "labels" ≠ [] := by
    rw [Fields.part_of_texts read]
    simpa using labelled
  have metadata : Fields.part fields "metadata" ≠ [] := by
    intro nothing
    rw [nothing] at labels
    exact labels rfl
  exact ⟨_, _, Fields.get?_of_part metadata, Fields.get?_of_part labels⟩

/-- Which documents the patch of a node applies to. -/
theorem applies_iff (decoded : ofJson document = .ok node) :
    (∃ target, (node.patch source).outcome.patch.applied? document = some target) ↔
      ((node.patch source).outcome.patch ≠ .empty → document.HasPart "spec") := by
  obtain ⟨fields, rfl⟩ := isObject_of_ofJson decoded
  rcases node.patch_cases source with nothing | ⟨workload, state, settles⟩
  · rw [nothing]
    exact ⟨fun _ some => absurd rfl some, fun _ => ⟨_, rfl⟩⟩
  · have some : (node.patch source).outcome.patch ≠ .empty := by
      rw [settles]
      intro empty
      cases empty
    obtain ⟨metadata, labels, held, labelled⟩ := hasLabels_of_patch decoded some
    rw [settles] at some ⊢
    constructor
    · rintro ⟨target, applied⟩ -
      obtain ⟨inner, found⟩ := Patch.part_of_applied? applied (leadsInto_taintEntries _ _)
        List.mem_cons_self (leadsInto_taints _)
      exact ⟨fields, inner, rfl, found⟩
    · intro hasSpec
      obtain ⟨_, spec, same, found⟩ := hasSpec some
      cases same
      let m : Manifest := ⟨fields, metadata, spec, held, found⟩
      have hasLabels : m.HasLabels := ⟨labels, labelled⟩
      exact ⟨_, Manifest.reaches_taintEntries hasLabels state⟩

end Node

/-! ### Both -/

/-- Applying the patch of a pod succeeds exactly when the pod has metadata, where it is marked or
labelled, and a spec, where it is sent to a pool. That of a node succeeds exactly when the node has a
spec, unless the patch is empty: a node without metadata serves no class. -/
theorem patches_apply_iff (document : Json) :
    (∀ pod ns name settings source workload patch, Pod.ofJson document = .ok pod →
      (pod.patch ns name settings source).outcome = .ok (workload, patch) →
      ((∃ target, patch.applied? document = some target) ↔
        (needsSafeToEvict ns name = true ∨ workload ≠ .unclassified → document.HasPart "metadata") ∧
          (workload ≠ .unclassified → document.HasPart "spec"))) ∧
    ∀ node source, Node.ofJson document = .ok node →
      ((∃ target, (node.patch source).outcome.patch.applied? document = some target) ↔
        ((node.patch source).outcome.patch ≠ .empty → document.HasPart "spec")) :=
  ⟨fun _ _ _ _ _ _ _ decoded planned => Pod.applies_iff decoded planned,
    fun _ _ decoded => Node.applies_iff decoded⟩

/-- One document without a spec: as a pod outside the pools it is marked, as a node it is not tainted. -/
theorem patches_apply_iff_unspecified :
    let document : Json := .obj [("metadata", .obj [("name", .str "n"),
      ("labels", .obj [("ci-workload", .str "tests")])])]
    (∃ pod patch, Pod.ofJson document = .ok pod ∧
      (pod.patch "openshift-x" "e2e" (.ofEnvironment []) (.table ⟨[], []⟩)).outcome =
        .ok (.unclassified, patch) ∧
      ∃ target, patch.applied? document = some target) ∧
    ∃ node, Node.ofJson document = .ok node ∧
      ¬ ∃ target, (node.patch (.table ⟨[], [("n", .noSchedule)]⟩)).outcome.patch.applied? document =
        some target := by
  intro document
  obtain ⟨pods, nodes⟩ := patches_apply_iff document
  constructor
  · let pod : Pod := ⟨"n", "", some [("ci-workload", "tests")], none, [], []⟩
    let patch : Patch := ⟨[.add "/metadata/annotations"
      (.obj [("cluster-autoscaler.kubernetes.io/safe-to-evict", .str "true")])]⟩
    have decoded : Pod.ofJson document = .ok pod := by rfl
    have planned : (pod.patch "openshift-x" "e2e" (.ofEnvironment []) (.table ⟨[], []⟩)).outcome =
        .ok (.unclassified, patch) := by decide +kernel
    have metadata : document.HasPart "metadata" := ⟨_, _, rfl, rfl⟩
    have applies := (pods _ _ _ _ _ _ _ decoded planned).mpr
      ⟨fun _ => metadata, fun inside => absurd rfl inside⟩
    exact ⟨pod, patch, decoded, planned, applies⟩
  · let node : Node := ⟨"n", some [("ci-workload", "tests")], []⟩
    have decoded : Node.ofJson document = .ok node := by rfl
    have tainted : (node.patch (.table ⟨[], [("n", .noSchedule)]⟩)).outcome.patch ≠ .empty := by
      decide +kernel
    refine ⟨node, decoded, fun applies => ?_⟩
    obtain ⟨fields, inner, same, held⟩ := (nodes _ _ decoded).mp applies tainted
    rw [← Json.obj.inj same] at held
    cases held

/-- Not every patch applies to what it was made for: an empty object is a pod that is sent to a pool,
and a node without a spec is one that is tainted. -/
theorem patches_without_parts :
    (∃ pod patch, Pod.ofJson (.obj []) = .ok pod ∧
      (pod.patch "ci-op-x" "e2e" (.ofEnvironment []) (.table ⟨[], []⟩)).outcome = .ok (.tests, patch) ∧
      patch.applied? (.obj []) = none) ∧
    let unspecified : Json := .obj [("metadata", .obj [("name", .str "n"),
      ("labels", .obj [("ci-workload", .str "tests")])])]
    ∃ node, Node.ofJson unspecified = .ok node ∧
      (node.patch (.table ⟨[], [("n", .noSchedule)]⟩)).outcome.patch.applied? unspecified = none := by
  constructor
  · let pod : Pod := ⟨"", "", none, none, [], []⟩
    let patch : Patch := ⟨[
      .add "/spec/runtimeClassName" (.str "ci-scheduler-runtime-tests"),
      .add "/spec/nodeSelector" (.obj [("ci-workload", .str "tests")]),
      .add "/metadata/labels" (.obj [("ci-workload", .str "tests"),
        ("ci-workload-namespace", .str "ci-op-x")])]⟩
    exact ⟨pod, patch, by rfl, by decide +kernel, by decide +kernel⟩
  · exact ⟨⟨"n", some [("ci-workload", "tests")], []⟩, by rfl, by decide +kernel⟩

end WorkloadAdmission
