import WorkloadAdmission.Proofs.Steering

/-! What the patch of a pod leaves alone. Whole sub-objects are written, the maps of labels and
annotations and the requests of containers among them, and each of these is the one that stood there
before with a few entries set. So nothing that the pod came with is lost, known to this service or
not. -/
namespace WorkloadAdmission.Pod

open Manifest

variable {pod : Pod} {ns name : Text} {settings : Settings} {source : Verdict.Source}
  {workload : WorkloadClass} {patch : Patch} {names : List Text} {m target : Manifest}

/-! ### Parts of a patch -/

theorem affinityEntries_eq_ok {hosts : List Json} {entries : List Patch.Entry}
    (written : affinityEntries hosts = .ok entries) : ∃ told : List Text, hosts = told.map .str := by
  unfold affinityEntries at written
  split at written
  next empty => exact ⟨[], List.isEmpty_iff.mp empty⟩
  next =>
    obtain ⟨affinity, made, -⟩ := Fallible.map_eq_ok.mp written
    rcases Affinity.ofHostnames_spec hosts with ⟨told, rfl, -⟩ | ⟨v, -, -, refused⟩
    · exact ⟨told, rfl⟩
    · cases made.symm.trans refused

/-- A patch that is made consists of these parts. For a pod of some class the hosts that the source
tells are hostnames, and the requests shrink without a fault. -/
theorem patch_eq_ok (planned : (pod.patch ns name settings source).outcome = .ok (workload, patch)) :
    workload = pod.classify ns name ∧
      ((workload = .unclassified ∧ patch = ⟨pod.evictionEntries ns name⟩) ∨
        ∃ reductions names, workload ≠ .unclassified ∧
          pod.reductionEntries (settings.cpuFactor workload) = .ok reductions ∧
          patch = ⟨pod.evictionEntries ns name ++ reductions ++ poolEntries workload ++
            hostEntries names ++ pod.labelEntries workload ns⟩) := by
  by_cases outside : pod.classify ns name = .unclassified
  · rw [patch_unclassified outside] at planned
    cases planned
    exact ⟨outside.symm, .inl ⟨rfl, rfl⟩⟩
  · have told : ∃ names, source.Tells (pod.classify ns name) names := by
      unfold Pod.patch at planned
      split at planned
      · contradiction
      · split at planned
        · cases planned
        · simp only [Fallible.mapError_eq_ok] at planned
          obtain ⟨entries, written, -⟩ := Fallible.map_eq_ok.mp planned
          exact affinityEntries_eq_ok written
    obtain ⟨names, told⟩ := told
    rw [patch_classified outside told] at planned
    obtain ⟨reductions, reduced, same⟩ := Fallible.map_eq_ok.mp planned
    cases same
    exact ⟨rfl, .inr ⟨reductions, names, outside, Fallible.mapError_eq_ok.mp reduced, rfl⟩⟩

/-! ### Metadata -/

theorem part_annotations_marked {metadata : Fields Json}
    (annotations : Fields.texts metadata "pod" "annotations" = .ok pod.annotations) :
    Fields.Extends [ safeToEvictAnnotation ] (Fields.part metadata "annotations")
      (Fields.part (pod.markedMetadata ns name metadata) "annotations") := by
  have unmarked := Fields.Extends.refl [ safeToEvictAnnotation ] (Fields.part metadata "annotations")
  unfold markedMetadata
  split
  · rw [Fields.part_insert_texts, evictable, ← Fields.insert_texts,
      ← Fields.part_of_texts annotations]
    exact unmarked.insert (by simp) _
  · exact unmarked

theorem part_labels_admitted {metadata : Fields Json}
    (labels : Fields.texts metadata "pod" "labels" = .ok pod.labels) :
    Fields.Extends [workloadLabel, workloadNamespaceLabel] (Fields.part metadata "labels")
      (Fields.part (pod.admittedMetadata ns name metadata) "labels") := by
  have unlabelled := Fields.Extends.refl [workloadLabel, workloadNamespaceLabel]
    (Fields.part metadata "labels")
  unfold admittedMetadata
  split
  · rwa [Fields.part_congr (agreeBeside_markedMetadata pod ns name metadata _ (by decide))]
  · rw [labelledMetadata, Fields.part_insert_texts, labelled,
      ← Fields.insert_texts, ← Fields.insert_texts, ← Fields.part_of_texts labels]
    exact (unlabelled.insert (by simp) _).insert (by simp) _

/-! ### The whole document -/

/-- What an admission leaves of the spec of a pod that it finds of some class: every field beside
those that it writes, and every item of a list of containers, beside the CPU requests that shrink. -/
structure KeepsSpec (workload : WorkloadClass) (settings : Settings) (before after : Fields Json) : Prop where
  others : Fields.AgreeBeside
    ["runtimeClassName", "nodeSelector", "affinity", "initContainers", "containers"] before after
  containers : ∀ kind ∈ ["initContainers", "containers"],
    if workload = .unclassified then Fields.get? after kind = Fields.get? before kind
    else Container.ItemsBecome (Container.KeptBesideCpu (settings.cpuFactor workload))
      (Fields.get? before kind) (Fields.get? after kind)

/-- What an admission leaves of a pod that it finds of some class. The maps of annotations and labels
lose no entry, and those that others have set stay as they are. -/
structure TouchesOnly (workload : WorkloadClass) (settings : Settings) (m target : Manifest) : Prop where
  outline : Fields.AgreeBeside ["metadata", "spec"] m.fields target.fields
  metadata : Fields.AgreeBeside ["annotations", "labels"] m.metadata target.metadata
  annotations : Fields.Extends [ safeToEvictAnnotation ] (Fields.part m.metadata "annotations")
    (Fields.part target.metadata "annotations")
  labels : Fields.Extends [workloadLabel, workloadNamespaceLabel] (Fields.part m.metadata "labels")
    (Fields.part target.metadata "labels")
  spec : KeepsSpec workload settings m.spec target.spec

/-- The patch of a pod applies to the document that the pod was decoded from. -/
theorem reaches_patch (decoded : ofJson m.toJson = .ok pod)
    (planned : (pod.patch ns name settings source).outcome = .ok (workload, patch)) :
    ∃ target, Reaches patch.entries m target ∧
      Fields.AgreeBeside ["metadata", "spec"] m.fields target.fields ∧
      target.metadata = pod.admittedMetadata ns name m.metadata ∧
      KeepsSpec workload settings m.spec target.spec := by
  obtain ⟨-, -, -, -, begins, follows⟩ := ofJson_eq_ok.mp decoded
  obtain ⟨rfl, ⟨outside, rfl⟩ | ⟨reductions, names, inside, reduced, rfl⟩⟩ := patch_eq_ok planned
  · refine ⟨_, reaches_evictionEntries pod ns name m, agreeBeside_withMetadata m _, ?_, .refl _ m.spec, ?_⟩
    · rw [metadata_withMetadata, admittedMetadata, if_pos outside]
    · intro kind _
      rw [if_pos outside, spec_withMetadata]
  · obtain ⟨shrunk, target, leads, outline, metadata, spec, agree, become⟩ :=
      reaches_classified inside begins follows reduced names
    have steered := agreeBeside_steeredSpec (pod.classify ns name) names shrunk
    rw [← spec] at steered
    refine ⟨target, leads, outline, metadata, ?_, ?_⟩
    · exact (agree.mono (by simp)).trans (steered.mono (by simp))
    · intro kind member
      have apart : (kind : Text) ∉ (["runtimeClassName", "nodeSelector", "affinity"] : List Text) := by
        simp only [List.mem_cons, List.not_mem_nil, or_false] at member
        rcases member with rfl | rfl <;> decide
      rw [if_neg inside, steered _ apart]
      exact (become kind member).imp fun _ _ shrinks => shrinks.keptBesideCpu

/-- The patch of a pod touches only what an admission writes, whatever else the document holds. -/
theorem patch_touches_only (decoded : ofJson m.toJson = .ok pod)
    (planned : (pod.patch ns name settings source).outcome = .ok (workload, patch)) :
    ∃ target : Manifest, patch.applied? m.toJson = some target.toJson ∧
      TouchesOnly workload settings m target := by
  obtain ⟨-, -, labels, annotations, -, -⟩ := ofJson_eq_ok.mp decoded
  obtain ⟨target, leads, outline, metadata, spec⟩ := reaches_patch decoded planned
  refine ⟨target, leads, outline, ?_, ?_, ?_, spec⟩
  · rw [metadata]
    exact agreeBeside_admittedMetadata pod ns name m.metadata
  · rw [metadata, Fields.part_congr (agreeBeside_admitted_marked pod ns name m.metadata _ (by decide))]
    exact part_annotations_marked annotations
  · rw [metadata]
    exact part_labels_admitted labels

/-- A pod of an operator catalog in the namespace of a job: its labels are extended, and of its
containers the second one is shrunk. -/
theorem patch_touches_only_halved :
    let stamped : Json := .obj [("image", .str "a"), ("resources", .obj [("requests", .obj
      [("cpu", .str "51m")])])]
    let shrinkable : Json := .obj [("resources", .obj [("limits", .obj [("cpu", .int 2)]),
      ("requests", .obj [("memory", .str "1Gi"), ("cpu", .str "1500m")])]), ("image", .str "b")]
    let m : Manifest := .bare [("labels", .obj [("app", .str "x")]), ("uid", .str "u")]
      [("containers", .arr [stamped, shrinkable]), ("hostNetwork", .bool true)]
    let settings := Settings.ofEnvironment [("SHRINK_TEST_CPU", "0.5")]
    ∃ pod workload patch, ofJson m.toJson = .ok pod ∧
      (pod.patch "ci-op-x" "a-catalog-b" settings (.table ⟨[], []⟩)).outcome = .ok (workload, patch) ∧
      ∃ target : Manifest, patch.applied? m.toJson = some target.toJson ∧
        TouchesOnly workload settings m target := by
  intro stamped shrinkable m settings
  let pod : Pod := ⟨"", "", some [("app", "x")], none, [], [⟨"", [("cpu", .str "51m")], some 51⟩,
    ⟨"", [("memory", .str "1Gi"), ("cpu", .str "1500m")], some 1500⟩]⟩
  let patch : Patch := ⟨[
    .add "/metadata/annotations" (.obj [("cluster-autoscaler.kubernetes.io/safe-to-evict", .str "true")]),
    .add "/spec/containers/1/resources/requests" (.obj [("cpu", .str "751m"), ("memory", .str "1Gi")]),
    .add "/spec/runtimeClassName" (.str "ci-scheduler-runtime-tests"),
    .add "/spec/nodeSelector" (.obj [("ci-workload", .str "tests")]),
    .add "/metadata/labels" (.obj [("app", .str "x"), ("ci-workload", .str "tests"),
      ("ci-workload-namespace", .str "ci-op-x")])]⟩
  have decoded : ofJson m.toJson = .ok pod := by decide +kernel
  have planned : (pod.patch "ci-op-x" "a-catalog-b" settings (.table ⟨[], []⟩)).outcome =
      .ok (.tests, patch) := by decide +kernel
  exact ⟨pod, .tests, patch, decoded, planned, patch_touches_only decoded planned⟩

end WorkloadAdmission.Pod
