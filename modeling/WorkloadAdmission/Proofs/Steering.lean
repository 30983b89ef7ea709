import WorkloadAdmission.Proofs.Hosts
import WorkloadAdmission.Proofs.Settling

/-! What the patch of a pod leaves of it. The patch applies to the document that the pod was decoded
from, and the result decodes to the pod that `admitted` computes: settled requests, the labels of its
class, and the mark for eviction where that is needed. None of this changes the class. All entries
but the ones that shrink requests then stand in the document as they were written. -/
namespace WorkloadAdmission

namespace Environment

theorem factor_isPositive (env : Environment) (name : Text) : (env.factor name).isPositive = true := by
  unfold factor
  cases given : ((env.text? name).bind Number.float?).filter Binary64.isPositive with
  | none => rfl
  | some factor => exact (Option.filter_eq_some_iff.mp given).2

end Environment

namespace Settings

/-- Both factors are above zero, so neither is a NaN. -/
def HasPositiveFactors (s : Settings) : Prop :=
  s.shrinkBuild.isPositive = true ∧ s.shrinkTest.isPositive = true

theorem hasPositiveFactors_ofEnvironment (env : Environment) :
    (ofEnvironment env).HasPositiveFactors :=
  ⟨env.factor_isPositive _, env.factor_isPositive _⟩

theorem HasPositiveFactors.cpuFactor {s : Settings} (positive : s.HasPositiveFactors)
    (workload : WorkloadClass) : (s.cpuFactor workload).isPositive = true := by
  unfold Settings.cpuFactor
  split
  · exact positive.2
  · exact positive.1

end Settings

namespace Pod

variable {pod : Pod} {ns name : Text} {settings : Settings} {workload : WorkloadClass}
  {source : Verdict.Source} {names : List Text} {m : Manifest}

/-- All CPU requests of a pod are below 10^28 millicores, where products are exact. -/
def IsExact (pod : Pod) : Prop := ∀ c ∈ pod.initContainers ++ pod.containers, c.IsExact

theorem ofJson_eq_ok : ofJson m.toJson = .ok pod ↔
    pod.name = (Fields.get m.metadata "name").label ∧
      pod.ns = (Fields.get m.metadata "namespace").label ∧
      Fields.texts m.metadata "pod" "labels" = .ok pod.labels ∧
      Fields.texts m.metadata "pod" "annotations" = .ok pod.annotations ∧
      Container.listOf m.spec "initContainers" = .ok pod.initContainers ∧
      Container.listOf m.spec "containers" = .ok pod.containers := by
  simp only [Manifest.toJson, ofJson, Manifest.part_metadata, Manifest.part_spec,
    Fallible.bind_eq_ok, Fallible.mapError_eq_ok, Fallible.pure_eq_ok]
  constructor
  · rintro ⟨labels, labelled, annotations, annotated, first, begins, second, follows, rfl⟩
    exact ⟨rfl, rfl, labelled, annotated, begins, follows⟩
  · rintro ⟨named, spaced, labelled, annotated, begins, follows⟩
    refine ⟨_, labelled, _, annotated, _, begins, _, follows, ?_⟩
    rw [← named, ← spaced]

/-! ### The pod that an admission leaves -/

def evictable (pod : Pod) : Fields Text :=
  Fields.insert safeToEvictAnnotation "true" (pod.annotations.getD [])

def labelled (pod : Pod) (workload : WorkloadClass) (ns : Text) : Fields Text :=
  Fields.insert workloadNamespaceLabel ns
    (Fields.insert workloadLabel workload.name (pod.labels.getD []))

/-- The containers of a pod after an admission. Those of an unclassified pod are not shrunk. -/
def admittedContainers (workload : WorkloadClass) (settings : Settings) (containers : List Container) :
    List Container :=
  if workload = .unclassified then containers
  else Container.settledAll (settings.cpuFactor workload) containers

def admitted (pod : Pod) (ns name : Text) (settings : Settings) : Pod where
  name := pod.name
  ns := pod.ns
  labels :=
    if pod.classify ns name = .unclassified then pod.labels
    else some (pod.labelled (pod.classify ns name) ns)
  annotations := if needsSafeToEvict ns name then some pod.evictable else pod.annotations
  initContainers := admittedContainers (pod.classify ns name) settings pod.initContainers
  containers := admittedContainers (pod.classify ns name) settings pod.containers

/-- The resources that a container requests beside CPU stay as they are. -/
theorem requests_any_settled (special : Text → Bool) (cpu : special "cpu" = false)
    (factor : Binary64) (c : Container) :
    (c.settled factor).requests.any (fun (key, _) => special key) =
      c.requests.any fun (key, _) => special key := by
  unfold Container.settled
  split
  · rfl
  · split
    · simp only [Container.requestsWith, Fields.erase, List.any_cons, cpu, Bool.false_or,
        List.any_filter]
      congr 1
      funext field
      by_cases same : field.1 = "cpu"
      · simp [same, cpu]
      · simp [same]
    · rfl

theorem requestsSpecial_settledAll (factor : Binary64) (containers : List Container) :
    requestsSpecial (Container.settledAll factor containers) = requestsSpecial containers := by
  unfold Container.settledAll
  split
  · rfl
  · simp only [requestsSpecial, List.any_map]
    congr 1
    funext c
    exact requests_any_settled (fun key => !standardResources.contains key) (by decide) factor c

theorem requestsSpecial_admittedContainers (containers : List Container) :
    requestsSpecial (admittedContainers workload settings containers) = requestsSpecial containers := by
  unfold admittedContainers
  split
  · rfl
  · exact requestsSpecial_settledAll ..

theorem hasLabel_admitted {label : Text} (apart : label ≠ workloadLabel)
    (apartToo : label ≠ workloadNamespaceLabel) :
    (pod.admitted ns name settings).hasLabel label = pod.hasLabel label := by
  simp only [hasLabel, admitted]
  split
  · rfl
  · rw [Option.getD_some, labelled, Fields.get?_insert_ne _ _ apartToo, Fields.get?_insert_ne _ _ apart]

/-- Neither the settled requests nor the labels that are written change the class. -/
theorem classify_admitted :
    (pod.admitted ns name settings).classify ns name = pod.classify ns name := by
  have prow : (pod.admitted ns name settings).hasLabel createdByProwLabel =
      pod.hasLabel createdByProwLabel := hasLabel_admitted (by decide) (by decide)
  have build : (pod.admitted ns name settings).hasLabel buildNameLabel =
      pod.hasLabel buildNameLabel := hasLabel_admitted (by decide) (by decide)
  rw [classify, classify, prow, build]
  simp only [admitted, requestsSpecial_admittedContainers]

theorem isExact_admitted (positive : settings.HasPositiveFactors) (exact : pod.IsExact) :
    (pod.admitted ns name settings).IsExact := by
  have above := positive.cpuFactor (pod.classify ns name)
  simp only [IsExact, List.forall_mem_append] at exact ⊢
  simp only [admitted, admittedContainers]
  split
  · exact exact
  · exact ⟨Container.isExact_settledAll above exact.1, Container.isExact_settledAll above exact.2⟩

/-! ### Entries that do not shrink requests -/

/-- The entries of a pod's patch that do not shrink requests. -/
def standingEntries (pod : Pod) (ns name : Text) (names : List Text) : List Patch.Entry :=
  pod.evictionEntries ns name ++
    if pod.classify ns name = .unclassified then []
    else poolEntries (pod.classify ns name) ++ hostEntries names ++
      pod.labelEntries (pod.classify ns name) ns

theorem evictionEntries_admitted :
    (pod.admitted ns name settings).evictionEntries ns name = pod.evictionEntries ns name := by
  unfold evictionEntries
  split
  next needed => simp only [admitted, needed, if_true, Option.getD_some, evictable, Fields.insert_insert]
  next => rfl

theorem labelEntries_admitted (inside : pod.classify ns name ≠ .unclassified) :
    (pod.admitted ns name settings).labelEntries (pod.classify ns name) ns =
      pod.labelEntries (pod.classify ns name) ns := by
  have again : Fields.insert workloadLabel (pod.classify ns name).name
      (pod.labelled (pod.classify ns name) ns) = pod.labelled (pod.classify ns name) ns := by
    apply Fields.insert_get?
    rw [labelled, Fields.get?_insert_ne _ _ (by decide), Fields.get?_insert_self]
  simp only [labelEntries, admitted, inside, if_false, Option.getD_some, again]
  simp only [labelled, Fields.insert_insert]

theorem standingEntries_admitted :
    (pod.admitted ns name settings).standingEntries ns name names =
      pod.standingEntries ns name names := by
  rw [standingEntries, standingEntries, evictionEntries_admitted, classify_admitted]
  split
  · rfl
  next inside => rw [labelEntries_admitted inside]

/-- No standing entry writes the requests of a container. -/
theorem path_standingEntries {e : Patch.Entry} (member : e ∈ pod.standingEntries ns name names) :
    e.path ∈ (["/metadata/annotations", "/spec/runtimeClassName", "/spec/nodeSelector",
      "/spec/affinity", "/metadata/labels"] : List Text) := by
  have eviction : ∀ e ∈ pod.evictionEntries ns name, e.path = "/metadata/annotations" := by
    unfold evictionEntries
    split <;> simp [Patch.Entry.add]
  have hosts : ∀ e ∈ hostEntries names, e.path = "/spec/affinity" := by
    unfold hostEntries
    split <;> simp [Patch.Entry.add]
  have pool : ∀ e ∈ poolEntries (pod.classify ns name),
      e.path = "/spec/runtimeClassName" ∨ e.path = "/spec/nodeSelector" := by
    simp [poolEntries, Patch.Entry.add]
  have labels : ∀ e ∈ pod.labelEntries (pod.classify ns name) ns, e.path = "/metadata/labels" := by
    simp [labelEntries, Patch.Entry.add]
  simp only [standingEntries, List.mem_append] at member
  rcases member with marks | steers
  · simp [eviction e marks]
  · split at steers
    · contradiction
    · simp only [List.mem_append] at steers
      rcases steers with (sends | avoids) | marks
      · rcases pool e sends with path | path <;> simp [path]
      · simp [hosts e avoids]
      · simp [labels e marks]

/-! ### The patch -/

theorem patch_unclassified (outside : pod.classify ns name = .unclassified) :
    (pod.patch ns name settings source).outcome =
      .ok (.unclassified, ⟨pod.evictionEntries ns name⟩) := by
  simp only [patch, outside]

/-- The patch of a pod of some class: its requests have to shrink without a fault. -/
theorem patch_classified (inside : pod.classify ns name ≠ .unclassified)
    (told : source.Tells (pod.classify ns name) names) :
    (pod.patch ns name settings source).outcome =
      ((pod.reductionEntries (settings.cpuFactor (pod.classify ns name))).mapError .arithmetic).map
        fun reductions => (pod.classify ns name, ⟨pod.evictionEntries ns name ++ reductions ++
          poolEntries (pod.classify ns name) ++ hostEntries names ++
          pod.labelEntries (pod.classify ns name) ns⟩) := by
  unfold patch
  split
  · contradiction
  · cases pod.reductionEntries (settings.cpuFactor (pod.classify ns name)) with
    | error cause => rfl
    | ok reductions =>
      have heeded : affinityEntries (source.heeded (pod.classify ns name)) = .ok (hostEntries names) := by
        rw [told, affinityEntries_names]
      rw [Verdict.Source.heeded] at heeded
      simp only [heeded]
      rfl

theorem patch_standing (told : source.Tells (pod.classify ns name) names)
    (nothing : pod.classify ns name ≠ .unclassified →
      pod.reductionEntries (settings.cpuFactor (pod.classify ns name)) = .ok []) :
    (pod.patch ns name settings source).outcome =
      .ok (pod.classify ns name, ⟨pod.standingEntries ns name names⟩) := by
  by_cases outside : pod.classify ns name = .unclassified
  · rw [patch_unclassified outside, standingEntries, if_pos outside, List.append_nil, outside]
  · rw [patch_classified outside told, nothing outside, standingEntries, if_neg outside]
    simp only [Fallible.mapError_ok, Fallible.map_ok, List.nil_append, List.append_assoc]

/-! ### Application -/

/-- The metadata of a pod that is marked for eviction where that is needed. -/
def markedMetadata (pod : Pod) (ns name : Text) (metadata : Fields Json) : Fields Json :=
  if needsSafeToEvict ns name then
    Fields.insert "annotations" (Fields.textsToJson pod.evictable) metadata
  else metadata

/-- The spec of a pod of a class that some hosts are kept off. -/
def steeredSpec (workload : WorkloadClass) (names : List Text) (spec : Fields Json) : Fields Json :=
  let pooled := Fields.insert "nodeSelector" (.obj [(workloadLabel, .str workload.name)])
    (Fields.insert "runtimeClassName" (.str (runtimeClassName workload)) spec)
  if names.isEmpty then pooled
  else Fields.insert "affinity"
    (Affinity.excluding (names.mergeSort fun a b => decide (a ≤ b))) pooled

def labelledMetadata (pod : Pod) (workload : WorkloadClass) (ns : Text) (metadata : Fields Json) :
    Fields Json :=
  Fields.insert "labels" (Fields.textsToJson (pod.labelled workload ns)) metadata

def admittedMetadata (pod : Pod) (ns name : Text) (metadata : Fields Json) : Fields Json :=
  if pod.classify ns name = .unclassified then pod.markedMetadata ns name metadata
  else pod.labelledMetadata (pod.classify ns name) ns (pod.markedMetadata ns name metadata)

open Manifest

theorem reaches_evictionEntries (pod : Pod) (ns name : Text) (m : Manifest) :
    Reaches (pod.evictionEntries ns name) m (m.withMetadata (pod.markedMetadata ns name m.metadata)) := by
  have leads : Pointer.segments? "/metadata/annotations" = some (["metadata", "annotations"] : List Text) := by rfl
  unfold evictionEntries markedMetadata
  split
  · exact reaches_metadata leads ..
  · rw [withMetadata_self]
    exact .nil

theorem reaches_steeringEntries (workload : WorkloadClass) (names : List Text) (m : Manifest) :
    Reaches (poolEntries workload ++ hostEntries names) m
      (m.withSpec (steeredSpec workload names m.spec)) := by
  have toRuntime : Pointer.segments? "/spec/runtimeClassName" = some (["spec", "runtimeClassName"] : List Text) := by
    rfl
  have toSelector : Pointer.segments? "/spec/nodeSelector" = some (["spec", "nodeSelector"] : List Text) := by rfl
  have toAffinity : Pointer.segments? "/spec/affinity" = some (["spec", "affinity"] : List Text) := by rfl
  have pooled : Reaches (poolEntries workload) m (m.withSpec (steeredSpec workload [] m.spec)) := by
    have leads := (reaches_spec toRuntime m (.str (runtimeClassName workload))).cons
      (reaches_spec toSelector _ (.obj [(workloadLabel, .str workload.name)]))
    rw [spec_withSpec, withSpec_withSpec] at leads
    exact leads
  cases names with
  | nil => exact pooled.append .nil
  | cons host rest =>
    have leads := pooled.append (reaches_spec toAffinity _
      (Affinity.excluding ((host :: rest).mergeSort fun a b => decide (a ≤ b))))
    rw [spec_withSpec, withSpec_withSpec] at leads
    exact leads

theorem reaches_labelEntries (pod : Pod) (workload : WorkloadClass) (ns : Text) (m : Manifest) :
    Reaches (pod.labelEntries workload ns) m
      (m.withMetadata (pod.labelledMetadata workload ns m.metadata)) := by
  have leads : Pointer.segments? "/metadata/labels" = some (["metadata", "labels"] : List Text) := by rfl
  exact reaches_metadata leads ..

/-- The entries that shrink requests rewrite the items under both fields and change nothing else. -/
theorem reaches_of_reductionEntries {factor : Binary64} {entries : List Patch.Entry}
    (begins : Container.listOf m.spec "initContainers" = .ok pod.initContainers)
    (follows : Container.listOf m.spec "containers" = .ok pod.containers)
    (reduced : pod.reductionEntries factor = .ok entries) :
    ∃ spec, Reaches entries m (m.withSpec spec) ∧
      Fields.AgreeBeside ["initContainers", "containers"] m.spec spec ∧
      ∀ kind ∈ ["initContainers", "containers"],
        Container.ItemsBecome (Container.Shrinks factor) (Fields.get? m.spec kind) (Fields.get? spec kind) := by
  simp only [reductionEntries, Fallible.bind_eq_ok, Fallible.pure_eq_ok] at reduced
  obtain ⟨first, reduces, second, reducesToo, rfl⟩ := reduced
  obtain ⟨spec, leads, become, agree⟩ := Container.reaches_of_reductions (by decide) begins reduces
  have same : Fields.get? spec "containers" = Fields.get? m.spec "containers" := agree _ (by decide)
  have followsOn : Container.listOf (m.withSpec spec).spec "containers" = .ok pod.containers :=
    (Container.listOf_congr (Fields.get_congr same)).trans follows
  obtain ⟨spec', leadsOn, becomeToo, agreeToo⟩ :=
    Container.reaches_of_reductions (by decide) followsOn reducesToo
  rw [spec_withSpec] at becomeToo agreeToo
  rw [withSpec_withSpec] at leadsOn
  refine ⟨spec', leads.append leadsOn, (agree.mono (by simp)).trans (agreeToo.mono (by simp)), ?_⟩
  simp only [List.forall_mem_cons]
  refine ⟨?_, ?_, by simp⟩
  · rw [agreeToo _ (by decide)]
    exact become
  · rw [← same]
    exact becomeToo

/-- Exact requests shrink without a fault. -/
theorem reductionEntries_isOk {factor : Binary64} (exact : pod.IsExact) (above : factor.isPositive = true) :
    ∃ reductions, pod.reductionEntries factor = .ok reductions := by
  obtain ⟨exactFirst, exactSecond⟩ := List.forall_mem_append.mp exact
  obtain ⟨first, reduces⟩ := Container.reductions_isOk "initContainers" exactFirst above
  obtain ⟨second, reducesToo⟩ := Container.reductions_isOk "containers" exactSecond above
  refine ⟨first ++ second, ?_⟩
  rw [reductionEntries, reduces, Fallible.ok_bind, reducesToo]
  rfl

/-- Applying the patch of a pod of some class marks and labels its metadata, and shrinks and steers its
spec. -/
theorem reaches_classified (inside : pod.classify ns name ≠ .unclassified)
    (begins : Container.listOf m.spec "initContainers" = .ok pod.initContainers)
    (follows : Container.listOf m.spec "containers" = .ok pod.containers) {factor : Binary64}
    {reductions : List Patch.Entry} (reduced : pod.reductionEntries factor = .ok reductions)
    (names : List Text) :
    ∃ shrunk target, Reaches (pod.evictionEntries ns name ++ reductions ++
        poolEntries (pod.classify ns name) ++ hostEntries names ++
        pod.labelEntries (pod.classify ns name) ns) m target ∧
      Fields.AgreeBeside ["metadata", "spec"] m.fields target.fields ∧
      target.metadata = pod.admittedMetadata ns name m.metadata ∧
      target.spec = steeredSpec (pod.classify ns name) names shrunk ∧
      Fields.AgreeBeside ["initContainers", "containers"] m.spec shrunk ∧
      ∀ kind ∈ ["initContainers", "containers"],
        Container.ItemsBecome (Container.Shrinks factor) (Fields.get? m.spec kind)
          (Fields.get? shrunk kind) := by
  have marks := reaches_evictionEntries pod ns name m
  obtain ⟨shrunk, shrinks, agree, become⟩ := reaches_of_reductionEntries
    (m := m.withMetadata (pod.markedMetadata ns name m.metadata)) begins follows reduced
  have steers := (marks.append shrinks).append
    (reaches_steeringEntries (pod.classify ns name) names _)
  have leads := steers.append (reaches_labelEntries pod (pod.classify ns name) ns _)
  rw [← List.append_assoc (_ ++ reductions)] at leads
  refine ⟨shrunk, _, leads, ?_, ?_, rfl, agree, become⟩
  · exact (agreeBeside_withMetadata m _).trans ((agreeBeside_withSpec _ _).trans
      ((agreeBeside_withSpec _ _).trans (agreeBeside_withMetadata _ _)))
  · simp only [metadata_withMetadata, metadata_withSpec, admittedMetadata, inside, if_false]

/-! ### What stands after an application -/

theorem markedMetadata_labelled (metadata : Fields Json) :
    pod.markedMetadata ns name (pod.labelledMetadata workload ns
        (pod.markedMetadata ns name metadata)) =
      pod.labelledMetadata workload ns (pod.markedMetadata ns name metadata) := by
  unfold markedMetadata labelledMetadata
  split
  · exact Fields.insert_get? (by rw [Fields.get?_insert_ne _ _ (by decide), Fields.get?_insert_self])
  · rfl

theorem markedMetadata_again (metadata : Fields Json) :
    pod.markedMetadata ns name (pod.markedMetadata ns name metadata) =
      pod.markedMetadata ns name metadata := by
  unfold markedMetadata
  split
  · exact Fields.insert_insert ..
  · rfl

theorem steeredSpec_again (spec : Fields Json) :
    steeredSpec workload names (steeredSpec workload names spec) = steeredSpec workload names spec := by
  have runtime : Fields.get? (steeredSpec workload names spec) "runtimeClassName" =
      some (.str (runtimeClassName workload)) := by
    unfold steeredSpec
    split <;> simp
  have selector : Fields.get? (steeredSpec workload names spec) "nodeSelector" =
      some (.obj [(workloadLabel, .str workload.name)]) := by
    unfold steeredSpec
    split <;> simp
  have affinity (some : ¬ names.isEmpty = true) :
      Fields.get? (steeredSpec workload names spec) "affinity" =
        .some (Affinity.excluding (names.mergeSort fun a b => decide (a ≤ b))) := by
    rw [steeredSpec, if_neg some, Fields.get?_insert_self]
  generalize steeredSpec workload names spec = written at *
  simp only [steeredSpec, Fields.insert_get? runtime, Fields.insert_get? selector]
  split
  · rfl
  next some => exact Fields.insert_get? (affinity some)

theorem agreeBeside_steeredSpec (workload : WorkloadClass) (names : List Text) (spec : Fields Json) :
    Fields.AgreeBeside ["runtimeClassName", "nodeSelector", "affinity"] spec
      (steeredSpec workload names spec) := by
  intro key apart
  simp only [List.mem_cons, List.not_mem_nil, or_false, not_or] at apart
  obtain ⟨runtime, selector, affinity⟩ := apart
  unfold steeredSpec
  split <;> simp [runtime, selector, affinity]

theorem reaches_standingEntries
    (marked : pod.markedMetadata ns name m.metadata = m.metadata)
    (steered : pod.classify ns name ≠ .unclassified →
      steeredSpec (pod.classify ns name) names m.spec = m.spec ∧
        pod.labelledMetadata (pod.classify ns name) ns m.metadata = m.metadata) :
    Reaches (pod.standingEntries ns name names) m m := by
  have marks := reaches_evictionEntries pod ns name m
  rw [marked, withMetadata_self] at marks
  unfold standingEntries
  split
  · exact marks.append .nil
  next inside =>
    obtain ⟨spec, metadata⟩ := steered inside
    have steers := reaches_steeringEntries (pod.classify ns name) names m
    have labels := reaches_labelEntries pod (pod.classify ns name) ns m
    rw [spec, withSpec_self] at steers
    rw [metadata, withMetadata_self] at labels
    exact marks.append (steers.append labels)

/-! ### One admission -/

theorem agreeBeside_markedMetadata (pod : Pod) (ns name : Text) (metadata : Fields Json) :
    Fields.AgreeBeside ["annotations"] metadata (pod.markedMetadata ns name metadata) := by
  have unmarked := Fields.AgreeBeside.refl ["annotations"] metadata
  unfold markedMetadata
  split
  · exact unmarked.insert (by simp) _
  · exact unmarked

theorem agreeBeside_admitted_marked (pod : Pod) (ns name : Text) (metadata : Fields Json) :
    Fields.AgreeBeside ["labels"] (pod.markedMetadata ns name metadata)
      (pod.admittedMetadata ns name metadata) := by
  have unlabelled := Fields.AgreeBeside.refl ["labels"] (pod.markedMetadata ns name metadata)
  unfold admittedMetadata
  split
  · exact unlabelled
  · exact unlabelled.insert (by simp) _

theorem agreeBeside_admittedMetadata (pod : Pod) (ns name : Text) (metadata : Fields Json) :
    Fields.AgreeBeside ["annotations", "labels"] metadata (pod.admittedMetadata ns name metadata) :=
  ((agreeBeside_markedMetadata pod ns name metadata).mono (by simp)).trans
    ((agreeBeside_admitted_marked pod ns name metadata).mono (by simp))

theorem texts_labels_admitted {metadata : Fields Json}
    (labels : Fields.texts metadata "pod" "labels" = .ok pod.labels) :
    Fields.texts (pod.admittedMetadata ns name metadata) "pod" "labels" =
      .ok (pod.admitted ns name settings).labels := by
  simp only [admittedMetadata, admitted]
  split
  · rw [Fields.texts_congr ((agreeBeside_markedMetadata pod ns name metadata).get (by decide)), labels]
  · exact Fields.texts_textsToJson (Fields.get_insert_self ..) "pod"

theorem texts_annotations_admitted {metadata : Fields Json}
    (annotations : Fields.texts metadata "pod" "annotations" = .ok pod.annotations) :
    Fields.texts (pod.admittedMetadata ns name metadata) "pod" "annotations" =
      .ok (pod.admitted ns name settings).annotations := by
  rw [Fields.texts_congr ((agreeBeside_admitted_marked pod ns name metadata).get (by decide))]
  simp only [markedMetadata, admitted]
  split
  · exact Fields.texts_textsToJson (Fields.get_insert_self ..) "pod"
  · exact annotations

/-- Decoding a manifest with the metadata and containers that an admission leaves. -/
theorem ofJson_admitted (decoded : ofJson m.toJson = .ok pod) {target : Manifest}
    (metadata : target.metadata = pod.admittedMetadata ns name m.metadata)
    (begins : Container.listOf target.spec "initContainers" =
      .ok (pod.admitted ns name settings).initContainers)
    (follows : Container.listOf target.spec "containers" =
      .ok (pod.admitted ns name settings).containers) :
    ofJson target.toJson = .ok (pod.admitted ns name settings) := by
  obtain ⟨named, spaced, labels, annotations, -, -⟩ := ofJson_eq_ok.mp decoded
  have agree := agreeBeside_admittedMetadata pod ns name m.metadata
  rw [ofJson_eq_ok, metadata]
  refine ⟨?_, ?_, texts_labels_admitted labels, texts_annotations_admitted annotations, begins,
    follows⟩
  · rwa [agree.get (by decide)]
  · rwa [agree.get (by decide)]

/-- An admission succeeds whatever the source tells. Its patch applies, the result decodes to the
admitted pod, and the standing entries would leave the result as it is. -/
theorem admits (decoded : ofJson m.toJson = .ok pod) (exact : pod.IsExact)
    (positive : settings.HasPositiveFactors)
    (told : source.Tells (pod.classify ns name) names) :
    ∃ patch target, (pod.patch ns name settings source).outcome = .ok (pod.classify ns name, patch) ∧
      Reaches patch.entries m target ∧
      ofJson target.toJson = .ok (pod.admitted ns name settings) ∧
      Reaches (pod.standingEntries ns name names) target target := by
  have marks := reaches_evictionEntries pod ns name m
  obtain ⟨-, -, -, -, begins, follows⟩ := ofJson_eq_ok.mp decoded
  by_cases outside : pod.classify ns name = .unclassified
  · refine ⟨_, _, ?_, marks, ?_, ?_⟩
    · rw [outside]
      exact patch_unclassified outside
    · apply ofJson_admitted decoded
      · simp only [metadata_withMetadata, admittedMetadata, outside, if_true]
      · simpa only [spec_withMetadata, admitted, admittedContainers, outside, if_true] using begins
      · simpa only [spec_withMetadata, admitted, admittedContainers, outside, if_true] using follows
    · exact reaches_standingEntries (markedMetadata_again _) fun inside => absurd outside inside
  · have above := positive.cpuFactor (pod.classify ns name)
    obtain ⟨exactFirst, exactSecond⟩ := List.forall_mem_append.mp exact
    obtain ⟨reductions, reduced⟩ := reductionEntries_isOk exact above
    obtain ⟨shrunk, target, leads, -, metadata, spec, -, become⟩ :=
      reaches_classified outside begins follows reduced names
    have steered := agreeBeside_steeredSpec (pod.classify ns name) names shrunk
    refine ⟨⟨_⟩, target, ?_, leads, ?_, ?_⟩
    · rw [patch_classified outside told, reduced]
      rfl
    · apply ofJson_admitted decoded metadata
      · simp only [spec, admitted, admittedContainers, outside, if_false]
        exact (Container.listOf_congr (steered.get (by decide))).trans
          (Container.listOf_settledAll begins exactFirst above (become _ (by simp)))
      · simp only [spec, admitted, admittedContainers, outside, if_false]
        exact (Container.listOf_congr (steered.get (by decide))).trans
          (Container.listOf_settledAll follows exactSecond above (become _ (by simp)))
    · rw [admittedMetadata, if_neg outside] at metadata
      refine reaches_standingEntries ?_ fun _ => ⟨?_, ?_⟩
      · rw [metadata]
        exact markedMetadata_labelled _
      · rw [spec]
        exact steeredSpec_again _
      · rw [metadata]
        exact Fields.insert_insert ..

end Pod
end WorkloadAdmission
