import WorkloadAdmission.Proofs.Taints

/-! Draining a node over any run. Verdicts come and go, and others change taints and labels in
between, but the reserved taint and the label that stops the cluster autoscaler are only ever written
together. So they agree in every state that is reached: there is one reserved taint at most, and the
label is `true` exactly when that taint lets no new pod in. -/
namespace WorkloadAdmission

namespace Manifest

/-- The labels of a manifest are an object. -/
def HasLabels (m : Manifest) : Prop := ∃ labels, Fields.get? m.metadata "labels" = some (.obj labels)

/-- There is one reserved taint at most, and it keeps all new pods away exactly while the label keeps
the cluster autoscaler away. -/
structure Agrees (m : Manifest) : Prop where
  single : m.reservedTaints.length ≤ 1
  label_iff : m.scaleDownDisabled = some (.str "true") ↔
    ∃ taint ∈ m.reservedTaints, Fields.get? taint "effect" = some (.str "NoSchedule")

/-- The manifest with other taints and another value of the label. -/
def withTaints (m : Manifest) (taints : List Taint) (disabled : Text) : Manifest :=
  (m.withSpec (Fields.insert "taints" (.arr (taints.map .obj)) m.spec)).withMetadata
    (Fields.insert "labels" (.obj (Fields.insert scaleDownDisabledLabel (.str disabled)
      (Fields.part m.metadata "labels"))) m.metadata)

variable {m target : Manifest} {taints : List Taint} {disabled : Text}

@[simp] theorem taints_withTaints : (m.withTaints taints disabled).taints = taints := by
  simp only [Manifest.taints, withTaints, spec_withMetadata, spec_withSpec, Fields.get_insert_self]
  exact Node.filterMap_fields? taints

@[simp] theorem scaleDownDisabled_withTaints :
    (m.withTaints taints disabled).scaleDownDisabled = some (.str disabled) := by
  rw [scaleDownDisabled, withTaints, metadata_withMetadata,
    Fields.part_of_get? (Fields.get?_insert_self ..), Fields.get?_insert_self]

theorem hasLabels_withTaints : (m.withTaints taints disabled).HasLabels :=
  ⟨_, Fields.get?_insert_self ..⟩

theorem reaches_taintEntries (labelled : m.HasLabels) (state : Avoidance) :
    Reaches (Node.taintEntries taints state) m
      (m.withTaints taints (if state = .noSchedule then "true" else "false")) := by
  obtain ⟨labels, held⟩ := labelled
  have toTaints : Pointer.segments? "/spec/taints" = some (["spec", "taints"] : List Text) := by rfl
  have toLabel : Pointer.segments? ("/metadata/labels/" ++ Pointer.escape scaleDownDisabledLabel) =
      some (["metadata", "labels", scaleDownDisabledLabel] : List Text) := by rfl
  refine (reaches_spec toTaints m _).cons (reaches_addAt?_metadata toLabel ?_)
  rw [Fields.part_of_get? held]
  exact Patch.addAt?_field held rfl

end Manifest

/-! ### Runs -/

/-- What other actors may do to a node: anything that leaves the reserved taints and the label of the
cluster autoscaler as they are, and the labels an object. -/
structure OtherChange (m target : Manifest) : Prop where
  hasLabels : target.HasLabels
  reservedTaints : target.reservedTaints = m.reservedTaints
  scaleDownDisabled : target.scaleDownDisabled = m.scaleDownDisabled

/-- The states that a node reaches by admissions under any verdicts and by changes of other actors. -/
inductive NodeReachable (start : Manifest) : Manifest → Prop where
  | start : NodeReachable start start
  | admitted {m target : Manifest} {node : Node} (source : Verdict.Source) :
      NodeReachable start m → Node.ofJson m.toJson = .ok node →
      (node.patch source).outcome.patch.applied? m.toJson = some target.toJson →
      NodeReachable start target
  | changed {m target : Manifest} :
      NodeReachable start m → OtherChange m target → NodeReachable start target

namespace Node

variable {m target : Manifest} {node : Node}

/-- The patch of a node writes nothing, or settled taints and the label that goes with them. -/
theorem patch_cases (node : Node) (source : Verdict.Source) :
    (node.patch source).outcome.patch = .empty ∨ ∃ workload state,
      (node.patch source).outcome.patch =
        ⟨taintEntries (Taint.settle workload (Avoidance.effect? state) node.taints).taints state⟩ := by
  rw [patch_outcome]
  rcases node.planUnder_cases (source.heededState node.name) with
    nothing | ⟨workload, state, -, -, -, plans⟩
  · exact .inl nothing
  · exact .inr ⟨workload, state, by rw [plans]⟩

/-- The node with other taints and another value of the label that stops the cluster autoscaler. -/
def withTaints (node : Node) (taints : List Taint) (disabled : Text) : Node :=
  { node with labels := node.labels.map (Fields.insert scaleDownDisabledLabel disabled), taints := taints }

end Node

namespace Manifest

variable {m target : Manifest} {node : Node}

/-- Settling the taints of a verdict and setting the label with them keeps the two in agreement. -/
theorem Agrees.settled (agrees : m.Agrees) (workload : Text) (state : Avoidance) :
    (m.withTaints (Taint.settle workload state.effect? m.taints).taints
      (if state = .noSchedule then "true" else "false")).Agrees := by
  have alone : m.reservedTaints.tail = [] := by
    rw [← List.length_eq_zero_iff, List.length_tail]
    exact Nat.sub_eq_zero_of_le agrees.single
  have none : ((Taint.settle workload .none m.taints).taints.filter Taint.isReserved) = [] :=
    (Taint.filter_settle_none workload m.taints).trans alone
  have some (effect : Text) : ∃ taint, Fields.get? taint "effect" = .some (.str effect) ∧
      ((Taint.settle workload (.some effect) m.taints).taints.filter Taint.isReserved) = [taint] := by
    obtain ⟨taint, held, settled⟩ := Taint.filter_settle_some workload effect m.taints
    exact ⟨taint, held, settled.trans (congrArg _ alone)⟩
  cases state with
  | off =>
    constructor <;> simp [reservedTaints, Avoidance.effect?, none]
  | preferNoSchedule =>
    obtain ⟨taint, held, settled⟩ := some "PreferNoSchedule"
    constructor <;> simp [reservedTaints, Avoidance.effect?, settled, held]
  | noSchedule =>
    obtain ⟨taint, held, settled⟩ := some "NoSchedule"
    constructor <;> simp [reservedTaints, Avoidance.effect?, settled, held]

theorem ofJson_withTaints (decoded : Node.ofJson m.toJson = .ok node) (labelled : m.HasLabels)
    (taints : List Taint) (disabled : Text) :
    Node.ofJson (m.withTaints taints disabled).toJson = .ok (node.withTaints taints disabled) := by
  obtain ⟨entries, held⟩ := labelled
  obtain ⟨named, -, labels⟩ := Node.ofJson_eq_ok.mp decoded
  obtain ⟨written, same, rfl⟩ := Fields.textsToJson_of_get?_obj held labels
  refine Node.ofJson_eq_ok.mpr ⟨?_, Node.taintsOf_eq_ok.mpr (.inr (Fields.get_insert_self ..)), ?_⟩
  · rw [Node.withTaints, named, withTaints, metadata_withMetadata, Fields.get_insert_ne _ _ (by decide)]
  · rw [Node.withTaints, same]
    apply Fields.texts_textsToJson
    rw [withTaints, metadata_withMetadata, Fields.get_insert_self, Fields.part_of_get? held,
      Fields.insert_texts]
    rfl

/-- An admission of a node that can be decoded succeeds, leaves one that can be decoded, and keeps
taint and label in agreement. -/
theorem admits_node (decoded : Node.ofJson m.toJson = .ok node) (labelled : m.HasLabels)
    (source : Verdict.Source) :
    ∃ target : Manifest, (node.patch source).outcome.patch.applied? m.toJson = some target.toJson ∧
      (∃ node', Node.ofJson target.toJson = .ok node') ∧ target.HasLabels ∧
      (m.Agrees → target.Agrees) := by
  rcases node.patch_cases source with nothing | ⟨workload, state, settles⟩
  · exact ⟨m, by rw [nothing]; rfl, ⟨node, decoded⟩, labelled, id⟩
  · rw [settles, ← Node.taints_of_ofJson decoded]
    exact ⟨_, reaches_taintEntries labelled state, ⟨_, ofJson_withTaints decoded labelled _ _⟩,
      hasLabels_withTaints, fun agrees => agrees.settled workload state⟩

end Manifest

namespace NodeReachable

variable {start m : Manifest}

theorem hasLabels (reached : NodeReachable start m) (labelled : start.HasLabels) : m.HasLabels := by
  induction reached with
  | start => exact labelled
  | admitted source _ decoded applied ih =>
    obtain ⟨target, leads, -, labelled, -⟩ := Manifest.admits_node decoded ih source
    rwa [Manifest.toJson_injective (Option.some.inj (applied.symm.trans leads))]
  | changed _ change _ => exact change.hasLabels

/-- One admission and one change of another actor keep taint and label in agreement. -/
theorem agrees (reached : NodeReachable start m) (labelled : start.HasLabels)
    (agreed : start.Agrees) : m.Agrees := by
  induction reached with
  | start => exact agreed
  | admitted source reachedBefore decoded applied ih =>
    obtain ⟨target, leads, -, -, keeps⟩ :=
      Manifest.admits_node decoded (reachedBefore.hasLabels labelled) source
    rw [Manifest.toJson_injective (Option.some.inj (applied.symm.trans leads))]
    exact keeps ih
  | changed _ change ih =>
    constructor
    · rw [change.reservedTaints]
      exact ih.single
    · rw [change.scaleDownDisabled, change.reservedTaints]
      exact ih.label_iff

/-- In every state that is reached from an untouched node there is one reserved taint at most, and
the label keeps the cluster autoscaler away exactly while that taint keeps all new pods away. No
verdict stops a run: a node that can be decoded is admitted, and can be decoded afterwards. -/
theorem taint_and_label_agree (reached : NodeReachable start m) (labelled : start.HasLabels)
    (untainted : start.reservedTaints = []) (unlabelled : start.scaleDownDisabled ≠ some (.str "true")) :
    m.reservedTaints.length ≤ 1 ∧
      (m.scaleDownDisabled = some (.str "true") ↔
        ∃ taint ∈ m.reservedTaints, Fields.get? taint "effect" = some (.str "NoSchedule")) ∧
      ∀ source node, Node.ofJson m.toJson = .ok node →
        ∃ target node', (node.patch source).outcome.patch.applied? m.toJson = some target.toJson ∧
          Node.ofJson target.toJson = .ok node' ∧ NodeReachable start target := by
  have agreed : start.Agrees := ⟨by simp [untainted], by simp [untainted, unlabelled]⟩
  obtain ⟨single, label_iff⟩ := reached.agrees labelled agreed
  refine ⟨single, label_iff, ?_⟩
  intro source node decoded
  obtain ⟨target, leads, ⟨node', decodes⟩, -, -⟩ :=
    Manifest.admits_node decoded (reached.hasLabels labelled) source
  exact ⟨target, node', leads, decodes, .admitted source reached decoded leads⟩

/-- A node that is drained and then cordoned by someone else. -/
theorem taint_and_label_agree_cordoned :
    let start : Manifest := .bare [("name", .str "n"), ("labels", .obj [("ci-workload", .str "tests")])] []
    let drained := start.withTaints [Taint.reserved "tests" "NoSchedule"] "true"
    let cordoned := drained.withSpec [("taints", .arr [.obj [("key", .str "unschedulable"),
      ("effect", .str "NoSchedule")], .obj (Taint.reserved "tests" "NoSchedule")])]
    cordoned.reservedTaints.length ≤ 1 ∧
      (cordoned.scaleDownDisabled = some (.str "true") ↔
        ∃ taint ∈ cordoned.reservedTaints, Fields.get? taint "effect" = some (.str "NoSchedule")) ∧
      ∀ source node, Node.ofJson cordoned.toJson = .ok node →
        ∃ target node', (node.patch source).outcome.patch.applied? cordoned.toJson = some target.toJson ∧
          Node.ofJson target.toJson = .ok node' ∧ NodeReachable start target := by
  intro start drained cordoned
  have decoded : Node.ofJson start.toJson = .ok ⟨"n", some [("ci-workload", "tests")], []⟩ := by rfl
  have drains : NodeReachable start drained :=
    .admitted (.table ⟨[], [("n", .noSchedule)]⟩) .start decoded (by decide +kernel)
  have labelled : drained.HasLabels := Manifest.hasLabels_withTaints
  have cordons : OtherChange drained cordoned := ⟨labelled, by decide +kernel, by decide +kernel⟩
  exact taint_and_label_agree (.changed drains cordons) ⟨_, rfl⟩ (by decide +kernel) (by decide +kernel)

end NodeReachable
end WorkloadAdmission
