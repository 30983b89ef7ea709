import WorkloadAdmission.Node
import WorkloadAdmission.Proofs.Manifest

/-! The reserved taints of a node, and what reconciling leaves of them. Settling takes away or renews
the first of them and keeps the others, so a list with one at most keeps one at most. A node decoded
from a manifest has the taints that stand in its spec. -/
namespace WorkloadAdmission

namespace Taint

theorem isReserved_insert_effect (taint : Taint) (value : Json) :
    isReserved (Fields.insert "effect" value taint) = isReserved taint := by
  rw [isReserved, isReserved, Fields.get?_insert_ne _ _ (by decide)]

theorem isReserved_reserved (workload effect : Text) : isReserved (reserved workload effect) = true := by
  simp [isReserved, reserved, Fields.get?]

/-- Asking for no effect takes away the first reserved taint. -/
theorem filter_settle_none (workload : Text) (taints : List Taint) :
    (settle workload none taints).taints.filter isReserved = (taints.filter isReserved).tail := by
  induction taints with
  | nil => rfl
  | cons taint rest ih =>
    cases own : isReserved taint with
    | true => simp [settle, own]
    | false => simpa [settle, own] using ih

/-- The reserved taints with an effect given to the first of them, which may be a new one. -/
def renewed (workload effect : Text) : List Taint → List Taint
  | [] => [reserved workload effect]
  | first :: rest => Fields.insert "effect" (.str effect) first :: rest

/-- Asking for an effect renews the reserved taints. -/
theorem filter_settle_eq_renewed (workload effect : Text) (taints : List Taint) :
    (settle workload (some effect) taints).taints.filter isReserved =
      renewed workload effect (taints.filter isReserved) := by
  induction taints with
  | nil => simp [settle, isReserved_reserved, renewed]
  | cons taint rest ih =>
    cases own : isReserved taint with
    | false => simpa [settle, own] using ih
    | true =>
      rw [List.filter_cons_of_pos own, renewed]
      by_cases same : Fields.get? taint "effect" = some (.str effect)
      · rw [Fields.insert_get? same]
        simp [settle, own, same]
      · simp [settle, own, same, isReserved_insert_effect]

theorem filter_settle_some (workload effect : Text) (taints : List Taint) :
    ∃ taint, Fields.get? taint "effect" = some (.str effect) ∧
      (settle workload (some effect) taints).taints.filter isReserved =
        taint :: (taints.filter isReserved).tail := by
  rw [filter_settle_eq_renewed]
  cases taints.filter isReserved with
  | nil => exact ⟨reserved workload effect, rfl, rfl⟩
  | cons first rest => exact ⟨Fields.insert "effect" (.str effect) first, Fields.get?_insert_self .., rfl⟩

end Taint

namespace Manifest

def taints (m : Manifest) : List Taint :=
  match Fields.get m.spec "taints" with
  | .arr items => items.filterMap Json.fields?
  | _ => []

def reservedTaints (m : Manifest) : List Taint := m.taints.filter Taint.isReserved

/-- The value of the label that keeps the cluster autoscaler from removing a node. -/
def scaleDownDisabled (m : Manifest) : Option Json :=
  Fields.get? (Fields.part m.metadata "labels") scaleDownDisabledLabel

end Manifest

/-- The verdict on a node that is heeded, if there is one that can be read. -/
def Verdict.Source.heededState (source : Source) (node : Text) : Option Avoidance :=
  (source.avoidance node).outcome.toOption.join

theorem Verdict.Source.heededState_eq_some_iff {source : Source} {node : Text} {state : Avoidance} :
    source.heededState node = some state ↔ (source.avoidance node).outcome = .ok (some state) := by
  unfold heededState
  cases (source.avoidance node).outcome with
  | error fault => simp [Except.toOption]
  | ok verdict => simp [Except.toOption]

namespace Node

variable {m : Manifest} {node : Node}

/-! ### Plans -/

/-- The plan for a node under the verdict that is heeded. -/
def planUnder (node : Node) (verdict : Option Avoidance) : Plan :=
  match node.workload?, verdict with
  | none, _ => ⟨none, none, .empty⟩
  | some workload, none => ⟨some workload, none, .empty⟩
  | some workload, some state =>
    let settled := Taint.reconcile node.taints workload state
    ⟨some workload, some state, ⟨if settled.changed then taintEntries settled.taints state else []⟩⟩

/-- A source has no say in the plan for a node but by the verdict on it. -/
theorem patch_outcome (node : Node) (source : Verdict.Source) :
    (node.patch source).outcome = node.planUnder (source.heededState node.name) := by
  unfold patch planUnder Verdict.Source.heededState
  cases node.workload? with
  | none => rfl
  | some workload =>
    dsimp only
    cases (source.avoidance node.name).outcome.toOption.join with
    | none => rfl
    | some state => rfl

theorem planUnder_some {workload : Text} (serves : node.workload? = some workload) (state : Avoidance) :
    node.planUnder (some state) =
      let settled := Taint.reconcile node.taints workload state
      ⟨some workload, some state, ⟨if settled.changed then taintEntries settled.taints state else []⟩⟩ := by
  unfold planUnder
  rw [serves]

/-- A plan without entries leaves the node as it is. One with entries is for a node of some class that
nobody else has cordoned, and writes its settled taints. -/
theorem planUnder_cases (node : Node) (verdict : Option Avoidance) :
    (node.planUnder verdict).patch = .empty ∨ ∃ workload state,
      node.workload? = some workload ∧ verdict = some state ∧ node.taints.any Taint.isForeign = false ∧
        node.planUnder verdict = ⟨some workload, some state,
          ⟨taintEntries (Taint.settle workload state.effect? node.taints).taints state⟩⟩ := by
  unfold planUnder
  split
  · exact .inl rfl
  · exact .inl rfl
  next workload state serves =>
    dsimp only
    cases foreign : node.taints.any Taint.isForeign with
    | true =>
      left
      rw [Taint.reconcile, if_pos foreign]
      rfl
    | false =>
      rw [Taint.reconcile, foreign, if_neg Bool.false_ne_true]
      split
      · exact .inr ⟨workload, state, serves, rfl, rfl, rfl⟩
      · exact .inl rfl

/-! ### Decoding -/

theorem mapM_fields?_eq_ok {items : List Json} {taints : List Taint} :
    items.mapM (fun v => v.fields?.elim (Except.error ObjectFault.taints) Except.ok) = .ok taints ↔
      items = taints.map .obj := by
  constructor
  · intro read
    induction items generalizing taints with
    | nil =>
      cases read
      rfl
    | cons item rest ih =>
      obtain ⟨taint, others, here, there, rfl⟩ := Fallible.mapM_cons_eq_ok.mp read
      cases item with
      | obj fields =>
        cases here
        rw [List.map_cons, ih there]
      | null | bool | int | float | str | arr => cases here
  · rintro rfl
    apply Fallible.mapM_map
    intro taint
    rfl

theorem taintsOf_eq_ok {spec : Fields Json} {taints : List Taint} : taintsOf spec = .ok taints ↔
    (Fields.get spec "taints" = .null ∧ taints = []) ∨
      Fields.get spec "taints" = .arr (taints.map .obj) := by
  unfold taintsOf
  cases Fields.get spec "taints" with
  | null => simp [eq_comm]
  | arr items => simp [mapM_fields?_eq_ok]
  | bool | int | float | str | obj => simp

theorem ofJson_eq_ok : ofJson m.toJson = .ok node ↔
    node.name = (Fields.get m.metadata "name").label ∧ taintsOf m.spec = .ok node.taints ∧
      Fields.texts m.metadata "node" "labels" = .ok node.labels := by
  simp only [Manifest.toJson, ofJson, Manifest.part_metadata, Manifest.part_spec,
    Fallible.bind_eq_ok, Fallible.mapError_eq_ok, Fallible.pure_eq_ok]
  constructor
  · rintro ⟨taints, tainted, labels, labelled, rfl⟩
    exact ⟨rfl, tainted, labelled⟩
  · rintro ⟨named, tainted, labelled⟩
    refine ⟨_, tainted, _, labelled, ?_⟩
    rw [← named]

theorem filterMap_fields? (taints : List Taint) : (taints.map .obj).filterMap Json.fields? = taints := by
  rw [List.filterMap_map]
  exact List.filterMap_some

theorem taints_of_ofJson (decoded : ofJson m.toJson = .ok node) : m.taints = node.taints := by
  obtain ⟨-, tainted, -⟩ := ofJson_eq_ok.mp decoded
  unfold Manifest.taints
  rcases taintsOf_eq_ok.mp tainted with ⟨held, nothing⟩ | held
  · rw [held, nothing]
  · rw [held]
    exact filterMap_fields? node.taints

end Node
end WorkloadAdmission
