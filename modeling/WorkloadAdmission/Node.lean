import WorkloadAdmission.Review
import WorkloadAdmission.Verdict

/-! Nodes, as far as admission looks at them: name, labels and taints. The reserved taint of a node is
kept in step with the verdict on it, and while the node is drained the cluster autoscaler is told not to
remove it at the same time. Without a verdict, or with one that cannot be read, the node stays as it is. -/
namespace WorkloadAdmission

/-- A taint with all its fields, known or not. -/
abbrev Taint := Fields Json

structure Node where
  name : Text
  labels : Option (Fields Text)
  taints : List Taint
  deriving DecidableEq

namespace Node

def taintsOf (spec : Fields Json) : Except ObjectFault (List Taint) :=
  match Fields.get spec "taints" with
  | .null => .ok []
  | .arr items => items.mapM fun v => v.fields?.elim (.error .taints) .ok
  | _ => .error .taints

def ofJson : Json → Except Fault Node
  | .obj fields => do
    let metadata := Fields.part fields "metadata"
    let taints ← (taintsOf (Fields.part fields "spec")).mapError .object
    let labels ← (Fields.texts metadata "node" "labels").mapError .object
    return ⟨(Fields.get metadata "name").label, labels, taints⟩
  | _ => .error (.object (.notAnObject "node"))

/-- The class of the workloads that a node serves, by its label. -/
def workload? (node : Node) : Option Text :=
  ((Fields.get? (node.labels.getD []) workloadLabel)).filter (· ≠ "")

end Node

/-! ### Taints

Only the first taint with the reserved key is ever touched. A node that someone else has cordoned is left
as it is. -/

namespace Taint

/-- The key of the taint that this service sets. -/
def reservedKey : Text := "ci-workload-avoid"

/-- Taint keys that hold this text are the cluster's own. -/
def ownMarker : Text := "ci-"

/-- Whether a taint, set by someone else, keeps all new pods away. -/
def isForeign (taint : Taint) : Bool :=
  Fields.get? taint "effect" = some (.str "NoSchedule") &&
    !Text.holds (((Fields.get? taint "key").map Json.text).getD "") ownMarker

def isReserved (taint : Taint) : Bool := Fields.get? taint "key" = some (.str reservedKey)

def reserved (workload effect : Text) : Taint :=
  [("key", .str reservedKey), ("value", .str workload), ("effect", .str effect)]

/-- A list of taints, and whether it differs from the one before. -/
structure Reconciled where
  taints : List Taint
  changed : Bool
  deriving DecidableEq

/-- Gives the first reserved taint the effect wanted, removes it if none is wanted, and appends one if
there is none. -/
def settle (workload : Text) (effect : Option Text) : List Taint → Reconciled
  | [] =>
    match effect with
    | none => ⟨[], false⟩
    | some e => ⟨[reserved workload e], true⟩
  | taint :: rest =>
    if isReserved taint then
      match effect with
      | none => ⟨rest, true⟩
      | some e =>
        if Fields.get? taint "effect" = some (.str e) then ⟨taint :: rest, false⟩
        else ⟨Fields.insert "effect" (.str e) taint :: rest, true⟩
    else
      let settled := settle workload effect rest
      ⟨taint :: settled.taints, settled.changed⟩

def reconcile (taints : List Taint) (workload : Text) (state : Avoidance) : Reconciled :=
  if taints.any isForeign then ⟨taints, false⟩ else settle workload state.effect? taints

end Taint

/-! ### Patch -/

/-- The label that keeps the cluster autoscaler from removing a node. -/
def scaleDownDisabledLabel : Text := "cluster-autoscaler.kubernetes.io/scale-down-disabled"

namespace Node

/-- What becomes of a node: its class, the verdict on it, and the patch. -/
structure Plan where
  workload : Option Text
  state : Option Avoidance
  patch : Patch

/-- The entries that write new taints and tell the autoscaler. -/
def taintEntries (taints : List Taint) (state : Avoidance) : List Patch.Entry :=
  [.add "/spec/taints" (.arr (taints.map .obj)),
    .add ("/metadata/labels/" ++ Pointer.escape scaleDownDisabledLabel)
      (.str (if state = .noSchedule then "true" else "false"))]

/-- The plan for a node. Verdicts are read for a node of some class only. -/
def patch (node : Node) (source : Verdict.Source) : Verdict.Reads Plan :=
  match node.workload? with
  | none => ⟨⟨none, none, .empty⟩, []⟩
  | some workload =>
    let verdict := source.avoidance node.name
    match verdict.outcome.toOption.join with
    | none => ⟨⟨some workload, none, .empty⟩, verdict.keys⟩
    | some state =>
      let settled := Taint.reconcile node.taints workload state
      let entries := if settled.changed then taintEntries settled.taints state else []
      ⟨⟨some workload, some state, ⟨entries⟩⟩, verdict.keys⟩

end Node
end WorkloadAdmission
