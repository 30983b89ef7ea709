import WorkloadAdmission.Review

/-! Pods, as far as admission looks at them: names, labels, annotations and the requests of their
containers. -/
namespace WorkloadAdmission

/-- A container: its name, all its resource requests, and the one for CPU in millicores. -/
structure Container where
  name : Text
  requests : Fields Json
  cpuMillis : Option Int
  deriving DecidableEq

namespace Container

/-- The millicores of a CPU request. A text that is no quantity is the object's fault; a number that
is too large to count is not. -/
def requestedMillis (quantity : Json) : Except Fault Int :=
  match Quantity.cpuMillis quantity with
  | .ok millis => .ok millis
  | .error (.arithmetic .overflow) => .error (.arithmetic .overflow)
  | .error (.arithmetic .invalidOperation) => .error (.arithmetic .invalidOperation)
  | .error (.arithmetic .infinityToInteger) => .error (.arithmetic .infinityToInteger)
  | .error cause => .error (.object (.cpuRequest quantity cause))

def ofJson : Json → Except Fault Container
  | .obj fields => do
    let resources ← (Fields.objectOrEmpty fields "resources" "container resources").mapError .object
    let requests ← (Fields.objectOrEmpty resources "requests" "container resource requests").mapError .object
    let cpuMillis ← (Fields.get? requests "cpu").mapM requestedMillis
    return ⟨(Fields.get fields "name").label, requests, cpuMillis⟩
  | _ => .error (.object (.notAnObject "container"))

def listOf (spec : Fields Json) (key : String) : Except Fault (List Container) :=
  match Fields.get spec key with
  | .null => .ok []
  | .arr items => items.mapM ofJson
  | _ => .error (.object (.notAList ("pod spec " ++ key)))

end Container

structure Pod where
  name : Text
  ns : Text
  labels : Option (Fields Text)
  annotations : Option (Fields Text)
  initContainers : List Container
  containers : List Container
  deriving DecidableEq

def Pod.ofJson : Json → Except Fault Pod
  | .obj fields => do
    let metadata := Fields.part fields "metadata"
    let spec := Fields.part fields "spec"
    let labels ← (Fields.texts metadata "pod" "labels").mapError .object
    let annotations ← (Fields.texts metadata "pod" "annotations").mapError .object
    let initContainers ← Container.listOf spec "initContainers"
    let containers ← Container.listOf spec "containers"
    return ⟨(Fields.get metadata "name").label, (Fields.get metadata "namespace").label, labels,
      annotations, initContainers, containers⟩
  | _ => .error (.object (.notAnObject "pod"))

end WorkloadAdmission
