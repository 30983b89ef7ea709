import WorkloadAdmission.Pod.Reduction
import WorkloadAdmission.Settings
import WorkloadAdmission.Verdict
import WorkloadAdmission.Workload.Classification

/-! The patch that steers a pod to the node pool of its class: smaller CPU requests, the runtime
class and node selector of the pool, the hosts to keep off, and labels. Each entry writes a whole
sub-object. A verdict that cannot be read is no reason to refuse the pod: it goes unheeded. -/
namespace WorkloadAdmission

/-! ### Affinity

A node affinity that keeps a pod off some hosts: one required term with one expression, which refuses the
hosts by the values of the hostname label in ascending order. -/

namespace Affinity

def hostnameLabel : Text := "kubernetes.io/hostname"

/-- The hostnames of a list of values, ascending by code point. All have to be texts. -/
def hostnames (values : List Json) : Except PatchFault (List Text) := do
  let names ← values.mapM fun v =>
    match v with
    | .str s => .ok s
    | _ => .error (.hostname v)
  return names.mergeSort fun a b => decide (a ≤ b)

def excluding (names : List Text) : Json :=
  .obj [("nodeAffinity", .obj [("requiredDuringSchedulingIgnoredDuringExecution", .obj [
    ("nodeSelectorTerms", .arr [.obj [("matchExpressions", .arr [.obj [
      ("key", .str hostnameLabel),
      ("operator", .str "NotIn"),
      ("values", .arr (names.map .str))]])]])])])]

def ofHostnames (values : List Json) : Except PatchFault Json := (hostnames values).map excluding

end Affinity

/-! ### Entries -/

def safeToEvictAnnotation : Text := "cluster-autoscaler.kubernetes.io/safe-to-evict"

/-- The runtime class of a pool, which carries the tolerations that let a pod run there. -/
def runtimeClassName (workload : WorkloadClass) : Text := "ci-scheduler-runtime-" ++ workload.name

namespace Pod

def evictionEntries (pod : Pod) (ns name : Text) : List Patch.Entry :=
  if needsSafeToEvict ns name then
    let annotations : Fields Text := Fields.insert safeToEvictAnnotation "true" (pod.annotations.getD [])
    [.add "/metadata/annotations" (Fields.textsToJson annotations)]
  else []

/-- Shrinks the requests of all containers, the initial ones first. -/
def reductionEntries (pod : Pod) (factor : Binary64) : Except ArithmeticFault (List Patch.Entry) := do
  let first ← Container.reductions "initContainers" factor pod.initContainers
  let second ← Container.reductions "containers" factor pod.containers
  return first ++ second

def poolEntries (workload : WorkloadClass) : List Patch.Entry :=
  [.add "/spec/runtimeClassName" (.str (runtimeClassName workload)),
    .add "/spec/nodeSelector" (.obj [(workloadLabel, .str workload.name)])]

def affinityEntries (hosts : List Json) : Except PatchFault (List Patch.Entry) :=
  if hosts.isEmpty then .ok []
  else (Affinity.ofHostnames hosts).map fun affinity => [.add "/spec/affinity" affinity]

def labelEntries (pod : Pod) (workload : WorkloadClass) (ns : Text) : List Patch.Entry :=
  let labels := Fields.insert workloadNamespaceLabel ns
    (Fields.insert workloadLabel workload.name (pod.labels.getD []))
  [.add "/metadata/labels" (Fields.textsToJson labels)]

/-- The class of a pod and the patch that steers it. Verdicts are read for a pod of some class only,
and after its requests have been shrunk. -/
def patch (pod : Pod) (ns name : Text) (settings : Settings) (source : Verdict.Source) :
    Verdict.Reads (Except Fault (WorkloadClass × Patch)) :=
  let eviction := pod.evictionEntries ns name
  match pod.classify ns name with
  | .unclassified => ⟨.ok (.unclassified, ⟨eviction⟩), []⟩
  | workload =>
    match pod.reductionEntries (settings.cpuFactor workload) with
    | .error cause => ⟨.error (.arithmetic cause), []⟩
    | .ok reductions =>
      let hosts := source.precludedHosts workload
      let affinity := affinityEntries (hosts.outcome.toOption.getD [])
      let whole := affinity.map fun entries =>
        (workload, (⟨eviction ++ reductions ++ poolEntries workload ++ entries ++
          pod.labelEntries workload ns⟩ : Patch))
      ⟨whole.mapError .patch, hosts.keys⟩

end Pod
end WorkloadAdmission
