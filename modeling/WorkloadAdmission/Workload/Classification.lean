import WorkloadAdmission.Pod.Basic
import WorkloadAdmission.Workload.Class

/-! Which node pool a pod belongs to. Pods that Prow creates in the namespace `ci` are the jobs
themselves. Pods in the namespace of a job are builds if a build name labels them and tests
otherwise, unless they request a resource that the pools do not have; a test whose name marks a long
run has a pool of its own. -/
namespace WorkloadAdmission

def ciNamespace : Text := "ci"
def jobNamespacePrefixes : List Text := ["ci-op-", "ci-ln-"]
def createdByProwLabel : Text := "created-by-prow"
def buildNameLabel : Text := "openshift.io/build.name"

/-- The resources that every pool has. -/
def standardResources : List Text := ["cpu", "memory", "ephemeral-storage"]

def longTestStarts : List Text :=
  ["release-images-", "release-analysis-aggregator-", "e2e-aws-upgrade", "rpm-repo", "osde2e-stage",
    "e2e-aws-cnv"]

def longTestParts : List Text := ["ovn-upgrade-ipi", "ovn-upgrade-ovn", "ovn-upgrade-openshift-e2e-test"]

def isLongTest (name : Text) : Bool :=
  longTestStarts.any (Text.beginsWith name) || longTestParts.any (Text.holds name)

/-- Whether some container requests a resource that not every pool has. -/
def requestsSpecial (containers : List Container) : Bool :=
  containers.any fun c => c.requests.any fun (key, _) => !standardResources.contains key

def Pod.hasLabel (pod : Pod) (label : Text) : Bool := (Fields.get? (pod.labels.getD []) label).isSome

/-- The class of a pod under the namespace and name that it is admitted with. -/
def Pod.classify (pod : Pod) (ns name : Text) : WorkloadClass :=
  if ns = ciNamespace then
    if pod.hasLabel createdByProwLabel then .prowJobs else .unclassified
  else if !jobNamespacePrefixes.any (Text.beginsWith ns) then .unclassified
  else if requestsSpecial pod.initContainers || requestsSpecial pod.containers then .unclassified
  else if pod.hasLabel buildNameLabel then .builds
  else if isLongTest name then .longTests
  else .tests

/-- Namespaces beside the `openshift-` ones whose pods may be evicted. -/
def evictableNamespaces : List Text := ["rh-corp-logging", "ocp", "cert-manager"]

/-- Whether a pod must be marked as safe to evict, since it would keep the autoscaler from removing
its node: operator pods and operator catalogs, wherever they run. -/
def needsSafeToEvict (ns name : Text) : Bool :=
  Text.beginsWith ns "openshift-" || Text.holds name "-catalog-" || evictableNamespaces.contains ns

end WorkloadAdmission
