import WorkloadAdmission.Text.Basic

/-! The classes of CI workloads and the states in which a node avoids new work. -/
namespace WorkloadAdmission

inductive WorkloadClass where
  | unclassified
  | builds
  | tests
  | longTests
  | prowJobs
  deriving DecidableEq

namespace WorkloadClass

/-- The name that labels, selectors and published verdicts use. -/
def name : WorkloadClass → Text
  | .unclassified => ""
  | .builds => "builds"
  | .tests => "tests"
  | .longTests => "longtests"
  | .prowJobs => "prowjobs"

def all : List WorkloadClass := [.unclassified, .builds, .tests, .longTests, .prowJobs]

def ofName? (s : Text) : Option WorkloadClass := all.find? fun c => c.name = s

def isTest (c : WorkloadClass) : Bool := c = .tests || c = .longTests

end WorkloadClass

/-- How strongly a node keeps new pods away. -/
inductive Avoidance where
  | off
  | preferNoSchedule
  | noSchedule
  deriving DecidableEq

namespace Avoidance

def name : Avoidance → Text
  | .off => "Off"
  | .preferNoSchedule => "PreferNoSchedule"
  | .noSchedule => "NoSchedule"

def all : List Avoidance := [.off, .preferNoSchedule, .noSchedule]

def ofName? (s : Text) : Option Avoidance := all.find? fun a => a.name = s

/-- The effect of the taint that a state asks for; the state `off` asks for none. -/
def effect? : Avoidance → Option Text
  | .off => none
  | .preferNoSchedule => some "PreferNoSchedule"
  | .noSchedule => some "NoSchedule"

end Avoidance

/-- The label of a pod or node that holds its class. -/
def workloadLabel : Text := "ci-workload"

def workloadNamespaceLabel : Text := "ci-workload-namespace"

end WorkloadAdmission
