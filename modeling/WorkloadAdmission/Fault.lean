import WorkloadAdmission.Json.Patch
import WorkloadAdmission.Quantity

/-! Why an admission review is not answered with a mutation. A malformed request is the caller's
fault, status 400; anything else is status 500. -/
namespace WorkloadAdmission

/-- The kind of object that a review is about. -/
structure Resource where
  group : Text
  version : Text
  resource : Text
  deriving DecidableEq

namespace Resource

def pods : Resource := ⟨"", "v1", "pods"⟩
def nodes : Resource := ⟨"", "v1", "nodes"⟩

def text (r : Resource) : Text := r.group ++ "/" ++ r.version ++ ", Resource=" ++ r.resource

/-- The text of a resource that may not be given. -/
def optionText : Option Resource → Text
  | some r => r.text
  | none => "None"

end Resource

inductive RequestFault where
  | contentType (header : Option String)
  | unreadable
  | notAnObject
  | noRequest
  | notAPod (resource : Option Resource)
  | notANode (resource : Option Resource)
  deriving DecidableEq

def RequestFault.message : RequestFault → Text
  | .contentType header =>
    "expected application/json content-type, got " ++ (header.map fun h => Text.quoted h).getD "None"
  | .unreadable => "error getting admission review from request"
  | .notAnObject => "admission review must be a JSON object"
  | .noRequest => "admission review carries no request"
  | .notAPod resource => "did not receive pod, got " ++ Resource.optionText resource
  | .notANode resource => "did not receive node, got " ++ Resource.optionText resource

inductive ObjectFault where
  | notAnObject (part : String)
  | notAList (part : String)
  | cpuRequest (quantity : Json) (cause : QuantityFault)
  /-- A map of texts holds a value of another type. -/
  | notAText (part : String) (key : Text) (value : Json)
  | taints
  deriving DecidableEq

def ObjectFault.message : ObjectFault → Text
  | .notAnObject part => part ++ " must be an object"
  | .notAList part => part ++ " must be a list"
  | .cpuRequest quantity cause => "invalid cpu request " ++ quantity.describe ++ ": " ++ cause.message
  | .notAText part key value =>
    part ++ " value for " ++ Text.quoted key ++ " must be a string, got: " ++ value.typeName
  | .taints => "node spec taints must be a list of objects"

inductive Fault where
  | request (cause : RequestFault)
  | object (cause : ObjectFault)
  | patch (cause : PatchFault)
  | arithmetic (cause : ArithmeticFault)
  deriving DecidableEq

namespace Fault

def message : Fault → Text
  | .request cause => cause.message
  | .object cause => cause.message
  | .patch cause => cause.message
  | .arithmetic cause => cause.message

def status : Fault → Nat
  | .request _ => 400
  | _ => 500

end Fault
end WorkloadAdmission
