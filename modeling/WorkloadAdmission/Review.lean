import WorkloadAdmission.Fault

/-! Admission reviews. As one comes in, it tells what is asked about, under which name, and holds the
object itself, which is decoded later by its parts: unknown fields are ignored, metadata and spec of a
wrong type count as empty, and any other field that is read and has a wrong type is a fault. An answer
allows the object, possibly with a patch, or refuses it with a status. -/
namespace WorkloadAdmission

/-! ### Parts of an object -/

namespace Fields

def part (fields : Fields Json) (key : Text) : Fields Json :=
  match Fields.get fields key with
  | .obj inner => inner
  | _ => []

/-- The map of texts under a field, if the field is given. -/
def texts (fields : Fields Json) (kind key : String) : Except ObjectFault (Option (Fields Text)) :=
  let part := kind ++ " " ++ key
  match Fields.get fields key with
  | .null => .ok none
  | .obj entries => do
    let texts ← entries.mapM fun (k, v) =>
      match v with
      | .str s => .ok (k, s)
      | _ => .error (.notAText part k v)
    return some texts
  | _ => .error (.notAnObject part)

/-- The object under a field that may be left out or left empty in any way. -/
def objectOrEmpty (fields : Fields Json) (key : Text) (part : String) : Except ObjectFault (Fields Json) :=
  match Fields.get fields key with
  | .obj inner => .ok inner
  | v => if v.isFalsy then .ok [] else .error (.notAnObject part)

def textsToJson (texts : Fields Text) : Json := .obj (texts.map fun (k, s) => (k, .str s))

end Fields

/-! ### Requests -/

def Resource.ofJson? : Json → Option Resource
  | .obj fields =>
    some ⟨(Fields.get fields "group").label, (Fields.get fields "version").label,
      (Fields.get fields "resource").label⟩
  | _ => none

structure Review where
  apiVersion : Text
  kind : Text
  uid : Text
  name : Text
  ns : Text
  resource : Option Resource
  object : Json
  deriving DecidableEq

namespace Review

def defaultApiVersion : Text := "admission.k8s.io/v1"
def defaultKind : Text := "AdmissionReview"

/-- The text of a field, or a default where nothing is given. -/
def textOr (fields : Fields Json) (key default : Text) : Text :=
  let v := Fields.get fields key
  if v.isFalsy then default else v.text

def ofJson : Json → Except RequestFault Review
  | .obj fields =>
    match Fields.get fields "request" with
    | .obj request =>
      .ok {
        apiVersion := textOr fields "apiVersion" defaultApiVersion
        kind := textOr fields "kind" defaultKind
        uid := (Fields.get request "uid").label
        name := (Fields.get request "name").label
        ns := (Fields.get request "namespace").label
        resource := Resource.ofJson? (Fields.get request "resource")
        object := Fields.get request "object" }
    | _ => .error .noRequest
  | _ => .error .notAnObject

end Review

/-! ### Answers -/

structure Answer where
  apiVersion : Text
  kind : Text
  uid : Text
  allowed : Bool
  patch : Option String
  status : Option (Int × Text)

namespace Answer

/-- The answer that allows an object or not, with a patch unless it is empty. -/
def review (uid : Text) (allowed : Bool) (patch : Patch) (apiVersion kind : Text) :
    Except PatchFault Answer := do
  let patch ← if patch.isEmpty then pure none else some <$> patch.encode
  return ⟨apiVersion, kind, uid, allowed, patch, none⟩

def refusal (uid : Text) (code : Int) (message apiVersion kind : Text) : Answer :=
  ⟨apiVersion, kind, uid, false, none, some (code, "error during mutation operation: " ++ message)⟩

def toJson (a : Answer) : Json :=
  let patch : Fields Json :=
    match a.patch with
    | some text => [("patchType", .str "JSONPatch"), ("patch", .str text)]
    | none => []
  let status : Fields Json :=
    match a.status with
    | some (code, message) => [("status", .obj [("code", .int code), ("message", .str message)])]
    | none => []
  .obj [("apiVersion", .str a.apiVersion), ("kind", .str a.kind),
    ("response", .obj (("uid", .str a.uid) :: ("allowed", .bool a.allowed) :: (patch ++ status)))]

end Answer
end WorkloadAdmission
