import WorkloadAdmission.Base64
import WorkloadAdmission.Json.Printer

/-! Patches of a JSON document, after RFC 6902: a list of entries, each with an operation, a path and
a value. A patch is written as the array of its entries. Paths are those of RFC 6901: segments behind
slashes, in which a tilde is written `~0` and a slash `~1`. Applying a patch covers the one operation
that an admission patch uses, `add`, which sets a field, inserts an item or replaces the whole. -/
namespace WorkloadAdmission

namespace Pointer

def slash : CodePoint := .char '/'
def tilde : CodePoint := .char '~'

def escapedPoint (p : CodePoint) : List CodePoint :=
  if p = tilde then [tilde, .char '0'] else if p = slash then [tilde, .char '1'] else [p]

def escape (segment : Text) : Text := .ofPoints (segment.points.flatMap escapedPoint)

/-- Replaces each tilde that `digit` follows, together with it. -/
def replaceTilde (digit : Char) (replacement : CodePoint) : List CodePoint → List CodePoint
  | [] => []
  | [p] => [p]
  | p :: q :: rest =>
    if p = tilde && q = .char digit then replacement :: replaceTilde digit replacement rest
    else p :: replaceTilde digit replacement (q :: rest)

/-- The segment that stands in a path: slashes are restored first, so that `~01` is `~1`. -/
def unescape (written : List CodePoint) : Text :=
  .ofPoints (replaceTilde '0' tilde (replaceTilde '1' slash written))

/-- The segments of a path. The empty path has none; any other starts with a slash. -/
def segments? (path : Text) : Option (List Text) :=
  match path.points with
  | [] => some []
  | p :: rest => if p = slash then some ((rest.splitOn slash).map unescape) else none

end Pointer

/-- Why a value cannot go into a patch. -/
inductive PatchFault where
  | notFinite
  | hostname (value : Json)
  deriving DecidableEq

def PatchFault.message : PatchFault → String
  | .notFinite => "error marshalling jsonpatch: Out of range float values are not JSON compliant"
  | .hostname value => "error converting affinity: hostname " ++ value.describe ++ " is not a string"

structure Patch.Entry where
  op : Text
  path : Text
  value : Json
  deriving DecidableEq

structure Patch where
  entries : List Patch.Entry
  deriving DecidableEq

namespace Patch

def Entry.toJson (e : Entry) : Json :=
  .obj [("op", .str e.op), ("path", .str e.path), ("value", e.value)]

def Entry.add (path : Text) (value : Json) : Entry := ⟨"add", path, value⟩

def empty : Patch := ⟨[]⟩

def isEmpty (p : Patch) : Bool := p.entries.isEmpty

def size (p : Patch) : Nat := p.entries.length

def push (p : Patch) (e : Entry) : Patch := ⟨p.entries ++ [e]⟩

def toJson (p : Patch) : Json := .arr (p.entries.map Entry.toJson)

/-- The text of a patch; JSON has none for a number that is not finite. -/
def serialize (p : Patch) : Except PatchFault String :=
  if p.toJson.isFinite then .ok p.toJson.render else .error .notFinite

def encode (p : Patch) : Except PatchFault String := p.serialize.map fun text => Base64.encode text.toUTF8

/-! ### Application -/

/-- The position that a segment names in an array of some length; `-` is the one behind the last. -/
def position? (segment : Text) (length : Nat) : Option Nat :=
  if segment = "-" then some length
  else (List.range (length + 1)).find? fun i => toString i = segment

/-- Adds a value at the end of a path whose other segments lead to an object or array. -/
def addAt? (value : Json) : List Text → Json → Option Json
  | [], _ => some value
  | [key], .obj fields => some (.obj (Fields.insert key value fields))
  | [key], .arr items => (position? key items.length).map fun i => .arr (items.insertIdx i value)
  | key :: rest, .obj fields => do
    let inner ← addAt? value rest (← Fields.get? fields key)
    return .obj (Fields.insert key inner fields)
  | key :: rest, .arr items => do
    let i ← position? key items.length
    let inner ← addAt? value rest (← items[i]?)
    return .arr (items.set i inner)
  | _, _ => none

/-- Applies one entry, if its operation is `add` and its path leads somewhere. -/
def Entry.applied? (e : Entry) (document : Json) : Option Json := do
  guard (e.op = "add")
  addAt? e.value (← Pointer.segments? e.path) document

def applied? (p : Patch) (document : Json) : Option Json :=
  p.entries.foldlM (fun d e => e.applied? d) document

end Patch
end WorkloadAdmission
