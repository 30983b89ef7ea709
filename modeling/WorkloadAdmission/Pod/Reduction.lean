import WorkloadAdmission.Pod.Basic

/-! Shrinking CPU requests. A request is multiplied by a factor below one, cut to a multiple of ten
millicores and stamped by a last digit one. The stamp keeps a request from being shrunk again when
the same pod is admitted once more. -/
namespace WorkloadAdmission

/-- The last millicore digit of a request that has been shrunk. -/
def signatureDigit : Int := 1

def isReduced (millis : Int) : Bool := Int.fmod millis 10 = signatureDigit

def reducedMillis (millis : Int) (factor : Binary64) : Except ArithmeticFault Int := do
  let product ← Decimal.mul (.ofInt millis) (.ofBinary64 factor)
  let whole ← product.truncate
  return Int.fdiv whole 10 * 10 + signatureDigit

namespace Container

/-- The millicores of a container whose request can shrink: positive and without the stamp. -/
def reducible? (c : Container) : Option Int := c.cpuMillis.filter fun millis => 0 < millis && !isReduced millis

/-- The requests of a container with another one for CPU, which comes first. -/
def requestsWith (c : Container) (millis : String) : Fields Json :=
  ("cpu", .str (millis ++ "m" : String)) :: Fields.erase c.requests "cpu"

def requestsPath (kind : Text) (index : Nat) : Text :=
  "/spec/" ++ kind ++ "/" ++ toString index ++ "/resources/requests"

/-- The entry that shrinks the request of a container, if there is one to shrink. -/
def reduction (kind : Text) (factor : Binary64) (index : Nat) (c : Container) :
    Except ArithmeticFault (Option Patch.Entry) :=
  c.reducible?.mapM fun millis => do
    let text ← integerText (← reducedMillis millis factor)
    return .add (requestsPath kind index) (.obj (c.requestsWith text))

/-- The entries that shrink the requests of containers from a position on. -/
def reductionsFrom (kind : Text) (factor : Binary64) : Nat → List Container →
    Except ArithmeticFault (List Patch.Entry)
  | _, [] => .ok []
  | index, c :: rest => do
    let entry ← c.reduction kind factor index
    return entry.toList ++ (← reductionsFrom kind factor (index + 1) rest)

/-- The entries that shrink the requests of a list of containers. A factor of one or more shrinks
nothing, since a larger request might not fit anywhere. -/
def reductions (kind : Text) (factor : Binary64) (containers : List Container) :
    Except ArithmeticFault (List Patch.Entry) :=
  if factor.isAtLeastOne then .ok [] else reductionsFrom kind factor 0 containers

end Container

namespace Patch

/-- Shrinks the requests of containers from a position on, one after the other, and counts those that are. -/
def shrinkFrom (kind : Text) (factor : Binary64) :
    Nat → List Container → Patch → Nat → Except ArithmeticFault (Patch × Nat)
  | _, [], patch, shrunk => .ok (patch, shrunk)
  | index, c :: rest, patch, shrunk => do
    match ← c.reduction kind factor index with
    | none => shrinkFrom kind factor (index + 1) rest patch shrunk
    | some entry => shrinkFrom kind factor (index + 1) rest (patch.push entry) (shrunk + 1)

/-- Puts the entries that shrink the requests of containers behind those that a patch holds. -/
def shrink (patch : Patch) (kind : Text) (factor : Binary64) (containers : List Container) :
    Except ArithmeticFault (Patch × Nat) :=
  if factor.isAtLeastOne then .ok (patch, 0) else shrinkFrom kind factor 0 containers patch 0

end Patch
end WorkloadAdmission
