import WorkloadAdmission.Json.Printer
import WorkloadAdmission.Number.Decimal

/-! CPU quantities in millicores. A quantity is a decimal number that a scale letter may follow, such
as `500m` or `1.5k`; a second letter `i` turns powers of 1000 into powers of 1024. Fractions of a
millicore round up. -/
namespace WorkloadAdmission

/-- Why a value is not a quantity that can be counted in millicores. -/
inductive QuantityFault where
  | notAQuantity (value : Json)
  | badNumber (number : Text)
  | unknownSuffix (quantity : Text)
  | unscalable (quantity : Text)
  | arithmetic (cause : ArithmeticFault)
  deriving DecidableEq

def QuantityFault.message : QuantityFault → Text
  | .notAQuantity value => value.describe ++ " is not a quantity"
  | .badNumber number => "Invalid number format: " ++ number
  | .unknownSuffix quantity => quantity ++ " has unknown suffix"
  | .unscalable quantity => "Invalid quantity: " ++ quantity
  | .arithmetic cause => cause.message

namespace Quantity

/-- The power of the base that a scale letter stands for. -/
def scale? : Char → Option Int
  | 'n' => some (-3)
  | 'u' => some (-2)
  | 'm' => some (-1)
  | 'k' => some 1
  | 'K' => some 1
  | 'M' => some 2
  | 'G' => some 3
  | 'T' => some 4
  | 'P' => some 5
  | 'E' => some 6
  | _ => none

/-- A scale letter with its power, and whether an `i` follows it. -/
structure Suffix where
  letter : Char
  power : Int
  binary : Bool
  deriving DecidableEq

/-- The number and the suffix of a quantity. An `i` with no scale letter before it is no suffix. -/
def split (text : List CodePoint) : List CodePoint × Option Suffix :=
  match text.reverse with
  | .char 'i' :: .char c :: rest =>
    match scale? c with
    | some power => (rest.reverse, some ⟨c, power, true⟩)
    | none => (text, none)
  | .char c :: rest =>
    match scale? c with
    | some power => (rest.reverse, some ⟨c, power, false⟩)
    | none => (text, none)
  | _ => (text, none)

/-- The factor of a suffix. There are no binary fractions, and binary kilo is `Ki` only. -/
def Suffix.factor? (s : Suffix) : Option Decimal :=
  if !s.binary then some (.finite 1 (3 * s.power))
  else if s.power < 0 || s.letter = 'k' then none
  else some (.finite (Number.pow2 (10 * s.power.toNat)) 0)

def number (text : Text) : Except QuantityFault Decimal :=
  let (digits, suffix) := split text.points
  match (digits.mapM CodePoint.char?).bind Decimal.ofChars? with
  | none => .error (.badNumber (.ofPoints digits))
  | some n =>
    match suffix with
    | none => .ok n
    | some s =>
      match s.factor? with
      | none => .error (.unknownSuffix text)
      | some factor => (n.mul factor).mapError fun _ => .unscalable text

/-- The number that a value denotes. Truth values and numbers that are not finite are refused; what
is neither number nor text is read by its description. -/
def ofJson : Json → Except QuantityFault Decimal
  | .bool b => .error (.notAQuantity (.bool b))
  | .float x => if x.isFinite then number x.text else .error (.notAQuantity (.float x))
  | .int n => .ok (.ofInt n)
  | v => number v.text

def cpuMillis (v : Json) : Except QuantityFault Int := do
  let cores ← ofJson v
  ((cores.mul (.ofInt 1000)).bind Decimal.ceil).mapError .arithmetic

end Quantity
end WorkloadAdmission
