import WorkloadAdmission.Number.Numeral
import WorkloadAdmission.Number.Shortest
import WorkloadAdmission.Text.Character

/-! Decimal numbers of any length, with infinities and two kinds of NaN, and their product rounded to
28 significant digits. A finite number is kept as a significand and a power of ten; of two such pairs
with the same value no operation tells one from the other. The sign of zero and NaN payloads are not
kept. Reading is exact: a text is refused if its number lies outside the widest exponent range. -/
namespace WorkloadAdmission

inductive ArithmeticFault where
  | overflow
  /-- A product of zero and infinity or with a signalling NaN. -/
  | invalidOperation
  | infinityToInteger
  | nanToInteger
  | tooManyDigits
  deriving DecidableEq

namespace ArithmeticFault

def message : ArithmeticFault → String
  | .overflow => "[<class 'decimal.Overflow'>]"
  | .invalidOperation => "[<class 'decimal.InvalidOperation'>]"
  | .infinityToInteger => "cannot convert Infinity to integer"
  | .nanToInteger => "cannot convert NaN to integer"
  | .tooManyDigits =>
    "Exceeds the limit (4300 digits) for integer string conversion; " ++
      "use sys.set_int_max_str_digits() to increase the limit"

end ArithmeticFault

inductive Decimal where
  | finite (significand : Int) (exponent : Int)
  | infinite (negative : Bool)
  | nan
  | signalingNan
  deriving DecidableEq

namespace Decimal

open Number

def ofInt (n : Int) : Decimal := .finite n 0

def signed (negative : Bool) (magnitude : Nat) : Int :=
  if negative then -(magnitude : Int) else magnitude

def ofBinary64 : Binary64 → Decimal
  | .finite negative index =>
    if index.val = 0 then .finite 0 0
    else .finite (signed negative (shortest index.val).1) (shortest index.val).2
  | .infinite negative => .infinite negative
  | .nan => .nan

/-! ### Reading -/

def maxExponent : Int := 999999999999999999

def minExponent : Int := -1999999999999999997

/-- The number of a numeral, exact or refused. Zero counts as one digit. -/
def ofNumeral? (n : Numeral) : Option Decimal :=
  if n.scale < minExponent || maxExponent < n.scale + (decimalLength n.significand - 1) then none
  else some (.finite (signed n.isNegative n.significand) n.scale)

/-- An infinity or a NaN by its name in any case; digits may follow the name of a NaN. -/
def ofName? (cs : List Char) : Option Decimal :=
  let (sign, cs) := takeSign cs
  let name := cs.map Char.toLower
  let base := String.ofList (name.takeWhile (!·.isDigit))
  let digits := name.dropWhile (!·.isDigit)
  if (base = "inf" || base = "infinity") && digits.isEmpty then some (.infinite (sign = some .minus))
  else if base = "nan" && digits.all Char.isDigit then some .nan
  else if base = "snan" && digits.all Char.isDigit then some .signalingNan
  else none

/-- Reads a text. Blanks at the ends and underscores anywhere are skipped, and the digits of any
script serve. -/
def ofChars? (cs : List Char) : Option Decimal :=
  let cs := ((Text.trim Text.isBlank cs).filter (· ≠ '_')).map Text.asciiDigit
  match Numeral.ofChars? cs with
  | some n => ofNumeral? n
  | none => ofName? cs

/-! ### Products -/

/-- Significant digits of a product. -/
def precision : Nat := 28

def productMax : Int := 999999

/-- The smallest exponent of the last digit of a product; what lies below is rounded away. -/
def productMin : Int := -1000026

/-- Rounds `significand * 10 ^ exponent` to the digits of a product, a tie to the even one. -/
def round (significand exponent : Int) : Except ArithmeticFault Decimal :=
  let magnitude := significand.natAbs
  let length := decimalLength magnitude
  let top := exponent + length - 1
  let least := max (top - (precision - 1)) productMin
  if significand = 0 then .ok (.finite 0 0)
  else if productMax < top then .error .overflow
  else if least ≤ exponent then .ok (.finite significand exponent)
  else
    let dropped := (least - exponent).toNat
    let kept := if length < dropped then 0 else halfEven magnitude (pow10 dropped)
    if productMax < least + decimalLength kept - 1 then .error .overflow
    else .ok (.finite (signed (significand < 0) kept) least)

/-- The product, rounded. A NaN passes through. -/
def mul : Decimal → Decimal → Except ArithmeticFault Decimal
  | .signalingNan, _ => .error .invalidOperation
  | _, .signalingNan => .error .invalidOperation
  | .nan, _ => .ok .nan
  | _, .nan => .ok .nan
  | .infinite s, .infinite t => .ok (.infinite (s != t))
  | .infinite s, .finite c _ => if c = 0 then .error .invalidOperation else .ok (.infinite (s != (c < 0)))
  | .finite c _, .infinite s => if c = 0 then .error .invalidOperation else .ok (.infinite (s != (c < 0)))
  | .finite c e, .finite d f => round (c * d) (e + f)

/-! ### Integers -/

def ceil : Decimal → Except ArithmeticFault Int
  | .finite c (.ofNat e) => .ok (c * pow10 e)
  | .finite c (.negSucc e) => .ok (-(Int.fdiv (-c) (pow10 (e + 1))))
  | .infinite _ => .error .infinityToInteger
  | _ => .error .nanToInteger

def truncate : Decimal → Except ArithmeticFault Int
  | .finite c (.ofNat e) => .ok (c * pow10 e)
  | .finite c (.negSucc e) => .ok (Int.tdiv c (pow10 (e + 1)))
  | .infinite _ => .error .infinityToInteger
  | _ => .error .nanToInteger

end Decimal

/-- The longest integer that is read or written, in decimal digits. -/
def maxDigits : Nat := 4300

def integerText (n : Int) : Except ArithmeticFault String :=
  if maxDigits < Number.decimalLength n.natAbs then .error .tooManyDigits else .ok (toString n)

end WorkloadAdmission
