/-! Decimal numerals: an optional sign, digits with an optional point (at least one digit), and an
optional exponent. Formats that are stricter than this grammar test the parts. -/
namespace WorkloadAdmission.Number

inductive Sign where
  | plus
  | minus
  deriving DecidableEq

/-- The parts of a numeral. `point` tells `5.` from `5`. -/
structure Numeral where
  sign : Option Sign
  whole : List Char
  point : Bool
  fraction : List Char
  exponent : Option Int
  deriving DecidableEq

def takeSign : List Char → Option Sign × List Char
  | '+' :: rest => (some .plus, rest)
  | '-' :: rest => (some .minus, rest)
  | cs => (none, cs)

/-- A whole text of at least one digit, with an optional sign. -/
def integer? (cs : List Char) : Option Int :=
  let (sign, digits) := takeSign cs
  if digits.isEmpty || !digits.all Char.isDigit then none
  else
    let n : Int := Nat.ofDigitChars 10 digits 0
    some (if sign = some .minus then -n else n)

namespace Numeral

def ofChars? (cs : List Char) : Option Numeral :=
  let (sign, cs) := takeSign cs
  let whole := cs.takeWhile Char.isDigit
  let rest := cs.dropWhile Char.isDigit
  let (point, fraction, rest) :=
    match rest with
    | '.' :: tail => (true, tail.takeWhile Char.isDigit, tail.dropWhile Char.isDigit)
    | _ => (false, [], rest)
  if whole.isEmpty && fraction.isEmpty then none
  else
    match rest with
    | [] => some ⟨sign, whole, point, fraction, none⟩
    | c :: tail =>
      if c = 'e' || c = 'E' then
        (integer? tail).map fun exponent => ⟨sign, whole, point, fraction, some exponent⟩
      else none

def isNegative (n : Numeral) : Bool := n.sign = some .minus

/-- All digits as one number; the numeral denotes it times ten to the `scale`. -/
def significand (n : Numeral) : Nat := Nat.ofDigitChars 10 (n.whole ++ n.fraction) 0

/-- The power of ten of the last digit. -/
def scale (n : Numeral) : Int := n.exponent.getD 0 - n.fraction.length

end Numeral
end WorkloadAdmission.Number
