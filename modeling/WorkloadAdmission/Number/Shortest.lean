import WorkloadAdmission.Number.Binary64

/-! The shortest decimal of a binary64 number: the fewest digits that round to it again and, of the
decimals with that many digits, the nearest to it. For one digit, two digits and so on, the two
neighbours of the number on the grid of decimals of that length are tested by reading them back.
The text puts the point among the digits from 10^-4 up to 10^16 and an exponent elsewhere. -/
namespace WorkloadAdmission.Number

/-- The power of ten of the first digit of `numerator / denominator`, both positive. -/
def leadingExponent (numerator denominator : Nat) : Int :=
  if denominator ≤ numerator then (decimalLength (numerator / denominator) : Int) - 1
  else -(decimalLength ((denominator - 1) / numerator) : Int)

/-- The multiple of `10 ^ exponent` at or below a number of units, as a count. -/
def countBelow (units : Nat) : Int → Nat
  | .ofNat e => units / (pow10 e * unitsOfOne)
  | .negSucc e => units * pow10 (e + 1) / unitsOfOne

/-- Whether a number of units lies above the middle between the multiples `count` and `count + 1`
of `10 ^ exponent`; a number in the middle lies above if `count` is odd. -/
def isAboveMiddle (units count : Nat) (exponent : Int) : Bool :=
  let (left, right) :=
    match exponent with
    | .ofNat e => (2 * units, (2 * count + 1) * pow10 e * unitsOfOne)
    | .negSucc e => (2 * units * pow10 (e + 1), (2 * count + 1) * unitsOfOne)
  right < left || (right == left && count % 2 == 1)

/-- The multiple of `10 ^ exponent` that reads back as the magnitude `index`, the nearer one of two. -/
def multiple? (index : Nat) (exponent : Int) : Option Nat :=
  let low := countBelow (units index) exponent
  let lowHits := decimalIndex low exponent = index
  let highHits := decimalIndex (low + 1) exponent = index
  if lowHits ∧ highHits then some (if isAboveMiddle (units index) low exponent then low + 1 else low)
  else if lowHits then some low
  else if highHits then some (low + 1)
  else none

/-- A positive magnitude as significand and power of ten. Seventeen digits always suffice; the exact
value stands behind the search. -/
def shortest (index : Nat) : Nat × Int :=
  let lead := leadingExponent (units index) unitsOfOne
  let found := (List.range 17).findSome? fun (extra : Nat) =>
    (multiple? index (lead - extra)).map fun count => (count, lead - extra)
  found.getD (units index * Nat.pow 5 1074, -1074)

def significantDigits (significand : Nat) : List Char :=
  ((Nat.toDigits 10 significand).reverse.dropWhile (· == '0')).reverse

/-- An exponent with its sign and at least two digits. -/
def exponentText (e : Int) : List Char :=
  let digits := Nat.toDigits 10 e.natAbs
  (if e < 0 then '-' else '+') :: (if digits.length < 2 then '0' :: digits else digits)

/-- The digits `0.d₁d₂… × 10 ^ point` in positional notation or with an exponent. -/
def layOut (digits : List Char) (point : Int) : List Char :=
  let size : Int := digits.length
  if -4 < point ∧ point ≤ 0 then '0' :: '.' :: List.replicate (-point).toNat '0' ++ digits
  else if 0 < point ∧ point < size then digits.take point.toNat ++ '.' :: digits.drop point.toNat
  else if 0 < point ∧ point ≤ 16 then digits ++ List.replicate (point - size).toNat '0' ++ ['.', '0']
  else
    let tail := digits.drop 1
    digits.take 1 ++ (if tail.isEmpty then [] else '.' :: tail) ++ 'e' :: exponentText (point - 1)

def magnitudeText (index : Nat) : List Char :=
  if index = 0 then ['0', '.', '0']
  else
    let (significand, exponent) := shortest index
    layOut (significantDigits significand) (decimalLength significand + exponent)

end WorkloadAdmission.Number

namespace WorkloadAdmission.Binary64

open Number

/-- The text of a number: its shortest decimal, or a name for what is not finite. -/
def text : Binary64 → String
  | .finite negative index => String.ofList (if negative then '-' :: magnitudeText index else magnitudeText index)
  | .infinite negative => if negative then "-inf" else "inf"
  | .nan => "nan"

end WorkloadAdmission.Binary64
