/-! Binary64 numbers as data and their rounding from decimal. The finite magnitudes are numbered in
ascending order, so that consecutive numbers have consecutive indices; the value of an index is an
integer count of units of 2^-1074, the least subnormal. Rounding is exact: the decimal is a quotient
of two integers in these units and is compared with no intermediate rounding. NaN payloads,
exception flags and arithmetic are not modelled. -/
namespace WorkloadAdmission

namespace Number

/-! ### Rounding to a grid

Powers of two and of ten, the number of decimal digits of a natural number, found by halving and so fast
for long numbers, and the integer nearest to a quotient, where a tie goes to the even one. -/

def pow2 (e : Nat) : Nat := Nat.pow 2 e

def pow10 (e : Nat) : Nat := Nat.pow 10 e

/-- The number of decimal digits of a number below `10 ^ 2 ^ k`; zero has one. -/
def lengthBelow : Nat → Nat → Nat
  | 0, _ => 1
  | k + 1, n =>
    if n < pow10 (pow2 k) then lengthBelow k n
    else pow2 k + lengthBelow k (n / pow10 (pow2 k))

/-- The number of decimal digits; zero has one. The bound holds since
`n < 2 ^ (log2 n + 1) ≤ 10 ^ (log2 n + 1)`. -/
def decimalLength (n : Nat) : Nat := lengthBelow ((n.log2 + 1).log2 + 1) n

/-- The integer nearest to `numerator / denominator`, the even one of two. -/
def halfEven (numerator denominator : Nat) : Nat :=
  let quotient := numerator / denominator
  let twice := 2 * (numerator % denominator)
  if denominator < twice || (denominator == twice && quotient % 2 == 1) then quotient + 1 else quotient

/-! ### Magnitudes -/

/-- The count of magnitudes that share an exponent, one for each 52-bit fraction. -/
def binade : Nat := pow2 52

/-- The count of finite magnitudes, which have 2047 exponents. -/
def magnitudes : Nat := 2047 * binade

def indexOfOne : Nat := 1023 * binade

def unitsOfOne : Nat := pow2 1074

def units (index : Nat) : Nat :=
  if index < binade then index else (binade + index % binade) * pow2 (index / binade - 1)

/-- The index of the magnitude nearest to `numerator / denominator` units, the even one of two. An
index that is not below `magnitudes` stands for overflow. -/
def nearestIndex (numerator denominator : Nat) : Nat :=
  let shift := (numerator / denominator).log2 - 52
  shift * binade + halfEven numerator (denominator * pow2 shift)

/-- The index of the magnitude nearest to `significand * 10 ^ exponent`. -/
def decimalIndex (significand : Nat) : Int → Nat
  | .ofNat e => nearestIndex (significand * pow10 e * unitsOfOne) 1
  | .negSucc e => nearestIndex (significand * unitsOfOne) (pow10 (e + 1))

end Number

open Number

inductive Binary64 where
  | finite (negative : Bool) (index : Fin magnitudes)
  | infinite (negative : Bool)
  | nan
  deriving DecidableEq

namespace Binary64

/-- The number of a sign and an index, infinite beyond the last finite magnitude. -/
def ofIndex (negative : Bool) (index : Nat) : Binary64 :=
  if h : index < magnitudes then .finite negative ⟨index, h⟩ else .infinite negative

/-- Rounds `significand * 10 ^ exponent`. A number from 10^310 on is infinite and one below 10^-330
is zero, which spares the powers of ten far outside the range. -/
def ofDecimal (negative : Bool) (significand : Nat) (exponent : Int) : Binary64 :=
  let top := (decimalLength significand : Int) + exponent
  if significand = 0 || top < -330 then ofIndex negative 0
  else if 310 < top then .infinite negative
  else ofIndex negative (decimalIndex significand exponent)

def ofInt (n : Int) : Binary64 := ofDecimal (n < 0) n.natAbs 0

def one : Binary64 := ofIndex false indexOfOne

def isFinite : Binary64 → Bool
  | .finite _ _ => true
  | _ => false

def isZero : Binary64 → Bool
  | .finite _ index => index.val == 0
  | _ => false

/-- Above zero; NaN is not. -/
def isPositive : Binary64 → Bool
  | .finite negative index => !negative && 0 < index.val
  | .infinite negative => !negative
  | .nan => false

/-- One or more; NaN is not. -/
def isAtLeastOne : Binary64 → Bool
  | .finite negative index => !negative && indexOfOne ≤ index.val
  | .infinite negative => !negative
  | .nan => false

end Binary64
end WorkloadAdmission
