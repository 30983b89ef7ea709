import Mathlib.Algebra.Order.Field.Power
import Mathlib.Tactic.Linarith
import WorkloadAdmission.Proofs.Nearest

/-! Where a product leaves the range. Rounding has one fault, an overflow, and the value alone decides
on it: all numbers overflow whose magnitude reaches the middle between the largest product and the
next number of 28 digits, since the tie goes to that one, and no others do. The zeros that a number is
written with play no part. -/
namespace WorkloadAdmission

namespace Number

/-- An even integer is reached from the middle below it on. -/
theorem le_halfEven_iff {n d q : Nat} (positive : 0 < d) (even : q % 2 = 0) :
    q ≤ halfEven n d ↔ 2 * q * d ≤ 2 * n + d := by
  have divided := Nat.div_add_mod n d
  have remainder : n % d < d := Nat.mod_lt n positive
  have least : n / d ≤ halfEven n d := le_halfEven positive (Nat.div_mul_le_self n d)
  constructor
  · intro reached
    have next : q = n / d + 1 ∧ d ≤ 2 * (n % d) ∨ q ≤ n / d := by
      simp only [halfEven] at reached
      split at reached
      next up =>
        simp only [Bool.or_eq_true, decide_eq_true_eq, Bool.and_eq_true, beq_iff_eq] at up
        omega
      next => exact .inr reached
    rcases next with ⟨rfl, half⟩ | below
    · calc 2 * (n / d + 1) * d = 2 * (d * (n / d)) + 2 * d := by ring
        _ ≤ 2 * n + d := by omega
    · calc 2 * q * d ≤ 2 * (n / d) * d := Nat.mul_le_mul_right d (Nat.mul_le_mul_left 2 below)
        _ = 2 * (d * (n / d)) := by ring
        _ ≤ 2 * n + d := by omega
  · intro middle
    by_contra short
    have near : n / d + 1 = q := by
      by_contra apart
      have far : n / d + 2 ≤ q := by omega
      have beyond : 2 * (d * (n / d)) + 4 * d ≤ 2 * q * d :=
        calc 2 * (d * (n / d)) + 4 * d = 2 * (n / d + 2) * d := by ring
          _ ≤ 2 * q * d := Nat.mul_le_mul_right d (Nat.mul_le_mul_left 2 far)
      omega
    -- The integer below is odd, so a tie between the two goes up as well.
    have half : d ≤ 2 * (n % d) := by
      have whole : 2 * q * d = 2 * (d * (n / d)) + 2 * d := by
        rw [← near]
        ring
      omega
    have up : halfEven n d = n / d + 1 := by
      have odd : n / d % 2 = 1 := by omega
      simp only [halfEven, odd, beq_self_eq_true, Bool.and_true, Bool.or_eq_true, decide_eq_true_eq, beq_iff_eq]
      exact if_pos (by omega)
    omega

end Number

namespace Decimal

open Number

/-! ### The largest product -/

/-- The place of the last digit of the largest product. -/
@[irreducible] def lastPlace : Nat := 999972

/-- At most the largest product, which has 28 nines. -/
def IsInRange (n : Nat) : Prop := n ≤ (10 ^ 28 - 1) * 10 ^ lastPlace

theorem productMax_eq_lastPlace : productMax = lastPlace + 27 := by
  rw [lastPlace]
  rfl

theorem isInRange_mul_pow {n k : Nat} (few : n ≤ 10 ^ 28) (place : k + decimalLength n ≤ lastPlace + 28) :
    IsInRange (n * 10 ^ k) := by
  rcases Nat.lt_or_eq_of_le few with fewer | rfl
  · have length : decimalLength n ≤ 28 := (decimalLength_le_iff (by decide)).mpr fewer
    have padded : n * 10 ^ (28 - decimalLength n) < 10 ^ 28 := by
      have digits : n < 10 ^ decimalLength n := (decimalLength_le_iff (decimalLength_pos n)).mp le_rfl
      calc n * 10 ^ (28 - decimalLength n)
          < 10 ^ decimalLength n * 10 ^ (28 - decimalLength n) :=
            Nat.mul_lt_mul_of_pos_right digits (Nat.pow_pos (by decide))
        _ = 10 ^ 28 := by rw [← Nat.pow_add, Nat.add_sub_cancel' length]
    calc n * 10 ^ k ≤ n * 10 ^ (28 - decimalLength n + lastPlace) :=
          Nat.mul_le_mul_left n (Nat.pow_le_pow_right (by decide) (by omega))
      _ = n * 10 ^ (28 - decimalLength n) * 10 ^ lastPlace := by rw [Nat.pow_add, Nat.mul_assoc]
      _ ≤ (10 ^ 28 - 1) * 10 ^ lastPlace := Nat.mul_le_mul_right _ (Nat.le_sub_one_of_lt padded)
  · have length : ¬ decimalLength (10 ^ 28) ≤ 28 := by
      rw [decimalLength_le_iff (by decide)]
      exact Nat.lt_irrefl _
    calc 10 ^ 28 * 10 ^ k = 10 ^ 27 * 10 ^ (k + 1) := by ring
      _ ≤ 10 ^ 27 * 10 ^ lastPlace :=
        Nat.mul_le_mul_left _ (Nat.pow_le_pow_right (by decide) (by omega))
      _ ≤ (10 ^ 28 - 1) * 10 ^ lastPlace := Nat.mul_le_mul_right _ (by decide)

/-! ### Values -/

/-- The number that a significand and a power of ten denote. -/
def value (significand exponent : Int) : ℚ := significand * 10 ^ exponent

/-- The middle between the largest product and the next number of 28 digits. -/
def overflowBound : ℚ := (10 ^ 28 - 1 / 2) * 10 ^ lastPlace

variable {c e : Int}

theorem abs_value (c e : Int) : |value c e| = c.natAbs * 10 ^ e := by
  have positive : (0 : ℚ) < 10 ^ e := zpow_pos (by norm_num) e
  rw [value, abs_mul, abs_of_pos positive, ← Int.cast_abs, Int.abs_eq_natAbs, Int.cast_natCast]

theorem abs_value_lt (c e : Int) : |value c e| < 10 ^ (e + decimalLength c.natAbs) := by
  have digits : (c.natAbs : ℚ) < 10 ^ decimalLength c.natAbs := by
    exact_mod_cast lt_pow_decimalLength c.natAbs
  calc |value c e| = c.natAbs * 10 ^ e := abs_value c e
    _ < 10 ^ decimalLength c.natAbs * 10 ^ e := mul_lt_mul_of_pos_right digits (zpow_pos (by norm_num) e)
    _ = 10 ^ (e + decimalLength c.natAbs) := by
      rw [zpow_add₀ (by norm_num), zpow_natCast, mul_comm]

theorem le_abs_value (nonzero : c ≠ 0) : 10 ^ (e + decimalLength c.natAbs - 1) ≤ |value c e| := by
  have length := decimalLength_pos c.natAbs
  have digits : (10 : ℚ) ^ (decimalLength c.natAbs - 1) ≤ c.natAbs := by
    exact_mod_cast pow_le_of_decimalLength (Int.natAbs_ne_zero.mpr nonzero)
  calc (10 : ℚ) ^ (e + decimalLength c.natAbs - 1)
      = 10 ^ (e + (decimalLength c.natAbs - 1 : Nat)) := by
        congr 1
        omega
    _ = 10 ^ (decimalLength c.natAbs - 1) * 10 ^ e := by
        rw [zpow_add₀ (by norm_num), zpow_natCast, mul_comm]
    _ ≤ c.natAbs * 10 ^ e := mul_le_mul_of_nonneg_right digits (zpow_pos (by norm_num) e).le
    _ = |value c e| := (abs_value c e).symm

theorem pow_lt_overflowBound {k : Int} (low : k ≤ lastPlace + 27) : 10 ^ k < overflowBound := by
  have positive : (0 : ℚ) < 10 ^ lastPlace := by positivity
  calc (10 : ℚ) ^ k ≤ 10 ^ ((lastPlace : Int) + 27) := zpow_le_zpow_right₀ (by norm_num) low
    _ = 10 ^ 27 * 10 ^ lastPlace := by
      rw [zpow_add₀ (by norm_num), zpow_natCast, mul_comm]
      rfl
    _ < (10 ^ 28 - 1 / 2) * 10 ^ lastPlace := mul_lt_mul_of_pos_right (by norm_num) positive

theorem overflowBound_le_pow {k : Int} (high : lastPlace + 28 ≤ k) : overflowBound ≤ 10 ^ k := by
  have positive : (0 : ℚ) < 10 ^ lastPlace := by positivity
  calc overflowBound ≤ 10 ^ 28 * 10 ^ lastPlace := mul_le_mul_of_nonneg_right (by norm_num) positive.le
    _ = 10 ^ ((lastPlace : Int) + 28) := by
      rw [zpow_add₀ (by norm_num), zpow_natCast, mul_comm]
      rfl
    _ ≤ 10 ^ k := zpow_le_zpow_right₀ (by norm_num) high

/-- The bound in units of the last place, of which a number may have more digits. -/
theorem overflowBound_le_iff {dropped : Nat} (top : e + dropped = lastPlace) :
    overflowBound ≤ |value c e| ↔ 2 * 10 ^ 28 * 10 ^ dropped ≤ 2 * c.natAbs + 10 ^ dropped := by
  have positive : (0 : ℚ) < 10 ^ e := zpow_pos (by norm_num) e
  have unit : (10 : ℚ) ^ lastPlace = 10 ^ dropped * 10 ^ e := by
    rw [← zpow_natCast, ← top, zpow_add₀ (by norm_num), zpow_natCast, mul_comm]
  calc overflowBound ≤ |value c e|
      ↔ (10 ^ 28 - 1 / 2) * (10 : ℚ) ^ dropped * 10 ^ e ≤ c.natAbs * 10 ^ e := by
        rw [overflowBound, abs_value, unit, mul_assoc]
    _ ↔ (10 ^ 28 - 1 / 2) * (10 : ℚ) ^ dropped ≤ c.natAbs := mul_le_mul_iff_of_pos_right positive
    _ ↔ (2 * 10 ^ 28 * 10 ^ dropped : ℚ) ≤ 2 * c.natAbs + 10 ^ dropped := by
        constructor <;> intro bound <;> linarith
    _ ↔ 2 * 10 ^ 28 * 10 ^ dropped ≤ 2 * c.natAbs + 10 ^ dropped := by exact_mod_cast Iff.rfl

theorem natCast_lt_overflowBound {n : Nat} (range : IsInRange n) : (n : ℚ) < overflowBound := by
  have nines : ((10 ^ 28 - 1 : Nat) : ℚ) = 10 ^ 28 - 1 := by norm_num
  calc (n : ℚ) ≤ ((10 ^ 28 - 1) * 10 ^ lastPlace : Nat) := Nat.cast_le.mpr range
    _ = (10 ^ 28 - 1) * 10 ^ lastPlace := by rw [Nat.cast_mul, nines, Nat.cast_pow, Nat.cast_ofNat]
    _ < overflowBound := mul_lt_mul_of_pos_right (by norm_num) (by positivity)

theorem abs_value_lt_of_few (few : decimalLength c.natAbs ≤ 28)
    (top : e + decimalLength c.natAbs = lastPlace + 28) : |value c e| < overflowBound := by
  obtain ⟨k, rfl⟩ := Int.eq_ofNat_of_zero_le (a := e) (by omega)
  have range : IsInRange (c.natAbs * 10 ^ k) :=
    isInRange_mul_pow ((decimalLength_le_iff (by decide)).mp few).le (by omega)
  have whole : |value c k| = (c.natAbs * 10 ^ k : Nat) := by
    rw [abs_value, zpow_natCast, Nat.cast_mul, Nat.cast_pow, Nat.cast_ofNat]
  rw [whole]
  exact natCast_lt_overflowBound range

/-! ### Rounding -/

theorem round_eq_ok {d : Decimal} (rounded : round c e = .ok d) : ∃ s place, d = .finite s place := by
  have rounds := round_spec c e
  rw [rounded] at rounds
  cases rounds with
  | zero => exact ⟨_, _, rfl⟩
  | exact => exact ⟨_, _, rfl⟩
  | dropped => exact ⟨_, _, rfl⟩

theorem round_eq_error {cause : ArithmeticFault} (fails : round c e = .error cause) : cause = .overflow := by
  have rounds := round_spec c e
  rw [fails] at rounds
  cases rounds with
  | tooLarge => rfl
  | carried => rfl

/-- A number that is kept as it is has 28 digits at most. -/
theorem abs_value_lt_of_fits (inRange : e + decimalLength c.natAbs ≤ lastPlace + 28) (fits : lastKept c e ≤ e) :
    |value c e| < overflowBound := by
  have digits := precision_eq
  rcases Int.lt_or_eq_of_le inRange with low | top
  · exact (abs_value_lt c e).trans (pow_lt_overflowBound (by omega))
  · have least : e + decimalLength c.natAbs - precision ≤ lastKept c e := le_max_left _ _
    exact abs_value_lt_of_few (by omega) top

/-- A carry makes a number overflow from the middle below 29 digits on, and at the highest place only. -/
theorem carries_iff {dropped : Nat} (inRange : e + decimalLength c.natAbs ≤ lastPlace + 28)
    (drops : e + dropped = lastKept c e) :
    lastPlace + 28 < lastKept c e + decimalLength (halfEven c.natAbs (10 ^ dropped)) ↔
      overflowBound ≤ |value c e| := by
  have digits := precision_eq
  have min := productMin_eq
  have wide : 0 ≤ (lastPlace : Int) := Int.natCast_nonneg _
  have least : e + decimalLength c.natAbs - precision ≤ lastKept c e := le_max_left _ _
  have place : lastKept c e ≤ lastPlace := max_le (by omega) (by omega)
  rcases Int.lt_or_eq_of_le place with low | top
  · have few := decimalLength_halfEven_le drops
    refine iff_of_false (by omega) (not_le.mpr ?_)
    exact (abs_value_lt c e).trans (pow_lt_overflowBound (by omega))
  · calc lastPlace + 28 < lastKept c e + decimalLength (halfEven c.natAbs (10 ^ dropped))
        ↔ ¬ decimalLength (halfEven c.natAbs (10 ^ dropped)) ≤ 28 := by omega
      _ ↔ 10 ^ 28 ≤ halfEven c.natAbs (10 ^ dropped) := by
        rw [decimalLength_le_iff (by decide), Nat.not_lt]
      _ ↔ 2 * 10 ^ 28 * 10 ^ dropped ≤ 2 * c.natAbs + 10 ^ dropped :=
        le_halfEven_iff (Nat.pow_pos (by decide)) (by decide)
      _ ↔ overflowBound ≤ |value c e| := (overflowBound_le_iff (drops.trans top)).symm

theorem round_overflow_iff : round c e = .error .overflow ↔ overflowBound ≤ |value c e| := by
  have max := productMax_eq_lastPlace
  have rounds := round_spec c e
  generalize round c e = result at rounds ⊢
  cases rounds with
  | zero zero =>
    have nothing : |value c e| = 0 := by simp [zero, value]
    have positive : 0 < overflowBound := lt_trans (zpow_pos (by norm_num) 0) (pow_lt_overflowBound (by omega))
    exact iff_of_false (fun fails => by cases fails) (by rwa [nothing, not_le])
  | tooLarge nonzero large =>
    exact iff_of_true rfl ((overflowBound_le_pow (by omega)).trans (le_abs_value nonzero))
  | exact inRange fits =>
    rw [max] at inRange
    exact iff_of_false (fun fails => by cases fails) (not_le.mpr (abs_value_lt_of_fits (by omega) fits))
  | carried inRange _ drops carries => exact iff_of_true rfl ((carries_iff (by omega) drops).mp (by omega))
  | dropped inRange _ drops ends =>
    refine iff_of_false (fun fails => by cases fails) ?_
    rw [← carries_iff (by omega) drops]
    omega

/-- All numbers below the bound are rounded to a number. -/
theorem round_finite_iff : (∃ s place, round c e = .ok (.finite s place)) ↔ |value c e| < overflowBound := by
  rw [← not_le, ← round_overflow_iff]
  constructor
  · rintro ⟨s, place, rounded⟩ fails
    cases rounded.symm.trans fails
  · intro succeeds
    cases rounded : round c e with
    | ok d =>
      obtain ⟨s, place, rfl⟩ := round_eq_ok rounded
      exact ⟨s, place, rfl⟩
    | error cause => exact absurd (round_eq_error rounded ▸ rounded) succeeds

end Decimal
end WorkloadAdmission
