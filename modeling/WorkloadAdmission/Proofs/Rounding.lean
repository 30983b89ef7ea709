import Mathlib.Data.Nat.Log
import Mathlib.Tactic.Ring
import WorkloadAdmission.Number.Decimal

/-! Products rounded to 28 significant digits. The count of digits found by halving is the logarithm
plus one. The ways in which a number is rounded are told apart once, in `Rounds`. Below 10^28 rounding
crosses no integer: what lies on one side of an integer before it does not lie on the other side after
it. -/
namespace WorkloadAdmission

namespace Number

theorem pow2_eq (e : Nat) : pow2 e = 2 ^ e := rfl

theorem pow10_eq (e : Nat) : pow10 e = 10 ^ e := rfl

theorem lengthBelow_eq {k n : Nat} (bound : n < 10 ^ 2 ^ k) : lengthBelow k n = Nat.log 10 n + 1 := by
  induction k generalizing n with
  | zero => rw [lengthBelow, Nat.log_of_lt (by simpa using bound)]
  | succ k ih =>
    rw [lengthBelow, pow10_eq, pow2_eq]
    split
    · exact ih ‹_›
    · rename_i reached
      have reached : 10 ^ 2 ^ k ≤ n := Nat.le_of_not_lt reached
      have remaining : n / 10 ^ 2 ^ k < 10 ^ 2 ^ k := by
        apply Nat.div_lt_of_lt_mul
        rwa [← Nat.pow_add, ← Nat.two_mul, ← Nat.pow_succ']
      have digits := Nat.le_log_of_pow_le (by decide) reached
      rw [ih remaining, Nat.log_div_base_pow]
      omega

theorem decimalLength_eq (n : Nat) : decimalLength n = Nat.log 10 n + 1 := by
  apply lengthBelow_eq
  calc n < 2 ^ (n.log2 + 1) := Nat.lt_log2_self
    _ ≤ 10 ^ (n.log2 + 1) := Nat.pow_le_pow_left (by decide) _
    _ ≤ 10 ^ 2 ^ ((n.log2 + 1).log2 + 1) := Nat.pow_le_pow_right (by decide) Nat.lt_log2_self.le

theorem decimalLength_le_iff {n k : Nat} (positive : 0 < k) : decimalLength n ≤ k ↔ n < 10 ^ k := by
  rw [decimalLength_eq]
  by_cases zero : n = 0
  · simpa [zero, Nat.one_le_iff_ne_zero] using Nat.ne_of_gt positive
  · exact Nat.log_lt_iff_lt_pow (by decide) zero

theorem decimalLength_pos (n : Nat) : 0 < decimalLength n := by
  rw [decimalLength_eq]
  exact Nat.succ_pos _

/-- Rounding to an integer goes no further than an integer above. -/
theorem halfEven_le {n d q : Nat} (positive : 0 < d) (bound : n ≤ q * d) : halfEven n d ≤ q := by
  have quotient : n / d ≤ q := Nat.div_le_of_le_mul (by rwa [Nat.mul_comm])
  simp only [halfEven]
  split
  · rename_i up
    by_contra beyond
    have whole : n / d = q := by omega
    have divided := Nat.div_add_mod n d
    rw [whole, Nat.mul_comm d q] at divided
    have nothing : n % d = 0 := by omega
    simp [nothing, Nat.ne_of_gt positive] at up
  · exact quotient

/-- Rounding to an integer goes no further than an integer below. -/
theorem le_halfEven {n d q : Nat} (positive : 0 < d) (bound : q * d ≤ n) : q ≤ halfEven n d := by
  have quotient : q ≤ n / d := (Nat.le_div_iff_mul_le positive).mpr bound
  simp only [halfEven]
  split
  · exact Nat.le_succ_of_le quotient
  · exact quotient

theorem halfEven_eq_zero {n d : Nat} (small : 2 * n < d) : halfEven n d = 0 := by
  have below : n < d := by omega
  simp [halfEven, Nat.div_eq_of_lt below, Nat.mod_eq_of_lt below]
  omega

/-- Dropping digits behind the point crosses no integer. -/
theorem halfEven_between {c k j : Nat} (fewer : j ≤ k) (m : Nat) :
    (c ≤ m * 10 ^ k → halfEven c (10 ^ (k - j)) ≤ m * 10 ^ j) ∧
      (m * 10 ^ k ≤ c → m * 10 ^ j ≤ halfEven c (10 ^ (k - j))) := by
  have positive : 0 < 10 ^ (k - j) := Nat.pow_pos (by decide)
  have digits : m * 10 ^ j * 10 ^ (k - j) = m * 10 ^ k := by
    rw [Nat.mul_assoc, ← Nat.pow_add, Nat.add_sub_cancel' fewer]
  constructor
  · intro above
    exact halfEven_le positive (by rwa [digits])
  · intro below
    exact le_halfEven positive (by rwa [digits])

end Number

namespace Decimal

open Number

theorem signed_natAbs (n : Int) : signed (n < 0) n.natAbs = n := by
  unfold signed
  by_cases negative : n < 0
  · rw [if_pos (decide_eq_true negative), Int.ofNat_natAbs_of_nonpos (Int.le_of_lt negative), Int.neg_neg]
  · rw [if_neg (by simpa using negative), Int.natAbs_of_nonneg (Int.not_lt.mp negative)]

theorem natAbs_signed (negative : Bool) (magnitude : Nat) : (signed negative magnitude).natAbs = magnitude := by
  cases negative <;> simp [signed]

theorem precision_eq : precision = 28 := rfl

theorem productMin_eq : productMin = -1000026 := rfl

theorem productMax_eq : productMax = 999999 := rfl

/-- What has fewer digits than are dropped rounds to nothing anyway. -/
theorem kept_eq (n dropped : Nat) :
    (if decimalLength n < dropped then 0 else halfEven n (pow10 dropped)) =
      halfEven n (10 ^ dropped) := by
  split
  · rename_i short
    have length := decimalLength_pos n
    have small : n < 10 ^ (dropped - 1) := (decimalLength_le_iff (by omega)).mp (by omega)
    have whole : 10 ^ dropped = 10 * 10 ^ (dropped - 1) := by
      rw [← Nat.pow_succ', Nat.succ_eq_add_one, Nat.sub_add_cancel (by omega)]
    exact (halfEven_eq_zero (by omega)).symm
  · rfl

/-- The place of the last digit that a product can keep. -/
def lastKept (c e : Int) : Int := max (e + decimalLength c.natAbs - precision) productMin

/-- The ways in which a number is rounded: it overflows at once, it is kept as it is, or its last digits
are dropped, and then a carry may make it overflow. -/
inductive Rounds (c e : Int) : Except ArithmeticFault Decimal → Prop where
  | zero : c = 0 → Rounds c e (.ok (.finite 0 0))
  | tooLarge : c ≠ 0 → productMax + 1 < e + decimalLength c.natAbs → Rounds c e (.error .overflow)
  | exact : e + decimalLength c.natAbs ≤ productMax + 1 → lastKept c e ≤ e → Rounds c e (.ok (.finite c e))
  | carried {dropped : Nat} : e + decimalLength c.natAbs ≤ productMax + 1 → 0 < dropped →
      e + dropped = lastKept c e →
      productMax + 1 < lastKept c e + decimalLength (halfEven c.natAbs (10 ^ dropped)) →
      Rounds c e (.error .overflow)
  | dropped {dropped : Nat} : e + decimalLength c.natAbs ≤ productMax + 1 → 0 < dropped →
      e + dropped = lastKept c e →
      lastKept c e + decimalLength (halfEven c.natAbs (10 ^ dropped)) ≤ productMax + 1 →
      Rounds c e (.ok (.finite (signed (c < 0) (halfEven c.natAbs (10 ^ dropped))) (lastKept c e)))

theorem round_spec (c e : Int) : Rounds c e (round c e) := by
  have digits := precision_eq
  by_cases zero : c = 0
  · subst zero
    exact .zero rfl
  · have place : Max.max (e + decimalLength c.natAbs - 1 - (precision - 1)) productMin = lastKept c e := by
      rw [lastKept]
      congr 1
      omega
    simp only [round, kept_eq, if_neg zero, place]
    split
    next large => exact .tooLarge zero (by omega)
    next inRange =>
      split
      next fits => exact .exact (by omega) fits
      next long =>
        obtain ⟨dropped, drops⟩ := Int.eq_ofNat_of_zero_le (a := lastKept c e - e) (by omega)
        rw [drops, Int.toNat_natCast]
        have drops : e + dropped = lastKept c e := by omega
        split
        next carries => exact .carried (by omega) (by omega) drops (by omega)
        next ends => exact .dropped (by omega) (by omega) drops (by omega)

/-- At most 28 digits stay and a carry. -/
theorem halfEven_le_of_lastKept {c e : Int} {dropped : Nat} (drops : e + dropped = lastKept c e) :
    halfEven c.natAbs (10 ^ dropped) ≤ 10 ^ 28 := by
  have digits := precision_eq
  have some := decimalLength_pos c.natAbs
  have least : e + decimalLength c.natAbs - precision ≤ lastKept c e := le_max_left _ _
  have bound : c.natAbs < 10 ^ (28 + dropped) := (decimalLength_le_iff (by omega)).mp (by omega)
  apply halfEven_le (Nat.pow_pos (by decide))
  rw [← Nat.pow_add]
  exact bound.le

theorem decimalLength_halfEven_le {c e : Int} {dropped : Nat} (drops : e + dropped = lastKept c e) :
    decimalLength (halfEven c.natAbs (10 ^ dropped)) ≤ 29 := by
  rw [decimalLength_le_iff (by decide)]
  exact Nat.lt_of_le_of_lt (halfEven_le_of_lastKept drops) (by decide)

/-- Below 10^28 rounding crosses no integer. -/
theorem round_crosses_no_integer {c k : Nat} (bound : c < 10 ^ 28 * 10 ^ k) :
    ∃ r j : Nat, round c (-(k : Int)) = .ok (.finite r (-(j : Int))) ∧
      ∀ m : Nat, (c ≤ m * 10 ^ k → r ≤ m * 10 ^ j) ∧ (m * 10 ^ k ≤ c → m * 10 ^ j ≤ r) := by
  have length : decimalLength c ≤ 28 + k := by
    rwa [decimalLength_le_iff (by omega), Nat.pow_add]
  have min := productMin_eq
  have max := productMax_eq
  have digits := precision_eq
  -- The last digit that is kept stands behind the point.
  obtain ⟨j, behind⟩ := Int.eq_ofNat_of_zero_le (a := -lastKept c (-(k : Int))) (by
    rw [lastKept, Int.natAbs_natCast]
    omega)
  have place : lastKept c (-(k : Int)) = -(j : Int) := by omega
  have rounds := round_spec c (-(k : Int))
  generalize round c (-(k : Int)) = result at rounds ⊢
  have fewer {dropped : Nat} (drops : -(k : Int) + dropped = -(j : Int)) : j ≤ k ∧ dropped = k - j := by omega
  cases rounds with
  | zero zero =>
    obtain rfl : c = 0 := by omega
    refine ⟨0, 0, rfl, fun m => ⟨fun _ => Nat.zero_le _, fun least => ?_⟩⟩
    have nothing : m = 0 := by simpa using least
    simp [nothing]
  | tooLarge _ large =>
    rw [Int.natAbs_natCast] at large
    omega
  | exact => exact ⟨c, k, rfl, fun m => ⟨id, id⟩⟩
  | carried _ _ drops carries =>
    have few := decimalLength_halfEven_le drops
    omega
  | dropped _ _ drops =>
    rw [place] at drops ⊢
    obtain ⟨fewer, rfl⟩ := fewer drops
    have positive : decide ((c : Int) < 0) = false := by simp
    rw [Int.natAbs_natCast, positive, signed]
    exact ⟨_, j, rfl, halfEven_between fewer⟩

theorem truncate_finite (c : Int) (j : Nat) :
    truncate (.finite c (-(j : Int))) = .ok (Int.tdiv c (10 ^ j : Nat)) := by
  cases j with
  | zero => simp [truncate, pow10_eq]
  | succ j => rfl

end Decimal
end WorkloadAdmission
