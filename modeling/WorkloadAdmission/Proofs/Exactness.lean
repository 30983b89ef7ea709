import Mathlib.Data.Rat.Floor
import WorkloadAdmission.Proofs.Overflow

/-! How far rounding moves a number. A product is off by half a unit of its last place at most, which is
a fixed part of it unless it lies at the low end of the range. A number of 28 significant digits in the
range is not moved at all, wherever its digits stand and whatever zeros it is written with. The integers
that are read off a decimal at the end are the ceiling and the floor of the number that it denotes. -/
namespace WorkloadAdmission

open Number

theorem Number.halfEven_error {d : Nat} (positive : 0 < d) (n : Nat) :
    2 * (halfEven n d * d) ≤ 2 * n + d ∧ 2 * n ≤ 2 * (halfEven n d * d) + d := by
  have divided := Nat.div_add_mod' n d
  have remainder : n % d < d := Nat.mod_lt n positive
  simp only [halfEven]
  split
  next up =>
    have half : d ≤ 2 * (n % d) := by
      simp only [Bool.or_eq_true, decide_eq_true_eq, Bool.and_eq_true, beq_iff_eq] at up
      omega
    rw [Nat.add_mul, Nat.one_mul]
    omega
  next down =>
    have half : 2 * (n % d) ≤ d := by
      simp only [Bool.or_eq_true, decide_eq_true_eq, not_or, Nat.not_lt] at down
      exact down.1
    omega

namespace Decimal

/-! ### Values -/

theorem zpow_pos_ten (e : Int) : (0 : ℚ) < 10 ^ e := zpow_pos (by norm_num) e

@[simp] theorem value_zero (e : Int) : value 0 e = 0 := by simp [value]

@[simp] theorem value_ofInt (n : Int) : value n 0 = n := by simp [value]

theorem value_mul (c d e f : Int) : value (c * d) (e + f) = value c e * value d f := by
  rw [value, value, value, zpow_add₀ (by norm_num), Int.cast_mul]
  ring

theorem value_mul_pow (c e : Int) (k : Nat) : value (c * 10 ^ k) e = value c (e + k) := by
  rw [value, value, zpow_add₀ (by norm_num), zpow_natCast, Int.cast_mul, Int.cast_pow, Int.cast_ofNat]
  ring

theorem value_inj {c d e : Int} : value c e = value d e ↔ c = d := by
  rw [value, value, mul_left_inj' (zpow_pos_ten e).ne', Int.cast_inj]

theorem value_nonneg {c e : Int} (nonneg : 0 ≤ c) : 0 ≤ value c e :=
  mul_nonneg (Int.cast_nonneg nonneg) (zpow_pos_ten e).le

theorem value_pos {c e : Int} (positive : 0 < c) : 0 < value c e :=
  mul_pos (Int.cast_pos.mpr positive) (zpow_pos_ten e)

theorem nonneg_of_value {c e : Int} (nonneg : 0 ≤ value c e) : 0 ≤ c := by
  rwa [value, mul_nonneg_iff_of_pos_right (zpow_pos_ten e), Int.cast_nonneg_iff] at nonneg

/-- The leading digit of a number stands no higher than that of a larger one. -/
theorem place_le {c d e f : Int} (order : |value c e| ≤ |value d f|) (nonzero : c ≠ 0) :
    e + decimalLength c.natAbs ≤ f + decimalLength d.natAbs := by
  have places := (zpow_lt_zpow_iff_right₀ (by norm_num : (1 : ℚ) < 10)).mp
    ((le_abs_value nonzero).trans_lt (order.trans_lt (abs_value_lt d f)))
  omega

/-! ### The error of a rounding -/

theorem abs_value_signed (c : Int) (m : Nat) (e f : Int) :
    |value (signed (c < 0) m) e - value c f| = |(m : ℚ) * 10 ^ e - c.natAbs * 10 ^ f| := by
  by_cases negative : c < 0
  · have magnitude : (c : ℚ) = -(c.natAbs : ℚ) := by
      rw [← Int.cast_natCast, Int.ofNat_natAbs_of_nonpos negative.le, Int.cast_neg, neg_neg]
    simp only [value, signed, negative, decide_true, if_true, Int.cast_neg, Int.cast_natCast]
    rw [magnitude, ← abs_neg]
    ring_nf
  · have magnitude : (c : ℚ) = (c.natAbs : ℚ) := by
      rw [← Int.cast_natCast, Int.natAbs_of_nonneg (Int.not_lt.mp negative)]
    simp only [value, signed, negative, decide_false, Bool.false_eq_true, if_false, Int.cast_natCast]
    rw [magnitude]

theorem round_zero (e : Int) : round 0 e = .ok (.finite 0 0) := by simp [round]

/-- A rounded number is off by half a unit in the 28th digit at most, or by half the least unit. -/
theorem round_error {c e s place : Int} (rounded : round c e = .ok (.finite s place)) :
    2 * |value s place - value c e| ≤ max (|value c e| * 10 ^ (-27 : Int)) (10 ^ productMin) := by
  have nonneg : (0 : ℚ) ≤ max (|value c e| * 10 ^ (-27 : Int)) (10 ^ productMin) :=
    (zpow_pos_ten productMin).le.trans (le_max_right _ _)
  have digits := precision_eq
  rcases eq_or_ne c 0 with rfl | nonzero
  · cases (round_zero e).symm.trans rounded
    rw [value_zero, value_zero, sub_zero, abs_zero, mul_zero, zero_mul]
    exact le_max_of_le_right (zpow_pos_ten productMin).le
  have rounds := round_spec c e
  rw [rounded] at rounds
  cases rounds with
  | zero zero => exact absurd zero nonzero
  | exact => rwa [sub_self, abs_zero, mul_zero]
  | @dropped dropped _ _ drops _ =>
    have unit : (10 : ℚ) ^ lastKept c e = 10 ^ dropped * 10 ^ e := by
      rw [← drops, zpow_add₀ (by norm_num), zpow_natCast, mul_comm]
    have near : 2 * |(halfEven c.natAbs (10 ^ dropped) : ℚ) * 10 ^ dropped - c.natAbs| ≤ 10 ^ dropped := by
      obtain ⟨above, below⟩ := halfEven_error (d := 10 ^ dropped) (Nat.pow_pos (by decide)) c.natAbs
      have above : (2 : ℚ) * (halfEven c.natAbs (10 ^ dropped) * 10 ^ dropped) ≤
          2 * c.natAbs + 10 ^ dropped := by exact_mod_cast above
      have below : (2 : ℚ) * c.natAbs ≤
          2 * (halfEven c.natAbs (10 ^ dropped) * 10 ^ dropped) + 10 ^ dropped := by exact_mod_cast below
      rw [← abs_two, ← abs_mul, abs_le]
      constructor <;> linarith
    have moved : 2 * |value (signed (c < 0) (halfEven c.natAbs (10 ^ dropped))) (lastKept c e) - value c e| ≤
        10 ^ lastKept c e := by
      rw [abs_value_signed, unit, ← mul_assoc, ← sub_mul, abs_mul, abs_of_pos (zpow_pos_ten e), ← mul_assoc]
      exact mul_le_mul_of_nonneg_right near (zpow_pos_ten e).le
    refine moved.trans ?_
    rcases max_choice (e + decimalLength c.natAbs - precision) productMin with top | low
    · have place : lastKept c e = e + decimalLength c.natAbs - 1 + (-27) := by
        rw [lastKept, top]
        omega
      rw [place, zpow_add₀ (by norm_num)]
      exact le_max_of_le_left
        (mul_le_mul_of_nonneg_right (le_abs_value nonzero) (zpow_pos_ten _).le)
    · rw [lastKept, low]
      exact le_max_right _ _

/-- A number of 28 digits in the range is not moved. -/
theorem round_exact {c e s j : Int} (same : value c e = value s j) (few : s.natAbs < 10 ^ 28)
    (low : productMin ≤ j) (high : j + 28 ≤ productMax + 1) :
    ∃ t place, round c e = .ok (.finite t place) ∧ value t place = value c e := by
  have digits := precision_eq
  rcases eq_or_ne c 0 with rfl | nonzero
  · exact ⟨0, 0, round_zero e, by rw [value_zero, value_zero]⟩
  have length : decimalLength s.natAbs ≤ 28 := (decimalLength_le_iff (by decide)).mpr few
  have place := place_le (congrArg abs same).le nonzero
  -- Dropped digits are zeros, since the last place that is kept is no higher than that of `s`.
  have kept {dropped : Nat} (drops : e + dropped = lastKept c e) :
      ∃ t, value t (lastKept c e) = value c e ∧ c = t * 10 ^ dropped ∧
        halfEven c.natAbs (10 ^ dropped) = t.natAbs := by
    have least : lastKept c e ≤ j := max_le (by omega) low
    obtain ⟨k, raised⟩ := Int.eq_ofNat_of_zero_le (a := j - lastKept c e) (by omega)
    have top : lastKept c e + k = j := by omega
    have whole : c = s * 10 ^ k * 10 ^ dropped := by
      rw [← value_inj (e := e), value_mul_pow, drops, value_mul_pow, top, same]
    refine ⟨s * 10 ^ k, by rw [value_mul_pow, top, same], whole, ?_⟩
    have magnitude : c.natAbs = (s * 10 ^ k).natAbs * 10 ^ dropped := by
      rw [whole, Int.natAbs_mul, Int.natAbs_pow]
      rfl
    rw [magnitude, halfEven_mul (Nat.pow_pos (by decide))]
  have rounds := round_spec c e
  generalize round c e = result at rounds ⊢
  cases rounds with
  | zero zero => exact absurd zero nonzero
  | tooLarge _ large => omega
  | exact => exact ⟨c, e, rfl, rfl⟩
  | carried inRange _ drops carries =>
    exfalso
    obtain ⟨t, equal, whole, magnitude⟩ := kept drops
    have some : t ≠ 0 := by
      rintro rfl
      exact nonzero (by rw [whole, Int.zero_mul])
    have placed := place_le (congrArg abs equal).le some
    rw [magnitude] at carries
    omega
  | @dropped dropped _ _ drops _ =>
    obtain ⟨t, equal, whole, magnitude⟩ := kept drops
    have sign : (c < 0) = (t < 0) := by
      have power : (0 : Int) < 10 ^ dropped := by positivity
      rw [whole, eq_iff_iff, ← not_iff_not, not_lt, not_lt, mul_nonneg_iff_of_pos_right power]
    refine ⟨_, _, rfl, ?_⟩
    rw [magnitude]
    simp only [sign]
    rw [signed_natAbs, equal]

/-! ### Exact products -/

/-- A number with at most so many significant digits. -/
def HasDigits (count : Nat) (q : ℚ) : Prop := ∃ s e : Int, s.natAbs < 10 ^ count ∧ q = value s e

/-- Zero, or a number of at most so many places on either side of the point. -/
def IsWithin (places : Nat) (q : ℚ) : Prop := q ≠ 0 → 10 ^ (-places : Int) ≤ |q| ∧ |q| < 10 ^ (places : Int)

variable {q r : ℚ} {count places more : Nat}

theorem HasDigits.shift (few : HasDigits count q) (k : Int) : HasDigits count (q * 10 ^ k) := by
  obtain ⟨s, e, digits, rfl⟩ := few
  refine ⟨s, e + k, digits, ?_⟩
  rw [value, value, zpow_add₀ (by norm_num), mul_assoc]

/-- The first number with one digit more has but one that is not zero. -/
theorem hasDigits_of_le {s : Int} (few : s.natAbs ≤ 10 ^ count) (some : 0 < count) (e : Int) :
    HasDigits count (value s e) := by
  rcases Nat.lt_or_eq_of_le few with fewer | most
  · exact ⟨s, e, fewer, rfl⟩
  · have one : 1 < 10 ^ count := Nat.one_lt_pow (by omega) (by decide)
    rcases Int.natAbs_eq s with same | same
    · refine ⟨1, e + count, one, ?_⟩
      rw [same, most, ← value_mul_pow, one_mul, Nat.cast_pow, Nat.cast_ofNat]
    · refine ⟨-1, e + count, one, ?_⟩
      rw [same, most, ← value_mul_pow, neg_one_mul, Nat.cast_pow, Nat.cast_ofNat]

theorem HasDigits.mul_natCast (few : HasDigits count q) {n : Nat} (room : 10 ^ count * n ≤ 10 ^ more)
    (positive : 0 < n) : HasDigits more (q * n) := by
  obtain ⟨s, e, digits, rfl⟩ := few
  refine ⟨s * n, e, ?_, ?_⟩
  · rw [Int.natAbs_mul, Int.natAbs_natCast]
    exact (Nat.mul_lt_mul_of_pos_right digits positive).trans_le room
  · rw [value, value, Int.cast_mul, Int.cast_natCast, mul_right_comm]

theorem isWithin_value {c e : Int} (low : -places ≤ e) (high : e + decimalLength c.natAbs ≤ places) :
    IsWithin places (value c e) := by
  intro nonzero
  have some : c ≠ 0 := by
    rintro rfl
    exact nonzero (value_zero e)
  have length := decimalLength_pos c.natAbs
  constructor
  · exact (zpow_le_zpow_right₀ (by norm_num) (by omega)).trans (le_abs_value some)
  · exact (abs_value_lt c e).trans_le (zpow_le_zpow_right₀ (by norm_num) high)

theorem IsWithin.mul (within : IsWithin places q) (inside : IsWithin more r) :
    IsWithin (places + more) (q * r) := by
  intro nonzero
  obtain ⟨low, high⟩ := within (left_ne_zero_of_mul nonzero)
  obtain ⟨least, most⟩ := inside (right_ne_zero_of_mul nonzero)
  rw [abs_mul, Nat.cast_add, neg_add, zpow_add₀ (by norm_num), zpow_add₀ (by norm_num)]
  exact ⟨mul_le_mul low least (zpow_pos_ten _).le (abs_nonneg q),
    mul_lt_mul'' high most (abs_nonneg q) (abs_nonneg r)⟩

/-- A product of 28 digits well inside the range is exact. -/
theorem mul_exact {c e d f : Int} (few : HasDigits 28 (value c e * value d f))
    (within : IsWithin places (value c e * value d f)) (inside : places ≤ 900000) :
    ∃ t place, (Decimal.finite c e).mul (.finite d f) = .ok (.finite t place) ∧
      value t place = value c e * value d f := by
  rw [← value_mul] at few within ⊢
  obtain ⟨s, j, digits, same⟩ := few
  rcases eq_or_ne s 0 with rfl | nonzero
  · rw [value_zero, ← value_zero 0] at same
    exact round_exact same (by decide) (by decide) (by decide)
  · have some : value s j ≠ 0 := by
      rw [← value_zero j, ne_eq, value_inj]
      exact nonzero
    obtain ⟨low, high⟩ := within (same ▸ some)
    rw [same] at low high
    have length : decimalLength s.natAbs ≤ 28 := (decimalLength_le_iff (by decide)).mpr digits
    have first := decimalLength_pos s.natAbs
    have base : (1 : ℚ) < 10 := by norm_num
    have least := (zpow_lt_zpow_iff_right₀ base).mp (low.trans_lt (abs_value_lt s j))
    have most := (zpow_lt_zpow_iff_right₀ base).mp ((le_abs_value nonzero).trans_lt high)
    have minimum := productMin_eq
    have maximum := productMax_eq
    exact round_exact same digits (by omega) (by omega)

/-! ### Integers -/

theorem value_ofNat (c : Int) (e : Nat) : value c (.ofNat e) = (c * 10 ^ e : Int) := by
  rw [value, Int.ofNat_eq_natCast, zpow_natCast, Int.cast_mul, Int.cast_pow, Int.cast_ofNat]

theorem value_negSucc (c : Int) (e : Nat) : value c (.negSucc e) = (c : ℚ) / (10 ^ (e + 1) : Nat) := by
  rw [value, zpow_negSucc, Nat.cast_pow, Nat.cast_ofNat, div_eq_mul_inv]

theorem ceil_eq (c e : Int) : ceil (.finite c e) = .ok ⌈value c e⌉ := by
  cases e with
  | ofNat e => rw [value_ofNat, Int.ceil_intCast, ceil, pow10_eq, Nat.cast_pow, Nat.cast_ofNat]
  | negSucc e =>
    rw [value_negSucc, Rat.ceil_intCast_div_natCast, ceil, pow10_eq,
      Int.fdiv_eq_ediv_of_nonneg _ (Int.natCast_nonneg _)]

theorem truncate_eq {c : Int} (nonneg : 0 ≤ c) (e : Int) : truncate (.finite c e) = .ok ⌊value c e⌋ := by
  cases e with
  | ofNat e => rw [value_ofNat, Int.floor_intCast, truncate, pow10_eq, Nat.cast_pow, Nat.cast_ofNat]
  | negSucc e =>
    rw [value_negSucc, Rat.floor_intCast_div_natCast, truncate, pow10_eq, Int.tdiv_eq_ediv_of_nonneg nonneg]

end Decimal
end WorkloadAdmission
