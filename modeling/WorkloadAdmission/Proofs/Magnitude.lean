import WorkloadAdmission.Proofs.Exactness
import WorkloadAdmission.Proofs.Shrinking

/-! How large a count of millicores can be. A product that has been rounded without a fault is at most
the largest number of 28 digits in range, and so is every decoded request. A factor below one keeps
such a count in range, so shrinking it has no fault left but one: the result may be too long to be
written. -/
namespace WorkloadAdmission

open Number

namespace Decimal

/-- Rounding keeps 28 digits and the range. -/
theorem round_eq_finite {c e s place : Int} (rounded : round c e = .ok (.finite s place)) :
    s.natAbs ≤ 10 ^ 28 ∧ place + decimalLength s.natAbs ≤ lastPlace + 28 := by
  have max := productMax_eq_lastPlace
  have digits := precision_eq
  have rounds := round_spec c e
  rw [rounded] at rounds
  cases rounds with
  | zero =>
    have digit : decimalLength (Int.natAbs 0) = 1 := by rfl
    exact ⟨Nat.zero_le _, by omega⟩
  | exact inRange fits =>
    have least : e + decimalLength c.natAbs - precision ≤ lastKept c e := le_max_left _ _
    have few : decimalLength c.natAbs ≤ 28 := by omega
    exact ⟨((decimalLength_le_iff (by decide)).mp few).le, by omega⟩
  | dropped inRange _ drops ends =>
    rw [natAbs_signed]
    exact ⟨halfEven_le_of_lastKept drops, by omega⟩

theorem mul_ofInt_eq_finite {d : Decimal} {n s place : Int}
    (product : d.mul (.ofInt n) = .ok (.finite s place)) :
    s.natAbs ≤ 10 ^ 28 ∧ place + decimalLength s.natAbs ≤ lastPlace + 28 := by
  cases d with
  | finite c e => exact round_eq_finite product
  | infinite negative =>
    simp only [mul, ofInt] at product
    split at product <;> cases product
  | nan => cases product
  | signalingNan => cases product

/-- Rounding up to an integer keeps the range. -/
theorem isInRange_ceil {s place n : Int} (few : s.natAbs ≤ 10 ^ 28)
    (range : place + decimalLength s.natAbs ≤ lastPlace + 28)
    (counted : ceil (.finite s place) = .ok n) : IsInRange n.toNat := by
  rcases Int.le_total s 0 with negative | positive
  · have nothing : n ≤ 0 := by
      cases place with
      | ofNat k =>
        cases counted
        exact Int.mul_nonpos_of_nonpos_of_nonneg negative (Int.natCast_nonneg _)
      | negSucc k =>
        cases counted
        exact Int.neg_nonpos_of_nonneg (Int.fdiv_nonneg (Int.neg_nonneg_of_nonpos negative)
          (Int.natCast_nonneg _))
    rw [Int.toNat_eq_zero.mpr nothing]
    exact Nat.zero_le _
  · obtain ⟨m, rfl⟩ := Int.eq_ofNat_of_zero_le positive
    rw [Int.natAbs_natCast] at few range
    cases place with
    | ofNat k =>
      cases counted
      have whole : ((m : Int) * (pow10 k : Nat)).toNat = m * 10 ^ k := by
        rw [← Int.natCast_mul, Int.toNat_natCast, pow10_eq]
      rw [whole]
      exact isInRange_mul_pow few (by simp only [Int.ofNat_eq_natCast] at range; omega)
    | negSucc k =>
      cases counted
      have divisor : (1 : Int) ≤ (pow10 (k + 1) : Nat) := by
        exact_mod_cast Nat.pow_pos (n := k + 1) (show 0 < 10 by decide)
      have least : -(m : Int) ≤ Int.fdiv (-m) (pow10 (k + 1) : Nat) := by
        rw [Int.fdiv_eq_ediv_of_nonneg _ (Int.natCast_nonneg _)]
        apply Int.le_ediv_of_mul_le (by omega)
        rw [Int.neg_mul]
        exact Int.neg_le_neg
          (by simpa using Int.mul_le_mul_of_nonneg_left divisor (Int.natCast_nonneg m))
      have atMost : (-(Int.fdiv (-m) (pow10 (k + 1) : Nat))).toNat ≤ 10 ^ 28 := by omega
      calc (-(Int.fdiv (-m) (pow10 (k + 1) : Nat))).toNat ≤ 10 ^ 28 := atMost
        _ ≤ (10 ^ 28 - 1) * 10 ^ 1 := by decide
        _ ≤ (10 ^ 28 - 1) * 10 ^ lastPlace :=
          Nat.mul_le_mul_left _ (Nat.pow_le_pow_right (by decide) (by rw [lastPlace]; decide))

/-- What is at most a number in range does not overflow, wherever the point stands. -/
theorem abs_value_lt_of_le {m e : Nat} (bound : m ≤ (10 ^ 28 - 1) * 10 ^ lastPlace * 10 ^ e) :
    |value m (-(e : Int))| < overflowBound := by
  have scaled : (m : ℚ) ≤ ((10 ^ 28 - 1) * 10 ^ lastPlace : Nat) * 10 ^ e := by
    have bound : (m : ℚ) ≤ ((10 ^ 28 - 1) * 10 ^ lastPlace * 10 ^ e : Nat) := Nat.cast_le.mpr bound
    rwa [Nat.cast_mul, Nat.cast_pow, Nat.cast_ofNat] at bound
  calc |value m (-(e : Int))| = m / 10 ^ e := by
        rw [abs_value, Int.natAbs_natCast, zpow_neg, zpow_natCast, div_eq_mul_inv]
    _ ≤ ((10 ^ 28 - 1) * 10 ^ lastPlace : Nat) := (div_le_iff₀ (by positivity)).mpr scaled
    _ < overflowBound := natCast_lt_overflowBound (Nat.le_refl _)

theorem truncate_isOk (s place : Int) : ∃ n, truncate (.finite s place) = .ok n := by
  cases place with
  | ofNat e => exact ⟨_, rfl⟩
  | negSucc e => exact ⟨_, rfl⟩

theorem ceil_isOk (s place : Int) : ∃ n, ceil (.finite s place) = .ok n := by
  cases place with
  | ofNat e => exact ⟨_, rfl⟩
  | negSucc e => exact ⟨_, rfl⟩

end Decimal

open Decimal

theorem Quantity.isInRange_cpuMillis {v : Json} {n : Int} (counted : cpuMillis v = .ok n) :
    IsInRange n.toNat := by
  simp only [cpuMillis, Fallible.bind_eq_ok, Fallible.mapError_eq_ok] at counted
  obtain ⟨cores, -, counts⟩ := counted
  obtain ⟨product, multiplied, rounded⟩ := Fallible.bind_eq_ok.mp counts
  cases product with
  | finite s place =>
    obtain ⟨few, range⟩ := mul_ofInt_eq_finite multiplied
    exact isInRange_ceil few range rounded
  | infinite negative => cases rounded
  | nan => cases rounded
  | signalingNan => cases rounded

/-- Under a factor that has a decimal, a count is reduced unless the product of the two overflows. -/
theorem reducedMillis_isOk_finite_iff {m c e : Int} {factor : Binary64}
    (decimal : ofBinary64 factor = .finite c e) :
    (∃ r, reducedMillis m factor = .ok r) ↔ |m * value c e| < overflowBound := by
  rw [← value_ofInt m, ← value_mul, ← round_finite_iff]
  constructor
  · rintro ⟨r, reduced⟩
    simp only [reducedMillis, decimal, Fallible.bind_eq_ok] at reduced
    obtain ⟨product, multiplied, -⟩ := reduced
    obtain ⟨s, place, rfl⟩ := round_eq_ok multiplied
    exact ⟨s, place, multiplied⟩
  · rintro ⟨s, place, rounded⟩
    have product : (ofInt m).mul (.finite c e) = .ok (.finite s place) := rounded
    obtain ⟨whole, truncated⟩ := truncate_isOk s place
    refine ⟨Int.fdiv whole 10 * 10 + signatureDigit, ?_⟩
    rw [reducedMillis, decimal, product, Fallible.ok_bind, truncated]
    rfl

/-- A factor below one reduces a count in range to some count. -/
theorem reducedMillis_isOk {millis : Int} {factor : Binary64} (positive : 0 < millis)
    (range : IsInRange millis.toNat) (above : factor.isPositive = true)
    (below : factor.isAtLeastOne = false) : ∃ r, reducedMillis millis factor = .ok r := by
  obtain ⟨n, rfl⟩ := Int.eq_ofNat_of_zero_le positive.le
  obtain ⟨significand, e, decimal, atMostOne⟩ := ofBinary64_below_one above below
  have bound : n * significand ≤ (10 ^ 28 - 1) * 10 ^ lastPlace * 10 ^ e := Nat.mul_le_mul range atMostOne
  rw [reducedMillis_isOk_finite_iff decimal, ← value_ofInt n, ← value_mul, Int.zero_add, ← Int.natCast_mul]
  exact abs_value_lt_of_le bound

namespace Container

/-- Every CPU request is in range. -/
def IsCounted (c : Container) : Prop := ∀ millis ∈ c.cpuMillis, IsInRange millis.toNat

variable {c : Container} {factor : Binary64}

theorem requestedMillis_eq_ok {quantity : Json} {millis : Int}
    (requested : requestedMillis quantity = .ok millis) : Quantity.cpuMillis quantity = .ok millis := by
  unfold requestedMillis at requested
  split at requested
  next counted =>
    cases requested
    exact counted
  all_goals cases requested

theorem isCounted_of_ofJson {item : Json} (decoded : ofJson item = .ok c) : c.IsCounted := by
  obtain ⟨fields, resources, -, -, -, -, counts⟩ := ofJson_eq_ok.mp decoded
  intro millis held
  cases found : Fields.get? c.requests "cpu" with
  | none =>
    rw [found, held] at counts
    cases counts
  | some quantity =>
    rw [found, held, Option.mapM_some] at counts
    obtain ⟨counted, requested, same⟩ := Fallible.map_eq_ok.mp counts
    cases same
    exact Quantity.isInRange_cpuMillis (requestedMillis_eq_ok requested)

end Container
end WorkloadAdmission
