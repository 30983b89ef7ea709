import WorkloadAdmission.Pod.Reduction
import WorkloadAdmission.Proofs.Manifest
import WorkloadAdmission.Proofs.Shortest

/-! The request that a factor below one leaves. Below 10^28 millicores the arithmetic always succeeds
and its result carries the stamp: a positive count, still below 10^28, whose last digit is one. -/
namespace WorkloadAdmission

open Number

theorem isReduced_iff {millis : Int} : isReduced millis = true ↔ millis % 10 = 1 := by
  simp [isReduced, signatureDigit, Int.fmod_eq_emod_of_nonneg]

/-- A finite factor above zero is multiplied by its shortest decimal. -/
theorem ofBinary64_positive {factor : Binary64} (above : factor.isPositive = true)
    (finite : factor.isFinite = true) :
    ∃ index, factor = .finite false index ∧ 0 < index.val ∧
      Decimal.ofBinary64 factor = .finite (shortest index.val).1 (shortest index.val).2 := by
  cases factor with
  | nan => cases finite
  | infinite negative => cases finite
  | finite negative index =>
    simp only [Binary64.isPositive, Bool.and_eq_true, Bool.not_eq_true', decide_eq_true_eq] at above
    obtain ⟨rfl, positive⟩ := above
    refine ⟨index, rfl, positive, ?_⟩
    rw [Decimal.ofBinary64, if_neg (Nat.ne_of_gt positive)]
    rfl

theorem isFinite_of_below_one {factor : Binary64} (above : factor.isPositive = true)
    (below : factor.isAtLeastOne = false) : factor.isFinite = true := by
  cases factor with
  | nan => cases above
  | infinite negative => simp_all [Binary64.isPositive, Binary64.isAtLeastOne]
  | finite negative index => rfl

theorem ofBinary64_below_one {factor : Binary64} (above : factor.isPositive = true)
    (below : factor.isAtLeastOne = false) :
    ∃ significand e : Nat, Decimal.ofBinary64 factor = .finite significand (-(e : Int)) ∧
      significand ≤ 10 ^ e := by
  obtain ⟨index, rfl, -, decimal⟩ := ofBinary64_positive above (isFinite_of_below_one above below)
  have one : index.val < indexOfOne := by simpa [Binary64.isAtLeastOne] using below
  obtain ⟨e, exponent, bound⟩ := shortest_le_one one
  exact ⟨(shortest index.val).1, e, by rw [decimal, exponent], bound⟩

/-- A factor below one leaves a stamped request below the bound. -/
theorem reducedMillis_stamped {millis : Int} {factor : Binary64} (positive : 0 < millis)
    (bound : millis < 10 ^ 28) (above : factor.isPositive = true)
    (below : factor.isAtLeastOne = false) :
    ∃ r : Nat, reducedMillis millis factor = .ok r ∧ 0 < r ∧ r < 10 ^ 28 ∧ r % 10 = 1 := by
  obtain ⟨n, rfl⟩ := Int.eq_ofNat_of_zero_le positive.le
  obtain ⟨significand, e, decimal, atMostOne⟩ := ofBinary64_below_one above below
  have few : n < 10 ^ 28 := by exact_mod_cast bound
  have atMost : n * significand ≤ n * 10 ^ e := Nat.mul_le_mul_left n atMostOne
  have fits : n * significand < 10 ^ 28 * 10 ^ e :=
    Nat.lt_of_le_of_lt atMost (Nat.mul_lt_mul_of_pos_right few (Nat.pow_pos (by decide)))
  obtain ⟨r, j, rounded, between⟩ := Decimal.round_crosses_no_integer fits
  have product : Decimal.mul (.ofInt n) (.ofBinary64 factor) = .ok (.finite r (-(j : Int))) := by
    simpa [decimal, Decimal.ofInt, Decimal.mul] using rounded
  have whole : r / 10 ^ j ≤ n := Nat.div_le_of_le_mul (by
    rw [Nat.mul_comm]
    exact (between n).1 atMost)
  have tens : Int.fdiv (r / 10 ^ j : Nat) 10 = ((r / 10 ^ j / 10 : Nat) : Int) := by
    rw [Int.fdiv_eq_ediv_of_nonneg _ (by decide)]
    rfl
  refine ⟨r / 10 ^ j / 10 * 10 + 1, ?_, Nat.succ_pos _, ?_, by omega⟩
  · simp only [reducedMillis, product, Fallible.ok_bind, Decimal.truncate_finite, ← Int.ofNat_tdiv,
      tens, signatureDigit]
    rfl
  · omega

end WorkloadAdmission
