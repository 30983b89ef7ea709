import WorkloadAdmission.Proofs.Decrease

/-! What a request is shrunk to. The request is multiplied by the decimal that its factor prints, the
product is rounded to 28 digits, and of that number the multiple of ten at or below it is kept and stamped.
Where the digits of the request and those of the decimal are 28 together at most, nothing is rounded, so
the multiple of ten is that of the product of the two rationals. All requests below 10^11 are of this kind,
since no factor prints more than 17 digits. -/
namespace WorkloadAdmission

open Number Decimal

namespace Decimal

/-- A product has no more digits than its two factors together. -/
theorem HasDigits.natCast_mul {d : ℚ} {digits more : Nat} (few : HasDigits digits d) {m : Nat}
    (room : decimalLength m + digits ≤ more) : HasDigits more (m * d) := by
  rcases Nat.eq_zero_or_pos m with rfl | positive
  · exact ⟨0, 0, Nat.pow_pos (by decide), by simp⟩
  · have bound : 10 ^ digits * m ≤ 10 ^ more :=
      calc 10 ^ digits * m ≤ 10 ^ digits * 10 ^ decimalLength m :=
            Nat.mul_le_mul_left _ (lt_pow_decimalLength m).le
        _ = 10 ^ (digits + decimalLength m) := (Nat.pow_add ..).symm
        _ ≤ 10 ^ more := Nat.pow_le_pow_right (by decide) (by omega)
    rw [mul_comm]
    exact few.mul_natCast bound positive

/-- The decimal of a binary64 number lies well inside the range of products. -/
theorem isWithin_ofBinary64 {x : Binary64} {c e : Int} (read : ofBinary64 x = .finite c e) :
    IsWithin 800 (value c e) := by
  obtain ⟨rfl, rfl⟩ | ⟨negative, index, positive, rfl, place⟩ := ofBinary64_eq_finite read
  · intro nonzero
    exact absurd (value_zero 0) nonzero
  · obtain ⟨few, range⟩ := shortest_bounds positive index.isLt
    have length : decimalLength (shortest index.val).1 ≤ 18 :=
      (decimalLength_le_iff (by decide)).mpr (few.trans_lt (by decide))
    apply isWithin_value
    · omega
    · rw [natAbs_signed]
      omega

end Decimal

/-- A finite factor above zero prints a decimal above zero, of seventeen digits at most. -/
theorem prints_positive {factor : Binary64} (above : factor.isPositive = true)
    (finite : factor.isFinite = true) : ∃ d, factor.Prints d ∧ 0 < d ∧ HasDigits 17 d := by
  obtain ⟨index, rfl, positive, decimal⟩ := ofBinary64_positive above finite
  have some : (0 : Int) < (shortest index.val).1 := by exact_mod_cast shortest_pos positive
  exact ⟨_, Binary64.prints_iff.mpr ⟨_, _, decimal, rfl⟩, value_pos some,
    hasDigits_of_le (natAbs_ofBinary64_le decimal) (by decide) _⟩

/-- Where the digits fit, a request is shrunk by the exact product. -/
theorem reducedMillis_of_few {m : Nat} {factor : Binary64} {d : ℚ} {digits : Nat} (prints : factor.Prints d)
    (above : 0 < d) (few : HasDigits digits d) (room : decimalLength m + digits ≤ 28) :
    reducedMillis m factor = .ok (10 * ⌊m * d / 10⌋ + 1) := by
  obtain ⟨c, e, decimal, rfl⟩ := Binary64.prints_iff.mp prints
  have exact := few.natCast_mul room
  have length : decimalLength (m : Int).natAbs ≤ 28 := by
    rw [Int.natAbs_natCast]
    omega
  have counted : IsWithin 28 (value m 0) := isWithin_value (by decide) (by omega)
  have within := counted.mul (isWithin_ofBinary64 decimal)
  rw [← Int.cast_natCast, ← value_ofInt] at exact
  obtain ⟨s, place, product, same⟩ := mul_exact exact within (by decide)
  have nonneg : 0 ≤ s := by
    apply nonneg_of_value (e := place)
    rw [same]
    exact mul_nonneg (value_nonneg (Int.natCast_nonneg m)) above.le
  rw [reducedMillis_of_product decimal product nonneg, same, value_ofInt, Int.cast_natCast]

/-- Shrinking is exact: where the digits of a request and those of the decimal that the factor prints are
28 together at most, what remains is the multiple of ten at or below the product of the two rationals, with
the stamp. Requests below 10^11 meet this under every finite factor above zero. -/
theorem reducedMillis_exact :
    (∀ (m : Nat) (factor : Binary64) (d : ℚ) (digits : Nat), factor.Prints d → 0 < d → HasDigits digits d →
      decimalLength m + digits ≤ 28 → reducedMillis m factor = .ok (10 * ⌊m * d / 10⌋ + 1)) ∧
    ∀ (m : Nat) (factor : Binary64), m < 10 ^ 11 → factor.isPositive = true → factor.isFinite = true →
      ∃ d, factor.Prints d ∧ 0 < d ∧ HasDigits 17 d ∧
        reducedMillis m factor = .ok (10 * ⌊m * d / 10⌋ + 1) := by
  constructor
  · intro m factor d digits prints above few room
    exact reducedMillis_of_few prints above few room
  · intro m factor small positive finite
    obtain ⟨d, prints, above, few⟩ := prints_positive positive finite
    have length : decimalLength m ≤ 11 := (decimalLength_le_iff (by decide)).mpr small
    exact ⟨d, prints, above, few, reducedMillis_of_few prints above few (by omega)⟩

/-- A request that the binary product of the same numbers puts just below a multiple of ten, and a factor
that is written with an exponent. -/
theorem reducedMillis_exact_tenths :
    let tenths : Binary64 := .ofDecimal false 7 (-1)
    let tiny : Binary64 := .ofDecimal false 1 (-5)
    tenths.Prints (7 / 10) ∧ HasDigits 1 (7 / 10) ∧ decimalLength 700 + 1 ≤ 28 ∧
      reducedMillis 700 tenths = .ok (10 * ⌊((700 : Nat) : ℚ) * (7 / 10) / 10⌋ + 1) ∧
      reducedMillis 700 tenths = .ok 491 ∧
      tiny.isPositive = true ∧ tiny.isFinite = true ∧
      ∃ d, tiny.Prints d ∧ reducedMillis 12345678 tiny = .ok (10 * ⌊((12345678 : Nat) : ℚ) * d / 10⌋ + 1) := by
  intro tenths tiny
  have prints : tenths.Prints (7 / 10) := by
    have decimal : ofBinary64 tenths = .finite 7 (-1) := by decide +kernel
    exact Binary64.prints_iff.mpr ⟨7, -1, decimal, by norm_num [value]⟩
  have few : HasDigits 1 (7 / 10) := ⟨7, -1, by decide, by norm_num [value]⟩
  have room : decimalLength 700 + 1 ≤ 28 := by decide
  have shrunk := reducedMillis_exact.1 700 tenths (7 / 10) 1 prints (by norm_num) few room
  have whole : 10 * ⌊((700 : Nat) : ℚ) * (7 / 10) / 10⌋ + 1 = 491 := by norm_num
  have positive : tiny.isPositive = true := by decide +kernel
  have finite : tiny.isFinite = true := by decide +kernel
  obtain ⟨d, printsToo, -, -, shrunkToo⟩ :=
    reducedMillis_exact.2 12345678 tiny (by decide) positive finite
  exact ⟨prints, few, room, shrunk, by rw [← whole]; exact shrunk, positive, finite, d, printsToo, shrunkToo⟩

end WorkloadAdmission
