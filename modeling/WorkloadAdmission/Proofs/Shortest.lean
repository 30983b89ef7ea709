import Mathlib.Data.Nat.Log
import WorkloadAdmission.Number.Decimal
import WorkloadAdmission.Proofs.Rounding

/-! The shortest decimal of a number below one is at most one. Its digits lie behind the point, since
every grid that is tried is at least as fine as tenths, and one is a point of each such grid. -/
namespace WorkloadAdmission

namespace Number

theorem units_lt {index e : Nat} (below : index < (e + 1) * binade) : units index < pow2 (52 + e) := by
  have binades : binade = 2 ^ 52 := rfl
  rw [units, pow2_eq]
  split
  · rename_i subnormal
    calc index < 2 ^ 52 := subnormal
      _ ≤ 2 ^ (52 + e) := Nat.pow_le_pow_right (by decide) (Nat.le_add_right ..)
  · rename_i normal
    have fraction : index % binade < binade := Nat.mod_lt _ (by rw [binades]; exact Nat.pow_pos (by decide))
    have exponent : index / binade < e + 1 := Nat.div_lt_of_lt_mul (by rwa [Nat.mul_comm])
    have first : 0 < index / binade := Nat.div_pos (Nat.le_of_not_lt normal) (Nat.zero_lt_of_lt fraction)
    calc (binade + index % binade) * 2 ^ (index / binade - 1)
        < 2 ^ 53 * 2 ^ (index / binade - 1) := by
          apply Nat.mul_lt_mul_of_pos_right _ (Nat.pow_pos (by decide))
          omega
      _ = 2 ^ (53 + (index / binade - 1)) := (Nat.pow_add ..).symm
      _ ≤ 2 ^ (52 + e) := Nat.pow_le_pow_right (by decide) (by omega)

theorem units_lt_unitsOfOne {index : Nat} (below : index < indexOfOne) : units index < unitsOfOne :=
  units_lt (e := 1022) below

theorem countBelow_lt {value e : Nat} (below : value < unitsOfOne) :
    countBelow value (.negSucc e) < 10 ^ (e + 1) := by
  simp only [countBelow, pow10_eq]
  apply Nat.div_lt_of_lt_mul
  exact Nat.mul_lt_mul_of_pos_right below (Nat.pow_pos (by decide))

/-- The multiple that is read as a magnitude is the one below it or the next. -/
theorem multiple?_neighbour {index count : Nat} {e : Int} (found : multiple? index e = some count) :
    count = countBelow (units index) e ∨ count = countBelow (units index) e + 1 := by
  simp only [multiple?] at found
  split at found
  · split at found <;> simp only [Option.some.injEq] at found <;> omega
  · split at found
    · simp only [Option.some.injEq] at found
      omega
    · split at found
      · simp only [Option.some.injEq] at found
        omega
      · simp at found

theorem multiple?_le {index e count : Nat} (below : index < indexOfOne)
    (found : multiple? index (.negSucc e) = some count) : count ≤ 10 ^ (e + 1) := by
  have low := countBelow_lt (e := e) (units_lt_unitsOfOne below)
  rcases multiple?_neighbour found with rfl | rfl
  · exact low.le
  · exact low

theorem leadingExponent_neg {numerator denominator : Nat} (below : numerator < denominator) :
    ∃ e : Nat, leadingExponent numerator denominator = .negSucc e := by
  have length := decimalLength_pos ((denominator - 1) / numerator)
  refine ⟨decimalLength ((denominator - 1) / numerator) - 1, ?_⟩
  rw [leadingExponent, if_neg (by omega)]
  omega

/-- The exact decimal of a count of units of `2 ^ -k`. -/
theorem exact_le {value k : Nat} (below : value < pow2 k) : value * Nat.pow 5 k ≤ 10 ^ k :=
  calc value * Nat.pow 5 k ≤ 2 ^ k * 5 ^ k := Nat.mul_le_mul_right _ below.le
    _ = (2 * 5) ^ k := (Nat.mul_pow 2 5 k).symm
    _ = 10 ^ k := by rw [show 2 * 5 = 10 from rfl]

/-- A number below one is written by digits behind the point and is at most one. -/
theorem shortest_le_one {index : Nat} (below : index < indexOfOne) :
    ∃ e : Nat, (shortest index).2 = -(e : Int) ∧ (shortest index).1 ≤ 10 ^ e := by
  have value := units_lt_unitsOfOne below
  obtain ⟨lead, leads⟩ := leadingExponent_neg value
  rw [shortest]
  simp only [leads]
  cases found : (List.range 17).findSome? fun (extra : Nat) =>
      (multiple? index (Int.negSucc lead - extra)).map fun count =>
        (count, Int.negSucc lead - extra) with
  | none =>
    rw [unitsOfOne] at value
    exact ⟨1074, rfl, exact_le value⟩
  | some written =>
    obtain ⟨extra, -, hit⟩ := List.exists_of_findSome?_eq_some found
    obtain ⟨count, counted, rfl⟩ := Option.map_eq_some_iff.mp hit
    have place : Int.negSucc lead - extra = .negSucc (lead + extra) := by omega
    rw [place] at counted ⊢
    exact ⟨lead + extra + 1, rfl, multiple?_le below counted⟩

end Number
end WorkloadAdmission
