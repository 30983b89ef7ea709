import WorkloadAdmission.Proofs.Printing
import WorkloadAdmission.Proofs.Shrinking

/-! CPU requests never grow. A factor below one prints a decimal of seventeen digits or fewer, which falls
short of one by a unit in the seventeenth place. The product is rounded to 28 digits, so it stays below the
request however large that is, and the stamp in place of its last digit does not reach the request either.
An entry is made only for a request that can shrink, and it leaves the smaller one. -/
namespace WorkloadAdmission

open Number

namespace Decimal

/-- A decimal below one with few digits falls short of it by a unit in the last of so many places. -/
theorem value_le_of_lt_one {s e : Int} {count : Nat} (few : s.natAbs ≤ 10 ^ count) (some : 0 < count)
    (below : value s e < 1) : value s e ≤ 1 - 10 ^ (-count : Int) := by
  rcases lt_or_ge e (-count : Int) with fine | coarse
  · have unit : (10 : ℚ) ^ (-count : Int) ≤ 10 ^ (-1 : Int) := zpow_le_zpow_right₀ (by norm_num) (by omega)
    have tenth : (10 : ℚ) ^ (-1 : Int) = 1 / 10 := by norm_num
    have digits : (s.natAbs : ℚ) ≤ 10 ^ count := by exact_mod_cast few
    have small : value s e ≤ 10 ^ (-1 : Int) :=
      calc value s e ≤ |value s e| := le_abs_self _
        _ = s.natAbs * 10 ^ e := abs_value s e
        _ ≤ 10 ^ count * 10 ^ e := mul_le_mul_of_nonneg_right digits (zpow_pos_ten e).le
        _ = 10 ^ (count + e) := by rw [zpow_add₀ (by norm_num), zpow_natCast]
        _ ≤ 10 ^ (-1 : Int) := zpow_le_zpow_right₀ (by norm_num) (by omega)
    rw [tenth] at unit small
    linarith
  · -- One is a point of the grid of so many places, so the decimal lies at the point before it at the latest.
    obtain ⟨k, raised⟩ := Int.eq_ofNat_of_zero_le (a := e + count) (by omega)
    have place : -(count : Int) + k = e := by omega
    have grid : value s e = value (s * 10 ^ k) (-count) := by rw [value_mul_pow, place]
    have one : value (10 ^ count) (-count) = 1 := by
      rw [← one_mul (10 ^ count : Int), value_mul_pow, neg_add_cancel, value_ofInt, Int.cast_one]
    have positive := zpow_pos_ten (-count : Int)
    have before : s * 10 ^ k + 1 ≤ 10 ^ count := by
      rw [grid, ← one, value, value, mul_lt_mul_iff_left₀ positive] at below
      exact_mod_cast below
    have last : value (s * 10 ^ k + 1) (-count) ≤ 1 := by
      rw [← one, value, value, mul_le_mul_iff_left₀ positive]
      exact_mod_cast before
    rw [value, Int.cast_add, Int.cast_one, add_mul, one_mul] at last
    rw [grid, value]
    linarith

/-- Rounding keeps the sign. -/
theorem round_nonneg {c e s place : Int} (rounded : round c e = .ok (.finite s place)) (nonneg : 0 ≤ c) :
    0 ≤ s := by
  have rounds := round_spec c e
  rw [rounded] at rounds
  cases rounds with
  | zero => exact le_rfl
  | exact => exact nonneg
  | dropped =>
    rw [signed, if_neg (by simpa using nonneg)]
    exact Int.natCast_nonneg _

/-- The rounded product with a factor that falls short of one by a unit in the seventeenth place. -/
theorem value_product_lt {m c e s place : Int} (positive : 0 < m)
    (short : value c e ≤ 1 - 10 ^ (-17 : Int)) (nonneg : 0 ≤ value c e)
    (product : (ofInt m).mul (.finite c e) = .ok (.finite s place)) : value s place < m := by
  have exact : value (m * c) (0 + e) = m * value c e := by rw [value_mul, value_ofInt]
  have error := round_error product
  have one : (1 : ℚ) ≤ m := by exact_mod_cast positive
  have most : m * value c e ≤ m * (1 - 10 ^ (-17 : Int)) := mul_le_mul_of_nonneg_left short (by linarith)
  have least : (10 : ℚ) ^ productMin ≤ 10 ^ (-27 : Int) := zpow_le_zpow_right₀ (by norm_num) (by decide)
  have small :
      max (|value (m * c) (0 + e)| * 10 ^ (-27 : Int)) (10 ^ productMin) ≤ (m : ℚ) * 10 ^ (-27 : Int) := by
    have positive := zpow_pos_ten (-27)
    refine max_le (mul_le_mul_of_nonneg_right ?_ positive.le) ?_
    · rw [exact, abs_of_nonneg (mul_nonneg (by linarith) nonneg)]
      have whole := zpow_pos_ten (-17)
      nlinarith
    · nlinarith
  have above := (mul_le_mul_of_nonneg_left (le_abs_self _) two_pos.le).trans (error.trans small)
  rw [exact] at above
  norm_num at above most
  linarith

end Decimal

open Decimal

/-! ### Reduced requests -/

/-- Cutting the integer part of a number to tens cuts the number itself. -/
theorem fdiv_floor_ten (q : ℚ) : Int.fdiv ⌊q⌋ 10 = ⌊q / 10⌋ := by
  rw [Int.fdiv_eq_ediv_of_nonneg _ (by decide)]
  exact (Int.floor_div_natCast q 10).symm

/-- A request is shrunk to the multiple of ten at or below the product as it was rounded. -/
theorem reducedMillis_of_product {m c e s place : Int} {factor : Binary64}
    (decimal : ofBinary64 factor = .finite c e)
    (product : (ofInt m).mul (.finite c e) = .ok (.finite s place)) (nonneg : 0 ≤ s) :
    reducedMillis m factor = .ok (10 * ⌊value s place / 10⌋ + 1) := by
  rw [reducedMillis, decimal, product, Fallible.ok_bind, truncate_eq nonneg, Fallible.ok_bind, fdiv_floor_ten,
    mul_comm]
  rfl

/-- A request that is shrunk has a product, and what it is shrunk to is cut from that. -/
theorem reducedMillis_eq_ok {m c e r : Int} {factor : Binary64} (decimal : ofBinary64 factor = .finite c e)
    (nonneg : 0 ≤ m * c) (reduced : reducedMillis m factor = .ok r) :
    ∃ s place, (ofInt m).mul (.finite c e) = .ok (.finite s place) ∧ 0 ≤ s ∧
      r = 10 * ⌊value s place / 10⌋ + 1 := by
  have steps := reduced
  simp only [reducedMillis, decimal, Fallible.bind_eq_ok] at steps
  obtain ⟨product, multiplied, -⟩ := steps
  obtain ⟨s, place, rfl⟩ := round_eq_ok multiplied
  have kept : 0 ≤ s := round_nonneg multiplied nonneg
  rw [reducedMillis_of_product decimal multiplied kept] at reduced
  exact ⟨s, place, multiplied, kept, (Except.ok.inj reduced).symm⟩

/-! ### Factors below one -/

/-- A factor that prints a decimal between zero and one leaves fewer millicores, with the stamp. -/
theorem reducedMillis_lt {m r : Int} {factor : Binary64} {d : ℚ} (positive : 0 < m) (unstamped : m % 10 ≠ 1)
    (prints : factor.Prints d) (above : 0 < d) (below : d < 1) (reduced : reducedMillis m factor = .ok r) :
    1 ≤ r ∧ r < m ∧ r % 10 = 1 := by
  obtain ⟨c, e, decimal, rfl⟩ := Binary64.prints_iff.mp prints
  have short : value c e ≤ 1 - 10 ^ (-17 : Int) :=
    value_le_of_lt_one (natAbs_ofBinary64_le decimal) (by decide) below
  have product : 0 ≤ m * c := Int.mul_nonneg positive.le (nonneg_of_value above.le)
  obtain ⟨s, place, multiplied, nonneg, rfl⟩ := reducedMillis_eq_ok decimal product reduced
  have low : 0 ≤ ⌊value s place⌋ := Int.floor_nonneg.mpr (value_nonneg nonneg)
  have high : ⌊value s place⌋ < m := Int.floor_lt.mpr (value_product_lt positive short above.le multiplied)
  rw [← fdiv_floor_ten, Int.fdiv_eq_ediv_of_nonneg _ (by decide)]
  omega

theorem decimalIndex_one (e : Nat) : decimalIndex (10 ^ e) (-(e : Int)) = indexOfOne := by
  have one : decimalIndex 1 0 = indexOfOne := by decide +kernel
  rw [← one, ← decimalIndex_shift 1 e, Nat.one_mul, Int.zero_sub]

/-- Every number between zero and one prints a decimal between them, of seventeen digits at most. -/
theorem prints_between {factor : Binary64} (above : factor.isPositive = true)
    (below : factor.isAtLeastOne = false) : ∃ d, factor.Prints d ∧ 0 < d ∧ d < 1 ∧ HasDigits 17 d := by
  obtain ⟨index, rfl, positive, decimal⟩ := ofBinary64_positive above (isFinite_of_below_one above below)
  have one : index.val < indexOfOne := by simpa [Binary64.isAtLeastOne] using below
  obtain ⟨e, place, bound⟩ := shortest_le_one one
  have nearest := decimalIndex_shortest index.val
  have some := shortest_pos positive
  have few := natAbs_ofBinary64_le decimal
  rw [place] at nearest decimal
  generalize (shortest index.val).1 = s at nearest some bound decimal few
  have apart : s < 10 ^ e := by
    apply Nat.lt_of_le_of_ne bound
    rintro rfl
    rw [decimalIndex_one] at nearest
    omega
  refine ⟨_, Binary64.prints_iff.mpr ⟨_, _, decimal, rfl⟩, value_pos (by omega), ?_,
    hasDigits_of_le few (by decide) _⟩
  rw [value, zpow_neg, zpow_natCast, Int.cast_natCast, ← div_eq_mul_inv, div_lt_one (by positivity)]
  exact_mod_cast apart

namespace Container

/-! ### Lists of containers -/

variable {kind : Text} {factor : Binary64} {containers : List Container} {entries : List Patch.Entry} {d : ℚ}

theorem requestsPath_inj {i j : Nat} : requestsPath kind i = requestsPath kind j ↔ i = j := by
  constructor
  · intro same
    rw [requestsPath, requestsPath, Text.append_left_inj, Text.append_right_inj] at same
    exact Patch.toString_position_inj (Text.ofString.inj same)
  · rintro rfl
    rfl

/-- An entry that leaves the container at a position fewer millicores than it asks for. -/
inductive Decreases (kind : Text) (containers : List Container) : Patch.Entry → Prop where
  | intro {i : Nat} {c : Container} {m r : Int} {requests : Fields Json} : containers[i]? = some c →
      c.cpuMillis = some m → m % 10 ≠ 1 → Fields.get? requests "cpu" = some (.str (toString r ++ "m" : String)) →
      1 ≤ r → r < m → r % 10 = 1 → Decreases kind containers (.add (requestsPath kind i) (.obj requests))

/-- An entry is made for a container whose request is positive and not stamped, and leaves it fewer
millicores. -/
theorem decreases_of_mem (prints : factor.Prints d) (above : 0 < d) (below : d < 1)
    (reduced : reductions kind factor containers = .ok entries) :
    ∀ e ∈ entries, Decreases kind containers e := by
  unfold reductions at reduced
  split at reduced
  · cases reduced
    simp
  · intro e member
    obtain ⟨i, c, m, r, held, reducible, shrunk, rfl⟩ := mem_reductionsFrom reduced e member
    obtain ⟨counted, positive, unstamped⟩ := reducible?_eq_some.mp reducible
    obtain ⟨least, most, stamp⟩ := reducedMillis_lt positive unstamped prints above below shrunk
    have cpu : Fields.get? (c.requestsWith (toString r)) "cpu" = some (.str (toString r ++ "m" : String)) := by
      simp [requestsWith, Fields.get?]
    rw [Nat.zero_add]
    exact .intro held counted unstamped cpu least most stamp

/-- No entry is made for a container that asks for nothing or whose request has the stamp. -/
theorem path_ne_of_spared {i : Nat} {c : Container} (held : containers[i]? = some c)
    (spared : ∀ m, c.cpuMillis = some m → m ≤ 0 ∨ m % 10 = 1)
    (reduced : reductions kind factor containers = .ok entries) :
    ∀ e ∈ entries, e.path ≠ requestsPath kind i := by
  unfold reductions at reduced
  split at reduced
  · cases reduced
    simp
  · intro e member path
    obtain ⟨j, c', m, r, heldToo, reducible, -, rfl⟩ := mem_reductionsFrom reduced e member
    rw [Nat.zero_add] at path
    obtain rfl : j = i := requestsPath_inj.mp path
    obtain rfl : c' = c := Option.some.inj (heldToo.symm.trans held)
    obtain ⟨counted, positive, unstamped⟩ := reducible?_eq_some.mp reducible
    have exempt := spared m counted
    omega

/-- Requests never grow: whatever the size of a request and the rounding of its product, a factor below one
leaves a smaller one with the stamp, and a factor from one on leaves all as they are. -/
theorem reductions_decrease :
    (∀ (m r : Int) (factor : Binary64) (d : ℚ), 0 < m → m % 10 ≠ 1 → factor.Prints d → 0 < d → d < 1 →
      reducedMillis m factor = .ok r → 1 ≤ r ∧ r < m ∧ r % 10 = 1) ∧
    (∀ factor : Binary64, factor.isPositive = true → factor.isAtLeastOne = false →
      ∃ d, factor.Prints d ∧ 0 < d ∧ d < 1 ∧ HasDigits 17 d) ∧
    ∀ (kind : Text) (factor : Binary64) (containers : List Container) (entries : List Patch.Entry),
      (factor.isAtLeastOne = true ∨ ∃ d, factor.Prints d ∧ 0 < d ∧ d < 1) →
      reductions kind factor containers = .ok entries →
      (∀ e ∈ entries, Decreases kind containers e) ∧
      (∀ (i : Nat) (c : Container), containers[i]? = some c →
        (∀ m, c.cpuMillis = some m → m ≤ 0 ∨ m % 10 = 1) → ∀ e ∈ entries, e.path ≠ requestsPath kind i) ∧
      (factor.isAtLeastOne = true → entries = []) := by
  refine ⟨?_, ?_, ?_⟩
  · intro m r factor d positive unstamped prints above below reduced
    exact reducedMillis_lt positive unstamped prints above below reduced
  · intro factor above below
    exact prints_between above below
  · intro kind factor containers entries fits reduced
    have nothing (atLeastOne : factor.isAtLeastOne = true) : entries = [] := by
      rw [reductions, if_pos atLeastOne] at reduced
      exact (Except.ok.inj reduced).symm
    refine ⟨?_, fun i c held spared => path_ne_of_spared held spared reduced, nothing⟩
    rcases fits with atLeastOne | ⟨d, prints, above, below⟩
    · rw [nothing atLeastOne]
      simp
    · exact decreases_of_mem prints above below reduced

theorem reductions_decrease_half :
    let half : Binary64 := .ofDecimal false 5 (-1)
    let containers : List Container := [⟨"test", [("cpu", .str "250m")], some 250⟩, ⟨"idle", [], none⟩]
    half.Prints (1 / 2) ∧ reducedMillis 250 half = .ok 121 ∧ (1 : Int) ≤ 121 ∧ (121 : Int) < 250 ∧
      ∃ e, reductions "containers" half containers = .ok [e] ∧ Decreases "containers" containers e ∧
        e.path ≠ requestsPath "containers" 1 := by
  intro half containers
  have prints : half.Prints (1 / 2) := by
    have decimal : ofBinary64 half = .finite 5 (-1) := by decide +kernel
    exact Binary64.prints_iff.mpr ⟨5, -1, decimal, by norm_num [value]⟩
  have reduced : reducedMillis 250 half = .ok 121 := by decide +kernel
  obtain ⟨least, most, -⟩ := reductions_decrease.1 250 121 half (1 / 2) (by decide) (by decide) prints
    (by norm_num) (by norm_num) reduced
  have shrunk : reductions "containers" half containers =
      .ok [.add (requestsPath "containers" 0) (.obj [("cpu", .str "121m")])] := by decide +kernel
  obtain ⟨decreases, spared, -⟩ := reductions_decrease.2.2 "containers" half containers _
    (.inr ⟨1 / 2, prints, by norm_num, by norm_num⟩) shrunk
  exact ⟨prints, reduced, least, most, _, shrunk, decreases _ (by simp), spared 1 _ rfl (by simp) _ (by simp)⟩

end Container
end WorkloadAdmission
