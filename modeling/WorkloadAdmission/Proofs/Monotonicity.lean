import WorkloadAdmission.Proofs.Decrease
import WorkloadAdmission.Proofs.Magnitude

/-! Shrinking keeps the order of requests and of factors. Taking the nearest multiple of a power of ten is
monotone and leaves the multiples as they are. So two products that are rounded at the same place stay in
order. Where the larger one is rounded at a higher place, the power of ten at which the place moves up stands
between the two, and it is a multiple at both places, so neither crosses it, not even by a carry. Cutting to
tens and the stamp keep the order as well. -/
namespace WorkloadAdmission

open Number

namespace Number

/-- Rounding to an integer keeps the order of the numbers over one denominator. -/
theorem halfEven_le_halfEven {n m d : Nat} (positive : 0 < d) (order : n ≤ m) : halfEven n d ≤ halfEven m d := by
  have quotients : n / d ≤ m / d := Nat.div_le_div_right order
  rcases Nat.lt_or_eq_of_le quotients with apart | same
  · have above : n ≤ (n / d + 1) * d := by
      rw [Nat.mul_comm]
      exact (Nat.lt_mul_div_succ n positive).le
    calc halfEven n d ≤ n / d + 1 := halfEven_le positive above
      _ ≤ m / d := apart
      _ ≤ halfEven m d := le_halfEven positive (Nat.div_mul_le_self m d)
  · -- One quotient has one parity, so only the remainders can tell the two apart.
    have remainders : n % d ≤ m % d := by
      have lower := Nat.div_add_mod n d
      have upper := Nat.div_add_mod m d
      rw [same] at lower
      omega
    simp only [halfEven, same]
    split
    next up =>
      rw [if_pos]
      simp only [Bool.or_eq_true, decide_eq_true_eq, Bool.and_eq_true, beq_iff_eq] at up ⊢
      omega
    next => split <;> omega

/-- Rounding to an integer is monotone, whatever the denominators. -/
theorem halfEven_mono {n d m k : Nat} (positive : 0 < d) (positive' : 0 < k) (order : n * k ≤ m * d) :
    halfEven n d ≤ halfEven m k :=
  calc halfEven n d = halfEven (n * k) (d * k) := (halfEven_scale positive' n d).symm
    _ ≤ halfEven (m * d) (d * k) := halfEven_le_halfEven (Nat.mul_pos positive positive') order
    _ = halfEven m k := by rw [Nat.mul_comm d k, halfEven_scale positive]

end Number

namespace Decimal

/-! ### Multiples of a power of ten -/

/-- The multiple of a power of ten that is nearest to a number, the even one of two. -/
def IsNearest (place : Int) (q r : ℚ) : Prop :=
  ∃ n d : Nat, 0 < d ∧ q = n / d * 10 ^ place ∧ r = halfEven n d * 10 ^ place

variable {place : Int} {q r q' r' : ℚ}

theorem IsNearest.mono (nearest : IsNearest place q r) (nearest' : IsNearest place q' r') (order : q ≤ q') :
    r ≤ r' := by
  obtain ⟨n, d, positive, rfl, rfl⟩ := nearest
  obtain ⟨m, k, positive', rfl, rfl⟩ := nearest'
  have unit := zpow_pos_ten place
  have quotients : (n : ℚ) / d ≤ m / k := le_of_mul_le_mul_right order unit
  have crossed : n * k ≤ m * d := by
    rw [div_le_div_iff₀ (Nat.cast_pos.mpr positive) (Nat.cast_pos.mpr positive')] at quotients
    exact_mod_cast quotients
  have rounded : (halfEven n d : ℚ) ≤ halfEven m k := Nat.cast_le.mpr (halfEven_mono positive positive' crossed)
  exact mul_le_mul_of_nonneg_right rounded unit.le

theorem isNearest_multiple (m : Nat) (place : Int) : IsNearest place (m * 10 ^ place) (m * 10 ^ place) := by
  have whole : halfEven m 1 = m := by rw [← Nat.mul_one m, halfEven_mul Nat.one_pos, Nat.mul_one]
  exact ⟨m, 1, Nat.one_pos, by rw [Nat.cast_one, div_one], by rw [whole]⟩

theorem isNearest_power (k : Nat) (place : Int) : IsNearest place (10 ^ (place + k)) (10 ^ (place + k)) := by
  have power : (10 : ℚ) ^ (place + k) = (10 ^ k : Nat) * 10 ^ place := by
    rw [zpow_add₀ (by norm_num), zpow_natCast, mul_comm, Nat.cast_pow, Nat.cast_ofNat]
  rw [power]
  exact isNearest_multiple _ _

/-! ### Rounding to the digits of a product -/

variable {c d e f s t i j : Int}

/-- A number is rounded to the nearest multiple at the place of the last digit that is kept. -/
theorem isNearest_of_round (nonneg : 0 ≤ c) (rounded : round c e = .ok (.finite s i)) :
    IsNearest (lastKept c e) (value c e) (value s i) := by
  obtain ⟨n, rfl⟩ := Int.eq_ofNat_of_zero_le nonneg
  have rounds := round_spec n e
  rw [rounded] at rounds
  cases rounds with
  | zero zero =>
    rw [zero, value_zero, value_zero]
    simpa using isNearest_multiple 0 (lastKept 0 e)
  | exact _ fits =>
    obtain ⟨k, raised⟩ := Int.eq_ofNat_of_zero_le (a := e - lastKept n e) (by omega)
    have place : lastKept n e + k = e := by omega
    have whole : value n e = (n * 10 ^ k : Nat) * 10 ^ lastKept n e :=
      calc value n e = value (n * 10 ^ k) (lastKept n e) := by rw [value_mul_pow, place]
        _ = (n * 10 ^ k : Nat) * 10 ^ lastKept n e := by rw [value]; norm_cast
    rw [whole]
    exact isNearest_multiple _ _
  | @dropped dropped _ _ drops _ =>
    have positive : decide ((n : Int) < 0) = false := by simp
    have power : (10 : ℚ) ^ dropped ≠ 0 := by positivity
    have unit : (10 : ℚ) ^ lastKept n e = 10 ^ dropped * 10 ^ e := by
      rw [← drops, zpow_add₀ (by norm_num), zpow_natCast, mul_comm]
    rw [positive, Int.natAbs_natCast]
    refine ⟨n, 10 ^ dropped, Nat.pow_pos (by decide), ?_, rfl⟩
    rw [unit, value, Int.cast_natCast, Nat.cast_pow, Nat.cast_ofNat, ← mul_assoc, div_mul_cancel₀ _ power]

/-- A larger number is rounded at no lower place. -/
theorem lastKept_le (order : |value c e| ≤ |value d f|) (nonzero : c ≠ 0) : lastKept c e ≤ lastKept d f := by
  have places := place_le order nonzero
  exact max_le_max_right productMin (by omega)

/-- A number has 28 digits at most down to the place of the last one that is kept. -/
theorem abs_value_lt_lastKept (c e : Int) : |value c e| < 10 ^ (lastKept c e + 28) := by
  have digits := precision_eq
  have least : e + decimalLength c.natAbs - precision ≤ lastKept c e := le_max_left _ _
  exact (abs_value_lt c e).trans_le (zpow_le_zpow_right₀ (by norm_num) (by omega))

/-- Above the lowest place, a number has all 28 of them. -/
theorem lastKept_le_abs_value (nonzero : c ≠ 0) (above : productMin < lastKept c e) :
    10 ^ (lastKept c e + 27) ≤ |value c e| := by
  have digits := precision_eq
  have place : lastKept c e + 27 = e + decimalLength c.natAbs - 1 := by
    rw [lastKept] at above ⊢
    omega
  rw [place]
  exact le_abs_value nonzero

/-- Rounding is monotone, also where the number of places that are dropped changes. -/
theorem round_mono (nonneg : 0 ≤ c) (order : value c e ≤ value d f)
    (rounded : round c e = .ok (.finite s i)) (rounded' : round d f = .ok (.finite t j)) :
    value s i ≤ value t j := by
  have nonneg' : 0 ≤ d := nonneg_of_value ((value_nonneg nonneg).trans order)
  rcases eq_or_ne c 0 with rfl | nonzero
  · cases (round_zero e).symm.trans rounded
    rw [value_zero]
    exact value_nonneg (round_nonneg rounded' nonneg')
  have nearest := isNearest_of_round nonneg rounded
  have nearest' := isNearest_of_round nonneg' rounded'
  have magnitudes : |value c e| ≤ |value d f| := abs_le_abs_of_nonneg (value_nonneg nonneg) order
  rcases lt_or_eq_of_le (lastKept_le magnitudes nonzero) with higher | same
  · have least : productMin ≤ lastKept c e := le_max_right _ _
    have nonzero' : d ≠ 0 := by
      rintro rfl
      rw [value_zero] at order
      exact absurd (value_pos (nonneg.lt_of_ne nonzero.symm)) (not_lt.mpr order)
    have below : value c e ≤ 10 ^ (lastKept c e + 28) :=
      (le_abs_self _).trans (abs_value_lt_lastKept c e).le
    have above : 10 ^ (lastKept d f + 27) ≤ value d f := by
      rw [← abs_of_nonneg (value_nonneg nonneg')]
      exact lastKept_le_abs_value nonzero' (by omega)
    calc value s i ≤ 10 ^ (lastKept c e + 28) := nearest.mono (isNearest_power 28 _) below
      _ ≤ 10 ^ (lastKept d f + 27) := zpow_le_zpow_right₀ (by norm_num) (by omega)
      _ ≤ value t j := (isNearest_power 27 _).mono nearest' above
  · rw [same] at nearest
    exact nearest.mono nearest' order

end Decimal

open Decimal

/-! ### Requests -/

/-- A request is shrunk exactly under a factor that prints a number, unless the product of the two overflows. -/
theorem reducedMillis_isOk_iff {m : Int} {factor : Binary64} :
    (∃ r, reducedMillis m factor = .ok r) ↔ ∃ d, factor.Prints d ∧ |m * d| < overflowBound := by
  constructor
  · rintro ⟨r, reduced⟩
    have steps := reduced
    simp only [reducedMillis, Fallible.bind_eq_ok] at steps
    obtain ⟨product, multiplied, whole, truncated, -⟩ := steps
    cases decimal : ofBinary64 factor with
    | finite c e =>
      have below := (reducedMillis_isOk_finite_iff decimal).mp ⟨r, reduced⟩
      exact ⟨_, Binary64.prints_iff.mpr ⟨c, e, decimal, rfl⟩, below⟩
    | infinite negative =>
      -- An infinite factor has no product with zero, and no other product of it is cut to an integer.
      simp only [decimal, ofInt, mul] at multiplied
      split at multiplied
      · cases multiplied
      · cases multiplied
        cases truncated
    | nan =>
      rw [decimal] at multiplied
      cases multiplied
      cases truncated
    | signalingNan =>
      rw [decimal] at multiplied
      cases multiplied
  · rintro ⟨_, prints, below⟩
    obtain ⟨c, e, decimal, rfl⟩ := Binary64.prints_iff.mp prints
    exact (reducedMillis_isOk_finite_iff decimal).mpr below

/-- A larger request under a milder factor is shrunk to no less. -/
theorem reducedMillis_le {m n r s : Int} {factor milder : Binary64} {d e : ℚ} (nonneg : 0 ≤ m)
    (requests : m ≤ n) (prints : factor.Prints d) (printsToo : milder.Prints e) (above : 0 < d) (factors : d ≤ e)
    (reduced : reducedMillis m factor = .ok r) (reducedToo : reducedMillis n milder = .ok s) : r ≤ s := by
  obtain ⟨c, i, decimal, rfl⟩ := Binary64.prints_iff.mp prints
  obtain ⟨c', i', decimalToo, rfl⟩ := Binary64.prints_iff.mp printsToo
  have product : 0 ≤ m * c := Int.mul_nonneg nonneg (nonneg_of_value above.le)
  have productToo : 0 ≤ n * c' := Int.mul_nonneg (nonneg.trans requests) (nonneg_of_value (above.le.trans factors))
  have order : value (m * c) (0 + i) ≤ value (n * c') (0 + i') := by
    rw [value_mul, value_mul]
    apply mul_le_mul _ factors above.le (value_nonneg (nonneg.trans requests))
    rwa [value_ofInt, value_ofInt, Int.cast_le]
  obtain ⟨t, place, rounded, -, rfl⟩ := reducedMillis_eq_ok decimal product reduced
  obtain ⟨t', place', roundedToo, -, rfl⟩ := reducedMillis_eq_ok decimalToo productToo reducedToo
  have kept : value t place ≤ value t' place' := round_mono product order rounded roundedToo
  have tens : ⌊value t place / 10⌋ ≤ ⌊value t' place' / 10⌋ :=
    Int.floor_le_floor (div_le_div_of_nonneg_right kept (by norm_num))
  omega

/-- Shrinking is monotone: under a factor that prints a decimal above zero, neither a larger request nor a
factor that prints a larger decimal leaves less, wherever the two products are rounded. A call has a result
exactly if its factor prints a number and the product does not overflow. -/
theorem reducedMillis_monotone :
    (∀ (m n r s : Int) (factor milder : Binary64) (d e : ℚ), 0 ≤ m → m ≤ n → factor.Prints d →
      milder.Prints e → 0 < d → d ≤ e → reducedMillis m factor = .ok r → reducedMillis n milder = .ok s →
      r ≤ s) ∧
    ∀ (m : Int) (factor : Binary64),
      (∃ r, reducedMillis m factor = .ok r) ↔ ∃ d, factor.Prints d ∧ |m * d| < overflowBound := by
  constructor
  · intro m n r s factor milder d e nonneg requests prints printsToo above factors reduced reducedToo
    exact reducedMillis_le nonneg requests prints printsToo above factors reduced reducedToo
  · intro m factor
    exact reducedMillis_isOk_iff

/-- A product that is rounded up to a power of ten, and a larger one that is rounded a place higher. -/
theorem reducedMillis_monotone_carry :
    let tenth : Binary64 := .ofDecimal false 1 (-1)
    let milder : Binary64 := .ofDecimal false 10000000000000002 (-17)
    (10 ^ 29 - 5 : Int) ≤ 10 ^ 29 ∧ (1 / 10 : ℚ) ≤ 10000000000000002 / 10 ^ 17 ∧
      tenth.Prints (1 / 10) ∧ milder.Prints (10000000000000002 / 10 ^ 17) ∧
      reducedMillis (10 ^ 29 - 5) tenth = .ok (10 ^ 28 + 1) ∧
      reducedMillis (10 ^ 29) milder = .ok (10000000000000002 * 10 ^ 12 + 1) ∧
      (10 ^ 28 + 1 : Int) ≤ 10000000000000002 * 10 ^ 12 + 1 := by
  intro tenth milder
  have prints : tenth.Prints (1 / 10) := by
    have decimal : ofBinary64 tenth = .finite 1 (-1) := by decide +kernel
    exact Binary64.prints_iff.mpr ⟨1, -1, decimal, by norm_num [value]⟩
  have printsToo : milder.Prints (10000000000000002 / 10 ^ 17) := by
    have decimal : ofBinary64 milder = .finite 10000000000000002 (-17) := by decide +kernel
    exact Binary64.prints_iff.mpr ⟨10000000000000002, -17, decimal, by norm_num [value]⟩
  have reduced : reducedMillis (10 ^ 29 - 5) tenth = .ok (10 ^ 28 + 1) := by decide +kernel
  have reducedToo : reducedMillis (10 ^ 29) milder = .ok (10000000000000002 * 10 ^ 12 + 1) := by decide +kernel
  have requests : (10 ^ 29 - 5 : Int) ≤ 10 ^ 29 := by norm_num
  have factors : (1 / 10 : ℚ) ≤ 10000000000000002 / 10 ^ 17 := by norm_num
  have order := reducedMillis_monotone.1 (10 ^ 29 - 5) (10 ^ 29) _ _ tenth milder _ _ (by norm_num) requests
    prints printsToo (by norm_num) factors reduced reducedToo
  exact ⟨requests, factors, prints, printsToo, reduced, reducedToo, order⟩

end WorkloadAdmission
