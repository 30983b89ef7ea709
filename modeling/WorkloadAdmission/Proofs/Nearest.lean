import WorkloadAdmission.Proofs.Shortest

/-! Decimals read as binary64 numbers. The number nearest to a decimal depends on its value and not on
the zeros that it is written with, and the bounds that spare the powers of ten far outside the range
change no result. The shortest decimal of a number is read as that number. -/
namespace WorkloadAdmission

namespace Number

theorem binade_eq : binade = 2 ^ 52 := rfl

theorem halfEven_mul {q d : Nat} (positive : 0 < d) : halfEven (q * d) d = q :=
  Nat.le_antisymm (halfEven_le positive (Nat.le_refl _)) (le_halfEven positive (Nat.le_refl _))

theorem halfEven_scale {k : Nat} (positive : 0 < k) (n d : Nat) :
    halfEven (n * k) (d * k) = halfEven n d := by
  have quotient : n * k / (d * k) = n / d := Nat.mul_div_mul_right n d positive
  have twice : 2 * (n * k % (d * k)) = 2 * (n % d) * k := by rw [Nat.mul_mod_mul_right, Nat.mul_assoc]
  have beyond : d * k < 2 * (n % d) * k ↔ d < 2 * (n % d) := Nat.mul_lt_mul_right positive
  have tie : d * k = 2 * (n % d) * k ↔ d = 2 * (n % d) := Nat.mul_left_inj (Nat.ne_of_gt positive)
  simp only [halfEven, quotient, twice, beyond, Bool.or_eq_true, decide_eq_true_eq, Bool.and_eq_true,
    beq_iff_eq, tie]

theorem nearestIndex_scale {k : Nat} (positive : 0 < k) (n d : Nat) :
    nearestIndex (n * k) (d * k) = nearestIndex n d := by
  have quotient : n * k / (d * k) = n / d := Nat.mul_div_mul_right n d positive
  simp only [nearestIndex, quotient, Nat.mul_right_comm d k, halfEven_scale positive]

theorem log2_normal {fraction e : Nat} (below : fraction < binade) :
    ((binade + fraction) * 2 ^ e).log2 = 52 + e := by
  rw [binade_eq] at below ⊢
  have power : 0 < 2 ^ e := Nat.pow_pos (by decide)
  rw [Nat.log2_eq_iff (Nat.ne_of_gt (Nat.mul_pos (by omega) power))]
  constructor
  · rw [Nat.pow_add]
    exact Nat.mul_le_mul_right _ (by omega)
  · rw [Nat.add_right_comm, Nat.pow_add]
    exact Nat.mul_lt_mul_of_pos_right (by omega) power

/-- The magnitude nearest to a count of units is the one that has so many, if there is one. -/
theorem nearestIndex_units (index : Nat) {d : Nat} (positive : 0 < d) :
    nearestIndex (units index * d) d = index := by
  have quotient : units index * d / d = units index := Nat.mul_div_cancel _ positive
  rw [nearestIndex, quotient]
  by_cases subnormal : index < binade
  · have whole : units index = index := if_pos subnormal
    have shift : index.log2 - 52 = 0 := by
      rcases Nat.eq_zero_or_pos index with rfl | some
      · rfl
      · have few : index.log2 < 52 := (Nat.log2_lt (by omega)).mpr subnormal
        omega
    simp only [whole, shift, pow2_eq, Nat.pow_zero, Nat.mul_one, halfEven_mul positive]
    omega
  · have positiveBinade : 0 < binade := Nat.pow_pos (by decide)
    have fraction : index % binade < binade := Nat.mod_lt _ positiveBinade
    have first : 0 < index / binade := Nat.div_pos (Nat.le_of_not_lt subnormal) positiveBinade
    have whole : units index = (binade + index % binade) * 2 ^ (index / binade - 1) := if_neg subnormal
    have shift : (units index).log2 - 52 = index / binade - 1 := by
      have place : (units index).log2 = 52 + (index / binade - 1) := by
        rw [whole]
        exact log2_normal fraction
      omega
    have significand : units index * d = (binade + index % binade) * (d * 2 ^ (index / binade - 1)) := by
      rw [whole]
      ring
    have parts := Nat.div_add_mod index binade
    simp only [shift, pow2_eq, significand,
      halfEven_mul (Nat.mul_pos positive (Nat.two_pow_pos (index / binade - 1)))]
    rw [Nat.sub_mul, Nat.one_mul, Nat.mul_comm (index / binade) binade]
    have least : binade ≤ binade * (index / binade) := Nat.le_mul_of_pos_right _ first
    omega

/-- The nearest index of a number of at least so many units. -/
theorem le_nearestIndex {n d x : Nat} (positive : 0 < d) (reach : 2 ^ (52 + x) * d ≤ n) :
    (x + 1) * binade ≤ nearestIndex n d := by
  have quotient : 2 ^ (52 + x) ≤ n / d := (Nat.le_div_iff_mul_le positive).mpr reach
  have some : n / d ≠ 0 := Nat.ne_of_gt (Nat.lt_of_lt_of_le (Nat.two_pow_pos _) quotient)
  have place : 52 + x ≤ (n / d).log2 := (Nat.le_log2 some).mpr quotient
  have whole : 2 ^ (n / d).log2 * d ≤ n := (Nat.le_div_iff_mul_le positive).mp (Nat.log2_self_le some)
  have significand : binade ≤ halfEven n (d * 2 ^ ((n / d).log2 - 52)) := by
    apply le_halfEven (Nat.mul_pos positive (Nat.two_pow_pos _))
    have split : binade * (d * 2 ^ ((n / d).log2 - 52)) = 2 ^ (n / d).log2 * d := by
      rw [binade_eq, Nat.mul_left_comm, ← Nat.pow_add, Nat.add_sub_cancel' (by omega), Nat.mul_comm]
    rwa [split]
  calc (x + 1) * binade = x * binade + binade := Nat.succ_mul x binade
    _ ≤ ((n / d).log2 - 52) * binade + halfEven n (d * 2 ^ ((n / d).log2 - 52)) :=
        Nat.add_le_add (Nat.mul_le_mul_right _ (by omega)) significand
    _ = nearestIndex n d := rfl

theorem nearestIndex_zero {n d : Nat} (small : 2 * n < d) : nearestIndex n d = 0 := by
  have below : n / d = 0 := Nat.div_eq_of_lt (by omega)
  simp [nearestIndex, below, pow2_eq, halfEven_eq_zero small]

/-- A decimal as a quotient over a large enough power of ten. -/
theorem decimalIndex_eq (s : Nat) {e : Int} {m k : Nat} (place : e + k = m) :
    decimalIndex s e = nearestIndex (s * 10 ^ m * unitsOfOne) (10 ^ k) := by
  have power (i : Nat) : 0 < 10 ^ i := Nat.pow_pos (by decide)
  cases e with
  | ofNat e =>
    have whole : m = e + k := Int.ofNat.inj place.symm
    simp only [decimalIndex, pow10_eq]
    generalize unitsOfOne = u
    have scaled : s * 10 ^ m * u = s * 10 ^ e * u * 10 ^ k := by
      rw [whole, Nat.pow_add]
      ring
    rw [scaled, ← nearestIndex_scale (power k) (s * 10 ^ e * u) 1, Nat.one_mul]
  | negSucc e =>
    have whole : k = e + 1 + m := by omega
    simp only [decimalIndex, pow10_eq]
    generalize unitsOfOne = u
    have scaled : s * 10 ^ m * u = s * u * 10 ^ m := Nat.mul_right_comm ..
    rw [scaled, whole, Nat.pow_add 10 (e + 1) m, nearestIndex_scale (power m)]

/-- Zeros at the end of the digits move the place and nothing else. -/
theorem decimalIndex_shift (s z : Nat) (e : Int) : decimalIndex (s * 10 ^ z) (e - z) = decimalIndex s e := by
  obtain ⟨m, place⟩ := Int.eq_ofNat_of_zero_le (a := e + e.natAbs) (by omega)
  have placed : e + (e.natAbs + z : Nat) = (m + z : Nat) := by omega
  have shifted : e - z + (e.natAbs + z : Nat) = m := by omega
  have scaled : s * 10 ^ z * 10 ^ m = s * 10 ^ (m + z) := by ring
  rw [decimalIndex_eq _ shifted, decimalIndex_eq s placed, scaled]

/-- The exact decimal of a magnitude is read as that magnitude. -/
theorem decimalIndex_exact (index : Nat) {e : Int} {k : Nat} (place : e + k = (0 : Nat))
    (unit : unitsOfOne = pow2 k) : decimalIndex (units index * Nat.pow 5 k) e = index := by
  have tens : Nat.pow 5 k * pow2 k = 10 ^ k := (Nat.mul_pow 5 2 k).symm
  rw [decimalIndex_eq _ place, Nat.pow_zero, Nat.mul_one, unit, Nat.mul_assoc, tens,
    nearestIndex_units index (Nat.pow_pos (by decide))]

theorem decimalIndex_of_multiple? {index count : Nat} {e : Int} (found : multiple? index e = some count) :
    decimalIndex count e = index := by
  simp only [multiple?] at found
  split at found
  next both =>
    split at found
    · cases found
      exact both.2
    · cases found
      exact both.1
  next =>
    split at found
    next hits =>
      cases found
      exact hits
    next =>
      split at found
      next hits =>
        cases found
        exact hits
      next => cases found

/-- The shortest decimal of a magnitude is a multiple that is read as it, or its exact value. -/
theorem shortest_cases (index : Nat) :
    (∃ count e, multiple? index e = some count ∧ shortest index = (count, e)) ∨
      ∃ (k : Nat) (e : Int), e + k = (0 : Nat) ∧ unitsOfOne = pow2 k ∧
        shortest index = (units index * Nat.pow 5 k, e) := by
  have place : (-1074 : Int) + (1074 : Nat) = (0 : Nat) := rfl
  have unit : unitsOfOne = pow2 1074 := rfl
  unfold shortest
  generalize 1074 = k at place unit ⊢
  dsimp only
  cases found : (List.range 17).findSome? fun (extra : Nat) =>
      (multiple? index (leadingExponent (units index) unitsOfOne - extra)).map fun count =>
        (count, leadingExponent (units index) unitsOfOne - extra) with
  | none => exact .inr ⟨k, -1074, place, unit, rfl⟩
  | some written =>
    obtain ⟨extra, -, hit⟩ := List.exists_of_findSome?_eq_some found
    obtain ⟨count, counted, rfl⟩ := Option.map_eq_some_iff.mp hit
    exact .inl ⟨count, _, counted, rfl⟩

/-- The shortest decimal of a magnitude is read as that magnitude. -/
theorem decimalIndex_shortest (index : Nat) :
    decimalIndex (shortest index).1 (shortest index).2 = index := by
  rcases shortest_cases index with ⟨count, e, counted, written⟩ | ⟨k, e, place, unit, written⟩
  · rw [written]
    exact decimalIndex_of_multiple? counted
  · rw [written]
    exact decimalIndex_exact index place unit

/-! ### Decimals out of range -/

theorem pow_le_of_decimalLength {s : Nat} (some : s ≠ 0) : 10 ^ (decimalLength s - 1) ≤ s := by
  rw [decimalLength_eq, Nat.add_sub_cancel]
  exact Nat.pow_log_le_self 10 some

theorem lt_pow_decimalLength (s : Nat) : s < 10 ^ decimalLength s := by
  rw [decimalLength_eq]
  exact Nat.lt_pow_succ_log_self (by decide) s

/-- A decimal with more than `y` digits before the point is large. -/
theorem le_decimalIndex {s : Nat} {e : Int} (y z : Nat) (some : s ≠ 0) (large : y < decimalLength s + e)
    (power : 2 ^ (52 + z) ≤ 10 ^ y * unitsOfOne) : (z + 1) * binade ≤ decimalIndex s e := by
  obtain ⟨m, shifted⟩ := Int.eq_ofNat_of_zero_le (a := e + e.natAbs) (by omega)
  have reach : y + e.natAbs ≤ decimalLength s - 1 + m := by omega
  rw [decimalIndex_eq s shifted]
  apply le_nearestIndex (Nat.pow_pos (by decide))
  calc 2 ^ (52 + z) * 10 ^ e.natAbs
      ≤ 10 ^ y * unitsOfOne * 10 ^ e.natAbs := Nat.mul_le_mul_right _ power
    _ = 10 ^ (y + e.natAbs) * unitsOfOne := by rw [Nat.pow_add, Nat.mul_right_comm]
    _ ≤ 10 ^ (decimalLength s - 1 + m) * unitsOfOne :=
        Nat.mul_le_mul_right _ (Nat.pow_le_pow_right (by decide) reach)
    _ = 10 ^ (decimalLength s - 1) * 10 ^ m * unitsOfOne := by rw [Nat.pow_add]
    _ ≤ s * 10 ^ m * unitsOfOne :=
        Nat.mul_le_mul_right _ (Nat.mul_le_mul_right _ (pow_le_of_decimalLength some))

/-- A decimal with more than `y` zeros behind the point is less than half the least magnitude. -/
theorem decimalIndex_eq_zero {s : Nat} {e : Int} (y : Nat) (small : decimalLength s + e < -(y : Int))
    (power : 2 * unitsOfOne ≤ 10 ^ y) : decimalIndex s e = 0 := by
  have shifted : e + e.natAbs = (0 : Nat) := by omega
  have reach : decimalLength s + y ≤ e.natAbs := by omega
  have unit : 0 < unitsOfOne := by decide +kernel
  rw [decimalIndex_eq s shifted, Nat.pow_zero, Nat.mul_one]
  apply nearestIndex_zero
  calc 2 * (s * unitsOfOne) = s * (2 * unitsOfOne) := Nat.mul_left_comm ..
    _ < 10 ^ decimalLength s * (2 * unitsOfOne) :=
        Nat.mul_lt_mul_of_pos_right (lt_pow_decimalLength s) (Nat.mul_pos (by decide) unit)
    _ ≤ 10 ^ decimalLength s * 10 ^ y := Nat.mul_le_mul_left _ power
    _ = 10 ^ (decimalLength s + y) := (Nat.pow_add ..).symm
    _ ≤ 10 ^ e.natAbs := Nat.pow_le_pow_right (by decide) reach

theorem decimalIndex_zero (e : Int) : decimalIndex 0 e = 0 := by
  obtain ⟨m, shifted⟩ := Int.eq_ofNat_of_zero_le (a := e + e.natAbs) (by omega)
  rw [decimalIndex_eq 0 shifted, Nat.zero_mul, Nat.zero_mul]
  exact nearestIndex_zero (Nat.pow_pos (by decide))

/-- Zero is read as zero only, so the shortest decimal of any other magnitude is not zero. -/
theorem shortest_pos {index : Nat} (positive : 0 < index) : 0 < (shortest index).1 := by
  have nearest := decimalIndex_shortest index
  apply Nat.pos_of_ne_zero
  intro zero
  rw [zero, decimalIndex_zero] at nearest
  omega

end Number

namespace Binary64

open Number

/-- The bounds on the size of a decimal spare work and change no result. -/
theorem ofDecimal_eq (negative : Bool) (s : Nat) (e : Int) :
    ofDecimal negative s e = ofIndex negative (decimalIndex s e) := by
  unfold ofDecimal
  dsimp only
  split
  next outside =>
    have nothing : decimalIndex s e = 0 := by
      rcases (by simpa using outside : s = 0 ∨ (decimalLength s : Int) + e < -330) with rfl | small
      · exact decimalIndex_zero e
      · exact decimalIndex_eq_zero 330 small (by decide +kernel)
    rw [nothing]
  next inside =>
    split
    next large =>
      have some : s ≠ 0 := fun zero => inside (by simp [zero])
      have beyond : magnitudes ≤ decimalIndex s e := le_decimalIndex 310 2046 some large (by decide +kernel)
      rw [ofIndex, dif_neg (Nat.not_lt.mpr beyond)]
    next => rfl

end Binary64
end WorkloadAdmission
