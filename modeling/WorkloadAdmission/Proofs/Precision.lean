import WorkloadAdmission.Proofs.Nearest

/-! Seventeen digits tell the binary64 numbers apart. The decimals with that many digits stand closer
together than the numbers around them, so one of the two neighbours of a number among them is read as
that number. The search for the shortest decimal always ends there at the latest, and the exact value
behind it is never needed. -/
namespace WorkloadAdmission.Number

/-! ### Reading what is close to a magnitude -/

/-- The integer nearest to a quotient is the one that it is less than a half away from. -/
theorem halfEven_eq {n d q : Nat} (above : 2 * q * d < 2 * n + d) (below : 2 * n < 2 * q * d + d) :
    halfEven n d = q := by
  have positive : 0 < d := by
    by_contra zero
    obtain rfl : d = 0 := by omega
    omega
  have divided := Nat.div_add_mod n d
  have remainder : n % d < d := Nat.mod_lt n positive
  have scaled (p : Nat) : 2 * p * d = 2 * (d * p) := by ring
  rcases Nat.lt_or_ge (n / d) q with up | down
  · have next : q = n / d + 1 := by
      by_contra apart
      have far : 2 * (n / d + 2) * d ≤ 2 * q * d := Nat.mul_le_mul_right d (by omega)
      rw [scaled, Nat.mul_add] at far
      omega
    subst next
    rw [scaled, Nat.mul_add] at above
    have half : d < 2 * (n % d) := by omega
    simp [halfEven, half]
  · have same : q = n / d := by
      by_contra apart
      have far : 2 * (q + 1) * d ≤ 2 * (n / d) * d := Nat.mul_le_mul_right d (by omega)
      rw [scaled, scaled, Nat.mul_add] at far
      rw [scaled] at below
      omega
    subst same
    rw [scaled] at below
    have half : ¬ d < 2 * (n % d) := by omega
    have noTie : ¬ d = 2 * (n % d) := by omega
    simp [halfEven, half, noTie]

/-- The place of a quotient between two powers of two. -/
theorem log2_div {n d e : Nat} (positive : 0 < d) (least : 2 ^ e * d ≤ n) (bound : n < 2 ^ (e + 1) * d) :
    (n / d).log2 = e := by
  have quotient : 2 ^ e ≤ n / d := (Nat.le_div_iff_mul_le positive).mpr least
  rw [Nat.log2_eq_iff (Nat.ne_of_gt (Nat.lt_of_lt_of_le (Nat.two_pow_pos e) quotient))]
  exact ⟨quotient, (Nat.div_lt_iff_lt_mul positive).mpr bound⟩

/-- The quotient `n / d` of units differs from a magnitude by less than a part in 2^54. -/
structure IsClose (index n d : Nat) : Prop where
  above : 2 ^ 54 * (units index * d) < 2 ^ 54 * n + units index * d
  below : 2 ^ 54 * n < 2 ^ 54 * (units index * d) + units index * d

namespace IsClose

variable {index n d : Nat}

theorem positive (close : IsClose index n d) : 0 < d := by
  obtain ⟨above, below⟩ := close
  by_contra zero
  obtain rfl : d = 0 := by omega
  omega

/-- It is rounded to the magnitude on every grid that holds this as a count of at most 2^53. -/
theorem nearestIndex_of_shift (close : IsClose index n d) {m t : Nat} (few : m ≤ 2 ^ 53)
    (whole : units index = m * 2 ^ t) (shift : (n / d).log2 - 52 = t) :
    nearestIndex n d = t * binade + m := by
  obtain ⟨above, below⟩ := close
  have count : units index * d = m * (d * 2 ^ t) := by
    rw [whole]
    ring
  have bound : units index * d ≤ 2 ^ 53 * (d * 2 ^ t) := by
    rw [count]
    exact Nat.mul_le_mul_right _ few
  have twice : 2 * m * (d * 2 ^ t) = 2 * (units index * d) := by rw [count, Nat.mul_assoc]
  have rounded : halfEven n (d * pow2 t) = m := by
    rw [pow2_eq]
    apply halfEven_eq <;> rw [twice] <;> omega
  rw [nearestIndex, shift, rounded]

theorem nearestIndex_subnormal (close : IsClose index n d) (subnormal : index < binade) :
    nearestIndex n d = index := by
  have whole : units index = index := if_pos subnormal
  have few : index < 2 ^ 52 := subnormal
  have least : n / d < 2 ^ 52 := by
    have most : (index + 1) * d ≤ 2 ^ 52 * d := Nat.mul_le_mul_right d few
    have below := close.below
    rw [Nat.add_mul, Nat.one_mul] at most
    rw [whole] at below
    rw [Nat.div_lt_iff_lt_mul close.positive]
    omega
  have shift : (n / d).log2 - 52 = 0 := by
    rcases Nat.eq_zero_or_pos (n / d) with zero | some
    · rw [zero]
      rfl
    · have low : (n / d).log2 < 52 := (Nat.log2_lt (by omega)).mpr least
      omega
  have count : units index = index * 2 ^ 0 := by rw [whole, Nat.pow_zero, Nat.mul_one]
  rw [close.nearestIndex_of_shift (by omega) count shift]
  omega

theorem nearestIndex_normal (close : IsClose index n d) {f s : Nat} (fraction : f < 2 ^ 52)
    (whole : units index = (2 ^ 52 + f) * 2 ^ s) : nearestIndex n d = (s + 1) * binade + f := by
  have binades := binade_eq
  have count : units index * d = (2 ^ 52 + f) * (2 ^ s * d) := by rw [whole, Nat.mul_assoc]
  have power (i t : Nat) : 2 ^ (i + t) * d = 2 ^ i * (2 ^ t * d) := by rw [Nat.pow_add, Nat.mul_assoc]
  have next (t : Nat) : 52 + t + 1 = 53 + t := by omega
  have unit : 0 < 2 ^ s * d := Nat.mul_pos (Nat.two_pow_pos s) close.positive
  rcases Nat.lt_or_ge n (2 ^ 52 * (2 ^ s * d)) with before | inside
  · -- The quotient lies in the binade below, so the magnitude is the first of its own.
    obtain rfl : f = 0 := by
      by_contra some
      have far : (2 ^ 52 + 1) * (2 ^ s * d) ≤ units index * d := by
        rw [count]
        exact Nat.mul_le_mul_right _ (by omega)
      have above := close.above
      omega
    have near := close.above
    rw [Nat.add_zero] at whole count ⊢
    cases s with
    | zero =>
      have shift : (n / d).log2 - 52 = 0 := by
        rw [log2_div (e := 51) close.positive (by omega) (by omega)]
      rw [close.nearestIndex_of_shift (by omega) whole shift, binades]
      omega
    | succ s =>
      have shift : (n / d).log2 - 52 = s := by
        have half : 2 ^ (s + 1) * d = 2 * (2 ^ s * d) := by rw [Nat.pow_succ', Nat.mul_assoc]
        rw [log2_div (e := 52 + s) close.positive]
        · omega
        · rw [power]
          omega
        · rw [next, power]
          omega
      have double : units index = 2 ^ 53 * 2 ^ s := by
        rw [whole, Nat.pow_succ]
        ring
      rw [close.nearestIndex_of_shift (by omega) double shift, binades]
      ring
  · have shift : (n / d).log2 - 52 = s := by
      have most : units index * d ≤ (2 ^ 53 - 1) * (2 ^ s * d) := by
        rw [count]
        exact Nat.mul_le_mul_right _ (by omega)
      have near := close.below
      rw [log2_div (e := 52 + s) close.positive]
      · omega
      · rwa [power]
      · rw [next, power]
        omega
    rw [close.nearestIndex_of_shift (by omega) whole shift, binades]
    ring

/-- What is close to a magnitude is read as it. -/
theorem nearestIndex_eq (close : IsClose index n d) : nearestIndex n d = index := by
  by_cases subnormal : index < binade
  · exact close.nearestIndex_subnormal subnormal
  · have positive : 0 < binade := Nat.pow_pos (by decide)
    have fraction : index % binade < binade := Nat.mod_lt _ positive
    have first : 0 < index / binade := Nat.div_pos (Nat.le_of_not_lt subnormal) positive
    have whole : units index = (binade + index % binade) * 2 ^ (index / binade - 1) := if_neg subnormal
    have parts := Nat.div_add_mod' index binade
    rw [close.nearestIndex_normal fraction whole, Nat.sub_add_cancel first, parts]

end IsClose

/-! ### Grids of decimals -/

theorem unitsOfOne_pos : 0 < unitsOfOne := by decide +kernel

/-- The multiples below a number, as a quotient over a large enough power of ten. -/
theorem countBelow_eq (value : Nat) {e : Int} {m k : Nat} (place : e + k = m) :
    countBelow value e = value * 10 ^ k / (10 ^ m * unitsOfOne) := by
  have power (i : Nat) : 0 < 10 ^ i := Nat.pow_pos (by decide)
  cases e with
  | ofNat e =>
    have whole : m = e + k := Int.ofNat.inj place.symm
    simp only [countBelow, pow10_eq]
    generalize unitsOfOne = u
    rw [whole, Nat.pow_add, Nat.mul_right_comm, Nat.mul_div_mul_right _ _ (power k)]
  | negSucc e =>
    have whole : k = e + 1 + m := by omega
    simp only [countBelow, pow10_eq]
    generalize unitsOfOne = u
    rw [whole, Nat.pow_add 10 (e + 1) m, ← Nat.mul_assoc, Nat.mul_comm (10 ^ m) u,
      Nat.mul_div_mul_right _ _ (power m)]

/-- One of the two neighbours of a magnitude on a fine grid is read as it. -/
theorem nearestIndex_neighbour {index d spacing : Nat} (some : 0 < spacing)
    (fine : 2 ^ 53 * spacing < units index * d) :
    nearestIndex (spacing * (units index * d / spacing)) d = index ∨
      nearestIndex (spacing * (units index * d / spacing + 1)) d = index := by
  have divided := Nat.div_add_mod (units index * d) spacing
  have remainder := Nat.mod_lt (units index * d) some
  rw [Nat.mul_add, Nat.mul_one]
  generalize spacing * (units index * d / spacing) = below at divided ⊢
  generalize units index * d % spacing = distance at divided remainder
  rcases Nat.lt_or_ge spacing (2 * distance) with upper | lower
  · have close : IsClose index (below + spacing) d := ⟨by omega, by omega⟩
    exact .inr close.nearestIndex_eq
  · have close : IsClose index below d := ⟨by omega, by omega⟩
    exact .inl close.nearestIndex_eq

/-- Where there are at least 10^16 multiples below a number, one of its two neighbours is read as it. -/
theorem exists_multiple? {index : Nat} {e : Int} (fine : 10 ^ 16 ≤ countBelow (units index) e) :
    ∃ count, multiple? index e = some count := by
  obtain ⟨m, place⟩ := Int.eq_ofNat_of_zero_le (a := e + e.natAbs) (by omega)
  have reads (count : Nat) :
      decimalIndex count e = nearestIndex (10 ^ m * unitsOfOne * count) (10 ^ e.natAbs) := by
    rw [decimalIndex_eq count place, Nat.mul_comm count, Nat.mul_right_comm]
  have spaced : 0 < 10 ^ m * unitsOfOne := Nat.mul_pos (Nat.pow_pos (by decide)) unitsOfOne_pos
  have hits : decimalIndex (countBelow (units index) e) e = index ∨
      decimalIndex (countBelow (units index) e + 1) e = index := by
    rw [reads, reads]
    rw [countBelow_eq (units index) place] at fine ⊢
    generalize 10 ^ m * unitsOfOne = spacing at fine spaced ⊢
    apply nearestIndex_neighbour spaced
    have wide : 10 ^ 16 * spacing ≤ units index * 10 ^ e.natAbs := (Nat.le_div_iff_mul_le spaced).mp fine
    omega
  simp only [multiple?]
  split
  next => exact ⟨_, rfl⟩
  split
  next => exact ⟨_, rfl⟩
  next noLower =>
    rw [if_pos (hits.resolve_left noLower)]
    exact ⟨_, rfl⟩

/-- The leading power of ten is the greatest one up to a quotient. -/
theorem leadingExponent_spec {n d m k : Nat} (some : 0 < n) (positive : 0 < d)
    (place : leadingExponent n d + k = m) : 10 ^ m * d ≤ n * 10 ^ k ∧ n * 10 ^ k < 10 ^ (m + 1) * d := by
  unfold leadingExponent at place
  split at place
  next large =>
    have quotient : n / d ≠ 0 := Nat.ne_of_gt (Nat.div_pos large positive)
    have length := decimalLength_pos (n / d)
    have least : 10 ^ (decimalLength (n / d) - 1) * d ≤ n :=
      (Nat.le_div_iff_mul_le positive).mp (pow_le_of_decimalLength quotient)
    have bound : n < 10 ^ decimalLength (n / d) * d :=
      (Nat.div_lt_iff_lt_mul positive).mp (lt_pow_decimalLength _)
    obtain ⟨l, whole⟩ : ∃ l, decimalLength (n / d) = l + 1 := ⟨decimalLength (n / d) - 1, by omega⟩
    rw [whole, Nat.add_sub_cancel] at least
    rw [whole] at bound
    obtain rfl : m = l + k := by omega
    constructor
    · calc 10 ^ (l + k) * d = 10 ^ l * d * 10 ^ k := by rw [Nat.pow_add, Nat.mul_right_comm]
        _ ≤ n * 10 ^ k := Nat.mul_le_mul_right _ least
    · calc n * 10 ^ k < 10 ^ (l + 1) * d * 10 ^ k := Nat.mul_lt_mul_of_pos_right bound (Nat.pow_pos (by decide))
        _ = 10 ^ (l + k + 1) * d := by ring
  next small =>
    have quotient : (d - 1) / n ≠ 0 := Nat.ne_of_gt (Nat.div_pos (by omega) some)
    have length := decimalLength_pos ((d - 1) / n)
    have least : 10 ^ (decimalLength ((d - 1) / n) - 1) * n ≤ d - 1 :=
      (Nat.le_div_iff_mul_le some).mp (pow_le_of_decimalLength quotient)
    have bound : d - 1 < 10 ^ decimalLength ((d - 1) / n) * n :=
      (Nat.div_lt_iff_lt_mul some).mp (lt_pow_decimalLength _)
    obtain ⟨l, whole⟩ : ∃ l, decimalLength ((d - 1) / n) = l + 1 :=
      ⟨decimalLength ((d - 1) / n) - 1, by omega⟩
    rw [whole, Nat.add_sub_cancel] at least
    rw [whole] at bound
    obtain rfl : k = l + 1 + m := by omega
    constructor
    · calc 10 ^ m * d ≤ 10 ^ m * (10 ^ (l + 1) * n) := Nat.mul_le_mul_left _ (by omega)
        _ = n * 10 ^ (l + 1 + m) := by ring
    · calc n * 10 ^ (l + 1 + m) = 10 ^ (m + 1) * (10 ^ l * n) := by ring
        _ < 10 ^ (m + 1) * d := Nat.mul_lt_mul_of_pos_left (by omega) (Nat.pow_pos (by decide))

/-- On the grid of decimals with some digits behind the leading one there are as many multiples below a
number as its first digits say. -/
theorem countBelow_leadingExponent {value : Nat} (some : 0 < value) (extra : Nat) :
    10 ^ extra ≤ countBelow value (leadingExponent value unitsOfOne - extra) ∧
      countBelow value (leadingExponent value unitsOfOne - extra) < 10 ^ (extra + 1) := by
  obtain ⟨m, place⟩ := Int.eq_ofNat_of_zero_le
    (a := leadingExponent value unitsOfOne + (leadingExponent value unitsOfOne).natAbs) (by omega)
  obtain ⟨least, bound⟩ := leadingExponent_spec some unitsOfOne_pos place
  generalize (leadingExponent value unitsOfOne).natAbs = k at place least bound
  have shifted : leadingExponent value unitsOfOne - extra + (k + extra : Nat) = m := by omega
  have spaced : 0 < 10 ^ m * unitsOfOne := Nat.mul_pos (Nat.pow_pos (by decide)) unitsOfOne_pos
  rw [countBelow_eq value shifted, Nat.le_div_iff_mul_le spaced, Nat.div_lt_iff_lt_mul spaced]
  clear place shifted
  generalize unitsOfOne = u at least bound
  constructor
  · calc 10 ^ extra * (10 ^ m * u) ≤ 10 ^ extra * (value * 10 ^ k) := Nat.mul_le_mul_left _ least
      _ = value * 10 ^ (k + extra) := by ring
  · calc value * 10 ^ (k + extra) = 10 ^ extra * (value * 10 ^ k) := by ring
      _ < 10 ^ extra * (10 ^ (m + 1) * u) := Nat.mul_lt_mul_of_pos_left bound (Nat.pow_pos (by decide))
      _ = 10 ^ (extra + 1) * (10 ^ m * u) := by ring

/-! ### The shortest decimal -/

/-- The search for the shortest decimal finds one with sixteen digits or fewer behind the leading one. -/
theorem shortest_found {index : Nat} (some : 0 < units index) :
    ∃ extra count : Nat, extra ≤ 16 ∧ count ≤ 10 ^ (extra + 1) ∧
      shortest index = (count, leadingExponent (units index) unitsOfOne - extra) := by
  unfold shortest
  dsimp only
  cases found : (List.range 17).findSome? fun (extra : Nat) =>
      (multiple? index (leadingExponent (units index) unitsOfOne - extra)).map fun count =>
        (count, leadingExponent (units index) unitsOfOne - extra) with
  | none =>
    rw [List.findSome?_eq_none_iff] at found
    obtain ⟨count, counted⟩ := exists_multiple? (countBelow_leadingExponent some 16).1
    have missed := found 16 (by simp)
    rw [counted] at missed
    cases missed
  | some written =>
    obtain ⟨extra, member, hit⟩ := List.exists_of_findSome?_eq_some found
    obtain ⟨count, counted, rfl⟩ := Option.map_eq_some_iff.mp hit
    have few : extra < 17 := List.mem_range.mp member
    have bound := (countBelow_leadingExponent some extra).2
    refine ⟨extra, count, by omega, ?_, rfl⟩
    rcases multiple?_neighbour counted with same | same
    · rw [same]
      exact bound.le
    · rw [same]
      exact bound

theorem units_pos {index : Nat} (some : 0 < index) : 0 < units index := by
  unfold units
  split
  · exact some
  · have binade_pos : 0 < binade := Nat.pow_pos (by decide)
    exact Nat.mul_pos (Nat.add_pos_left binade_pos _) (Nat.pow_pos (by decide))

theorem natAbs_leadingExponent_le {n d places : Nat} (some : 0 < places) (small : n < 10 ^ places)
    (smallToo : d < 10 ^ places) : (leadingExponent n d).natAbs ≤ places := by
  have quotient : decimalLength (n / d) ≤ places :=
    (decimalLength_le_iff some).mpr ((Nat.div_le_self ..).trans_lt small)
  have inverse : decimalLength ((d - 1) / n) ≤ places :=
    (decimalLength_le_iff some).mpr ((Nat.div_le_self ..).trans_lt (by omega))
  unfold leadingExponent
  split <;> omega

theorem two_pow_lt_ten_pow {e k : Nat} (few : e < 3 * k) : 2 ^ e < 10 ^ k :=
  calc 2 ^ e < 2 ^ (3 * k) := Nat.pow_lt_pow_right (by decide) few
    _ = 8 ^ k := Nat.pow_mul 2 3 k
    _ ≤ 10 ^ k := Nat.pow_le_pow_left (by decide) k

/-- The shortest decimal of a finite number has seventeen digits or fewer and a place in a small range. -/
theorem shortest_bounds {index : Nat} (some : 0 < index) (finite : index < magnitudes) :
    (shortest index).1 ≤ 10 ^ 17 ∧ (shortest index).2.natAbs ≤ 716 := by
  obtain ⟨extra, count, few, bound, found⟩ := shortest_found (units_pos some)
  have below := units_lt (e := 2046) finite
  rw [pow2_eq] at below
  have large : units index < 10 ^ 700 := below.trans (two_pow_lt_ten_pow (by decide))
  have one : unitsOfOne < 10 ^ 700 := by
    rw [unitsOfOne, pow2_eq]
    exact two_pow_lt_ten_pow (by decide)
  have lead := natAbs_leadingExponent_le (by decide) large one
  rw [found]
  exact ⟨bound.trans (Nat.pow_le_pow_right (by decide) (by omega)), by dsimp only; omega⟩

end WorkloadAdmission.Number
