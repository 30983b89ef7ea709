import WorkloadAdmission.Proofs.Fallible
import WorkloadAdmission.Proofs.Printing
import WorkloadAdmission.Quantity

/-! CPU quantities and the numbers that they denote. A text denotes its numeral times its scale, whatever
the notation, and a number denotes what its text denotes. No step on the way to millicores rounds: neither
the scale nor the factor 1000 takes a number of few digits out of 28 digits or out of the range. So a
quantity is counted as the ceiling of 1000 times what it denotes. -/
namespace WorkloadAdmission.Quantity

open Number Decimal

/-! ### Scales -/

/-- The letters of decimal scales with their powers of 1000. -/
def decimalScales : List (Char × Int) :=
  [('n', -3), ('u', -2), ('m', -1), ('k', 1), ('K', 1), ('M', 2), ('G', 3), ('T', 4), ('P', 5), ('E', 6)]

/-- The letters of binary scales with their powers of 1024. -/
def binaryScales : List (Char × Nat) := [('K', 1), ('M', 2), ('G', 3), ('T', 4), ('P', 5), ('E', 6)]

/-- A symbol behind a number, the factor it stands for, and the count of digits that the number may have. -/
inductive IsScale : List Char → ℚ → Nat → Prop where
  | plain : IsScale [] 1 28
  | decimal {letter : Char} {power : Int} : (letter, power) ∈ decimalScales → IsScale [letter] (1000 ^ power) 28
  | binary {letter : Char} {power : Nat} : (letter, power) ∈ binaryScales →
    IsScale [letter, 'i'] ((1024 ^ power : Nat) : ℚ) 9

theorem scale?_of_decimal : ∀ entry ∈ decimalScales,
    scale? entry.1 = some entry.2 ∧ entry.2.natAbs ≤ 6 := by
  decide

theorem scale?_of_binary : ∀ entry ∈ binaryScales,
    scale? entry.1 = some (entry.2 : Int) ∧ entry.1 ≠ 'k' ∧ entry.2 ≤ 6 := by
  decide

theorem split_decimal {letter : Char} {power : Int} (scaled : scale? letter = some power) (cs : List Char) :
    split ((cs ++ [letter]).map .char) = (cs.map .char, some ⟨letter, power, false⟩) := by
  have apart : letter ≠ 'i' := by
    rintro rfl
    cases scaled
  have reversed : ((cs ++ [letter]).map CodePoint.char).reverse = .char letter :: (cs.map .char).reverse := by simp
  rw [split, reversed]
  split
  next same => exact absurd (CodePoint.char.inj (List.cons.inj same).1) apart
  next same =>
    obtain ⟨first, rfl⟩ := List.cons.inj same
    cases first
    simp only [scaled, List.reverse_reverse]
  next other => exact absurd rfl (other _ _)

theorem split_binary {letter : Char} {power : Int} (scaled : scale? letter = some power) (cs : List Char) :
    split ((cs ++ [letter, 'i']).map .char) = (cs.map .char, some ⟨letter, power, true⟩) := by
  have reversed : ((cs ++ [letter, 'i']).map CodePoint.char).reverse =
      .char 'i' :: .char letter :: (cs.map .char).reverse := by simp
  simp only [split, reversed, scaled, List.reverse_reverse]

theorem scale?_of_digit {c : Char} (digit : c.isDigit ∨ c = '.') : scale? c = none := by
  unfold scale?
  split <;> first | rfl | exact absurd digit (by decide)

/-- Where a number ends in a digit or a point, no letter is split off. -/
theorem split_plain {cs : List Char} (last : ∀ c ∈ cs.getLast?, c.isDigit ∨ c = '.') :
    split (cs.map .char) = (cs.map .char, none) := by
  rw [List.getLast?_eq_head?_reverse] at last
  rw [split, ← List.map_reverse]
  cases reversed : cs.reverse with
  | nil => rfl
  | cons c rest =>
    have ends := last c (by rw [reversed]; rfl)
    have apart : c ≠ 'i' := by
      rintro rfl
      exact absurd ends (by decide)
    rw [List.map_cons]
    split
    next same => exact absurd (CodePoint.char.inj (List.cons.inj same).1) apart
    next same =>
      cases (List.cons.inj same).1
      simp only [scale?_of_digit ends]
    next => rfl

/-! ### Scaled numbers -/

theorem thousands_eq (power : Int) : (1000 : ℚ) ^ power = 10 ^ (3 * power) := by
  rw [zpow_mul]
  norm_num

variable {symbol : List Char} {factor q : ℚ} {digits : Nat}

/-- A scale takes no number of few digits out of 28 digits. -/
theorem IsScale.hasDigits (scale : IsScale symbol factor digits) (few : HasDigits digits q) :
    HasDigits 28 (q * factor) := by
  cases scale with
  | plain => rwa [mul_one]
  | @decimal letter power =>
    rw [thousands_eq]
    exact few.shift _
  | @binary letter power member =>
    have most : power ≤ 6 := (scale?_of_binary _ member).2.2
    apply few.mul_natCast _ (Nat.pow_pos (by decide))
    calc 10 ^ 9 * 1024 ^ power ≤ 10 ^ 9 * 1024 ^ 6 :=
          Nat.mul_le_mul_left _ (Nat.pow_le_pow_right (by decide) most)
      _ ≤ 10 ^ 28 := by decide

theorem IsScale.isWithin (scale : IsScale symbol factor digits) : IsWithin 20 factor := by
  cases scale with
  | plain =>
    rw [← Int.cast_one, ← value_ofInt]
    exact isWithin_value (by decide) (by decide)
  | @decimal letter power member =>
    have small := (scale?_of_decimal _ member).2
    have one : (1000 : ℚ) ^ power = value 1 (3 * power) := by rw [thousands_eq, value, Int.cast_one, one_mul]
    rw [one]
    have length : decimalLength (1 : Int).natAbs = 1 := by decide
    exact isWithin_value (by omega) (by omega)
  | @binary letter power member =>
    have most : power ≤ 6 := (scale?_of_binary _ member).2.2
    have length : decimalLength (1024 ^ power) ≤ 20 := by
      rw [decimalLength_le_iff (by decide)]
      exact (Nat.pow_le_pow_right (by decide) most).trans_lt (by decide)
    rw [← Int.cast_natCast, ← value_ofInt]
    apply isWithin_value (by decide)
    rw [Int.natAbs_natCast]
    omega

/-- A number that is read before a scale is multiplied by its factor. -/
theorem IsScale.number_eq (scale : IsScale symbol factor digits) {cs : List Char} {c e : Int}
    (last : ∀ d ∈ cs.getLast?, d.isDigit ∨ d = '.') (read : Decimal.ofChars? cs = some (.finite c e))
    (few : HasDigits digits (value c e)) {places : Nat} (within : IsWithin places (value c e))
    (inside : places ≤ 899980) :
    ∃ t place, number (String.ofList (cs ++ symbol)) = .ok (.finite t place) ∧
      value t place = value c e * factor := by
  have fits : HasDigits 28 (value c e * factor) := scale.hasDigits few
  have bounded : IsWithin (places + 20) (value c e * factor) := within.mul scale.isWithin
  have scaled {s : Suffix} {d f : Int} (splits : split ((cs ++ symbol).map .char) = (cs.map .char, some s))
      (stands : s.factor? = some (.finite d f)) (equal : value d f = factor) :
      ∃ t place, number (String.ofList (cs ++ symbol)) = .ok (.finite t place) ∧
        value t place = value c e * factor := by
    subst equal
    obtain ⟨t, place, product, same⟩ := mul_exact fits bounded (by omega)
    refine ⟨t, place, ?_, same⟩
    rw [number, Text.points_ofString, String.toList_ofList, splits]
    simp only [CodePoint.mapM_char?_chars, Option.bind_some, read, stands, product, Fallible.mapError_ok]
  cases scale with
  | plain =>
    refine ⟨c, e, ?_, (mul_one _).symm⟩
    rw [number, Text.points_ofString, String.toList_ofList, List.append_nil, split_plain last]
    simp only [CodePoint.mapM_char?_chars, Option.bind_some, read]
  | @decimal letter power member =>
    have letter := (scale?_of_decimal _ member).1
    apply scaled (split_decimal letter cs) (d := 1) (f := 3 * power) rfl
    rw [thousands_eq, value, Int.cast_one, one_mul]
  | @binary letter power member =>
    obtain ⟨letter, large, -⟩ := scale?_of_binary _ member
    apply scaled (split_binary letter cs) (d := (1024 ^ power : Nat)) (f := 0)
    · have nonneg : ¬ (power : Int) < 0 := by omega
      simp [Suffix.factor?, nonneg, large, pow2_eq, Nat.pow_mul]
    · rw [value_ofInt, Int.cast_natCast]

/-! ### Quantities -/

/-- A quantity as it is spelled: a numeral and a scale. -/
structure Spelling where
  number : Number.Spelling
  symbol : List Char
  factor : ℚ
  digits : Nat
  scale : IsScale symbol factor digits

namespace Spelling

def text (s : Spelling) : String := String.ofList (s.number.chars ++ s.symbol)

def value (s : Spelling) : ℚ := s.number.value * s.factor

/-- A quantity of modest length and exponent, with no more significant digits than its scale admits. -/
structure IsModest (s : Spelling) : Prop where
  length_le : (s.number.chars ++ s.symbol).length ≤ readingLimit
  exponent_le : ∀ x ∈ s.number.exponent, x.value.natAbs ≤ readingLimit
  hasDigits : HasDigits s.digits s.number.value

theorem IsModest.number {s : Spelling} (modest : s.IsModest) : s.number.IsModest where
  length_le := by
    have length := modest.length_le
    rw [List.length_append] at length
    omega
  exponent_le := modest.exponent_le

/-- A number without a scale. -/
def plain (s : Number.Spelling) : Spelling := ⟨s, [], 1, 28, .plain⟩

theorem isModest_plain {s : Number.Spelling} (modest : s.IsModest) (few : HasDigits 28 s.value) :
    (plain s).IsModest where
  length_le := by
    rw [plain, List.append_nil]
    exact modest.length_le
  exponent_le := modest.exponent_le
  hasDigits := few

end Spelling

/-- A value denotes a number as a quantity. An integer is its own spelling, and the text of a number that
is not one is read as any other. -/
inductive Denotes : Json → ℚ → Prop where
  | int {n : Int} (length_le : (toString n).length ≤ readingLimit) (few : HasDigits 28 n) : Denotes (.int n) n
  | str {s : Spelling} (modest : s.IsModest) : Denotes (.str s.text) s.value
  | float {x : Binary64} {s : Spelling} (finite : x.isFinite = true) (written : x.text = s.text)
    (modest : s.IsModest) : Denotes (.float x) s.value

/-- What is read is a number of few digits that lies well inside the range. -/
structure IsReadAs (read : Except QuantityFault Decimal) (q : ℚ) : Prop where
  exists_finite : ∃ c e, read = .ok (.finite c e) ∧ Decimal.value c e = q
  hasDigits : HasDigits 28 q
  isWithin : IsWithin (2 * readingLimit + 20) q

theorem Spelling.IsModest.isReadAs {s : Spelling} (modest : s.IsModest) :
    IsReadAs (Quantity.number s.text) s.value := by
  obtain ⟨low, high⟩ := modest.number.scale_between
  have length := modest.number.decimalLength_le
  have limit := readingLimit_eq
  have within : IsWithin (2 * readingLimit) s.number.value := by
    rw [Number.Spelling.value_eq]
    exact isWithin_value (by omega) (by omega)
  refine ⟨?_, s.scale.hasDigits modest.hasDigits, within.mul s.scale.isWithin⟩
  have few := modest.hasDigits
  rw [Number.Spelling.value_eq] at few within
  rw [Spelling.value, Number.Spelling.value_eq]
  exact s.scale.number_eq s.number.getLast?_chars modest.number.ofChars? few within (by omega)

theorem isReadAs_ofInt {n : Int} (length_le : (toString n).length ≤ readingLimit) (few : HasDigits 28 n) :
    IsReadAs (.ok (.ofInt n)) n := by
  have digits : decimalLength n.natAbs ≤ (toString n).length := by
    rw [← String.length_toList, Json.intText_eq, List.length_append, length_toDigits]
    exact Nat.le_add_left ..
  refine ⟨⟨n, 0, rfl, value_ofInt n⟩, few, ?_⟩
  rw [← value_ofInt]
  exact isWithin_value (by omega) (by omega)

/-- A quantity is read as the number that it denotes. -/
theorem Denotes.isReadAs {v : Json} (denotes : Denotes v q) : IsReadAs (ofJson v) q := by
  cases denotes with
  | int length_le few => exact isReadAs_ofInt length_le few
  | str modest => exact modest.isReadAs
  | float finite written modest =>
    rw [ofJson, if_pos finite, written]
    exact modest.isReadAs

theorem cpuMillis_of_isReadAs {v : Json} (read : IsReadAs (ofJson v) q) : cpuMillis v = .ok ⌈1000 * q⌉ := by
  obtain ⟨⟨c, e, counted, rfl⟩, few, within⟩ := read
  have limit := readingLimit_eq
  have thousand : Decimal.value 1000 0 = 1000 := value_ofInt 1000
  have shifted : HasDigits 28 (Decimal.value c e * Decimal.value 1000 0) := by
    have power : (1000 : ℚ) = 10 ^ (3 : Int) := by norm_num
    rw [thousand, power]
    exact few.shift 3
  have scaled : IsWithin 4 (Decimal.value 1000 0) := isWithin_value (by decide) (by decide)
  obtain ⟨t, place, product, same⟩ := mul_exact shifted (within.mul scaled) (by omega)
  rw [cpuMillis, counted, Fallible.ok_bind, Decimal.ofInt, product, Except.bind, ceil_eq, Fallible.mapError_ok,
    same, thousand, mul_comm]

/-- Digits with a point among them and a scale behind them, and neither sign nor exponent. -/
theorem denotes_positional {symbol : List Char} {factor : ℚ} {digits : Nat} {text : String}
    (whole : List Char) (point : Bool) (fraction : List Char) (n : Nat) (scale : IsScale symbol factor digits)
    (written : String.ofList (whole ++ (if point then '.' :: fraction else []) ++ symbol) = text)
    (read : Nat.ofDigitChars 10 (whole ++ fraction) 0 = n)
    (denoted : Decimal.value n (-fraction.length) * factor = q)
    (wholeDigits : AreDigits whole) (fractionDigits : AreDigits fraction) (some : whole ≠ [])
    (pointed : point = false → fraction = []) (few : n < 10 ^ digits)
    (short : (whole ++ (if point then '.' :: fraction else []) ++ symbol).length ≤ 100) :
    Denotes (.str text) q := by
  let number : Number.Spelling :=
    ⟨none, whole, point, fraction, none, wholeDigits, fractionDigits, .inl some, pointed⟩
  have value : number.value = Decimal.value n (-fraction.length) := by
    rw [number.value_eq]
    simp [number, Number.Spelling.significand, Number.Spelling.numeral, Numeral.isNegative, Numeral.significand,
      Numeral.scale, signed, ← read]
  have chars : number.chars = whole ++ (if point then '.' :: fraction else []) := by
    simp [number, Number.Spelling.chars, Number.Spelling.fractionChars, Number.Spelling.exponentChars, signChars]
  have modest : (Spelling.mk number symbol factor digits scale).IsModest := by
    refine ⟨?_, by simp [number], n, _, by simpa using few, value⟩
    have limit := readingLimit_eq
    dsimp only
    rw [chars]
    omega
  have denotes := Denotes.str modest
  rwa [Spelling.text, Spelling.value, value, chars, written, denoted] at denotes

/-- A finite number is a quantity without a scale, and denotes the shortest decimal of it. -/
theorem denotes_float {x : Binary64} {c e : Int} (read : ofBinary64 x = .finite c e) :
    Denotes (.float x) (Decimal.value c e) := by
  obtain ⟨s, modest, text, value⟩ := exists_spelling read
  have few : HasDigits 28 s.value := ⟨c, e, (natAbs_ofBinary64_le read).trans_lt (by decide), value⟩
  have finite : x.isFinite = true := by
    cases x with
    | finite negative index => rfl
    | infinite negative => cases read
    | nan => cases read
  have written : x.text = (Spelling.plain s).text := by rw [text, Spelling.text, Spelling.plain, List.append_nil]
  have denotes := Denotes.float finite written (Spelling.isModest_plain modest few)
  rwa [Spelling.value, Spelling.plain, mul_one, value] at denotes

/-! ### Millicores -/

/-- A count of millicores as it is written. -/
def millicores (n : Int) : Spelling where
  number := (Json.areStandard_toDigits n.natAbs).spelling (n < 0) none
  symbol := ['m']
  factor := 1000 ^ (-1 : Int)
  digits := 28
  scale := .decimal (by decide)

theorem chars_millicores (n : Int) : (millicores n).number.chars = (toString n).toList := by
  rw [millicores, AreStandard.chars_spelling, Json.intText_eq]
  simp [fractionChars, exponentChars]

theorem text_millicores (n : Int) : (millicores n).text = toString n ++ "m" := by
  rw [Spelling.text, chars_millicores, String.ofList_append, String.ofList_toList]
  rfl

theorem value_number_millicores (n : Int) : (millicores n).number.value = n := by
  have digits : (millicores n).number.numeral.significand = n.natAbs := by
    simp [millicores, AreStandard.spelling, Number.Spelling.numeral, Numeral.significand]
  have sign : (millicores n).number.numeral.isNegative = decide (n < 0) := by
    by_cases negative : n < 0 <;>
      simp [millicores, AreStandard.spelling, Number.Spelling.numeral, Numeral.isNegative, negative]
  have scale : (millicores n).number.numeral.scale = 0 := rfl
  rw [Number.Spelling.value_eq, Number.Spelling.significand, digits, sign, signed_natAbs, scale, value_ofInt]

theorem isModest_millicores {n : Int} (bound : n.natAbs < 10 ^ 28) : (millicores n).IsModest where
  length_le := by
    have length : decimalLength n.natAbs ≤ 28 := (decimalLength_le_iff (by decide)).mpr bound
    have sign : (if n < 0 then ['-'] else []).length ≤ 1 := by split <;> decide
    have limit := readingLimit_eq
    rw [chars_millicores, Json.intText_eq, List.length_append, List.length_append, length_toDigits]
    simp only [millicores, List.length_singleton]
    omega
  exponent_le := by simp [millicores, AreStandard.spelling]
  hasDigits := by
    rw [value_number_millicores]
    exact ⟨n, 0, bound, (value_ofInt n).symm⟩

theorem cpuMillis_millicores {n : Int} (bound : n.natAbs < 10 ^ 28) :
    cpuMillis (.str (toString n ++ "m" : String)) = .ok n := by
  have whole : 1000 * (millicores n).value = n := by
    have factor : (millicores n).factor = 1 / 1000 := by
      simp only [millicores]
      norm_num
    rw [Spelling.value, value_number_millicores, factor]
    ring
  have read := cpuMillis_of_isReadAs (Denotes.str (isModest_millicores bound)).isReadAs
  rwa [text_millicores, whole, Int.ceil_intCast] at read

/-- A quantity is read by its exact value, whatever its notation. -/
theorem cpuMillis_exact :
    (∀ v q, Denotes v q → cpuMillis v = .ok ⌈1000 * q⌉) ∧
    (∀ v w q, Denotes v q → Denotes w q → ∃ millis, cpuMillis v = .ok millis ∧ cpuMillis w = .ok millis) ∧
    ∀ n : Int, n.natAbs < 10 ^ 28 → cpuMillis (.str (toString n ++ "m" : String)) = .ok n := by
  have counted (v : Json) (q : ℚ) (denotes : Denotes v q) : cpuMillis v = .ok ⌈1000 * q⌉ :=
    cpuMillis_of_isReadAs denotes.isReadAs
  refine ⟨counted, ?_, fun n bound => cpuMillis_millicores bound⟩
  intro v w q denotes denotesToo
  exact ⟨_, counted v q denotes, counted w q denotesToo⟩

theorem cpuMillis_three_halves :
    Denotes (.str "1500m") (3 / 2) ∧ Denotes (.str "1.5") (3 / 2) ∧
    Denotes (.float (.ofDecimal false 15 (-1))) (3 / 2) ∧
    Denotes (.str "0.0015k") (3 / 2) ∧ Denotes (.str "1500000u") (3 / 2) ∧
    cpuMillis (.str "1500m") = .ok 1500 ∧ cpuMillis (.str "1.5") = .ok 1500 ∧
    cpuMillis (.float (.ofDecimal false 15 (-1))) = .ok 1500 ∧
    cpuMillis (.str "0.0015k") = .ok 1500 ∧ cpuMillis (.str "1500000u") = .ok 1500 := by
  have milli : Denotes (.str "1500m") (3 / 2) :=
    denotes_positional ['1', '5', '0', '0'] false [] 1500
      (.decimal (by decide) : IsScale ['m'] (1000 ^ (-1 : Int)) 28) (by decide) (by decide)
      (by norm_num [Decimal.value]) (by decide) (by decide) (by decide) (by decide) (by decide) (by decide)
  have point : Denotes (.str "1.5") (3 / 2) :=
    denotes_positional ['1'] true ['5'] 15 .plain
      (by decide) (by decide) (by norm_num [Decimal.value])
      (by decide) (by decide) (by decide) (by decide) (by decide) (by decide)
  have float : Denotes (.float (.ofDecimal false 15 (-1))) (3 / 2) := by
    have decimal : ofBinary64 (.ofDecimal false 15 (-1)) = .finite 15 (-1) := by decide +kernel
    have value : Decimal.value 15 (-1) = 3 / 2 := by norm_num [Decimal.value]
    rw [← value]
    exact denotes_float decimal
  have kilo : Denotes (.str "0.0015k") (3 / 2) :=
    denotes_positional ['0'] true ['0', '0', '1', '5'] 15
      (.decimal (by decide) : IsScale ['k'] (1000 ^ (1 : Int)) 28) (by decide) (by decide)
      (by norm_num [Decimal.value]) (by decide) (by decide) (by decide) (by decide) (by decide) (by decide)
  have micro : Denotes (.str "1500000u") (3 / 2) :=
    denotes_positional ['1', '5', '0', '0', '0', '0', '0'] false [] 1500000
      (.decimal (by decide) : IsScale ['u'] (1000 ^ (-2 : Int)) 28) (by decide) (by decide)
      (by norm_num [Decimal.value]) (by decide) (by decide) (by decide) (by decide) (by decide) (by decide)
  have millis : ⌈1000 * (3 / 2 : ℚ)⌉ = 1500 := by norm_num
  have counted {v : Json} (denotes : Denotes v (3 / 2)) : cpuMillis v = .ok 1500 := by
    rw [cpuMillis_exact.1 v _ denotes, millis]
  exact ⟨milli, point, float, kilo, micro,
    counted milli, counted point, counted float, counted kilo, counted micro⟩

end WorkloadAdmission.Quantity
