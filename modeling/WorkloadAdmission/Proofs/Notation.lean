import WorkloadAdmission.Json.Printer
import WorkloadAdmission.Json.Token
import WorkloadAdmission.Proofs.Encoding
import WorkloadAdmission.Proofs.Nearest
import WorkloadAdmission.Proofs.Spelling

/-! Numbers as they are written and read. Whatever the layout of a finite binary64 number, its digits
and place denote the shortest decimal of it, and the point or exponent in it keeps it apart from an
integer. So both kinds of number are read back as what they were. -/
namespace WorkloadAdmission

namespace Number

/-- The characters that numbers are written with. -/
def IsNumeralChar (c : Char) : Prop := c.isDigit ∨ c ∈ ['-', '+', '.', 'e']

/-! ### The parts of a numeral -/

def fractionChars : List Char → List Char
  | [] => []
  | c :: rest => '.' :: c :: rest

def exponentChars : Option Int → List Char
  | none => []
  | some e => 'e' :: exponentText e

theorem ofDigitChars_zero_cons (cs : List Char) :
    Nat.ofDigitChars 10 ('0' :: cs) 0 = Nat.ofDigitChars 10 cs 0 := by
  rw [Nat.ofDigitChars_cons]
  rfl

/-- An exponent as a number is written with it: a sign and at least two digits. -/
def ExponentSpelling.ofInt (e : Int) : ExponentSpelling where
  capital := false
  sign := .some (if e < 0 then .minus else .plus)
  digits := if (Nat.toDigits 10 e.natAbs).length < 2 then '0' :: Nat.toDigits 10 e.natAbs
    else Nat.toDigits 10 e.natAbs
  areDigits := by
    split
    · exact (areDigits_zeros 1).append (areDigits_toDigits e.natAbs)
    · exact areDigits_toDigits e.natAbs
  nonempty := by split <;> simp

theorem ExponentSpelling.chars_ofInt (e : Int) : (ExponentSpelling.ofInt e).chars = 'e' :: exponentText e := by
  by_cases negative : e < 0 <;>
    simp [ExponentSpelling.ofInt, ExponentSpelling.chars, ExponentSpelling.letter, signChars, exponentText, negative]

theorem ExponentSpelling.value_ofInt (e : Int) : (ExponentSpelling.ofInt e).value = e := by
  have digits : Nat.ofDigitChars 10 (ExponentSpelling.ofInt e).digits 0 = e.natAbs := by
    simp only [ExponentSpelling.ofInt]
    split
    · rw [ofDigitChars_zero_cons, Nat.ofDigitChars_ten_toDigits]
    · exact Nat.ofDigitChars_ten_toDigits
  rw [ExponentSpelling.value, digits]
  simp only [ExponentSpelling.ofInt, applySign]
  by_cases negative : e < 0
  · simp only [negative, if_true]
    omega
  · simp only [negative, if_false, Option.some.injEq, reduceCtorEq]
    omega

/-- The digits of a number that the standard allows: no zero leads other digits before the point. -/
structure AreStandard (whole fraction : List Char) : Prop where
  some : whole ≠ []
  digits : AreDigits whole
  fractionDigits : AreDigits fraction
  lead : whole.length = 1 ∨ whole.head? ≠ .some '0'

variable {whole fraction : List Char}

theorem AreStandard.one_or (standard : AreStandard whole fraction) :
    whole.length = 1 ∨ (1 < whole.length ∧ whole.head? ≠ .some '0') := by
  have positive := List.length_pos_iff.mpr standard.some
  rcases standard.lead with one | lead
  · exact .inl one
  · by_cases one : whole.length = 1
    · exact .inl one
    · exact .inr ⟨by omega, lead⟩

/-- A number as it is written: a minus sign only, and a point only before digits. -/
def AreStandard.spelling (standard : AreStandard whole fraction) (negative : Bool) (exponent : Option Int) :
    Spelling where
  sign := if negative then .some .minus else none
  whole := whole
  point := !fraction.isEmpty
  fraction := fraction
  exponent := exponent.map ExponentSpelling.ofInt
  wholeDigits := standard.digits
  fractionDigits := standard.fractionDigits
  nonempty := .inl standard.some
  pointed := by simp

theorem AreStandard.chars_spelling (standard : AreStandard whole fraction) (negative : Bool)
    (exponent : Option Int) :
    (standard.spelling negative exponent).chars =
      (if negative then ['-'] else []) ++ (whole ++ (fractionChars fraction ++ exponentChars exponent)) := by
  have sign : signChars (standard.spelling negative exponent).sign = if negative then ['-'] else [] := by
    cases negative <;> rfl
  have point : (standard.spelling negative exponent).fractionChars = fractionChars fraction := by
    cases fraction <;> rfl
  have behind : (standard.spelling negative exponent).exponentChars = exponentChars exponent := by
    cases exponent with
    | none => rfl
    | some e => exact ExponentSpelling.chars_ofInt e
  rw [Spelling.chars, sign, point, behind]
  rfl

theorem AreStandard.numeral_spelling (standard : AreStandard whole fraction) (negative : Bool)
    (exponent : Option Int) : (standard.spelling negative exponent).numeral =
      ⟨if negative then .some .minus else none, whole, !fraction.isEmpty, fraction, exponent⟩ := by
  have exponents : (exponent.map ExponentSpelling.ofInt).map ExponentSpelling.value = exponent := by
    cases exponent with
    | none => rfl
    | some e => exact congrArg Option.some (ExponentSpelling.value_ofInt e)
  simp only [Spelling.numeral, AreStandard.spelling, exponents]

/-- A number that is written is read as its parts. -/
theorem AreStandard.ofChars? (standard : AreStandard whole fraction) (negative : Bool) (exponent : Option Int) :
    Numeral.ofChars? ((if negative then ['-'] else []) ++
        (whole ++ (fractionChars fraction ++ exponentChars exponent))) =
      .some ⟨if negative then .some .minus else none, whole, !fraction.isEmpty, fraction, exponent⟩ := by
  rw [← standard.chars_spelling, Spelling.ofChars?_chars, standard.numeral_spelling]

theorem number?_float (standard : AreStandard whole fraction) {exponent : Option Int}
    (kept : fraction ≠ [] ∨ exponent.isSome) (negative : Bool) :
    Json.Token.number? ((if negative then ['-'] else []) ++
        (whole ++ (fractionChars fraction ++ exponentChars exponent))) =
      some (.float (.ofDecimal negative (Nat.ofDigitChars 10 (whole ++ fraction) 0)
        (exponent.getD 0 - fraction.length))) := by
  have kept : (!fraction.isEmpty || exponent.isSome) = true := by simpa using kept
  have lead := standard.one_or
  rw [Json.Token.number?, standard.ofChars?]
  cases negative with
  | true =>
    simp only [Option.bind_eq_bind, Option.bind_some, guard, lead, if_true, kept]
    rfl
  | false =>
    simp only [Option.bind_eq_bind, Option.bind_some, guard, lead, if_true, kept]
    rfl

theorem number?_int (standard : AreStandard whole []) (short : whole.length ≤ maxDigits) (negative : Bool) :
    Json.Token.number? ((if negative then ['-'] else []) ++ whole) =
      some (.int (Decimal.signed negative (Nat.ofDigitChars 10 whole 0))) := by
  have parts := standard.ofChars? negative none
  have lead := standard.one_or
  simp only [fractionChars, exponentChars, List.append_nil] at parts
  rw [Json.Token.number?, parts]
  cases negative with
  | true =>
    simp [guard, lead, short, Numeral.significand, Numeral.isNegative]
  | false =>
    simp [guard, lead, short, Numeral.significand, Numeral.isNegative]

/-! ### Digits -/

theorem length_toDigits (n : Nat) : (Nat.toDigits 10 n).length = decimalLength n := by
  have same (k : Nat) (positive : 0 < k) : (Nat.toDigits 10 n).length ≤ k ↔ decimalLength n ≤ k := by
    rw [Nat.length_toDigits_le_iff (by decide) positive, decimalLength_le_iff positive]
  apply Nat.le_antisymm
  · exact (same _ (decimalLength_pos n)).mpr (Nat.le_refl _)
  · exact (same _ Nat.length_toDigits_pos).mp (Nat.le_refl _)

theorem head?_append_of_some {front : List Char} (some : front ≠ []) (back : List Char) :
    (front ++ back).head? = front.head? := by
  cases front with
  | nil => exact absurd rfl some
  | cons c rest => rfl

theorem digitChar_ne_zero : ∀ n < 10, 0 < n → n.digitChar ≠ '0' := by decide

/-- No zero leads the digits of a number but zero itself. -/
theorem head?_toDigits {n : Nat} (positive : 0 < n) : (Nat.toDigits 10 n).head? ≠ some '0' := by
  induction n using Nat.strong_induction_on with
  | _ n ih =>
    by_cases single : n < 10
    · rw [Nat.toDigits_of_lt_base single]
      simpa using digitChar_ne_zero n single positive
    · have front := ih (n / 10) (by omega) (by omega)
      rw [Nat.toDigits_of_base_le (by decide) (by omega), head?_append_of_some Nat.toDigits_ne_nil]
      exact front

/-- The digits of a number are its significant ones and zeros. -/
theorem toDigits_eq_significantDigits (n : Nat) :
    ∃ zeros, Nat.toDigits 10 n = significantDigits n ++ List.replicate zeros '0' := by
  refine ⟨((Nat.toDigits 10 n).reverse.takeWhile (· == '0')).length, ?_⟩
  have split := congrArg List.reverse
    (List.takeWhile_append_dropWhile (p := (· == '0')) (l := (Nat.toDigits 10 n).reverse))
  rw [List.reverse_append, List.reverse_reverse] at split
  have zeros : ((Nat.toDigits 10 n).reverse.takeWhile (· == '0')).reverse =
      List.replicate ((Nat.toDigits 10 n).reverse.takeWhile (· == '0')).length '0' := by
    rw [List.eq_replicate_iff, List.length_reverse]
    refine ⟨rfl, ?_⟩
    intro c member
    have zero := List.mem_takeWhile_imp (List.mem_reverse.mp member)
    simpa using zero
  rw [significantDigits, ← zeros, split]

/-- The significant digits of a positive number, with the zeros that were dropped. -/
structure IsSignificand (n : Nat) (digits : List Char) (zeros : Nat) : Prop where
  some : digits ≠ []
  areDigits : AreDigits digits
  lead : digits.head? ≠ .some '0'
  value : n = Nat.ofDigitChars 10 digits 0 * 10 ^ zeros
  length : decimalLength n = digits.length + zeros

theorem isSignificand_significantDigits {n : Nat} (positive : 0 < n) :
    ∃ zeros, IsSignificand n (significantDigits n) zeros := by
  obtain ⟨zeros, split⟩ := toDigits_eq_significantDigits n
  have value : n = Nat.ofDigitChars 10 (significantDigits n) 0 * 10 ^ zeros := by
    have whole := Nat.ofDigitChars_ten_toDigits (n := n)
    rw [split, Nat.ofDigitChars_append, Nat.ofDigitChars_replicate_zero] at whole
    rw [Nat.mul_comm, whole]
  have some : significantDigits n ≠ [] := by
    intro none
    rw [none, Nat.ofDigitChars_nil, Nat.zero_mul] at value
    exact Nat.ne_of_gt positive value
  refine ⟨zeros, some, ?_, ?_, value, ?_⟩
  · intro c member
    apply areDigits_toDigits n
    rw [split]
    exact List.mem_append_left _ member
  · have lead := head?_toDigits positive
    rwa [split, head?_append_of_some some] at lead
  · rw [← length_toDigits, split, List.length_append, List.length_replicate]

/-! ### Layouts -/

/-- A numeral with a point or an exponent that denotes `s * 10 ^ e`, perhaps with more zeros. -/
structure Denotes (s : Nat) (e : Int) (whole fraction : List Char) (exponent : Option Int)
    (zeros : Nat) : Prop where
  standard : AreStandard whole fraction
  kept : fraction ≠ [] ∨ exponent.isSome
  digits : Nat.ofDigitChars 10 (whole ++ fraction) 0 = s * 10 ^ zeros
  place : exponent.getD 0 - fraction.length = e - zeros

theorem Denotes.number? {s : Nat} {e : Int} {exponent : Option Int} {zeros : Nat}
    (denotes : Denotes s e whole fraction exponent zeros) (negative : Bool) :
    Json.Token.number? ((if negative then ['-'] else []) ++
        (whole ++ (fractionChars fraction ++ exponentChars exponent))) =
      some (.float (.ofIndex negative (decimalIndex s e))) := by
  rw [number?_float denotes.standard denotes.kept, denotes.digits, denotes.place,
    Binary64.ofDecimal_eq, decimalIndex_shift]

theorem AreDigits.take {ds : List Char} (digits : AreDigits ds) (n : Nat) : AreDigits (ds.take n) :=
  fun c member => digits c (List.mem_of_mem_take member)

theorem AreDigits.drop {ds : List Char} (digits : AreDigits ds) (n : Nat) : AreDigits (ds.drop n) :=
  fun c member => digits c (List.mem_of_mem_drop member)

/-- Digits that can be laid out: there are some, and the first is not zero. -/
structure AreLeading (digits : List Char) : Prop where
  some : digits ≠ []
  areDigits : AreDigits digits
  lead : digits.head? ≠ .some '0'

variable {digits : List Char} {point : Int}

theorem fractionChars_of_some {digits : List Char} (some : digits ≠ []) :
    fractionChars digits = '.' :: digits := by
  cases digits with
  | nil => exact absurd rfl some
  | cons c rest => rfl

theorem AreLeading.head?_take {n : Nat} (leading : AreLeading digits) (positive : 0 < n) :
    digits.take n ≠ [] ∧ (digits.take n).head? ≠ .some '0' := by
  obtain ⟨some, -, lead⟩ := leading
  cases digits with
  | nil => exact absurd rfl some
  | cons c rest =>
    obtain ⟨k, rfl⟩ := Nat.exists_eq_succ_of_ne_zero (Nat.ne_of_gt positive)
    exact ⟨by simp, lead⟩

theorem denotes_behind_zeros (leading : AreLeading digits) (k : Nat) :
    Denotes (Nat.ofDigitChars 10 digits 0) (-k - digits.length) ['0'] (List.replicate k '0' ++ digits)
      none 0 where
  standard := ⟨by simp, areDigits_zeros 1, (areDigits_zeros k).append leading.areDigits, .inl rfl⟩
  kept := .inl (by simp [leading.some])
  digits := by
    rw [List.singleton_append, ofDigitChars_zero_cons, Nat.ofDigitChars_append,
      Nat.ofDigitChars_replicate_zero, Nat.mul_zero, Nat.pow_zero, Nat.mul_one]
  place := by
    simp
    omega

theorem denotes_split {n : Nat} (leading : AreLeading digits) (positive : 0 < n)
    (inside : n < digits.length) :
    Denotes (Nat.ofDigitChars 10 digits 0) (n - digits.length) (digits.take n) (digits.drop n) none 0 where
  standard := ⟨(leading.head?_take positive).1, leading.areDigits.take n, leading.areDigits.drop n,
    .inr (leading.head?_take positive).2⟩
  kept := .inl (by simpa using inside)
  digits := by rw [List.take_append_drop, Nat.pow_zero, Nat.mul_one]
  place := by
    simp
    omega

theorem denotes_before_zeros (leading : AreLeading digits) (k : Nat) :
    Denotes (Nat.ofDigitChars 10 digits 0) k (digits ++ List.replicate k '0') ['0'] none (k + 1) where
  standard := ⟨by simp [leading.some], leading.areDigits.append (areDigits_zeros k), areDigits_zeros 1,
    .inr (by rw [head?_append_of_some leading.some]; exact leading.lead)⟩
  kept := .inl (by simp)
  digits := by
    have zeros : List.replicate k '0' ++ ['0'] = List.replicate (k + 1) '0' := List.replicate_succ'.symm
    rw [List.append_assoc, zeros, Nat.ofDigitChars_append, Nat.ofDigitChars_replicate_zero, Nat.mul_comm]
  place := by simp

theorem denotes_exponent (leading : AreLeading digits) (point : Int) :
    Denotes (Nat.ofDigitChars 10 digits 0) (point - digits.length) (digits.take 1) (digits.drop 1)
      (some (point - 1)) 0 where
  standard := ⟨(leading.head?_take Nat.one_pos).1, leading.areDigits.take 1, leading.areDigits.drop 1,
    .inr (leading.head?_take Nat.one_pos).2⟩
  kept := .inr rfl
  digits := by rw [List.take_append_drop, Nat.pow_zero, Nat.mul_one]
  place := by
    have length := List.length_pos_iff.mpr leading.some
    simp
    omega

/-- However digits are laid out, the result denotes them with the point in its place. -/
theorem denotes_layOut (leading : AreLeading digits) (point : Int) :
    ∃ whole fraction exponent zeros,
      layOut digits point = whole ++ (fractionChars fraction ++ exponentChars exponent) ∧
      Denotes (Nat.ofDigitChars 10 digits 0) (point - digits.length) whole fraction exponent zeros ∧
      ∀ e ∈ exponent, e = point - 1 := by
  unfold layOut
  dsimp only
  split
  next small =>
    obtain ⟨k, rfl⟩ : ∃ k : Nat, point = -(k : Int) := ⟨(-point).toNat, by omega⟩
    refine ⟨_, _, _, _, ?_, denotes_behind_zeros leading k, by simp⟩
    rw [fractionChars_of_some (by simp [leading.some])]
    simp [exponentChars]
  split
  next inside =>
    obtain ⟨n, rfl⟩ := Int.eq_ofNat_of_zero_le (a := point) (by omega)
    refine ⟨_, _, _, _, ?_, denotes_split leading (n := n) (by omega) (by omega), by simp⟩
    have some : digits.drop n ≠ [] := by
      simp
      omega
    rw [fractionChars_of_some some]
    simp [exponentChars]
  split
  next behind =>
    obtain ⟨k, shifted⟩ := Int.eq_ofNat_of_zero_le (a := point - digits.length) (by omega)
    rw [shifted]
    refine ⟨_, _, _, _, ?_, denotes_before_zeros leading k, by simp⟩
    simp [fractionChars, exponentChars]
  next =>
    refine ⟨_, _, _, _, ?_, denotes_exponent leading point, by simp⟩
    have tail : (if (digits.drop 1).isEmpty then [] else '.' :: digits.drop 1) =
        fractionChars (digits.drop 1) := by
      cases digits.drop 1 <;> rfl
    rw [tail, List.append_assoc]
    rfl

/-! ### Lengths -/

theorem length_exponentText_le (e : Int) : (exponentText e).length ≤ decimalLength e.natAbs + 2 := by
  have digits := length_toDigits e.natAbs
  unfold exponentText
  dsimp only
  rw [List.length_cons]
  split
  · rw [List.length_cons, digits]
  · rw [digits]
    exact Nat.le_succ _

theorem length_layOut_le (digits : List Char) (point : Int) :
    (layOut digits point).length ≤ digits.length + (exponentText (point - 1)).length + 20 := by
  unfold layOut
  dsimp only
  split
  next =>
    simp
    omega
  split
  next =>
    simp
    omega
  split
  next =>
    simp
    omega
  next =>
    split
    · simp
      omega
    · simp
      omega

theorem length_significantDigits_le (n : Nat) : (significantDigits n).length ≤ decimalLength n := by
  obtain ⟨zeros, split⟩ := toDigits_eq_significantDigits n
  rw [← length_toDigits, split, List.length_append]
  exact Nat.le_add_right ..

/-! ### Characters -/

theorem AreDigits.isNumeralChar {cs : List Char} (digits : AreDigits cs) : ∀ c ∈ cs, IsNumeralChar c :=
  fun c member => .inl (digits c member)

theorem isNumeralChar_exponentText (e : Int) : ∀ c ∈ exponentText e, IsNumeralChar c := by
  have digits := (areDigits_toDigits e.natAbs).isNumeralChar
  have sign : IsNumeralChar (if e < 0 then '-' else '+') := by
    split <;> exact .inr (by decide)
  unfold exponentText
  dsimp only
  rw [List.forall_mem_cons]
  refine ⟨sign, ?_⟩
  split
  · rw [List.forall_mem_cons]
    exact ⟨.inl rfl, digits⟩
  · exact digits

theorem isNumeralChar_parts (standard : AreStandard whole fraction) (exponent : Option Int)
    (negative : Bool) :
    ∀ c ∈ (if negative then ['-'] else []) ++ (whole ++ (fractionChars fraction ++ exponentChars exponent)),
      IsNumeralChar c := by
  have sign : ∀ c ∈ (if negative then ['-'] else []), IsNumeralChar c := by
    intro c member
    cases negative with
    | true =>
      obtain rfl := List.mem_singleton.mp member
      exact .inr (by decide)
    | false => cases member
  have point : ∀ c ∈ fractionChars fraction, IsNumeralChar c := by
    cases fraction with
    | nil => simp [fractionChars]
    | cons c rest =>
      rw [fractionChars, List.forall_mem_cons]
      exact ⟨.inr (by decide), standard.fractionDigits.isNumeralChar⟩
  have exponents : ∀ c ∈ exponentChars exponent, IsNumeralChar c := by
    cases exponent with
    | none => simp [exponentChars]
    | some e =>
      rw [exponentChars, List.forall_mem_cons]
      exact ⟨.inr (by decide), isNumeralChar_exponentText e⟩
  simp only [List.forall_mem_append]
  exact ⟨sign, standard.digits.isNumeralChar, point, exponents⟩

/-! ### Numbers -/

/-- The shortest decimal of a magnitude with the zeros at its end dropped. -/
def IsShortest (index s : Nat) (e : Int) : Prop :=
  if index = 0 then s = 0 else ∃ zeros : Nat, shortest index = (s * 10 ^ zeros, e - zeros)

theorem IsShortest.decimalIndex_eq {index s : Nat} {e : Int} (short : IsShortest index s e) :
    decimalIndex s e = index := by
  unfold IsShortest at short
  split at short
  next zero => rw [short, zero, decimalIndex_zero]
  next =>
    obtain ⟨zeros, found⟩ := short
    have nearest := decimalIndex_shortest index
    rwa [found, decimalIndex_shift] at nearest

/-- The numeral that a magnitude is written as. -/
structure IsWrittenAs (index s : Nat) (e : Int) (whole fraction : List Char) (exponent : Option Int)
    (zeros : Nat) : Prop where
  written : magnitudeText index = whole ++ (fractionChars fraction ++ exponentChars exponent)
  denotes : Denotes s e whole fraction exponent zeros
  short : IsShortest index s e
  exponent_eq : ∀ x ∈ exponent, 0 < index ∧ x = decimalLength (shortest index).1 + (shortest index).2 - 1

/-- The text of a magnitude is a numeral for it with a point or an exponent. -/
theorem exists_isWrittenAs (index : Nat) : ∃ s e whole fraction exponent zeros,
    IsWrittenAs index s e whole fraction exponent zeros := by
  by_cases zero : index = 0
  · refine ⟨0, 0, ['0'], ['0'], none, 1, ?_, ⟨?_, .inl (by simp), rfl, rfl⟩, ?_, fun x given => nomatch given⟩
    · rw [magnitudeText, if_pos zero]
      rfl
    · exact ⟨by simp, areDigits_zeros 1, areDigits_zeros 1, .inl rfl⟩
    · rw [IsShortest, if_pos zero]
  · have positive : 0 < (shortest index).1 := shortest_pos (Nat.pos_of_ne_zero zero)
    obtain ⟨zeros, significand⟩ := isSignificand_significantDigits positive
    obtain ⟨whole, fraction, exponent, more, written, denotes, exponents⟩ := denotes_layOut
      ⟨significand.some, significand.areDigits, significand.lead⟩
      (decimalLength (shortest index).1 + (shortest index).2)
    refine ⟨_, _, whole, fraction, exponent, more, ?_, denotes, ?_,
      fun x given => ⟨Nat.pos_of_ne_zero zero, exponents x given⟩⟩
    · rw [magnitudeText, if_neg zero, ← written]
    · have place : decimalLength (shortest index).1 + (shortest index).2 -
          ((significantDigits (shortest index).1).length : Int) - zeros = (shortest index).2 := by
        have length := significand.length
        omega
      rw [IsShortest, if_neg zero]
      refine ⟨zeros, ?_⟩
      rw [← significand.value, place]

end Number

namespace Json

open Number Token

/-- What is read as a number is none of the names. -/
theorem atom?_of_number? {cs : List Char} {v : Json} (read : number? cs = some v) : atom? cs = some v := by
  have unnamed {name : String} (none : number? name.toList = none) : String.ofList cs ≠ name := by
    rintro rfl
    rw [String.toList_ofList, read] at none
    cases none
  unfold atom?
  split
  next same => exact absurd same (unnamed (by decide))
  next same => exact absurd same (unnamed (by decide))
  next same => exact absurd same (unnamed (by decide))
  next same => exact absurd same (unnamed (by decide))
  next same => exact absurd same (unnamed (by decide))
  next same => exact absurd same (unnamed (by decide))
  · exact read

theorem floatText_eq (negative : Bool) (index : Fin magnitudes) :
    floatText (.finite negative index) = (if negative then ['-'] else []) ++ magnitudeText index := by
  cases negative with
  | true => simp [floatText, Binary64.text]
  | false => simp [floatText, Binary64.text]

theorem atom?_float (negative : Bool) (index : Fin magnitudes) :
    atom? (floatText (.finite negative index)) = some (.float (.finite negative index)) := by
  obtain ⟨s, e, whole, fraction, exponent, zeros, written⟩ := exists_isWrittenAs index
  apply atom?_of_number?
  rw [floatText_eq, written.written, written.denotes.number?, written.short.decimalIndex_eq,
    Binary64.ofIndex, dif_pos index.isLt]

theorem intText_eq (n : Int) :
    (toString n).toList = (if n < 0 then ['-'] else []) ++ Nat.toDigits 10 n.natAbs := by
  rw [Int.toString_eq_repr, Int.repr_eq_if]
  by_cases negative : n < 0
  · have magnitude : (-n).toNat = n.natAbs := by omega
    simp [negative, Int.not_le.mpr negative, magnitude, Nat.toList_repr]
  · have magnitude : n.toNat = n.natAbs := by omega
    simp [negative, Int.not_lt.mp negative, magnitude, Nat.toList_repr]

theorem areStandard_toDigits (n : Nat) : AreStandard (Nat.toDigits 10 n) [] where
  some := Nat.toDigits_ne_nil
  digits := areDigits_toDigits n
  fractionDigits := by simp [AreDigits]
  lead := by
    rcases Nat.eq_zero_or_pos n with rfl | positive
    · exact .inl rfl
    · exact .inr (head?_toDigits positive)

theorem atom?_int {n : Int} (short : decimalLength n.natAbs ≤ maxDigits) :
    atom? (toString n).toList = some (.int n) := by
  have read := number?_int (areStandard_toDigits n.natAbs) (by rwa [length_toDigits]) (decide (n < 0))
  rw [Nat.ofDigitChars_ten_toDigits, Decimal.signed_natAbs] at read
  apply atom?_of_number?
  rw [intText_eq]
  simpa using read

theorem isNumeralChar_floatText (negative : Bool) (index : Fin magnitudes) :
    ∀ c ∈ floatText (.finite negative index), IsNumeralChar c := by
  obtain ⟨s, e, whole, fraction, exponent, zeros, written⟩ := exists_isWrittenAs index
  rw [floatText_eq, written.written]
  exact isNumeralChar_parts written.denotes.standard exponent negative

theorem isNumeralChar_intText (n : Int) : ∀ c ∈ (toString n).toList, IsNumeralChar c := by
  have parts := isNumeralChar_parts (areStandard_toDigits n.natAbs) none (decide (n < 0))
  rw [intText_eq]
  simpa [fractionChars, exponentChars] using parts

end Json
end WorkloadAdmission
