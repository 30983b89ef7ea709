import Mathlib.Data.List.TakeWhile
import WorkloadAdmission.Proofs.Exactness

/-! Numerals as they are spelled. A spelling has all that a reader may find: a sign of either kind or
none, digits on one side of a point or on both, a point with nothing behind it, an exponent after a small
or a capital letter. It is read as the parts that it was spelled from, and these denote the number that
its digits denote by their places. -/
namespace WorkloadAdmission

namespace Text

theorem digit_range {c : Char} (digit : c.isDigit) : 0x30 ≤ c.toNat ∧ c.toNat ≤ 0x39 :=
  Char.isDigit_iff_toNat.mp digit

theorem isBlank_digit {c : Char} (digit : c.isDigit) : isBlank c = false := by
  have range := digit_range digit
  simp [isBlank]
  omega

theorem asciiDigit_digit {c : Char} (digit : c.isDigit) : asciiDigit c = c := by
  have range := digit_range digit
  have value : digit? c = some (c.toNat - 0x30) := by
    have first : (decide (0x30 ≤ c.toNat) && decide (c.toNat < 0x30 + 10)) = true := by
      simp only [Bool.and_eq_true, decide_eq_true_eq]
      omega
    simp only [digit?, zeros, List.findSome?_cons, first, if_true]
  simp only [asciiDigit, value, Nat.add_sub_cancel' range.1, Char.ofNat_toNat]

/-- A character that stands for itself in a number: no blank at an end, no filler, and no digit of
another script. -/
structure IsVerbatim (c : Char) : Prop where
  solid : isBlank c = false
  kept : c ≠ '_'
  same : asciiDigit c = c

theorem isVerbatim_digit {c : Char} (digit : c.isDigit) : IsVerbatim c where
  solid := isBlank_digit digit
  kept := by
    rintro rfl
    exact absurd digit (by decide)
  same := asciiDigit_digit digit

theorem trim_none {p : Char → Bool} {cs : List Char} (inside : ∀ c ∈ cs, p c = false) :
    trim p cs = cs := by
  have front {list : List Char} (inside : ∀ c ∈ list, p c = false) : list.dropWhile p = list := by
    cases list with
    | nil => rfl
    | cons c rest => simp [inside c List.mem_cons_self]
  rw [trim, front inside, front (by simpa using inside), List.reverse_reverse]

end Text

namespace Number

/-! ### Digits -/

def AreDigits (cs : List Char) : Prop := ∀ c ∈ cs, c.isDigit

instance (cs : List Char) : Decidable (AreDigits cs) :=
  decidable_of_iff (cs.all Char.isDigit) List.all_eq_true

theorem areDigits_toDigits (n : Nat) : AreDigits (Nat.toDigits 10 n) :=
  fun _ member => Nat.isDigit_of_mem_toDigits (by decide) (by decide) member

theorem areDigits_zeros (n : Nat) : AreDigits (List.replicate n '0') := by
  intro c member
  rw [(List.mem_replicate.mp member).2]
  rfl

theorem AreDigits.append {first second : List Char} (digits : AreDigits first) (digitsToo : AreDigits second) :
    AreDigits (first ++ second) := by
  intro c member
  rcases List.mem_append.mp member with here | there
  · exact digits c here
  · exact digitsToo c there

/-- Digits are taken up to the first character that is none. -/
theorem span_digits {ds rest : List Char} (digits : AreDigits ds) (stop : ∀ c ∈ rest.head?, c.isDigit = false) :
    (ds ++ rest).takeWhile Char.isDigit = ds ∧ (ds ++ rest).dropWhile Char.isDigit = rest := by
  rw [List.takeWhile_append_of_pos digits, List.dropWhile_append_of_pos digits]
  cases rest with
  | nil => simp
  | cons c others =>
    have none := stop c rfl
    simp [none]

/-! ### Signs -/

def signChars : Option Sign → List Char
  | none => []
  | some .plus => ['+']
  | some .minus => ['-']

/-- A number with a sign; only the minus sign changes it. -/
def applySign {α : Type} [Neg α] (sign : Option Sign) (n : α) : α := if sign = some .minus then -n else n

/-- A sign is read off what begins with none. -/
theorem takeSign_signChars (sign : Option Sign) {rest : List Char}
    (unsigned : ∀ c ∈ rest.head?, c.isDigit ∨ c = '.') : takeSign (signChars sign ++ rest) = (sign, rest) := by
  match sign with
  | some .plus => rfl
  | some .minus => rfl
  | none =>
    unfold takeSign signChars
    rw [List.nil_append]
    split
    next => exact absurd (unsigned '+' rfl) (by decide)
    next => exact absurd (unsigned '-' rfl) (by decide)
    next => rfl

theorem head?_of_areDigits {digits : List Char} (areDigits : AreDigits digits) (rest : List Char)
    (some : digits ≠ []) : ∀ c ∈ (digits ++ rest).head?, c.isDigit := by
  cases digits with
  | nil => exact absurd rfl some
  | cons c others =>
    rintro _ ⟨⟩
    exact areDigits c List.mem_cons_self

/-! ### Exponents -/

/-- An exponent as it is spelled: a letter, a sign and some digits. -/
structure ExponentSpelling where
  capital : Bool
  sign : Option Sign
  digits : List Char
  areDigits : AreDigits digits
  nonempty : digits ≠ []

namespace ExponentSpelling

variable (x : ExponentSpelling)

def letter : Char := if x.capital then 'E' else 'e'

def chars : List Char := x.letter :: (signChars x.sign ++ x.digits)

def value : Int := applySign x.sign (Nat.ofDigitChars 10 x.digits 0 : Int)

theorem letter_eq_or : x.letter = 'e' ∨ x.letter = 'E' := by
  unfold letter
  cases x.capital with
  | true => exact .inr rfl
  | false => exact .inl rfl

theorem integer?_chars : integer? (signChars x.sign ++ x.digits) = some x.value := by
  have head : ∀ c ∈ x.digits.head?, c.isDigit ∨ c = '.' := by
    have digit := head?_of_areDigits x.areDigits [] x.nonempty
    rw [List.append_nil] at digit
    exact fun c member => .inl (digit c member)
  have all : x.digits.all Char.isDigit = true := List.all_eq_true.mpr x.areDigits
  have some := x.nonempty
  simp [integer?, takeSign_signChars x.sign head, all, some, value, applySign]

end ExponentSpelling

/-! ### Numerals -/

/-- A numeral as it is spelled. There is a digit before the point or behind it, and none behind a point
that is not there. -/
structure Spelling where
  sign : Option Sign
  whole : List Char
  point : Bool
  fraction : List Char
  exponent : Option ExponentSpelling
  wholeDigits : AreDigits whole
  fractionDigits : AreDigits fraction
  nonempty : whole ≠ [] ∨ fraction ≠ []
  pointed : point = false → fraction = []

namespace Spelling

variable (s : Spelling)

def fractionChars : List Char := if s.point then '.' :: s.fraction else []

def exponentChars : List Char := (s.exponent.map ExponentSpelling.chars).getD []

def chars : List Char := signChars s.sign ++ (s.whole ++ (s.fractionChars ++ s.exponentChars))

/-- The parts that a spelling is read as. -/
def numeral : Numeral := ⟨s.sign, s.whole, s.point, s.fraction, s.exponent.map ExponentSpelling.value⟩

theorem head?_exponentChars : ∀ c ∈ s.exponentChars.head?, c = 'e' ∨ c = 'E' := by
  unfold exponentChars
  cases s.exponent with
  | none => simp
  | some x =>
    rintro _ ⟨⟩
    exact x.letter_eq_or

theorem head?_fractionChars :
    ∀ c ∈ (s.fractionChars ++ s.exponentChars).head?, c = '.' ∨ c = 'e' ∨ c = 'E' := by
  have behind := s.head?_exponentChars
  unfold fractionChars
  cases s.point with
  | false => exact fun c member => .inr (behind c member)
  | true =>
    rintro _ ⟨⟩
    exact .inl rfl

/-- The digits come first behind the sign, or the point if all digits are behind it. -/
theorem head?_unsigned :
    ∀ c ∈ (s.whole ++ (s.fractionChars ++ s.exponentChars)).head?, c.isDigit ∨ c = '.' := by
  cases whole : s.whole with
  | cons d others =>
    rintro _ ⟨⟩
    exact .inl (s.wholeDigits d (by simp [whole]))
  | nil =>
    have fraction := s.nonempty.resolve_left (not_not.mpr whole)
    have point : s.point = true := by
      by_contra none
      exact fraction (s.pointed (by simpa using none))
    rw [fractionChars, if_pos point]
    rintro _ ⟨⟩
    exact .inr rfl

/-- A spelling is read as the parts that it was spelled from. -/
theorem ofChars?_chars : Numeral.ofChars? s.chars = some s.numeral := by
  have letter {c : Char} (either : c = 'e' ∨ c = 'E') : c.isDigit = false := by
    rcases either with rfl | rfl <;> decide
  have stop : ∀ c ∈ (s.fractionChars ++ s.exponentChars).head?, c.isDigit = false := by
    intro c member
    rcases s.head?_fractionChars c member with rfl | either
    · decide
    · exact letter either
  have behind : ∀ c ∈ s.exponentChars.head?, c.isDigit = false :=
    fun c member => letter (s.head?_exponentChars c member)
  obtain ⟨taken, left⟩ := span_digits s.wholeDigits stop
  obtain ⟨fractionTaken, fractionLeft⟩ := span_digits s.fractionDigits behind
  have some := s.nonempty
  have none := s.pointed
  rw [Numeral.ofChars?, chars, takeSign_signChars s.sign s.head?_unsigned]
  dsimp only
  rw [taken, left]
  cases point : s.point with
  | true =>
    simp only [fractionChars, point, if_true, List.cons_append, fractionTaken, fractionLeft]
    rw [if_neg (by simpa [Classical.or_iff_not_imp_left] using some)]
    cases exponent : s.exponent with
    | none => simp [exponentChars, numeral, exponent, point]
    | some x =>
      have letter : x.letter = 'e' ∨ x.letter = 'E' := x.letter_eq_or
      simp [exponentChars, numeral, exponent, point, ExponentSpelling.chars, x.integer?_chars, letter]
  | false =>
    have noFraction := none point
    have whole : s.whole ≠ [] := some.resolve_right (not_not.mpr noFraction)
    cases exponent : s.exponent with
    | none => simp [fractionChars, exponentChars, numeral, exponent, point, noFraction, whole]
    | some x =>
      have letter : x.letter = 'e' ∨ x.letter = 'E' := x.letter_eq_or
      have noPoint : x.letter ≠ '.' := by rcases letter with same | same <;> rw [same] <;> decide
      simp [fractionChars, exponentChars, numeral, exponent, point, noFraction, whole,
        ExponentSpelling.chars, x.integer?_chars, letter, noPoint]

/-! ### Characters -/

theorem isVerbatim_signChars (sign : Option Sign) : ∀ c ∈ signChars sign, Text.IsVerbatim c := by
  match sign with
  | none => simp [signChars]
  | some .plus => simpa [signChars] using ⟨by decide, by decide, by decide⟩
  | some .minus => simpa [signChars] using ⟨by decide, by decide, by decide⟩

/-- Every character of a numeral stands for itself. -/
theorem isVerbatim_chars : ∀ c ∈ s.chars, Text.IsVerbatim c := by
  have digits {cs : List Char} (areDigits : AreDigits cs) : ∀ c ∈ cs, Text.IsVerbatim c :=
    fun c member => Text.isVerbatim_digit (areDigits c member)
  have fraction : ∀ c ∈ s.fractionChars, Text.IsVerbatim c := by
    unfold fractionChars
    split
    · exact List.forall_mem_cons.mpr ⟨⟨by decide, by decide, by decide⟩, digits s.fractionDigits⟩
    · simp
  have exponent : ∀ c ∈ s.exponentChars, Text.IsVerbatim c := by
    unfold exponentChars
    cases s.exponent with
    | none => simp
    | some x =>
      have letter : Text.IsVerbatim x.letter := by
        rcases x.letter_eq_or with same | same <;> rw [same] <;> exact ⟨by decide, by decide, by decide⟩
      refine List.forall_mem_cons.mpr ⟨letter, List.forall_mem_append.mpr ⟨?_, digits x.areDigits⟩⟩
      exact isVerbatim_signChars x.sign
  simp only [chars, List.forall_mem_append]
  exact ⟨isVerbatim_signChars s.sign, digits s.wholeDigits, fraction, exponent⟩

theorem length_digits_le : s.whole.length + s.fraction.length ≤ s.chars.length := by
  have fraction : s.fraction.length ≤ s.fractionChars.length := by
    have none := s.pointed
    unfold fractionChars
    cases point : s.point with
    | true => simp
    | false => simp [none point]
  simp only [chars, List.length_append]
  omega

/-- A numeral ends in a digit or a point. -/
theorem getLast?_chars : ∀ c ∈ s.chars.getLast?, c.isDigit ∨ c = '.' := by
  have last (front : List Char) {digits : List Char} (areDigits : AreDigits digits) (some : digits ≠ []) :
      ∀ c ∈ (front ++ digits).getLast?, c.isDigit ∨ c = '.' := by
    intro c member
    rw [List.getLast?_append_of_ne_nil _ some] at member
    exact .inl (areDigits c (List.mem_of_getLast? member))
  cases exponent : s.exponent with
  | some x =>
    have chars : s.chars =
        (signChars s.sign ++ s.whole ++ s.fractionChars ++ x.letter :: signChars x.sign) ++ x.digits := by
      simp [Spelling.chars, exponentChars, exponent, ExponentSpelling.chars]
    rw [chars]
    exact last _ x.areDigits x.nonempty
  | none =>
    cases point : s.point with
    | false =>
      have whole : s.whole ≠ [] := s.nonempty.resolve_right (not_not.mpr (s.pointed point))
      have chars : s.chars = signChars s.sign ++ s.whole := by
        simp [Spelling.chars, exponentChars, exponent, fractionChars, point]
      rw [chars]
      exact last _ s.wholeDigits whole
    | true =>
      have chars : s.chars = (signChars s.sign ++ s.whole ++ ['.']) ++ s.fraction := by
        simp [Spelling.chars, exponentChars, exponent, fractionChars, point]
      rw [chars]
      by_cases none : s.fraction = []
      · rw [none, List.append_nil, List.getLast?_concat]
        rintro _ ⟨⟩
        exact .inr rfl
      · exact last _ s.fractionDigits none

/-! ### Values -/

/-- The number that a spelling denotes: its digits in their places, times a power of ten. -/
def value : ℚ :=
  applySign s.sign
    ((Nat.ofDigitChars 10 s.whole 0 + Nat.ofDigitChars 10 s.fraction 0 / 10 ^ s.fraction.length : ℚ) *
      10 ^ s.numeral.exponent.getD 0)

/-- All digits as one number with the sign. -/
def significand : Int := Decimal.signed s.numeral.isNegative s.numeral.significand

theorem numeral_significand : s.numeral.significand =
    10 ^ s.fraction.length * Nat.ofDigitChars 10 s.whole 0 + Nat.ofDigitChars 10 s.fraction 0 := by
  rw [Numeral.significand, numeral, Nat.ofDigitChars_append, Nat.ofDigitChars_eq_ofDigitChars_zero]

/-- A spelling denotes its digits as one number, in the place of the last of them. -/
theorem value_eq : s.value = Decimal.value s.significand s.numeral.scale := by
  have unsigned :
      (Nat.ofDigitChars 10 s.whole 0 + Nat.ofDigitChars 10 s.fraction 0 / 10 ^ s.fraction.length : ℚ) *
        10 ^ s.numeral.exponent.getD 0 = s.numeral.significand * 10 ^ s.numeral.scale := by
    have scale : s.numeral.scale = s.numeral.exponent.getD 0 - s.fraction.length := rfl
    rw [numeral_significand, scale, zpow_sub₀ (by norm_num), zpow_natCast]
    push_cast
    field_simp
  rw [value, unsigned, significand, Decimal.value, Decimal.signed, applySign]
  by_cases negative : s.sign = some .minus
  · have minus : s.numeral.isNegative = true := decide_eq_true negative
    simp [negative, minus]
  · have plus : s.numeral.isNegative = false := decide_eq_false negative
    simp [negative, plus]

theorem natAbs_significand : s.significand.natAbs = s.numeral.significand := Decimal.natAbs_signed ..

end Spelling

theorem ofDigitChars_lt {digits : List Char} (areDigits : AreDigits digits) :
    Nat.ofDigitChars 10 digits 0 < 10 ^ digits.length := by
  induction digits with
  | nil => simp
  | cons c rest ih =>
    have tail := ih fun d member => areDigits d (List.mem_cons_of_mem c member)
    have digit : c.toNat - '0'.toNat ≤ 9 := by
      have range := Text.digit_range (areDigits c List.mem_cons_self)
      have zero : '0'.toNat = 0x30 := rfl
      omega
    rw [Nat.ofDigitChars_cons, Nat.ofDigitChars_eq_ofDigitChars_zero, Nat.mul_zero, Nat.zero_add]
    calc 10 ^ rest.length * (c.toNat - '0'.toNat) + Nat.ofDigitChars 10 rest 0
        < 10 ^ rest.length * 9 + 10 ^ rest.length := by
          have front := Nat.mul_le_mul_left (10 ^ rest.length) digit
          omega
      _ = 10 ^ (c :: rest).length := by
        rw [List.length_cons]
        ring

/-! ### Reading -/

/-- The count of characters and the exponent up to which any numeral is read. -/
@[irreducible] def readingLimit : Nat := 100000

theorem readingLimit_eq : readingLimit = 100000 := by rw [readingLimit]

structure Spelling.IsModest (s : Spelling) : Prop where
  length_le : s.chars.length ≤ readingLimit
  exponent_le : ∀ x ∈ s.exponent, x.value.natAbs ≤ readingLimit

end Number

namespace Decimal

open Number

/-- A number in characters that stand for themselves is read as it stands. -/
theorem ofChars?_verbatim {cs : List Char} (verbatim : ∀ c ∈ cs, Text.IsVerbatim c) {n : Numeral}
    (read : Numeral.ofChars? cs = some n) : ofChars? cs = ofNumeral? n := by
  have trimmed : Text.trim Text.isBlank cs = cs := Text.trim_none fun c member => (verbatim c member).solid
  have kept : cs.filter (· ≠ '_') = cs := by
    apply List.filter_eq_self.mpr
    intro c member
    simpa using (verbatim c member).kept
  have ascii : cs.map Text.asciiDigit = cs :=
    (List.map_congr_left fun c member => (verbatim c member).same).trans (List.map_id _)
  simp only [ofChars?, trimmed, kept, ascii, read]

end Decimal

namespace Number.Spelling

variable {s : Spelling}

theorem IsModest.decimalLength_le (modest : s.IsModest) : decimalLength s.significand.natAbs ≤ readingLimit := by
  have digits := ofDigitChars_lt (s.wholeDigits.append s.fractionDigits)
  have length := s.length_digits_le
  have limit := modest.length_le
  have some : 0 < (s.whole ++ s.fraction).length :=
    List.length_pos_iff.mpr (by simpa [Classical.or_iff_not_imp_left] using s.nonempty)
  rw [natAbs_significand]
  have few : decimalLength s.numeral.significand ≤ (s.whole ++ s.fraction).length :=
    (Number.decimalLength_le_iff some).mpr digits
  rw [List.length_append] at few
  omega

theorem IsModest.scale_between (modest : s.IsModest) :
    -(2 * readingLimit : Int) ≤ s.numeral.scale ∧ s.numeral.scale ≤ readingLimit := by
  have length := s.length_digits_le
  have limit := modest.length_le
  have scale : s.numeral.scale = s.numeral.exponent.getD 0 - s.fraction.length := rfl
  have exponent : (s.numeral.exponent.getD 0).natAbs ≤ readingLimit := by
    have bounded := modest.exponent_le
    cases given : s.exponent with
    | none => simp [numeral, given]
    | some x => simpa [numeral, given] using bounded x given
  omega

/-- A numeral of modest length and exponent is read as the number that it denotes. -/
theorem IsModest.ofChars? (modest : s.IsModest) :
    Decimal.ofChars? s.chars = some (.finite s.significand s.numeral.scale) := by
  obtain ⟨low, high⟩ := modest.scale_between
  have length := modest.decimalLength_le
  rw [natAbs_significand] at length
  have range : ¬(s.numeral.scale < Decimal.minExponent ∨
      Decimal.maxExponent < s.numeral.scale + ((decimalLength s.numeral.significand : Int) - 1)) := by
    rw [readingLimit_eq] at low high length
    simp only [Decimal.minExponent, Decimal.maxExponent]
    omega
  rw [Decimal.ofChars?_verbatim s.isVerbatim_chars s.ofChars?_chars, Decimal.ofNumeral?,
    if_neg (by simpa using range), significand]

end Number.Spelling
end WorkloadAdmission
