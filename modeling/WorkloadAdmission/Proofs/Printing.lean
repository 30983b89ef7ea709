import WorkloadAdmission.Proofs.Notation
import WorkloadAdmission.Proofs.Precision

/-! The number that the text of a binary64 number spells. It is the shortest decimal of the number, with
its sign, and it has seventeen digits or fewer. The text is short, and so is the exponent in it, so it is
read as that decimal wherever a decimal is read. -/
namespace WorkloadAdmission

namespace Decimal

open Number

theorem signed_mul (negative : Bool) (m n : Nat) : signed negative (m * n) = signed negative m * n := by
  unfold signed
  split
  · rw [Int.natCast_mul, Int.neg_mul]
  · rw [Int.natCast_mul]

/-- The decimal of a finite number is zero, or the shortest one with the sign of the number. -/
theorem ofBinary64_eq_finite {x : Binary64} {c f : Int} (read : ofBinary64 x = .finite c f) :
    c = 0 ∧ f = 0 ∨ ∃ negative, ∃ index : Fin magnitudes, 0 < index.val ∧
      c = signed negative (shortest index.val).1 ∧ f = (shortest index.val).2 := by
  cases x with
  | nan => cases read
  | infinite negative => cases read
  | finite negative index =>
    rw [ofBinary64] at read
    split at read
    next =>
      cases read
      exact .inl ⟨rfl, rfl⟩
    next nonzero =>
      obtain ⟨rfl, rfl⟩ := Decimal.finite.inj read
      exact .inr ⟨negative, index, Nat.pos_of_ne_zero nonzero, rfl, rfl⟩

theorem natAbs_ofBinary64_le {x : Binary64} {c f : Int} (read : ofBinary64 x = .finite c f) :
    c.natAbs ≤ 10 ^ 17 := by
  obtain ⟨rfl, -⟩ | ⟨negative, index, positive, rfl, -⟩ := ofBinary64_eq_finite read
  · decide
  · rw [natAbs_signed]
    exact (shortest_bounds positive index.isLt).1

end Decimal

namespace Number

open Decimal (signed signed_mul ofBinary64 value_zero value_mul_pow)

variable {index s zeros : Nat} {e : Int} {whole fraction : List Char} {exponent : Option Int}

theorem value_spelling (standard : AreStandard whole fraction) (negative : Bool) (exponent : Option Int) :
    (standard.spelling negative exponent).value =
      Decimal.value (signed negative (Nat.ofDigitChars 10 (whole ++ fraction) 0))
        (exponent.getD 0 - fraction.length) := by
  have numeral := standard.numeral_spelling negative exponent
  have sign : (standard.spelling negative exponent).numeral.isNegative = negative := by
    rw [numeral]
    cases negative <;> rfl
  rw [Number.Spelling.value_eq, Number.Spelling.significand, sign, numeral, Numeral.significand, Numeral.scale]

/-- A number that is written denotes the shortest decimal of it, with its sign. -/
theorem value_written (written : IsWrittenAs index s e whole fraction exponent zeros) (negative : Bool)
    (finite : index < magnitudes) :
    ∃ c f, ofBinary64 (.finite negative ⟨index, finite⟩) = .finite c f ∧
      (written.denotes.standard.spelling negative exponent).value = Decimal.value c f := by
  have shifted (dropped : Nat) (f : Int) :
      Decimal.value (signed negative (s * 10 ^ dropped)) (f - dropped) = Decimal.value (signed negative s) f := by
    rw [signed_mul, Nat.cast_pow, Nat.cast_ofNat, value_mul_pow, Int.sub_add_cancel]
  rw [value_spelling, written.denotes.digits, written.denotes.place, shifted]
  have short := written.short
  unfold IsShortest at short
  rw [ofBinary64]
  split at short
  next zero =>
    refine ⟨0, 0, if_pos zero, ?_⟩
    rw [short, value_zero]
    cases negative <;> exact value_zero e
  next nonzero =>
    obtain ⟨dropped, found⟩ := short
    refine ⟨_, _, if_neg nonzero, ?_⟩
    rw [found, shifted]

theorem length_magnitudeText_le (finite : index < magnitudes) : (magnitudeText index).length ≤ 50 := by
  rcases Nat.eq_zero_or_pos index with zero | some
  · rw [magnitudeText, if_pos zero]
    decide
  · obtain ⟨few, place⟩ := shortest_bounds some finite
    have digits : decimalLength (shortest index).1 ≤ 18 :=
      (decimalLength_le_iff (by decide)).mpr (few.trans_lt (by decide))
    rw [magnitudeText, if_neg (Nat.ne_of_gt some)]
    generalize shortest index = found at few place digits
    have layout := length_layOut_le (significantDigits found.1) (decimalLength found.1 + found.2)
    have significand := length_significantDigits_le found.1
    have exponent := length_exponentText_le (decimalLength found.1 + found.2 - 1)
    have small : decimalLength (decimalLength found.1 + found.2 - 1 : Int).natAbs ≤ 3 := by
      rw [decimalLength_le_iff (by decide)]
      omega
    dsimp only
    omega

theorem isModest_written (written : IsWrittenAs index s e whole fraction exponent zeros) (negative : Bool)
    (finite : index < magnitudes) : (written.denotes.standard.spelling negative exponent).IsModest := by
  have limit := readingLimit_eq
  constructor
  · have sign : (if negative then ['-'] else []).length ≤ 1 := by split <;> decide
    have magnitude := length_magnitudeText_le finite
    rw [AreStandard.chars_spelling, ← written.written, List.length_append]
    omega
  · intro x spelled
    obtain ⟨y, given, rfl⟩ := Option.mem_map.mp spelled
    rw [ExponentSpelling.value_ofInt]
    obtain ⟨some, place⟩ := written.exponent_eq y given
    obtain ⟨few, small⟩ := shortest_bounds some finite
    have digits : decimalLength (shortest index).1 ≤ 18 :=
      (decimalLength_le_iff (by decide)).mpr (few.trans_lt (by decide))
    omega

/-- A finite number is written as a numeral that denotes the shortest decimal of it. -/
theorem exists_spelling {x : Binary64} {c f : Int} (read : ofBinary64 x = .finite c f) :
    ∃ s : Spelling, s.IsModest ∧ x.text = String.ofList s.chars ∧ s.value = Decimal.value c f := by
  cases x with
  | nan => cases read
  | infinite negative => cases read
  | finite negative index =>
    obtain ⟨s, e, whole, fraction, exponent, zeros, written⟩ := exists_isWrittenAs index
    obtain ⟨c', f', readToo, value⟩ := value_written written negative index.isLt
    obtain ⟨rfl, rfl⟩ : c' = c ∧ f' = f := Decimal.finite.inj (readToo.symm.trans read)
    refine ⟨_, isModest_written written negative index.isLt, ?_, value⟩
    rw [AreStandard.chars_spelling, ← written.written]
    cases negative <;> rfl

end Number

namespace Binary64

/-- The text of a number spells a rational. -/
def Prints (x : Binary64) (d : ℚ) : Prop :=
  ∃ c e, Decimal.ofChars? x.text.toList = some (.finite c e) ∧ Decimal.value c e = d

/-- A number prints its shortest decimal. -/
theorem prints_iff {x : Binary64} {d : ℚ} :
    x.Prints d ↔ ∃ c e, Decimal.ofBinary64 x = .finite c e ∧ Decimal.value c e = d := by
  have printed {c f : Int} (read : Decimal.ofBinary64 x = .finite c f) : x.Prints (Decimal.value c f) := by
    obtain ⟨s, modest, text, value⟩ := Number.exists_spelling read
    refine ⟨_, _, ?_, s.value_eq.symm.trans value⟩
    rw [text, String.toList_ofList, modest.ofChars?]
  constructor
  · rintro ⟨c, e, spelled, rfl⟩
    cases x with
    | nan =>
      have name : Decimal.ofChars? (text .nan).toList = some .nan := by decide
      cases name.symm.trans spelled
    | infinite negative =>
      have name : Decimal.ofChars? (text (.infinite negative)).toList = some (.infinite negative) := by
        cases negative <;> decide
      cases name.symm.trans spelled
    | finite negative index =>
      obtain ⟨c', f', read⟩ : ∃ c' f', Decimal.ofBinary64 (.finite negative index) = .finite c' f' := by
        rw [Decimal.ofBinary64]
        split <;> exact ⟨_, _, rfl⟩
      obtain ⟨_, _, spelledToo, value⟩ := printed read
      obtain ⟨rfl, rfl⟩ := Decimal.finite.inj (Option.some.inj (spelledToo.symm.trans spelled))
      exact ⟨c', f', read, value.symm⟩
  · rintro ⟨c, e, read, rfl⟩
    exact printed read

end Binary64
end WorkloadAdmission
