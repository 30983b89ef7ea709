import WorkloadAdmission.Json.Printer
import WorkloadAdmission.Json.Token
import WorkloadAdmission.Proofs.Encoding

/-! Texts in a JSON document. Whatever code points a text has, and however they are escaped, reading
what stands between its quotes gives the text back; and no quote stands there that could end it. Only of a
high surrogate directly before a low one there is no telling from the character that both of them write. -/
namespace WorkloadAdmission

namespace Text

theorem hexDigit?_hexDigit : ∀ d < 16, hexDigit? (hexDigit d) = some d := by decide

theorem isPlain_hexDigit : ∀ d < 16, IsPlain (hexDigit d) := by decide

theorem hexDigit_ne_quote : ∀ d < 16, hexDigit d ≠ '\x22' ∧ hexDigit d ≠ '\\' := by decide

/-- Four hexadecimal digits are enough for a code unit. -/
theorem hexValue?_hex {n : Nat} (small : n < 0x10000) :
    hexValue? (hexDigit (n / 16 / 16 / 16 % 16)) (hexDigit (n / 16 / 16 % 16)) (hexDigit (n / 16 % 16))
      (hexDigit (n % 16)) = some n := by
  have whole : n / 16 / 16 / 16 % 16 * 0x1000 + n / 16 / 16 % 16 * 0x100 + n / 16 % 16 * 0x10 + n % 16 = n := by
    omega
  rw [hexValue?, hexDigit?_hexDigit _ (by omega), hexDigit?_hexDigit _ (by omega),
    hexDigit?_hexDigit _ (by omega), hexDigit?_hexDigit _ (by omega)]
  exact congrArg some whole

/-! ### Lone surrogates -/

/-- Whether no high surrogate stands directly before a low one. Where both are written as units, they would
be read as one character. -/
def areApart : List CodePoint → Bool
  | p :: q :: rest => !(isHighSurrogate p.toNat && isLowSurrogate q.toNat) && areApart (q :: rest)
  | _ => true

def isUnpaired (t : Text) : Bool := areApart t.points

theorem areApart_of_cons {p : CodePoint} {ps : List CodePoint} (apart : areApart (p :: ps) = true) :
    areApart ps = true := by
  cases ps with
  | nil => rfl
  | cons q rest =>
    rw [areApart, Bool.and_eq_true] at apart
    exact apart.2

theorem isHighSurrogate_char (c : Char) : isHighSurrogate (CodePoint.char c).toNat = false := by
  have valid : c.toNat < 0xd800 ∨ (0xdfff < c.toNat ∧ c.toNat < 0x110000) := c.valid
  rw [CodePoint.toNat, isHighSurrogate, Bool.and_eq_false_iff, decide_eq_false_iff_not, decide_eq_false_iff_not]
  omega

/-- Characters have no surrogates among them. -/
@[simp]
theorem isUnpaired_ofString (s : String) : (ofString s).isUnpaired = true := by
  rw [isUnpaired, points_ofString]
  induction s.toList with
  | nil => rfl
  | cons c rest ih =>
    cases rest with
    | nil => rfl
    | cons d others =>
      rw [List.map_cons, List.map_cons, areApart, isHighSurrogate_char]
      exact ih

/-! ### Pieces -/

/-- Pieces that write code points: each code point by itself, or as its units. -/
inductive Writes : List CodePoint → List Piece → Prop where
  | nil : Writes [] []
  | point {ps : List CodePoint} {pieces : List Piece} (p : CodePoint) : Writes ps pieces →
      Writes (p :: ps) (.point p :: pieces)
  | units {ps : List CodePoint} {pieces : List Piece} (p : CodePoint) : Writes ps pieces →
      Writes (p :: ps) ((units p).map .unit ++ pieces)

theorem units_of_small {p : CodePoint} (small : p.toNat < 0x10000) : units p = [p.toNat] := if_pos small

/-- A unit that has no other half next to it is read as the code point of its number. -/
theorem ofPieces?_unit {p : CodePoint} {pieces : List Piece}
    (alone : ∀ m rest, pieces = .unit m :: rest → (isHighSurrogate p.toNat && isLowSurrogate m) = false) :
    ofPieces? (.unit p.toNat :: pieces) = (ofPieces? pieces).map (p :: ·) := by
  have single {pieces : List Piece} : (do return (← CodePoint.ofNat? p.toNat) :: (← ofPieces? pieces)) =
      (ofPieces? pieces).map (p :: ·) := by
    rw [CodePoint.ofNat?_toNat]
    cases ofPieces? pieces <;> rfl
  cases pieces with
  | nil => exact single
  | cons piece rest =>
    cases piece with
    | point q => exact single
    | unit m =>
      rw [ofPieces?, alone m rest rfl]
      exact single

/-- A character above U+FFFF is read from the two units that write it. -/
theorem ofPieces?_pair {p : CodePoint} (large : ¬ p.toNat < 0x10000) (pieces : List Piece) :
    ofPieces? ((units p).map .unit ++ pieces) = (ofPieces? pieces).map (p :: ·) := by
  have bound := p.toNat_lt
  have pair : (isHighSurrogate (0xd800 + (p.toNat - 0x10000) / 0x400) &&
      isLowSurrogate (0xdc00 + (p.toNat - 0x10000) % 0x400)) = true := by
    simp [isHighSurrogate, isLowSurrogate]
    omega
  have whole : 0x10000 + (0xd800 + (p.toNat - 0x10000) / 0x400 - 0xd800) * 0x400 +
      (0xdc00 + (p.toNat - 0x10000) % 0x400 - 0xdc00) = p.toNat := by omega
  rw [units, if_neg large, List.map_cons, List.map_cons, List.map_nil, List.cons_append, List.singleton_append,
    ofPieces?, if_pos pair, whole, CodePoint.ofNat?_toNat]
  cases ofPieces? pieces <;> rfl

/-- Only a low surrogate begins with a low surrogate. -/
theorem Writes.isLow_head {q : CodePoint} {ps : List CodePoint} {m : Nat} {rest : List Piece}
    (writes : Writes (q :: ps) (.unit m :: rest)) (low : isLowSurrogate m = true) :
    isLowSurrogate q.toNat = true := by
  generalize whole : Piece.unit m :: rest = pieces at writes
  cases writes with
  | point => cases whole
  | units _ others =>
    have bound := q.toNat_lt
    unfold Text.units at whole
    split at whole
    next small =>
      cases whole
      exact low
    next large =>
      cases whole
      simp [isLowSurrogate] at low
      omega

/-- Pieces that write code points are read as them, if no two surrogates among them make a pair. -/
theorem Writes.ofPieces? {ps : List CodePoint} {pieces : List Piece} (writes : Writes ps pieces)
    (apart : areApart ps = true) : ofPieces? pieces = some ps := by
  induction writes with
  | nil => rfl
  | point p _ ih => rw [Text.ofPieces?, ih (areApart_of_cons apart), Option.map_some]
  | @units ps pieces p others ih =>
    have read := ih (areApart_of_cons apart)
    by_cases small : p.toNat < 0x10000
    · rw [units_of_small small, List.map_cons, List.map_nil, List.singleton_append, ofPieces?_unit, read,
        Option.map_some]
      rintro m rest rfl
      cases ps with
      | nil => cases others
      | cons q ps =>
        rw [areApart, Bool.and_eq_true, Bool.not_eq_true', Bool.and_eq_false_iff] at apart
        rw [Bool.and_eq_false_iff]
        refine apart.1.imp_right fun high => ?_
        rw [← Bool.not_eq_true] at high ⊢
        exact fun low => high (others.isLow_head low)
    · rw [ofPieces?_pair small, read, Option.map_some]

end Text

namespace Json

open Token

theorem pieces?_escapedUnit {n : Nat} (small : n < 0x10000) (rest : List CodePoint) :
    pieces? ((escapedUnit n).map .char ++ rest) = (pieces? rest).map (.unit n :: ·) := by
  have digits : (escapedUnit n).map CodePoint.char ++ rest = .char '\\' :: .char 'u' ::
      .char (Text.hexDigit (n / 16 / 16 / 16 % 16)) :: .char (Text.hexDigit (n / 16 / 16 % 16)) ::
      .char (Text.hexDigit (n / 16 % 16)) :: .char (Text.hexDigit (n % 16)) :: rest := rfl
  rw [digits, pieces?, Text.hexValue?_hex small]
  cases pieces? rest with
  | none => rfl
  | some pieces => rfl

theorem units_lt (p : CodePoint) : ∀ n ∈ Text.units p, n < 0x10000 := by
  have bound := p.toNat_lt
  unfold Text.units
  split
  next small => simpa using small
  next large =>
    simp only [List.forall_mem_cons]
    exact ⟨by omega, by omega, by simp⟩

theorem pieces?_escapedUnits {units : List Nat} (small : ∀ n ∈ units, n < 0x10000) (rest : List CodePoint) :
    pieces? ((units.flatMap escapedUnit).map .char ++ rest) = (pieces? rest).map (units.map .unit ++ ·) := by
  induction units with
  | nil => simp
  | cons n others ih =>
    rw [List.flatMap_cons, List.map_append, List.append_assoc, pieces?_escapedUnit (small n List.mem_cons_self),
      ih fun n member => small n (List.mem_cons_of_mem _ member), Option.map_map]
    rfl

/-- The ways in which a code point stands in a text: a character behind a backslash or as itself, or any code
point as the escapes of its units. -/
inductive QuotedAs : CodePoint → List Char → Prop where
  | escape {c letter : Char} : escaped? letter = some c → Text.IsPlain letter → QuotedAs (.char c) ['\\', letter]
  | plain {c : Char} : c ≠ '\x22' → c ≠ '\\' → 0x20 ≤ c.toNat → c.toNat < 128 → QuotedAs (.char c) [c]
  | units (p : CodePoint) : QuotedAs p (escapes p)

theorem quotedAs_quotedPoint (p : CodePoint) : QuotedAs p (quotedPoint p) := by
  cases p with
  | surrogate s => exact .units _
  | char c =>
    rw [quotedPoint]
    split
    next mark =>
      rcases (by simpa using mark : c = '\x22' ∨ c = '\\') with rfl | rfl
      · exact .escape rfl (by decide)
      · exact .escape rfl (by decide)
    next mark =>
      simp only [Bool.or_eq_true, decide_eq_true_eq, not_or] at mark
      split
      next letter => exact letter ▸ .escape rfl (by decide)
      split
      next letter => exact letter ▸ .escape rfl (by decide)
      split
      next letter => exact letter ▸ .escape rfl (by decide)
      split
      next letter => exact letter ▸ .escape rfl (by decide)
      split
      next letter => exact letter ▸ .escape rfl (by decide)
      split
      next printable =>
        simp only [Bool.and_eq_true, decide_eq_true_eq] at printable
        exact .plain mark.1 mark.2 printable.1 (by omega)
      · exact .units _

/-- What a code point is written as is read as pieces that write it, before anything else. -/
theorem pieces?_quotedAs {p : CodePoint} {written : List Char} (quoted : QuotedAs p written)
    {rest : List CodePoint} {pieces : List Text.Piece} (follows : pieces? rest = some pieces)
    {ps : List CodePoint} (writes : Text.Writes ps pieces) :
    ∃ whole, pieces? (written.map .char ++ rest) = some whole ∧ Text.Writes (p :: ps) whole := by
  cases quoted with
  | @escape c letter escapes _ =>
    have short : letter ≠ 'u' := by
      rintro rfl
      cases escapes
    refine ⟨_, ?_, .point (.char c) writes⟩
    rw [List.map_cons, List.map_cons, List.map_nil, List.cons_append, List.singleton_append, pieces?]
    · rw [escapes, follows]
      rfl
    · exact fun _ _ _ _ _ _ => short
  | @plain c _ apart printable _ =>
    have control : ¬ (CodePoint.char c).toNat < 0x20 := Nat.not_lt.mpr printable
    have other : CodePoint.char c ≠ .char '\\' := fun same => apart (CodePoint.char.inj same)
    refine ⟨_, ?_, .point (.char c) writes⟩
    rw [List.map_cons, List.map_nil, List.singleton_append, pieces?]
    · simp only [other, control, decide_false, Bool.or_false, Bool.false_eq_true, if_false, follows]
      rfl
    · exact fun _ _ _ _ _ same => absurd same other
    · exact fun _ _ same => absurd same other
  | units =>
    refine ⟨_, ?_, .units p writes⟩
    rw [escapes, pieces?_escapedUnits (units_lt p), follows]
    rfl

theorem exists_pieces_quoted (ps : List CodePoint) :
    ∃ pieces, pieces? ((ps.flatMap quotedPoint).map .char) = some pieces ∧ Text.Writes ps pieces := by
  induction ps with
  | nil => exact ⟨[], rfl, .nil⟩
  | cons p rest ih =>
    obtain ⟨pieces, follows, writes⟩ := ih
    rw [List.flatMap_cons, List.map_append]
    exact pieces?_quotedAs (quotedAs_quotedPoint p) follows writes

theorem unquoted?_quoted {t : Text} (unpaired : t.isUnpaired = true) :
    unquoted? ((t.points.flatMap quotedPoint).map .char) = some t := by
  obtain ⟨pieces, read, writes⟩ := exists_pieces_quoted t.points
  rw [unquoted?, read, Option.bind_some, writes.ofPieces? unpaired, Option.map_some, Text.ofPoints_points]

/-! ### The scanner inside a text -/

/-- One step of the scanner, on a character. -/
def Token.Scan.stepChar (s : Scan) (c : Char) : Option Scan := s.step (.char c)

/-- Characters that the scanner takes into the text that it is in, whatever came before them. -/
def StayInText (cs : List Char) : Prop :=
  ∀ tokens held, cs.foldlM Scan.stepChar ⟨tokens, .text held⟩ =
    some ⟨tokens, .text ((cs.map .char).reverse ++ held)⟩

theorem StayInText.append {first second : List Char} (stays : StayInText first)
    (staysToo : StayInText second) : StayInText (first ++ second) := by
  intro tokens held
  rw [List.foldlM_append, stays]
  simp [staysToo tokens]

theorem StayInText.flatMap {α : Type} {f : α → List Char} {list : List α}
    (stay : ∀ a ∈ list, StayInText (f a)) : StayInText (list.flatMap f) := by
  induction list with
  | nil => exact fun _ _ => rfl
  | cons a rest ih =>
    rw [List.flatMap_cons]
    exact (stay a List.mem_cons_self).append (ih fun b member => stay b (List.mem_cons_of_mem _ member))

theorem stayInText_singleton {c : Char} (open_ : c ≠ '\x22') (apart : c ≠ '\\') : StayInText [c] := by
  intro tokens held
  simp [Scan.stepChar, Scan.step, open_, apart]

theorem stayInText_escape (c : Char) : StayInText ['\\', c] := by
  intro tokens held
  rfl

theorem stayInText_escapedUnit (n : Nat) : StayInText (escapedUnit n) := by
  have digit (d : Nat) (small : d < 16) : StayInText [Text.hexDigit d] :=
    stayInText_singleton (Text.hexDigit_ne_quote d small).1 (Text.hexDigit_ne_quote d small).2
  have pieces : escapedUnit n = ['\\', 'u'] ++ ([Text.hexDigit (n / 16 / 16 / 16 % 16)] ++
      ([Text.hexDigit (n / 16 / 16 % 16)] ++
        ([Text.hexDigit (n / 16 % 16)] ++ [Text.hexDigit (n % 16)]))) := rfl
  rw [pieces]
  exact (stayInText_escape 'u').append ((digit _ (by omega)).append ((digit _ (by omega)).append
    ((digit _ (by omega)).append (digit _ (by omega)))))

theorem stayInText_quotedAs {p : CodePoint} {written : List Char} (quoted : QuotedAs p written) :
    StayInText written := by
  cases quoted with
  | escape => exact stayInText_escape _
  | plain open_ apart => exact stayInText_singleton open_ apart
  | units => exact .flatMap fun n _ => stayInText_escapedUnit n

/-- The scanner reads a quoted text as one token. -/
theorem scan_quotedText {t : Text} (unpaired : t.isUnpaired = true) (tokens : List Token) :
    (quotedText t).foldlM Scan.stepChar ⟨tokens, .nothing⟩ = some ⟨.text t :: tokens, .nothing⟩ := by
  have inside : StayInText (t.points.flatMap quotedPoint) :=
    .flatMap fun p _ => stayInText_quotedAs (quotedAs_quotedPoint p)
  have opened : Scan.stepChar ⟨tokens, .nothing⟩ '\x22' = some ⟨tokens, .text []⟩ := rfl
  rw [quotedText, List.cons_append, List.foldlM_cons, opened, Option.bind_eq_bind, Option.bind_some,
    List.foldlM_append, inside, Option.bind_eq_bind, Option.bind_some, List.foldlM_cons]
  simp [Scan.stepChar, Scan.step, unquoted?_quoted unpaired]

/-! ### ASCII -/

theorem isPlain_escapedUnit (n : Nat) : ∀ c ∈ escapedUnit n, Text.IsPlain c := by
  have digits : escapedUnit n = ['\\', 'u', Text.hexDigit (n / 16 / 16 / 16 % 16),
      Text.hexDigit (n / 16 / 16 % 16), Text.hexDigit (n / 16 % 16), Text.hexDigit (n % 16)] := rfl
  have digit (d : Nat) : Text.IsPlain (Text.hexDigit (d % 16)) :=
    Text.isPlain_hexDigit (d % 16) (Nat.mod_lt d (by decide))
  rw [digits]
  simp only [List.forall_mem_cons]
  exact ⟨by decide, by decide, digit _, digit _, digit _, digit _, by simp⟩

theorem isPlain_quotedAs {p : CodePoint} {written : List Char} (quoted : QuotedAs p written) :
    ∀ d ∈ written, Text.IsPlain d := by
  cases quoted with
  | escape _ plain =>
    simp only [List.forall_mem_cons]
    exact ⟨by decide, plain, by simp⟩
  | plain _ _ printable small =>
    simp only [List.forall_mem_cons]
    exact ⟨⟨by omega, small⟩, by simp⟩
  | units =>
    intro d member
    obtain ⟨n, -, held⟩ := List.mem_flatMap.mp member
    exact isPlain_escapedUnit n d held

theorem isPlain_quotedText (t : Text) : ∀ c ∈ quotedText t, Text.IsPlain c := by
  intro c member
  simp only [quotedText, List.cons_append, List.mem_cons, List.mem_append, List.mem_flatMap,
    List.not_mem_nil, or_false] at member
  rcases member with rfl | ⟨p, -, held⟩ | rfl
  · decide
  · exact isPlain_quotedAs (quotedAs_quotedPoint p) c held
  · decide

end Json
end WorkloadAdmission
