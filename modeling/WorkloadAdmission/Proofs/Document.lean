import WorkloadAdmission.Json.Reader
import WorkloadAdmission.Proofs.Fields
import WorkloadAdmission.Proofs.Literal
import WorkloadAdmission.Proofs.Notation

/-! A document is read as the value that it was written from. Two things stand between them: the
scanner finds the tokens of the value again, since each one ends where the next begins, and from these
the reader builds the value, since no field of an object has the name of another one. -/
namespace WorkloadAdmission.Json

open Number

/-! ### Values that can be read back -/

mutual

/-- Whether the fields of every object have distinct names and no integer is too long. -/
def isRegular : Json → Bool
  | .int n => decimalLength n.natAbs ≤ maxDigits
  | .arr items => areRegular items
  | .obj fields => decide (fields.map Prod.fst).Nodup && haveRegular fields
  | _ => true

def areRegular : List Json → Bool
  | [] => true
  | v :: rest => v.isRegular && areRegular rest

def haveRegular : List (Text × Json) → Bool
  | [] => true
  | (_, v) :: rest => v.isRegular && haveRegular rest

end

theorem areRegular_iff {items : List Json} : areRegular items = true ↔ ∀ v ∈ items, v.isRegular = true := by
  induction items with
  | nil => simp [areRegular]
  | cons v rest ih => rw [areRegular, Bool.and_eq_true, ih, List.forall_mem_cons]

theorem haveRegular_iff {fields : Fields Json} :
    haveRegular fields = true ↔ ∀ field ∈ fields, field.2.isRegular = true := by
  induction fields with
  | nil => simp [haveRegular]
  | cons field rest ih =>
    obtain ⟨key, v⟩ := field
    rw [haveRegular, Bool.and_eq_true, ih, List.forall_mem_cons]

mutual

/-- Whether no text in a value, at any depth, has a high surrogate directly before a low one. -/
def isUnpaired : Json → Bool
  | .str s => s.isUnpaired
  | .arr items => areUnpaired items
  | .obj fields => haveUnpaired fields
  | _ => true

def areUnpaired : List Json → Bool
  | [] => true
  | v :: rest => v.isUnpaired && areUnpaired rest

def haveUnpaired : List (Text × Json) → Bool
  | [] => true
  | (key, v) :: rest => key.isUnpaired && v.isUnpaired && haveUnpaired rest

end

theorem areUnpaired_iff {items : List Json} : areUnpaired items = true ↔ ∀ v ∈ items, v.isUnpaired = true := by
  induction items with
  | nil => simp [areUnpaired]
  | cons v rest ih => rw [areUnpaired, Bool.and_eq_true, ih, List.forall_mem_cons]

theorem haveUnpaired_iff {fields : Fields Json} : haveUnpaired fields = true ↔
    ∀ field ∈ fields, field.1.isUnpaired = true ∧ field.2.isUnpaired = true := by
  induction fields with
  | nil => simp [haveUnpaired]
  | cons field rest ih =>
    obtain ⟨key, v⟩ := field
    rw [haveUnpaired, Bool.and_eq_true, Bool.and_eq_true, ih, List.forall_mem_cons]

theorem induct {P : Json → Prop} (null : P .null) (bool : ∀ b, P (.bool b)) (int : ∀ n, P (.int n))
    (float : ∀ x, P (.float x)) (str : ∀ s, P (.str s))
    (arr : ∀ items, (∀ v ∈ items, P v) → P (.arr items))
    (obj : ∀ fields, (∀ field ∈ fields, P field.2) → P (.obj fields)) (v : Json) : P v := by
  refine @Json.rec P (fun items => ∀ v ∈ items, P v) (fun fields => ∀ field ∈ fields, P field.2)
    (fun field => P field.2) null bool int float str arr obj ?_ ?_ ?_ ?_ ?_ v
  · simp
  · intro v rest here there
    exact List.forall_mem_cons.mpr ⟨here, there⟩
  · simp
  · intro field rest here there
    exact List.forall_mem_cons.mpr ⟨here, there⟩
  · intro key v here
    exact here

/-! ### Tokens -/

mutual

/-- The tokens of a value, in the order in which they are written. -/
def tokens : Json → List Token
  | .str s => [.text s]
  | .arr items => .beginArray :: itemTokens items ++ [.endArray]
  | .obj fields => .beginObject :: fieldTokens fields ++ [.endObject]
  | v => [.scalar v]

def itemTokens : List Json → List Token
  | [] => []
  | [v] => v.tokens
  | v :: rest => v.tokens ++ .comma :: itemTokens rest

def fieldTokens : List (Text × Json) → List Token
  | [] => []
  | [(k, v)] => .text k :: .colon :: v.tokens
  | (k, v) :: rest => .text k :: .colon :: v.tokens ++ .comma :: fieldTokens rest

end

/-! ### Scanning -/

namespace Token

/-- The tokens of a document of which some have been read and the rest is left. -/
def scanned? (reversed : List Token) (rest : List Char) : Option (List Token) :=
  (rest.foldlM Scan.stepChar ⟨reversed, .nothing⟩).bind Scan.finish?

/-- Whether a number or a name may end before the rest of a document. -/
def EndsAtom (rest : List Char) : Prop := ∀ c ∈ rest.head?, Scan.endsAtom c = true

/-- Characters that can stand in a number or a name. -/
def IsAtomChar (c : Char) : Prop := Scan.endsAtom c = false ∧ Text.IsPlain c

instance (c : Char) : Decidable (IsAtomChar c) := inferInstanceAs (Decidable (_ ∧ _))

theorem scanned?_punctuation {c : Char} {token : Token} (punctuates : punctuation? c = some token)
    (apart : isSpace c = false ∧ c ≠ '\x22') (reversed : List Token) (rest : List Char) :
    scanned? reversed (c :: rest) = scanned? (token :: reversed) rest := by
  simp [scanned?, Scan.stepChar, CodePoint.char?, Scan.step, Scan.between, apart, punctuates]

theorem scanned?_space (reversed : List Token) (rest : List Char) :
    scanned? reversed (' ' :: rest) = scanned? reversed rest := rfl

theorem scanned?_text {t : Text} (unpaired : t.isUnpaired = true) (reversed : List Token) (rest : List Char) :
    scanned? reversed (quotedText t ++ rest) = scanned? (.text t :: reversed) rest := by
  rw [scanned?, List.foldlM_append, scan_quotedText unpaired]
  rfl

theorem scan_atomChars {cs held : List Char} (inside : ∀ c ∈ cs, IsAtomChar c) (reversed : List Token) :
    cs.foldlM Scan.stepChar ⟨reversed, .atom held⟩ = some ⟨reversed, .atom (cs.reverse ++ held)⟩ := by
  induction cs generalizing held with
  | nil => rfl
  | cons c rest ih =>
    obtain ⟨⟨goesOn, -⟩, others⟩ := List.forall_mem_cons.mp inside
    have step : Scan.stepChar ⟨reversed, .atom held⟩ c = some ⟨reversed, .atom (c :: held)⟩ := by
      simp [Scan.stepChar, CodePoint.char?, Scan.step, goesOn]
    rw [List.foldlM_cons, step, Option.bind_eq_bind, Option.bind_some, ih others]
    simp

/-- A number or a name is read as one token, once something ends it. -/
theorem scanned?_atom {cs rest : List Char} {v : Json} (inside : ∀ c ∈ cs, IsAtomChar c)
    (read : atom? cs = some v) (ends : EndsAtom rest) (reversed : List Token) :
    scanned? reversed (cs ++ rest) = scanned? (.scalar v :: reversed) rest := by
  cases cs with
  | nil =>
    have nothing : atom? [] = none := by decide
    rw [nothing] at read
    cases read
  | cons c others =>
    obtain ⟨⟨goesOn, -⟩, inside⟩ := List.forall_mem_cons.mp inside
    have begins : Scan.stepChar ⟨reversed, .nothing⟩ c = some ⟨reversed, .atom [c]⟩ := by
      simp only [Scan.endsAtom, Bool.or_eq_false_iff, decide_eq_false_iff_not,
        Option.isSome_eq_false_iff, Option.isNone_iff_eq_none] at goesOn
      simp [Scan.stepChar, CodePoint.char?, Scan.step, Scan.between, goesOn]
    have whole : (others.reverse ++ [c]).reverse = c :: others := by simp
    rw [scanned?, List.cons_append, List.foldlM_cons, begins, Option.bind_eq_bind, Option.bind_some,
      List.foldlM_append, scan_atomChars inside, Option.bind_eq_bind, Option.bind_some]
    cases rest with
    | nil => simp [scanned?, Scan.finish?, whole, read]
    | cons d more =>
      have ended : Scan.endsAtom d = true := ends d rfl
      simp [scanned?, Scan.stepChar, CodePoint.char?, Scan.step, ended, whole, read]

theorem isAtomChar_digit : ∀ d < 10, IsAtomChar (Char.ofNat (0x30 + d)) := by decide

theorem isAtomChar_of_all {cs : List Char} (all : cs.all (fun c => decide (IsAtomChar c)) = true) :
    ∀ c ∈ cs, IsAtomChar c :=
  fun c member => of_decide_eq_true (List.all_eq_true.mp all c member)

theorem isAtomChar_of_isNumeralChar {c : Char} (numeral : IsNumeralChar c) : IsAtomChar c := by
  rcases numeral with digit | sign
  · have range := Text.digit_range digit
    have same : Char.ofNat (0x30 + (c.toNat - 0x30)) = c := by
      rw [Nat.add_sub_cancel' range.1, Char.ofNat_toNat]
    exact same ▸ isAtomChar_digit (c.toNat - 0x30) (by omega)
  · exact isAtomChar_of_all (by decide) c sign

/-! ### Values -/

/-- A text that is scanned into some tokens wherever it stands, if something ends it. -/
def Scans (cs : List Char) (ts : List Token) : Prop :=
  ∀ reversed rest, EndsAtom rest → scanned? reversed (cs ++ rest) = scanned? (ts.reverse ++ reversed) rest

theorem scans_atom {cs : List Char} {v : Json} (inside : ∀ c ∈ cs, IsAtomChar c)
    (read : atom? cs = some v) : Scans cs [.scalar v] :=
  fun reversed _ ends => scanned?_atom inside read ends reversed

theorem scans_text {t : Text} (unpaired : t.isUnpaired = true) : Scans (quotedText t) [.text t] :=
  fun reversed rest _ => scanned?_text unpaired reversed rest

theorem Scans.enclosed {cs : List Char} {ts : List Token} {first last : Char} {opening closing : Token}
    (scans : Scans cs ts) (opens : punctuation? first = some opening)
    (closes : punctuation? last = some closing)
    (apart : (isSpace first = false ∧ first ≠ '\x22') ∧ (isSpace last = false ∧ last ≠ '\x22')) :
    Scans (first :: cs ++ [last]) (opening :: ts ++ [closing]) := by
  intro reversed rest _
  have ends : EndsAtom (last :: rest) := by
    simp [EndsAtom, Scan.endsAtom, closes]
  have whole : first :: cs ++ [last] ++ rest = first :: (cs ++ last :: rest) := by simp
  rw [whole, scanned?_punctuation opens apart.1, scans _ _ ends, scanned?_punctuation closes apart.2]
  simp

theorem endsAtom_comma (rest : List Char) : EndsAtom (',' :: rest) := by
  simp [EndsAtom, Scan.endsAtom, punctuation?]

/-- A text, a comma with a space, and another text are scanned one after the other. -/
theorem Scans.comma {first second : List Char} {ts ts' : List Token} (scans : Scans first ts)
    (scansToo : Scans second ts') : Scans (first ++ ',' :: ' ' :: second) (ts ++ .comma :: ts') := by
  intro reversed rest ends
  have whole : first ++ ',' :: ' ' :: second ++ rest = first ++ ',' :: ' ' :: (second ++ rest) := by simp
  rw [whole, scans _ _ (endsAtom_comma _), scanned?_punctuation rfl (by decide), scanned?_space,
    scansToo _ _ ends]
  simp

theorem Scans.field {cs : List Char} {ts : List Token} {key : Text} (unpaired : key.isUnpaired = true)
    (scans : Scans cs ts) :
    Scans (quotedText key ++ ':' :: ' ' :: cs) (.text key :: .colon :: ts) := by
  intro reversed rest ends
  have whole : quotedText key ++ ':' :: ' ' :: cs ++ rest = quotedText key ++ ':' :: ' ' :: (cs ++ rest) := by
    simp
  rw [whole, scanned?_text unpaired, scanned?_punctuation rfl (by decide), scanned?_space, scans _ _ ends]
  simp

theorem scans_itemChars {items : List Json} (each : ∀ v ∈ items, Scans v.chars v.tokens) :
    Scans (itemChars items) (itemTokens items) := by
  induction items with
  | nil => exact fun _ _ _ => rfl
  | cons v rest ih =>
    obtain ⟨here, there⟩ := List.forall_mem_cons.mp each
    cases rest with
    | nil => exact here
    | cons next others => exact here.comma (ih there)

theorem scans_fieldChars {fields : Fields Json}
    (each : ∀ field ∈ fields, field.1.isUnpaired = true ∧ Scans field.2.chars field.2.tokens) :
    Scans (fieldChars fields) (fieldTokens fields) := by
  induction fields with
  | nil => exact fun _ _ _ => rfl
  | cons field rest ih =>
    obtain ⟨key, v⟩ := field
    obtain ⟨⟨unpaired, here⟩, there⟩ := List.forall_mem_cons.mp each
    cases rest with
    | nil => exact .field unpaired here
    | cons next others => exact (Scans.field unpaired here).comma (ih there)

end Token

/-- The tokens of a value are found in its text, whatever stands around it. -/
theorem scans_chars {v : Json} (regular : v.isRegular = true) (unpaired : v.isUnpaired = true) :
    Token.Scans v.chars v.tokens := by
  induction v using induct with
  | null => exact Token.scans_atom (Token.isAtomChar_of_all (by decide)) (by decide)
  | bool b =>
    cases b with
    | true => exact Token.scans_atom (Token.isAtomChar_of_all (by decide)) (by decide)
    | false => exact Token.scans_atom (Token.isAtomChar_of_all (by decide)) (by decide)
  | int n =>
    have short : decimalLength n.natAbs ≤ maxDigits := of_decide_eq_true regular
    refine Token.scans_atom ?_ (atom?_int short)
    intro c member
    exact Token.isAtomChar_of_isNumeralChar (isNumeralChar_intText n c member)
  | float x =>
    cases x with
    | finite negative index =>
      refine Token.scans_atom ?_ (atom?_float negative index)
      intro c member
      exact Token.isAtomChar_of_isNumeralChar (isNumeralChar_floatText negative index c member)
    | infinite negative =>
      cases negative with
      | true => exact Token.scans_atom (Token.isAtomChar_of_all (by decide)) (by decide)
      | false => exact Token.scans_atom (Token.isAtomChar_of_all (by decide)) (by decide)
    | nan => exact Token.scans_atom (Token.isAtomChar_of_all (by decide)) (by decide)
  | str s => exact Token.scans_text unpaired
  | arr items ih =>
    have each := areRegular_iff.mp regular
    have eachToo := areUnpaired_iff.mp unpaired
    exact (Token.scans_itemChars fun v member => ih v member (each v member) (eachToo v member)).enclosed
      rfl rfl (by decide)
  | obj fields ih =>
    rw [isRegular, Bool.and_eq_true, haveRegular_iff] at regular
    have eachToo := haveUnpaired_iff.mp unpaired
    have each (field : Text × Json) (member : field ∈ fields) :
        field.1.isUnpaired = true ∧ Token.Scans field.2.chars field.2.tokens :=
      ⟨(eachToo field member).1, ih field member (regular.2 field member) (eachToo field member).2⟩
    exact (Token.scans_fieldChars each).enclosed rfl rfl (by decide)

theorem ofPoints?_tokens {v : Json} (regular : v.isRegular = true) (unpaired : v.isUnpaired = true) :
    Token.ofPoints? (v.chars.map .char) = some v.tokens := by
  have ends : Token.EndsAtom [] := by simp [Token.EndsAtom]
  have scanned := scans_chars regular unpaired [] [] ends
  rw [List.append_nil, List.append_nil] at scanned
  calc Token.ofPoints? (v.chars.map .char) = Token.scanned? [] v.chars := by
        rw [Token.ofPoints?, List.foldlM_map]
        rfl
    _ = Token.scanned? v.tokens.reverse [] := scanned
    _ = some v.tokens := by simp [Token.scanned?, Token.Scan.finish?]

/-! ### Reading -/

namespace Reading

/-- The first token of a value in an array does what it does anywhere else. -/
theorem step_item (frames : List Frame) {token : Token} (apart : token ≠ .endArray) :
    step ⟨frames, .item⟩ token = step ⟨.array [] :: frames, .value⟩ token := by
  cases token <;> first | rfl | exact absurd rfl apart

/-- Tokens from which the reader builds a value, whatever is open around it. -/
def Builds (ts : List Token) (v : Json) : Prop :=
  ∀ frames, ts.foldlM step ⟨frames, .value⟩ = some ⟨frames, .complete v⟩

theorem exists_itemTokens_eq_cons (v : Json) (rest : List Json) :
    ∃ token others, itemTokens (v :: rest) = token :: others ∧ token ≠ .endArray := by
  cases rest with
  | nil => cases v <;> exact ⟨_, _, rfl, by simp⟩
  | cons next others => cases v <;> exact ⟨_, _, rfl, by simp⟩

theorem foldlM_items {items done : List Json} (each : ∀ v ∈ items, Builds v.tokens v) (some : items ≠ [])
    (frames : List Frame) :
    (itemTokens items ++ [Token.endArray]).foldlM step ⟨.array done :: frames, .value⟩ =
      .some ⟨frames, .complete (.arr (done.reverse ++ items))⟩ := by
  induction items generalizing done with
  | nil => exact absurd rfl some
  | cons v rest ih =>
    obtain ⟨here, there⟩ := List.forall_mem_cons.mp each
    cases rest with
    | nil =>
      rw [itemTokens, List.foldlM_append, here]
      simp [step, close?]
    | cons next others =>
      have split : itemTokens (v :: next :: others) ++ [Token.endArray] =
          v.tokens ++ .comma :: (itemTokens (next :: others) ++ [Token.endArray]) := by
        simp [itemTokens]
      have between : step ⟨.array done :: frames, .complete v⟩ .comma =
        .some ⟨.array (v :: done) :: frames, .value⟩ := rfl
      rw [split, List.foldlM_append, here, Option.bind_eq_bind, Option.bind_some, List.foldlM_cons, between,
        Option.bind_eq_bind, Option.bind_some, ih there (by simp)]
      simp

theorem builds_arr {items : List Json} (each : ∀ v ∈ items, Builds v.tokens v) :
    Builds (Json.arr items).tokens (.arr items) := by
  intro frames
  cases items with
  | nil => rfl
  | cons v rest =>
    obtain ⟨token, others, front, apart⟩ := exists_itemTokens_eq_cons v rest
    have whole : (itemTokens (v :: rest) ++ [Token.endArray]).foldlM step ⟨.array [] :: frames, .value⟩ =
        some ⟨frames, .complete (.arr (v :: rest))⟩ := foldlM_items each (by simp) frames
    have opens : step ⟨frames, .value⟩ .beginArray = some ⟨frames, .item⟩ := rfl
    rw [front, List.cons_append, List.foldlM_cons, ← step_item frames apart] at whole
    rw [tokens, front, List.cons_append, List.foldlM_cons, opens, Option.bind_eq_bind, Option.bind_some,
      List.cons_append, List.foldlM_cons, whole]

theorem foldlM_fields {fields done : Fields Json} (each : ∀ field ∈ fields, Builds field.2.tokens field.2)
    (some : fields ≠ []) (distinct : ((done ++ fields).map Prod.fst).Nodup) (frames : List Frame)
    (opened : Bool) :
    (fieldTokens fields ++ [Token.endObject]).foldlM step ⟨frames, .key done opened⟩ =
      .some ⟨frames, .complete (.obj (done ++ fields))⟩ := by
  induction fields generalizing done opened with
  | nil => exact absurd rfl some
  | cons field rest ih =>
    obtain ⟨key, v⟩ := field
    obtain ⟨here, there⟩ := List.forall_mem_cons.mp each
    have fresh : key ∉ done.map Prod.fst := by
      intro member
      rw [List.map_append, List.nodup_append] at distinct
      exact distinct.2.2 key member key List.mem_cons_self rfl
    have name : step ⟨frames, .key done opened⟩ (.text key) = .some ⟨frames, .colon done key⟩ := by
      cases opened <;> rfl
    have colon : step ⟨frames, .colon done key⟩ .colon = .some ⟨.object done key :: frames, .value⟩ := rfl
    have built (frames : List Frame) : v.tokens.foldlM step ⟨frames, .value⟩ = .some ⟨frames, .complete v⟩ :=
      here frames
    cases rest with
    | nil =>
      rw [fieldTokens, List.cons_append, List.foldlM_cons, name, Option.bind_eq_bind, Option.bind_some,
        List.cons_append, List.foldlM_cons, colon, Option.bind_eq_bind, Option.bind_some,
        List.foldlM_append, built]
      simp [step, close?, Fields.insert_of_not_mem fresh]
    | cons next others =>
      have split : fieldTokens ((key, v) :: next :: others) ++ [Token.endObject] =
          .text key :: .colon ::
            (v.tokens ++ .comma :: (fieldTokens (next :: others) ++ [Token.endObject])) := by
        simp [fieldTokens]
      have between : step ⟨.object done key :: frames, .complete v⟩ .comma =
          .some ⟨frames, .key (done ++ [(key, v)]) false⟩ := by
        simp [step, close?, Fields.insert_of_not_mem fresh]
      rw [split, List.foldlM_cons, name, Option.bind_eq_bind, Option.bind_some, List.foldlM_cons, colon,
        Option.bind_eq_bind, Option.bind_some, List.foldlM_append, built, Option.bind_eq_bind,
        Option.bind_some, List.foldlM_cons, between, Option.bind_eq_bind, Option.bind_some,
        ih there (by simp) (by simpa using distinct)]
      simp

theorem builds_obj {fields : Fields Json} (each : ∀ field ∈ fields, Builds field.2.tokens field.2)
    (distinct : (fields.map Prod.fst).Nodup) : Builds (Json.obj fields).tokens (.obj fields) := by
  intro frames
  cases fields with
  | nil => rfl
  | cons field rest =>
    have opens : step ⟨frames, .value⟩ .beginObject = some ⟨frames, .key [] true⟩ := rfl
    rw [tokens, List.cons_append, List.foldlM_cons, opens, Option.bind_eq_bind, Option.bind_some]
    exact foldlM_fields each (by simp) distinct frames true

end Reading

/-- The reader builds a value from its tokens. -/
theorem builds_tokens {v : Json} (regular : v.isRegular = true) : Reading.Builds v.tokens v := by
  induction v using induct with
  | null | bool | int | float | str => exact fun _ => rfl
  | arr items ih =>
    have each := areRegular_iff.mp regular
    exact Reading.builds_arr fun v member => ih v member (each v member)
  | obj fields ih =>
    rw [isRegular, Bool.and_eq_true, decide_eq_true_eq, haveRegular_iff] at regular
    exact Reading.builds_obj (fun field member => ih field member (regular.2 field member)) regular.1

/-- A written value is read back as it was, with the order of its fields. -/
theorem ofPoints?_chars {v : Json} (regular : v.isRegular = true) (unpaired : v.isUnpaired = true) :
    ofPoints? (v.chars.map .char) = some v := by
  rw [ofPoints?, ofPoints?_tokens regular unpaired, Option.bind_some, ofTokens?, Reading.start, builds_tokens regular]
  rfl

/-! ### Bytes -/

theorem isPlain_itemChars {items : List Json} (each : ∀ v ∈ items, ∀ c ∈ v.chars, Text.IsPlain c) :
    ∀ c ∈ itemChars items, Text.IsPlain c := by
  induction items with
  | nil => simp [itemChars]
  | cons v rest ih =>
    obtain ⟨here, there⟩ := List.forall_mem_cons.mp each
    cases rest with
    | nil => exact here
    | cons next others =>
      simp only [itemChars, List.forall_mem_append, List.forall_mem_cons]
      exact ⟨here, by decide, by decide, ih there⟩

theorem isPlain_fieldChars {fields : Fields Json}
    (each : ∀ field ∈ fields, ∀ c ∈ field.2.chars, Text.IsPlain c) :
    ∀ c ∈ fieldChars fields, Text.IsPlain c := by
  induction fields with
  | nil => simp [fieldChars]
  | cons field rest ih =>
    obtain ⟨key, v⟩ := field
    obtain ⟨here, there⟩ := List.forall_mem_cons.mp each
    cases rest with
    | nil =>
      simp only [fieldChars, List.forall_mem_append, List.forall_mem_cons]
      exact ⟨isPlain_quotedText key, by decide, by decide, here⟩
    | cons next others =>
      simp only [fieldChars, List.forall_mem_append, List.forall_mem_cons]
      exact ⟨⟨isPlain_quotedText key, by decide, by decide, here⟩, by decide, by decide, ih there⟩

theorem isPlain_name {cs : List Char} (all : cs.all (fun c => decide (Token.IsAtomChar c)) = true) :
    ∀ c ∈ cs, Text.IsPlain c :=
  fun c member => (Token.isAtomChar_of_all all c member).2

theorem isPlain_chars (v : Json) : ∀ c ∈ v.chars, Text.IsPlain c := by
  induction v using induct with
  | null => exact isPlain_name (by decide)
  | bool b =>
    cases b with
    | true => exact isPlain_name (by decide)
    | false => exact isPlain_name (by decide)
  | int n =>
    intro c member
    exact (Token.isAtomChar_of_isNumeralChar (isNumeralChar_intText n c member)).2
  | float x =>
    cases x with
    | finite negative index =>
      intro c member
      exact (Token.isAtomChar_of_isNumeralChar (isNumeralChar_floatText negative index c member)).2
    | infinite negative =>
      cases negative with
      | true => exact isPlain_name (by decide)
      | false => exact isPlain_name (by decide)
    | nan => exact isPlain_name (by decide)
  | str s => exact isPlain_quotedText s
  | arr items ih =>
    simp only [chars, List.cons_append, List.forall_mem_cons, List.forall_mem_append]
    exact ⟨by decide, isPlain_itemChars ih, by decide, by simp⟩
  | obj fields ih =>
    simp only [chars, List.cons_append, List.forall_mem_cons, List.forall_mem_append]
    exact ⟨by decide, isPlain_fieldChars ih, by decide, by simp⟩

/-- The bytes of a document are ASCII, and are read back as the value that was written. -/
theorem ofBytes?_render {v : Json} (regular : v.isRegular = true) (unpaired : v.isUnpaired = true) :
    ofBytes? v.render.toUTF8 = some v := by
  have plain : ∀ c ∈ v.render.toList, Text.IsPlain c := by
    rw [render, String.toList_ofList]
    exact isPlain_chars v
  rw [ofBytes?, Text.decode?_toUTF8 plain, Option.bind_some, render, String.toList_ofList,
    ofPoints?_chars regular unpaired]

end WorkloadAdmission.Json
