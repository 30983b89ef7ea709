import Mathlib.Data.List.Basic
import Mathlib.Data.Option.Basic
import WorkloadAdmission.Base64
import WorkloadAdmission.Text.Encoding

/-! Texts on their way through bytes. Base64 is read back as the bytes that it was made of, whatever
their number. In UTF-8 each code point has one form, a lone surrogate among them, and bytes are read
exactly if they are such forms, one after the other. So a text of ASCII characters other than the zero
character, which shows no other encoding, is read as what it was. -/
namespace WorkloadAdmission

theorem toByteArray_toList (bytes : ByteArray) : bytes.data.toList.toByteArray = bytes := by
  ext1
  rw [List.data_toByteArray, Array.toArray_toList]

namespace Base64

theorem value?_symbol : ∀ n < 64, value? (symbol n) = some n := by decide

theorem symbol_ne_pad : ∀ n < 64, symbol n ≠ '=' := by decide

theorem toUInt8_eq (byte : UInt8) {n : Nat} (same : n = byte.toNat) : n.toUInt8 = byte := by
  rw [same]
  exact UInt8.ofNat_toNat

/-- A group whose last character is no padding stands for three bytes. -/
theorem decodeChars?_group {a b c d : Char} {x y z w : Nat} (rest : List Char) (unpadded : d ≠ '=')
    (first : value? a = some x) (second : value? b = some y) (third : value? c = some z)
    (fourth : value? d = some w) :
    decodeChars? (a :: b :: c :: d :: rest) = (decodeChars? rest).map fun bytes =>
      (x * 4 + y / 16).toUInt8 :: (y % 16 * 16 + z / 4).toUInt8 :: (z % 4 * 64 + w).toUInt8 :: bytes := by
  rw [decodeChars?]
  · simp only [first, second, third, fourth]
    cases decodeChars? rest with
    | none => rfl
    | some bytes => rfl
  · rintro - rfl
    exact absurd rfl unpadded
  · rintro rfl
    exact absurd rfl unpadded

theorem decodeChars?_encodeChars (bytes : List UInt8) : decodeChars? (encodeChars bytes) = some bytes := by
  fun_induction encodeChars bytes with
  | case1 => rfl
  | case2 a =>
    have bound := a.toNat_lt
    have filled : a.toNat % 4 * 16 % 16 = 0 := by omega
    have same : (a.toNat / 4 * 4 + a.toNat % 4 * 16 / 16).toUInt8 = a := toUInt8_eq _ (by omega)
    simp only [decodeChars?, value?_symbol (a.toNat / 4) (by omega),
      value?_symbol (a.toNat % 4 * 16) (by omega), Option.bind_eq_bind, Option.bind_some, guard,
      filled, same]
    rfl
  | case3 a b =>
    have bounds := And.intro a.toNat_lt b.toNat_lt
    have filled : b.toNat % 16 * 4 % 4 = 0 := by omega
    have same : (a.toNat / 4 * 4 + (a.toNat % 4 * 16 + b.toNat / 16) / 16).toUInt8 = a :=
      toUInt8_eq _ (by omega)
    have sameToo : ((a.toNat % 4 * 16 + b.toNat / 16) % 16 * 16 + b.toNat % 16 * 4 / 4).toUInt8 = b :=
      toUInt8_eq _ (by omega)
    rw [decodeChars?]
    · simp only [value?_symbol (a.toNat / 4) (by omega),
        value?_symbol (a.toNat % 4 * 16 + b.toNat / 16) (by omega),
        value?_symbol (b.toNat % 16 * 4) (by omega), Option.bind_eq_bind, Option.bind_some, guard,
        filled, same, sameToo]
      rfl
    · exact symbol_ne_pad (b.toNat % 16 * 4) (by omega)
  | case4 a b c rest ih =>
    have bounds := And.intro a.toNat_lt (And.intro b.toNat_lt c.toNat_lt)
    rw [decodeChars?_group _ (symbol_ne_pad _ (by omega)) (value?_symbol _ (by omega))
      (value?_symbol _ (by omega)) (value?_symbol _ (by omega)) (value?_symbol _ (by omega)), ih,
      Option.map_some]
    congr
    · exact toUInt8_eq _ (by omega)
    · exact toUInt8_eq _ (by omega)
    · exact toUInt8_eq _ (by omega)

theorem decode?_encode (bytes : ByteArray) : decode? (encode bytes) = some bytes := by
  rw [decode?, encode, String.toList_ofList, decodeChars?_encodeChars, Option.map_some,
    toByteArray_toList]

end Base64

/-! ### UTF-8 -/

namespace CodePoint

/-- The bytes that write a code point, by its number. -/
def utf8 (p : CodePoint) : List UInt8 :=
  let n := p.toNat
  if n < 0x80 then [n.toUInt8]
  else if n < 0x800 then [(0xc0 + n / 0x40).toUInt8, (0x80 + n % 0x40).toUInt8]
  else if n < 0x10000 then
    [(0xe0 + n / 0x1000).toUInt8, (0x80 + n / 0x40 % 0x40).toUInt8, (0x80 + n % 0x40).toUInt8]
  else
    [(0xf0 + n / 0x40000).toUInt8, (0x80 + n / 0x1000 % 0x40).toUInt8, (0x80 + n / 0x40 % 0x40).toUInt8,
      (0x80 + n % 0x40).toUInt8]

theorem toNat_lt (p : CodePoint) : p.toNat < 0x110000 := by
  cases p with
  | char c =>
    have valid : c.toNat < 0xd800 ∨ (0xdfff < c.toNat ∧ c.toNat < 0x110000) := c.valid
    simp only [toNat]
    omega
  | surrogate s =>
    have bound := s.isLt
    simp only [toNat]
    omega

theorem toNat_of_ofNat? {n : Nat} {p : CodePoint} (named : ofNat? n = some p) : p.toNat = n := by
  by_cases valid : n.isValidChar
  · rw [ofNat?, dif_pos valid] at named
    cases named
    rfl
  by_cases within : 0xd800 ≤ n ∧ n < 0xe000
  · rw [ofNat?, dif_neg valid, dif_pos within] at named
    cases named
    simp only [toNat]
    omega
  · rw [ofNat?, dif_neg valid, dif_neg within] at named
    cases named

theorem utf8_char (c : Char) : (char c).utf8 = String.utf8EncodeChar c := by
  have bound : c.val.toNat < 0x110000 := (char c).toNat_lt
  have number : (char c).toNat = c.val.toNat := rfl
  simp only [utf8, number, String.utf8EncodeChar]
  generalize c.val.toNat = n at bound ⊢
  by_cases one : n < 0x80
  · rw [if_pos one, if_pos (by omega)]
  by_cases two : n < 0x800
  · rw [if_neg one, if_pos two, if_neg (by omega), if_pos (by omega),
      Nat.mod_eq_of_lt (by omega : n / 64 < 32), Nat.add_comm, Nat.add_comm 0x80]
  by_cases three : n < 0x10000
  · rw [if_neg one, if_neg two, if_pos three, if_neg (by omega), if_neg (by omega), if_pos (by omega),
      Nat.mod_eq_of_lt (by omega : n / 4096 < 16)]
    simp only [Nat.add_comm]
  · rw [if_neg one, if_neg two, if_neg three, if_neg (by omega), if_neg (by omega), if_neg (by omega),
      Nat.mod_eq_of_lt (by omega : n / 262144 < 8)]
    simp only [Nat.add_comm]

end CodePoint

namespace Text

/-- A byte that goes on with a form which has more of them to come. -/
theorem utf8From?_next {missing value least : Nat} {b : UInt8} (rest : List UInt8)
    (continues : 0x80 ≤ b.toNat ∧ b.toNat < 0xc0) :
    utf8From? (missing + 2) value least (b :: rest) =
      utf8From? (missing + 1) (value * 0x40 + (b.toNat - 0x80)) least rest := by
  have inside : ¬ (decide (b.toNat < 0x80) || decide (0xc0 ≤ b.toNat)) = true := by
    simp
    omega
  rw [utf8From?, if_neg inside, if_pos (Nat.succ_pos missing)]

/-- The last byte of a form. -/
theorem utf8From?_last {value least : Nat} {b : UInt8} (rest : List UInt8) {p : CodePoint}
    (continues : 0x80 ≤ b.toNat ∧ b.toNat < 0xc0) (number : p.toNat = value * 0x40 + (b.toNat - 0x80))
    (shortest : least ≤ p.toNat) :
    utf8From? 1 value least (b :: rest) = (utf8From? 0 0 0 rest).map (p :: ·) := by
  have inside : ¬ (decide (b.toNat < 0x80) || decide (0xc0 ≤ b.toNat)) = true := by
    simp
    omega
  rw [utf8From?, if_neg inside, if_neg (Nat.lt_irrefl 0), ← number, if_neg (Nat.not_lt.mpr shortest),
    CodePoint.ofNat?_toNat]
  cases utf8From? 0 0 0 rest <;> rfl

theorem toNat_toUInt8 {n : Nat} (small : n < 0x100) : n.toUInt8.toNat = n := by
  simp
  omega

/-- A form is read as its code point, whatever follows it. -/
theorem utf8From?_utf8 (p : CodePoint) (rest : List UInt8) :
    utf8From? 0 0 0 (p.utf8 ++ rest) = (utf8From? 0 0 0 rest).map (p :: ·) := by
  have bound := p.toNat_lt
  have tail (n : Nat) : (0x80 + n % 0x40).toUInt8.toNat = 0x80 + n % 0x40 := toNat_toUInt8 (by omega)
  have continues (n : Nat) : 0x80 ≤ (0x80 + n % 0x40).toUInt8.toNat ∧ (0x80 + n % 0x40).toUInt8.toNat < 0xc0 := by
    rw [tail]
    omega
  simp only [CodePoint.utf8]
  by_cases one : p.toNat < 0x80
  · rw [if_pos one, List.singleton_append, utf8From?, toNat_toUInt8 (by omega), if_pos one,
      CodePoint.ofNat?_toNat]
    cases utf8From? 0 0 0 rest <;> rfl
  by_cases two : p.toNat < 0x800
  · have number : p.toNat = (0xc0 + p.toNat / 0x40 - 0xc0) * 0x40 + (0x80 + p.toNat % 0x40 - 0x80) := by omega
    rw [if_neg one, if_pos two, List.cons_append, utf8From?, toNat_toUInt8 (by omega), if_neg (by omega),
      if_neg (by omega), if_pos (by omega), List.singleton_append,
      utf8From?_last rest (continues _) (by rwa [tail]) (by omega)]
  by_cases three : p.toNat < 0x10000
  · have number : p.toNat = ((0xe0 + p.toNat / 0x1000 - 0xe0) * 0x40 + (0x80 + p.toNat / 0x40 % 0x40 - 0x80)) *
        0x40 + (0x80 + p.toNat % 0x40 - 0x80) := by omega
    rw [if_neg one, if_neg two, if_pos three, List.cons_append, utf8From?, toNat_toUInt8 (by omega),
      if_neg (by omega), if_neg (by omega), if_neg (by omega), if_pos (by omega), List.cons_append,
      utf8From?_next _ (continues _), List.singleton_append,
      utf8From?_last rest (continues _) (by rwa [tail, tail]) (by omega)]
  · have number : p.toNat = (((0xf0 + p.toNat / 0x40000 - 0xf0) * 0x40 + (0x80 + p.toNat / 0x1000 % 0x40 - 0x80)) *
        0x40 + (0x80 + p.toNat / 0x40 % 0x40 - 0x80)) * 0x40 + (0x80 + p.toNat % 0x40 - 0x80) := by omega
    rw [if_neg one, if_neg two, if_neg three, List.cons_append, utf8From?, toNat_toUInt8 (by omega),
      if_neg (by omega), if_neg (by omega), if_neg (by omega), if_neg (by omega), if_pos (by omega),
      List.cons_append, utf8From?_next _ (continues _), List.cons_append, utf8From?_next _ (continues _),
      List.singleton_append, utf8From?_last rest (continues _) (by rwa [tail, tail, tail]) (by omega)]

/-- A form that has been begun goes on with bytes of its own, up to its last one. -/
theorem utf8From?_succ {missing value least : Nat} {bytes : List UInt8} {ps : List CodePoint}
    (read : utf8From? (missing + 1) value least bytes = some ps) :
    ∃ b rest, bytes = b :: rest ∧ (0x80 ≤ b.toNat ∧ b.toNat < 0xc0) ∧
      (0 < missing ∧ utf8From? missing (value * 0x40 + (b.toNat - 0x80)) least rest = some ps ∨
        missing = 0 ∧ ∃ p others, p.toNat = value * 0x40 + (b.toNat - 0x80) ∧ least ≤ p.toNat ∧
          utf8From? 0 0 0 rest = some others ∧ ps = p :: others) := by
  cases bytes with
  | nil => cases read
  | cons b rest =>
    rw [utf8From?] at read
    split at read
    next => cases read
    next inside =>
      simp only [Bool.or_eq_true, decide_eq_true_eq, not_or, Nat.not_lt, Nat.not_le] at inside
      refine ⟨b, rest, rfl, inside, ?_⟩
      split at read
      next more => exact .inl ⟨more, read⟩
      next last =>
        split at read
        next => cases read
        next long =>
          simp only [Option.bind_eq_bind, Option.bind_eq_some_iff] at read
          obtain ⟨p, named, others, follows, same⟩ := read
          have number := CodePoint.toNat_of_ofNat? named
          exact .inr ⟨by omega, p, others, number, by omega, follows, (Option.some.inj same).symm⟩

/-- All bytes that a form goes on with, and the number that they make of the bits before them. -/
theorem utf8From?_tail {missing value least : Nat} {bytes : List UInt8} {ps : List CodePoint}
    (read : utf8From? (missing + 1) value least bytes = some ps) :
    ∃ tail left p others, tail.length = missing + 1 ∧ bytes = tail ++ left ∧
      (∀ b ∈ tail, 0x80 ≤ b.toNat ∧ b.toNat < 0xc0) ∧
      p.toNat = tail.foldl (fun n b => n * 0x40 + (b.toNat - 0x80)) value ∧ least ≤ p.toNat ∧
      utf8From? 0 0 0 left = some others ∧ ps = p :: others := by
  induction missing generalizing value bytes with
  | zero =>
    obtain ⟨b, rest, rfl, inside, ⟨more, -⟩ | ⟨-, p, others, number, long, follows, rfl⟩⟩ := utf8From?_succ read
    · cases more
    · exact ⟨[b], rest, p, others, rfl, rfl, List.forall_mem_singleton.mpr inside, number, long, follows, rfl⟩
  | succ missing ih =>
    obtain ⟨b, rest, rfl, inside, ⟨-, read⟩ | ⟨last, -⟩⟩ := utf8From?_succ read
    · obtain ⟨tail, left, p, others, length, rfl, continues, number, long, follows, rfl⟩ := ih read
      refine ⟨b :: tail, left, p, others, congrArg Nat.succ length, rfl,
        List.forall_mem_cons.mpr ⟨inside, continues⟩, ?_, long, follows, rfl⟩
      rw [List.foldl_cons, number]
    · cases last

/-- Bytes that are read begin with the form of the first code point. -/
theorem exists_form_of_utf8From? {a : UInt8} {rest : List UInt8} {ps : List CodePoint}
    (read : utf8From? 0 0 0 (a :: rest) = some ps) :
    ∃ p others left, ps = p :: others ∧ a :: rest = p.utf8 ++ left ∧ utf8From? 0 0 0 left = some others := by
  have bound := a.toNat_lt
  rw [utf8From?] at read
  by_cases one : a.toNat < 0x80
  · simp only [if_pos one, Option.bind_eq_bind, Option.bind_eq_some_iff] at read
    obtain ⟨p, named, others, follows, same⟩ := read
    have number := CodePoint.toNat_of_ofNat? named
    have form : p.utf8 = [a] := by
      rw [CodePoint.utf8, if_pos (by omega), Base64.toUInt8_eq a number]
    exact ⟨p, others, rest, (Option.some.inj same).symm, by rw [form]; rfl, follows⟩
  by_cases continues : a.toNat < 0xc0
  · rw [if_neg one, if_pos continues] at read
    cases read
  by_cases two : a.toNat < 0xe0
  · rw [if_neg one, if_neg continues, if_pos two] at read
    obtain ⟨tail, left, p, others, length, rfl, inside, number, long, follows, rfl⟩ := utf8From?_tail read
    obtain ⟨b, rfl⟩ := List.length_eq_one_iff.mp length
    simp only [List.forall_mem_cons, List.foldl_cons, List.foldl_nil] at inside number
    have form : p.utf8 = [a, b] := by
      rw [CodePoint.utf8, if_neg (by omega), if_pos (by omega), Base64.toUInt8_eq a (by omega),
        Base64.toUInt8_eq b (by omega)]
    exact ⟨p, others, left, rfl, by rw [form]; rfl, follows⟩
  by_cases three : a.toNat < 0xf0
  · rw [if_neg one, if_neg continues, if_neg two, if_pos three] at read
    obtain ⟨tail, left, p, others, length, rfl, inside, number, long, follows, rfl⟩ := utf8From?_tail read
    obtain ⟨b, c, rfl⟩ := List.length_eq_two.mp length
    simp only [List.forall_mem_cons, List.foldl_cons, List.foldl_nil] at inside number
    have form : p.utf8 = [a, b, c] := by
      rw [CodePoint.utf8, if_neg (by omega), if_neg (by omega), if_pos (by omega),
        Base64.toUInt8_eq a (by omega), Base64.toUInt8_eq b (by omega), Base64.toUInt8_eq c (by omega)]
    exact ⟨p, others, left, rfl, by rw [form]; rfl, follows⟩
  by_cases four : a.toNat < 0xf8
  · rw [if_neg one, if_neg continues, if_neg two, if_neg three, if_pos four] at read
    obtain ⟨tail, left, p, others, length, rfl, inside, number, long, follows, rfl⟩ := utf8From?_tail read
    obtain ⟨b, c, d, rfl⟩ := List.length_eq_three.mp length
    simp only [List.forall_mem_cons, List.foldl_cons, List.foldl_nil] at inside number
    have form : p.utf8 = [a, b, c, d] := by
      rw [CodePoint.utf8, if_neg (by omega), if_neg (by omega), if_neg (by omega), Base64.toUInt8_eq a (by omega),
        Base64.toUInt8_eq b (by omega), Base64.toUInt8_eq c (by omega), Base64.toUInt8_eq d (by omega)]
    exact ⟨p, others, left, rfl, by rw [form]; rfl, follows⟩
  · rw [if_neg one, if_neg continues, if_neg two, if_neg three, if_neg four] at read
    cases read

/-- Bytes that are read are the forms of what they are read as. -/
theorem eq_flatMap_of_utf8From? {bytes : List UInt8} {ps : List CodePoint}
    (read : utf8From? 0 0 0 bytes = some ps) : bytes = ps.flatMap CodePoint.utf8 := by
  induction ps generalizing bytes with
  | nil =>
    cases bytes with
    | nil => rfl
    | cons a rest =>
      obtain ⟨p, others, left, same, -⟩ := exists_form_of_utf8From? read
      cases same
  | cons p rest ih =>
    cases bytes with
    | nil => cases read
    | cons a bytes =>
      obtain ⟨first, others, left, same, form, follows⟩ := exists_form_of_utf8From? read
      cases same
      rw [form, List.flatMap_cons, ← ih follows]

theorem utf8From?_flatMap (ps : List CodePoint) : utf8From? 0 0 0 (ps.flatMap CodePoint.utf8) = some ps := by
  induction ps with
  | nil => rfl
  | cons p rest ih => rw [List.flatMap_cons, utf8From?_utf8, ih, Option.map_some]

/-- Bytes are read in UTF-8 exactly if they are forms, and then as the code points that those write. -/
theorem utf8From?_eq_some_iff {bytes : List UInt8} {ps : List CodePoint} :
    utf8From? 0 0 0 bytes = some ps ↔ bytes = ps.flatMap CodePoint.utf8 := by
  constructor
  · exact eq_flatMap_of_utf8From?
  · rintro rfl
    exact utf8From?_flatMap ps

/-! ### Plain characters -/

/-- A character that one byte other than zero writes in UTF-8. -/
def IsPlain (c : Char) : Prop := 0 < c.toNat ∧ c.toNat < 128

instance (c : Char) : Decidable (IsPlain c) := inferInstanceAs (Decidable (_ ∧ _))

/-- Every byte order mark has a byte that is zero or above 127. -/
theorem exists_of_mem_marks {mark : List UInt8 × Encoding} (member : mark ∈ Encoding.marks) :
    ∃ b ∈ mark.1, b.toNat = 0 ∨ 128 ≤ b.toNat := by
  have each : Encoding.marks.all (fun m => m.1.any fun b => b.toNat = 0 || 128 ≤ b.toNat) = true := by
    decide
  obtain ⟨b, among, outside⟩ := List.any_eq_true.mp (List.all_eq_true.mp each mark member)
  exact ⟨b, among, by simpa using outside⟩

/-- Bytes of which none is zero or above 127 are taken for UTF-8. -/
theorem detect_of_plain {bytes : List UInt8} (plain : ∀ b ∈ bytes, 0 < b.toNat ∧ b.toNat < 128) :
    Encoding.detect bytes = (.utf8, bytes) := by
  have noMark : Encoding.marks.find? (fun m => m.1.isPrefixOf bytes) = none := by
    rw [List.find?_eq_none]
    intro mark member begins
    obtain ⟨b, among, outside⟩ := exists_of_mem_marks member
    have inside := plain b ((List.isPrefixOf_iff_prefix.mp begins).subset among)
    omega
  have nonzero : ∀ b ∈ bytes, b ≠ 0 := by
    rintro b member rfl
    exact absurd (plain 0 member).1 (Nat.lt_irrefl 0)
  have unmarked : Encoding.unmarked bytes = .utf8 := by
    unfold Encoding.unmarked
    split
    next a b _ _ _ => rw [if_neg (nonzero a (by simp)), if_neg (nonzero b (by simp))]
    next a b => rw [if_neg (nonzero a (by simp)), if_neg (nonzero b (by simp))]
    next => rfl
  rw [Encoding.detect, noMark, unmarked]

theorem utf8_of_plain {c : Char} (plain : IsPlain c) : (CodePoint.char c).utf8 = [c.toNat.toUInt8] := if_pos plain.2

theorem toUTF8_eq_flatMap (s : String) :
    s.toUTF8.data.toList = (s.toList.map CodePoint.char).flatMap CodePoint.utf8 := by
  rw [String.toUTF8_eq_toByteArray, ← String.utf8Encode_toList, List.utf8Encode, List.toList_data_toByteArray,
    List.flatMap_map]
  simp only [CodePoint.utf8_char]

theorem toUTF8_of_plain {s : String} (plain : ∀ c ∈ s.toList, IsPlain c) :
    ∀ b ∈ s.toUTF8.data.toList, 0 < b.toNat ∧ b.toNat < 128 := by
  intro b member
  rw [toUTF8_eq_flatMap, List.flatMap_map] at member
  obtain ⟨c, held, form⟩ := List.mem_flatMap.mp member
  obtain ⟨positive, small⟩ := plain c held
  rw [utf8_of_plain ⟨positive, small⟩, List.mem_singleton] at form
  rw [form, toNat_toUInt8 (by omega)]
  exact ⟨positive, small⟩

theorem decode?_toUTF8 {s : String} (plain : ∀ c ∈ s.toList, IsPlain c) :
    decode? s.toUTF8 = some (s.toList.map .char) := by
  rw [decode?, detect_of_plain (toUTF8_of_plain plain)]
  exact utf8From?_eq_some_iff.mpr (toUTF8_eq_flatMap s)

end Text
end WorkloadAdmission
