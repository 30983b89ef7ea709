/-! Texts as sequences of code points. Most code points are characters. The others are surrogates, the
halves of pairs that write one character each; a text may hold one that stands alone. Texts are ordered
by the numbers of their code points. -/
namespace WorkloadAdmission

/-- A surrogate by its distance from U+D800. The first 0x400 are high, the others low. -/
abbrev Surrogate := Fin 0x800

inductive CodePoint where
  | char (c : Char)
  | surrogate (s : Surrogate)
  deriving DecidableEq

namespace CodePoint

def toNat : CodePoint → Nat
  | .char c => c.toNat
  | .surrogate s => 0xd800 + s.val

/-- The code point of a number; there is none above U+10FFFF. -/
def ofNat? (n : Nat) : Option CodePoint :=
  if valid : n.isValidChar then some (.char (Char.ofNatAux n valid))
  else if within : 0xd800 ≤ n ∧ n < 0xe000 then some (.surrogate ⟨n - 0xd800, by omega⟩)
  else none

def char? : CodePoint → Option Char
  | .char c => some c
  | .surrogate _ => none

theorem mapM_char?_chars (cs : List Char) : (cs.map char).mapM char? = some cs := by
  induction cs with
  | nil => rfl
  | cons c rest ih => simp [char?, ih]

theorem ofNat?_toNat (p : CodePoint) : ofNat? p.toNat = some p := by
  cases p with
  | char c =>
    have valid : c.toNat.isValidChar := c.valid
    rw [toNat, ofNat?, dif_pos valid]
    rfl
  | surrogate s =>
    have bound := s.isLt
    have invalid : ¬ (0xd800 + s.val).isValidChar := by
      simp only [Nat.isValidChar]
      omega
    have within : 0xd800 ≤ 0xd800 + s.val ∧ 0xd800 + s.val < 0xe000 := by omega
    rw [toNat, ofNat?, dif_neg invalid, dif_pos within]
    simp

theorem toNat_inj {p q : CodePoint} : p.toNat = q.toNat ↔ p = q := by
  constructor
  · intro same
    exact Option.some.inj (by rw [← ofNat?_toNat p, same, ofNat?_toNat q])
  · exact congrArg toNat

end CodePoint

/-- Characters, or characters up to a surrogate and the text behind it. -/
inductive Text where
  | ofString (s : String)
  | broken (s : String) (surrogate : Surrogate) (rest : Text)
  deriving DecidableEq

attribute [coe] Text.ofString

instance : Coe String Text := ⟨Text.ofString⟩

namespace Text

def points : Text → List CodePoint
  | .ofString s => s.toList.map .char
  | .broken s surrogate rest => s.toList.map .char ++ .surrogate surrogate :: rest.points

/-- The text of characters, given in reverse, and the code points behind them. -/
def gather (reversed : List Char) : List CodePoint → Text
  | [] => .ofString (String.ofList reversed.reverse)
  | .char c :: rest => gather (c :: reversed) rest
  | .surrogate s :: rest => .broken (String.ofList reversed.reverse) s (gather [] rest)

def ofPoints (ps : List CodePoint) : Text := gather [] ps

/-- The characters of a text without surrogates. -/
def string? : Text → Option String
  | .ofString s => some s
  | .broken .. => none

def isEmpty (t : Text) : Bool := t = ""

def behind (s : String) : Text → Text
  | .ofString t => .ofString (s ++ t)
  | .broken t surrogate rest => .broken (s ++ t) surrogate rest

def append : Text → Text → Text
  | .ofString s, t => t.behind s
  | .broken s surrogate rest, t => .broken s surrogate (rest.append t)

instance : Append Text := ⟨append⟩

@[simp]
theorem beq_ofString (a b : String) : (ofString a == ofString b) = (a == b) := by
  rw [Bool.eq_iff_iff, beq_iff_eq, beq_iff_eq, ofString.injEq]

/-! ### Code points -/

@[simp]
theorem points_ofString (s : String) : (ofString s).points = s.toList.map .char := rfl

theorem points_gather (reversed : List Char) (ps : List CodePoint) :
    (gather reversed ps).points = reversed.reverse.map .char ++ ps := by
  induction ps generalizing reversed with
  | nil => simp [gather]
  | cons p rest ih =>
    cases p with
    | char c => simp [gather, ih]
    | surrogate s => simp [gather, points, ih]

@[simp]
theorem points_ofPoints (ps : List CodePoint) : (ofPoints ps).points = ps := by
  rw [ofPoints, points_gather]
  rfl

theorem gather_chars (reversed cs : List Char) (ps : List CodePoint) :
    gather reversed (cs.map .char ++ ps) = gather (cs.reverse ++ reversed) ps := by
  induction cs generalizing reversed with
  | nil => rfl
  | cons c rest ih => simp [gather, ih]

@[simp]
theorem ofPoints_chars (cs : List Char) : ofPoints (cs.map .char) = .ofString (String.ofList cs) := by
  simpa [ofPoints, gather] using gather_chars [] cs []

@[simp]
theorem ofPoints_points (t : Text) : ofPoints t.points = t := by
  induction t with
  | ofString s => simp
  | broken s surrogate rest ih =>
    rw [points, ofPoints, gather_chars, gather, ← ofPoints, ih]
    simp

theorem points_inj {a b : Text} : a.points = b.points ↔ a = b := by
  constructor
  · intro same
    rw [← ofPoints_points a, same, ofPoints_points]
  · exact congrArg points

/-! ### Joining -/

@[simp]
theorem ofString_append (a b : String) : ofString a ++ ofString b = ofString (a ++ b) := rfl

@[simp]
theorem points_append (a b : Text) : (a ++ b).points = a.points ++ b.points := by
  change (append a b).points = _
  induction a with
  | ofString s => cases b <;> simp [append, behind, points]
  | broken s surrogate rest ih => simp [append, points, ih]

theorem append_assoc (a b c : Text) : a ++ b ++ c = a ++ (b ++ c) := by
  simp [← points_inj]

theorem append_right_inj (a : Text) {b c : Text} : a ++ b = a ++ c ↔ b = c := by
  simp [← points_inj]

theorem append_left_inj (c : Text) {a b : Text} : a ++ c = b ++ c ↔ a = b := by
  simp [← points_inj]

/-! ### Order -/

/-- The numbers that order texts. -/
def codes (t : Text) : List Nat := t.points.map CodePoint.toNat

instance : LE Text := ⟨fun a b => List.le a.codes b.codes⟩

instance : LT Text := ⟨fun a b => List.lt a.codes b.codes⟩

instance (a b : Text) : Decidable (a ≤ b) := List.decidableLE a.codes b.codes

theorem codes_inj {a b : Text} : a.codes = b.codes ↔ a = b := by
  constructor
  · intro same
    rw [← points_inj]
    exact List.map_inj_right (fun _ _ => CodePoint.toNat_inj.mp) |>.mp same
  · exact congrArg codes

theorem le_trans {a b c : Text} (low : a ≤ b) (high : b ≤ c) : a ≤ c := List.le_trans low high

theorem le_total (a b : Text) : a ≤ b ∨ b ≤ a := List.le_total a.codes b.codes

theorem not_le {a b : Text} : ¬ a ≤ b ↔ b < a := List.not_le

theorem le_antisymm {a b : Text} (low : a ≤ b) (high : b ≤ a) : a = b := codes_inj.mp (List.le_antisymm low high)

/-! ### Parts

How one text stands in another: at its beginning, or anywhere without a gap. -/

def beginsWith (text start : Text) : Bool := start.points.isPrefixOf text.points

/-- Whether `part` stands somewhere in a list without a gap. -/
def occursIn (part : List CodePoint) : List CodePoint → Bool
  | [] => part.isEmpty
  | p :: rest => part.isPrefixOf (p :: rest) || occursIn part rest

def holds (text part : Text) : Bool := occursIn part.points text.points

theorem beginsWith_iff {text start : Text} : beginsWith text start = true ↔ start.points <+: text.points :=
  List.isPrefixOf_iff_prefix

theorem occursIn_iff {part text : List CodePoint} : occursIn part text = true ↔ part <:+: text := by
  induction text with
  | nil => simp [occursIn]
  | cons p rest ih => rw [occursIn, Bool.or_eq_true, ih, List.isPrefixOf_iff_prefix, List.infix_cons_iff]

theorem holds_iff {text part : Text} : holds text part = true ↔ part.points <:+: text.points := occursIn_iff

end Text
end WorkloadAdmission
