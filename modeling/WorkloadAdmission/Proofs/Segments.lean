import WorkloadAdmission.Proofs.Path

/-! Segments that need an escape. Escaping leaves no slash in a segment, which a path could end it at, and
puts a digit behind each tilde, which tells what it stands for. So a path falls apart into the segments that
it was written from, whatever code points they hold. Decoding restores slashes before tildes: in the other
order a tilde that was restored could meet a digit one behind it. -/
namespace WorkloadAdmission.Pointer

/-- Puts a text in the place of each occurrence of a code point. -/
def substitute (p : CodePoint) (text ps : List CodePoint) : List CodePoint :=
  ps.flatMap fun q => if q = p then text else [q]

/-- The form of a segment in a path: no slash, and after each tilde a zero or a one. -/
structure IsWritten (ps : List CodePoint) : Prop where
  noSlash : slash ∉ ps
  digits : ∀ i, ps[i]? = some tilde → ps[i + 1]? = some (.char '0') ∨ ps[i + 1]? = some (.char '1')

/-! ### Writing -/

/-- Tildes are escaped before slashes, since the escape of a slash has a tilde of its own. -/
theorem escape_eq_substitute (s : Text) :
    (escape s).points = substitute slash [tilde, .char '1'] (substitute tilde [tilde, .char '0'] s.points) := by
  have others : CodePoint.char '0' ≠ slash ∧ tilde ≠ slash := by decide
  rw [escape, Text.points_ofPoints, substitute, substitute, List.flatMap_assoc]
  congr 1
  funext p
  unfold escapedPoint
  by_cases isTilde : p = tilde
  · simp [isTilde, others]
  · by_cases isSlash : p = slash
    · simp [isSlash, others.2.symm]
    · simp [isTilde, isSlash]

theorem IsWritten.plain {ps : List CodePoint} (written : IsWritten ps) {p : CodePoint} (noSlash : p ≠ slash)
    (noTilde : p ≠ tilde) : IsWritten (p :: ps) where
  noSlash := by simp [Ne.symm noSlash, written.noSlash]
  digits
    | 0, here => absurd (Option.some.inj here) noTilde
    | i + 1, there => written.digits i there

theorem IsWritten.escaped {ps : List CodePoint} (written : IsWritten ps) {digit : Char}
    (binary : digit = '0' ∨ digit = '1') : IsWritten (tilde :: .char digit :: ps) := by
  have plain : CodePoint.char digit ≠ slash ∧ CodePoint.char digit ≠ tilde := by
    rcases binary with rfl | rfl <;> decide
  have behind := written.plain plain.1 plain.2
  constructor
  · have apart : slash ≠ tilde := by decide
    rw [List.mem_cons, not_or]
    exact ⟨apart, behind.noSlash⟩
  · intro i here
    cases i with
    | zero => simpa using binary
    | succ i => exact behind.digits i here

theorem isWritten_escape (s : Text) : IsWritten (escape s).points := by
  rw [escape, Text.points_ofPoints]
  induction s.points with
  | nil => exact ⟨by simp, by simp⟩
  | cons p rest ih =>
    rw [List.flatMap_cons, escapedPoint]
    split
    · exact ih.escaped (.inl rfl)
    · split
      · exact ih.escaped (.inr rfl)
      · exact ih.plain ‹_› ‹_›

/-! ### Decoding -/

variable {digit : Char} {replacement : CodePoint}

theorem replaceTilde_cons {p : CodePoint} (plain : p ≠ tilde) (ps : List CodePoint) :
    replaceTilde digit replacement (p :: ps) = p :: replaceTilde digit replacement ps := by
  cases ps with
  | nil => rfl
  | cons q rest => simp [replaceTilde, plain]

theorem replaceTilde_digit (digit : Char) (replacement : CodePoint) (ps : List CodePoint) :
    replaceTilde digit replacement (tilde :: .char digit :: ps) = replacement :: replaceTilde digit replacement ps := by
  simp [replaceTilde]

theorem replaceTilde_other {p : CodePoint} (other : p ≠ .char digit) (ps : List CodePoint) :
    replaceTilde digit replacement (tilde :: p :: ps) = tilde :: replaceTilde digit replacement (p :: ps) := by
  simp [replaceTilde, other]

/-- Once the slashes are restored, what is left is a text with its tildes escaped. -/
theorem replaceTilde_escape (s : Text) :
    replaceTilde '1' slash (escape s).points = substitute tilde [tilde, .char '0'] s.points := by
  rw [escape, Text.points_ofPoints]
  induction s.points with
  | nil => rfl
  | cons p rest ih =>
    rw [List.flatMap_cons, substitute, List.flatMap_cons, escapedPoint]
    split
    · rw [List.cons_append, List.singleton_append, replaceTilde_other (by decide), replaceTilde_cons (by decide), ih]
      rfl
    · split
      next isSlash =>
        rw [List.cons_append, List.singleton_append, replaceTilde_digit, ih, isSlash]
        rfl
      next =>
        rw [List.singleton_append, replaceTilde_cons ‹_›, ih]
        rfl

theorem replaceTilde_substitute (ps : List CodePoint) :
    replaceTilde '0' tilde (substitute tilde [tilde, .char '0'] ps) = ps := by
  induction ps with
  | nil => rfl
  | cons p rest ih =>
    rw [substitute, List.flatMap_cons]
    split
    next isTilde =>
      rw [List.cons_append, List.singleton_append, replaceTilde_digit, isTilde]
      exact congrArg _ ih
    next plain =>
      rw [List.singleton_append, replaceTilde_cons plain]
      exact congrArg _ ih

@[simp] theorem unescape_escape (s : Text) : unescape (escape s).points = s := by
  rw [unescape, replaceTilde_escape, replaceTilde_substitute, Text.ofPoints_points]

/-- Tildes that are restored before slashes make a slash of the key `~1`. -/
example : unescape (escape "~1").points = "~1" ∧
    replaceTilde '1' slash (replaceTilde '0' tilde (escape "~1").points) = [slash] := by
  decide +kernel

theorem escape_inj {s t : Text} : escape s = escape t ↔ s = t := by
  constructor
  · intro same
    rw [← unescape_escape s, same, unescape_escape]
  · rintro rfl
    rfl

/-! ### Paths -/

/-- Any segments whatever are read back from the path that is written from them. -/
theorem segments?_escaped (segments : List Text) :
    segments? (Text.ofPoints ((segments.map fun s => (escape s).points).flatMap (slash :: ·))) = some segments := by
  have whole : ∀ written ∈ segments.map fun s => (escape s).points, slash ∉ written := by
    intro written member
    obtain ⟨s, -, rfl⟩ := List.mem_map.mp member
    exact (isWritten_escape s).noSlash
  rw [segments?_joined whole, List.map_map]
  simp [Function.comp_def]

theorem labelPath_eq (key : Text) : ("/metadata/labels/" ++ escape key).points =
    ((["metadata", "labels", key] : List Text).map fun s => (escape s).points).flatMap (slash :: ·) := by
  have names : (escape "metadata").points = ("metadata" : Text).points ∧
      (escape "labels").points = ("labels" : Text).points := by decide +kernel
  simp [names, slash]

theorem splitOn_labelPath (key : Text) : ("/metadata/labels/" ++ escape key).points.splitOn slash =
    [[], ("metadata" : Text).points, ("labels" : Text).points, (escape key).points] := by
  have whole : ∀ s ∈ [[], ("metadata" : Text).points, ("labels" : Text).points, (escape key).points], slash ∉ s := by
    have escaped := (isWritten_escape key).noSlash
    rw [slash] at escaped ⊢
    simp [escaped]
  rw [← splitOn_joined whole]
  simp [slash]

/-- Escaping a label key is undone by decoding, and keeps the key in one segment of its path. -/
theorem escape_undone (key other : Text) :
    IsWritten (escape key).points ∧
    (escape key).points = substitute slash [tilde, .char '1'] (substitute tilde [tilde, .char '0'] key.points) ∧
    Text.ofPoints (replaceTilde '0' tilde (replaceTilde '1' slash (escape key).points)) = key ∧
    ("/metadata/labels/" ++ escape key = "/metadata/labels/" ++ escape other ↔ key = other) ∧
    ("/metadata/labels/" ++ escape key).points.splitOn slash =
      [[], ("metadata" : Text).points, ("labels" : Text).points, (escape key).points] ∧
    segments? ("/metadata/labels/" ++ escape key) = some (["metadata", "labels", key] : List Text) := by
  refine ⟨isWritten_escape key, escape_eq_substitute key, unescape_escape key, ?_, splitOn_labelPath key, ?_⟩
  · rw [Text.append_right_inj, escape_inj]
  · rw [← segments?_escaped ["metadata", "labels", key], ← labelPath_eq, Text.ofPoints_points]

end WorkloadAdmission.Pointer
