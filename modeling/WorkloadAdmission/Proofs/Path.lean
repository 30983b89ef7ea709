import WorkloadAdmission.Json.Patch

/-! Paths that lead where they were meant to. A segment without a slash or tilde stands for itself, so
a path written from such segments is read back as them, and the decimal of a position in an array
names that position and no other. -/
namespace WorkloadAdmission

namespace Pointer

theorem replaceTilde_plain {cs : List CodePoint} (plain : tilde ∉ cs) (digit : Char) (replacement : CodePoint) :
    replaceTilde digit replacement cs = cs := by
  fun_induction replaceTilde digit replacement cs with
  | case1 => rfl
  | case2 => rfl
  | case3 rest p q escape => simp_all
  | case4 p q rest _ ih =>
    simp only [List.mem_cons, not_or] at plain
    rw [ih (by simp [plain])]

theorem unescape_plain {cs : List CodePoint} (plain : tilde ∉ cs) : unescape cs = Text.ofPoints cs := by
  rw [unescape, replaceTilde_plain plain, replaceTilde_plain plain]

theorem splitOn_joined {segment : List CodePoint} {rest : List (List CodePoint)}
    (whole : ∀ s ∈ segment :: rest, slash ∉ s) :
    (segment ++ rest.flatMap (slash :: ·)).splitOn slash = segment :: rest := by
  induction rest generalizing segment with
  | nil =>
    rw [List.flatMap_nil, List.append_nil]
    exact List.splitOn_eq_singleton (whole segment List.mem_cons_self)
  | cons next others ih =>
    rw [List.flatMap_cons, List.cons_append,
      List.splitOn_append_cons_self_of_not_mem (whole segment List.mem_cons_self),
      ih (fun s member => whole s (List.mem_cons_of_mem _ member))]

/-- A path falls apart into the segments that it was put together from. -/
theorem segments?_joined {written : List (List CodePoint)} (whole : ∀ s ∈ written, slash ∉ s) :
    segments? (Text.ofPoints (written.flatMap (slash :: ·))) = some (written.map unescape) := by
  cases written with
  | nil => rfl
  | cons first rest =>
    simp only [segments?, Text.points_ofPoints, List.flatMap_cons, List.cons_append, splitOn_joined whole, if_true]

/-- A segment that needs no escape. -/
def IsPlain (segment : Text) : Prop := slash ∉ segment.points ∧ tilde ∉ segment.points

instance (segment : Text) : Decidable (IsPlain segment) := inferInstanceAs (Decidable (_ ∧ _))

theorem segments?_plain {segments : List Text} (plain : ∀ s ∈ segments, IsPlain s) :
    segments? (Text.ofPoints ((segments.map Text.points).flatMap (slash :: ·))) = some segments := by
  have whole : ∀ written ∈ segments.map Text.points, slash ∉ written := by
    intro written member
    obtain ⟨s, held, rfl⟩ := List.mem_map.mp member
    exact (plain s held).1
  have kept : ∀ s ∈ segments, (unescape ∘ Text.points) s = s := by
    intro s held
    rw [Function.comp_apply, unescape_plain (plain s held).2, Text.ofPoints_points]
  rw [segments?_joined whole, List.map_map, List.map_congr_left kept, List.map_id']

end Pointer

namespace Patch

theorem position_digits {i : Nat} {c : Char} (member : c ∈ (toString i).toList) : c.isDigit := by
  rw [Nat.toString_eq_repr, Nat.toList_repr] at member
  exact Nat.isDigit_of_mem_toDigits (by decide) (by decide) member

theorem isPlain_position (i : Nat) : Pointer.IsPlain (toString i : Text) := by
  have digits {c : Char} (member : CodePoint.char c ∈ (toString i : Text).points) : c.isDigit := by
    obtain ⟨digit, held, same⟩ := List.mem_map.mp member
    cases same
    exact position_digits held
  exact ⟨fun slash => absurd (digits slash) (by decide), fun tilde => absurd (digits tilde) (by decide)⟩

theorem toString_position_inj {i j : Nat} (same : toString i = toString j) : i = j := by
  have digits : Nat.toDigits 10 i = Nat.toDigits 10 j := by
    simpa only [Nat.toString_eq_repr, Nat.toList_repr] using congrArg String.toList same
  rw [← Nat.ofDigitChars_toDigits (b := 10) (n := i) (by decide) (by decide), digits,
    Nat.ofDigitChars_toDigits (by decide) (by decide)]

/-- The decimal of a position in reach names it. -/
theorem position?_toString {i length : Nat} (reach : i ≤ length) :
    position? (toString i) length = some i := by
  have number : (toString i : Text) ≠ "-" := by
    intro dash
    have isDigit : '-'.isDigit := position_digits (i := i) (by rw [Text.ofString.inj dash]; decide)
    exact absurd isDigit (by decide)
  rw [position?, if_neg number, List.find?_range_eq_some]
  refine ⟨by simp, by simpa using Nat.lt_succ_of_le reach, ?_⟩
  intro j below
  have differ : (toString j : Text) ≠ toString i :=
    fun same => Nat.ne_of_lt below (toString_position_inj (Text.ofString.inj same))
  simp only [differ, decide_false, Bool.not_false]

/-! ### Going down a path -/

variable {key next : Text} {rest : List Text} {value inner changed : Json}

theorem addAt?_field {fields : Fields Json} (held : Fields.get? fields key = some inner)
    (added : addAt? value (next :: rest) inner = some changed) :
    addAt? value (key :: next :: rest) (.obj fields) = some (.obj (Fields.insert key changed fields)) := by
  rw [addAt?, held]
  · simp only [Option.bind_eq_bind, Option.bind_some, added, Option.pure_def]
  · simp

theorem addAt?_item {done after : List Json}
    (added : addAt? value (next :: rest) inner = some changed) :
    addAt? value (toString done.length :: next :: rest) (.arr (done ++ inner :: after)) =
      some (.arr (done ++ changed :: after)) := by
  have here : (done ++ inner :: after)[done.length]? = some inner := by simp
  rw [addAt?, position?_toString (by simp)]
  · simp only [Option.bind_eq_bind, Option.bind_some, here, added, Option.pure_def]
    simp
  · simp

end Patch
end WorkloadAdmission
