import WorkloadAdmission.Proofs.Decrease
import WorkloadAdmission.Proofs.Writability

/-! Requests are shrunk container by container. What becomes of a container depends on its position in the
path of its entry only, so containers that stand behind others get the entries that they would get alone,
with the positions raised by the number of those before them. Containers that are spared count as much as
those that are shrunk. -/
namespace WorkloadAdmission

namespace Patch

theorem shrinkFrom_eq (kind : Text) (factor : Binary64) (index : Nat) (containers : List Container)
    (patch : Patch) (shrunk : Nat) : shrinkFrom kind factor index containers patch shrunk =
      (Container.reductionsFrom kind factor index containers).map fun entries =>
        (⟨patch.entries ++ entries⟩, shrunk + entries.length) := by
  induction containers generalizing index patch shrunk with
  | nil => simp [shrinkFrom, Container.reductionsFrom]
  | cons c rest ih =>
    rw [shrinkFrom, Container.reductionsFrom]
    cases c.reduction kind factor index with
    | error cause => rfl
    | ok entry =>
      rw [Fallible.ok_bind, Fallible.ok_bind]
      cases entry with
      | none =>
        dsimp only
        rw [ih]
        cases Container.reductionsFrom kind factor (index + 1) rest <;> rfl
      | some entry =>
        dsimp only
        rw [ih]
        cases Container.reductionsFrom kind factor (index + 1) rest with
        | error cause => rfl
        | ok entries => simp [push, Nat.add_assoc, Nat.add_comm 1]

theorem shrink_eq (patch : Patch) (kind : Text) (factor : Binary64) (containers : List Container) :
    patch.shrink kind factor containers = (Container.reductions kind factor containers).map fun entries =>
      (⟨patch.entries ++ entries⟩, entries.length) := by
  unfold shrink Container.reductions
  split
  · simp
  · simp [shrinkFrom_eq]

end Patch

namespace Container

variable {kind : Text} {factor : Binary64} {index : Nat} {c : Container} {xs ys containers : List Container}
  {entries first second : List Patch.Entry}

/-- An entry for a container, and the same one for a container so many positions later. -/
def MovedBy (kind : Text) (count : Nat) (e e' : Patch.Entry) : Prop :=
  ∃ i requests, e = .add (requestsPath kind i) requests ∧ e' = .add (requestsPath kind (i + count)) requests

/-! ### Positions -/

theorem reductionsFrom_append (begins : reductionsFrom kind factor index xs = .ok first)
    (follows : reductionsFrom kind factor (index + xs.length) ys = .ok second) :
    reductionsFrom kind factor index (xs ++ ys) = .ok (first ++ second) := by
  induction xs generalizing index first with
  | nil =>
    cases begins
    exact follows
  | cons c rest ih =>
    simp only [reductionsFrom, Fallible.bind_eq_ok, Fallible.pure_eq_ok] at begins
    obtain ⟨entry, here, later, there, rfl⟩ := begins
    rw [List.length_cons, Nat.add_comm rest.length, ← Nat.add_assoc] at follows
    rw [List.cons_append, reductionsFrom, here, Fallible.ok_bind, ih there follows, Fallible.ok_bind,
      List.append_assoc]
    rfl

theorem reduction_moved {entry : Option Patch.Entry} (reduced : reduction kind factor index c = .ok entry)
    (count : Nat) : ∃ moved : Option Patch.Entry, reduction kind factor (index + count) c = .ok moved ∧
      List.Forall₂ (MovedBy kind count) entry.toList moved.toList := by
  unfold reduction at reduced ⊢
  cases reducible : c.reducible? with
  | none =>
    rw [reducible] at reduced
    cases reduced
    exact ⟨none, rfl, .nil⟩
  | some millis =>
    rw [reducible, Option.mapM_some] at reduced
    obtain ⟨written, wrote, rfl⟩ := Fallible.map_eq_ok.mp reduced
    simp only [Fallible.bind_eq_ok, Fallible.pure_eq_ok] at wrote
    obtain ⟨r, shrunk, text, printed, rfl⟩ := wrote
    refine ⟨some (.add (requestsPath kind (index + count)) (.obj (c.requestsWith text))), ?_, ?_⟩
    · rw [Option.mapM_some, shrunk, Fallible.ok_bind, printed]
      rfl
    · exact .cons ⟨index, _, rfl, rfl⟩ .nil

/-- Further on, the same containers get the same requests. -/
theorem reductionsFrom_moved (reduced : reductionsFrom kind factor index containers = .ok entries) (count : Nat) :
    ∃ moved, reductionsFrom kind factor (index + count) containers = .ok moved ∧
      List.Forall₂ (MovedBy kind count) entries moved := by
  induction containers generalizing index entries with
  | nil =>
    cases reduced
    exact ⟨[], rfl, .nil⟩
  | cons c rest ih =>
    simp only [reductionsFrom, Fallible.bind_eq_ok, Fallible.pure_eq_ok] at reduced
    obtain ⟨entry, here, later, there, rfl⟩ := reduced
    obtain ⟨moved, movedHere, alike⟩ := reduction_moved here count
    obtain ⟨others, movedThere, alikeToo⟩ := ih there
    refine ⟨moved.toList ++ others, ?_, List.rel_append alike alikeToo⟩
    rw [Nat.add_right_comm] at movedThere
    rw [reductionsFrom, movedHere, Fallible.ok_bind, movedThere]
    rfl

theorem reductions_append_moved (begins : reductions kind factor xs = .ok first)
    (follows : reductions kind factor ys = .ok second) :
    ∃ moved, List.Forall₂ (MovedBy kind xs.length) second moved ∧
      reductions kind factor (xs ++ ys) = .ok (first ++ moved) := by
  unfold reductions at begins follows ⊢
  split at begins
  · rw [if_pos ‹_›] at follows ⊢
    cases begins
    cases follows
    exact ⟨[], .nil, rfl⟩
  · rw [if_neg ‹_›] at follows ⊢
    obtain ⟨moved, movedThere, alike⟩ := reductionsFrom_moved follows xs.length
    exact ⟨moved, alike, reductionsFrom_append begins movedThere⟩

/-! ### Numbers of entries -/

/-- The CPU request of a container is above zero and without the stamp. -/
def isShrinkable (c : Container) : Bool := c.cpuMillis.any fun millis => 0 < millis && millis % 10 ≠ 1

theorem isSome_reducible? (c : Container) : c.reducible?.isSome = c.isShrinkable := by
  have stamp (millis : Int) : (!isReduced millis) = decide (millis % 10 ≠ 1) := by
    rw [Bool.eq_iff_iff, Bool.not_eq_true', ← Bool.not_eq_true, isReduced_iff, decide_eq_true_eq]
  rw [reducible?, Option.isSome_filter, isShrinkable]
  simp only [stamp]

theorem length_reductionsFrom (reduced : reductionsFrom kind factor index containers = .ok entries) :
    entries.length = containers.countP isShrinkable := by
  induction containers generalizing index entries with
  | nil =>
    cases reduced
    rfl
  | cons c rest ih =>
    simp only [reductionsFrom, Fallible.bind_eq_ok, Fallible.pure_eq_ok] at reduced
    obtain ⟨entry, here, later, there, rfl⟩ := reduced
    rw [List.length_append, ih there, List.countP_cons, ← isSome_reducible?, Nat.add_comm]
    rcases reduction_eq_ok here with ⟨nothing, rfl⟩ | ⟨millis, r, reducible, -, rfl⟩
    · rw [nothing]
      rfl
    · rw [reducible]
      rfl

theorem length_reductions (reduced : reductions kind factor containers = .ok entries) :
    entries.length = if factor.isAtLeastOne then 0 else containers.countP isShrinkable := by
  unfold reductions at reduced
  split at reduced
  next atLeastOne =>
    cases reduced
    rw [if_pos atLeastOne]
    rfl
  next below =>
    rw [if_neg below]
    exact length_reductionsFrom reduced

/-! ### Requests that can be printed -/

/-- The CPU request of a container can be printed, as it is or as a factor reduces it. -/
inductive IsPrintable (factor : Binary64) (c : Container) : Prop where
  | asked : (∀ millis ∈ c.cpuMillis, ¬ IsOverlong millis) → IsPrintable factor c
  | reduced : c.IsCounted → (∀ r, c.ReducesTo factor r → ¬ IsOverlong r) → IsPrintable factor c

theorem isOverlong_iff {r : Int} : IsOverlong r ↔ 10 ^ maxDigits ≤ r.natAbs := by
  rw [IsOverlong, ← Nat.not_le, Number.decimalLength_le_iff (by decide), Nat.not_lt]

theorem isCounted_of_short (short : ∀ millis ∈ c.cpuMillis, ¬ IsOverlong millis) : c.IsCounted := by
  intro millis held
  have few : millis.natAbs < 10 ^ maxDigits := by simpa [isOverlong_iff] using short millis held
  have places : maxDigits ≤ Decimal.lastPlace := by
    rw [Decimal.lastPlace]
    decide
  calc millis.toNat ≤ millis.natAbs := by omega
    _ ≤ 10 ^ maxDigits := few.le
    _ ≤ 10 ^ Decimal.lastPlace := Nat.pow_le_pow_right (by decide) places
    _ ≤ (10 ^ 28 - 1) * 10 ^ Decimal.lastPlace := Nat.le_mul_of_pos_left _ (by decide)

/-- A count that a factor leaves is shorter than the one before, or as long. -/
theorem not_isOverlong_of_short (short : ∀ millis ∈ c.cpuMillis, ¬ IsOverlong millis)
    (above : factor.isPositive = true) {r : Int} (reduces : c.ReducesTo factor r) : ¬ IsOverlong r := by
  obtain ⟨below, millis, reducible, reduced⟩ := reduces
  obtain ⟨held, positive, unstamped⟩ := reducible?_eq_some.mp reducible
  obtain ⟨d, prints, some, most, -⟩ := prints_between above below
  obtain ⟨least, less, -⟩ := reducedMillis_lt positive unstamped prints some most reduced
  have bound := short millis held
  rw [isOverlong_iff, Nat.not_le] at bound ⊢
  exact lt_trans (by omega) bound

theorem reductions_isOk_of_printable (kind : Text) (above : factor.isPositive = true)
    (printable : ∀ c ∈ containers, c.IsPrintable factor) :
    ∃ entries, reductions kind factor containers = .ok entries := by
  have counted : ∀ c ∈ containers, c.IsCounted := by
    intro c member
    cases printable c member with
    | asked short => exact isCounted_of_short short
    | reduced counted short => exact counted
  cases fails : reductions kind factor containers with
  | ok entries => exact ⟨entries, rfl⟩
  | error cause =>
    obtain ⟨-, c, member, r, reduces, long⟩ := (reductions_eq_error_iff counted above kind).mp fails
    cases printable c member with
    | asked short => exact absurd long (not_isOverlong_of_short short above reduces)
    | reduced counted short => exact absurd long (short r reduces)

end Container

/-- Containers behind others are shrunk as they would be alone, at positions raised by the number of those before
them, and behind whatever entries the patch holds. One entry is made for each request that is above zero and
without the stamp if the factor is below one, and none otherwise. -/
theorem Patch.shrink_append (kind : Text) {factor : Binary64} (above : factor.isPositive = true)
    (xs ys : List Container) (printable : ∀ c ∈ xs ++ ys, c.IsPrintable factor) :
    ∃ first second moved : List Entry, List.Forall₂ (Container.MovedBy kind xs.length) second moved ∧
      (∀ patch : Patch,
        patch.shrink kind factor xs = .ok (⟨patch.entries ++ first⟩, first.length) ∧
        patch.shrink kind factor ys = .ok (⟨patch.entries ++ second⟩, second.length) ∧
        patch.shrink kind factor (xs ++ ys) =
          .ok (⟨patch.entries ++ (first ++ moved)⟩, (first ++ moved).length)) ∧
      (first ++ moved).length = if factor.isAtLeastOne then 0 else (xs ++ ys).countP Container.isShrinkable := by
  obtain ⟨before, behind⟩ := List.forall_mem_append.mp printable
  obtain ⟨first, begins⟩ := Container.reductions_isOk_of_printable kind above before
  obtain ⟨second, follows⟩ := Container.reductions_isOk_of_printable kind above behind
  obtain ⟨moved, alike, whole⟩ := Container.reductions_append_moved begins follows
  refine ⟨first, second, moved, alike, fun patch => ?_, Container.length_reductions whole⟩
  simp [shrink_eq, begins, follows, whole]

/-- Before the second of four containers one asks for nothing, and the third carries the stamp. -/
theorem Patch.shrink_append_mixed :
    let half : Binary64 := .ofDecimal false 5 (-1)
    let xs : List Container := [⟨"idle", [], none⟩, ⟨"test", [("cpu", .str "500m")], some 500⟩]
    let ys : List Container := [⟨"done", [("cpu", .str "251m")], some 251⟩, ⟨"side", [("cpu", .int 1)], some 1000⟩]
    let held : Patch := ⟨[.add "/metadata/annotations" (.obj [])]⟩
    half.isPositive = true ∧ (∀ c ∈ xs ++ ys, c.IsPrintable half) ∧
    ∃ first second moved : List Entry, List.Forall₂ (Container.MovedBy "containers" 2) second moved ∧
      held.shrink "containers" half (xs ++ ys) = .ok (⟨held.entries ++ (first ++ moved)⟩, 2) ∧
      held.shrink "containers" half xs = .ok (⟨held.entries ++ first⟩, 1) := by
  intro half xs ys held
  have above : half.isPositive = true := by decide +kernel
  have short : ∀ c ∈ xs ++ ys, ∀ millis ∈ c.cpuMillis, ¬ maxDigits < Number.decimalLength millis.natAbs := by
    decide +kernel
  have printable : ∀ c ∈ xs ++ ys, c.IsPrintable half := fun c member => .asked (short c member)
  obtain ⟨first, second, moved, alike, appends, count⟩ := shrink_append "containers" above xs ys printable
  obtain ⟨begins, -, whole⟩ := appends held
  have two : (first ++ moved).length = 2 := count.trans (by decide +kernel)
  have one : first.length = 1 := by
    have alone : (held.shrink "containers" half xs).map Prod.snd = .ok 1 := by decide +kernel
    rw [begins] at alone
    exact Except.ok.inj alone
  rw [two] at whole
  rw [one] at begins
  exact ⟨above, printable, first, second, moved, alike, whole, begins⟩

end WorkloadAdmission
