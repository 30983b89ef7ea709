import Mathlib.Data.List.Perm.Basic
import WorkloadAdmission.Pod.Patch
import WorkloadAdmission.Proofs.Fallible

/-! The hosts that a verdict keeps a pod off. A list of verdicts is taken without repetition and
sorted, so only its members matter: two verdicts with the same members write the same affinity. -/
namespace WorkloadAdmission

/-- Induction along the removal of repetitions, which goes on with the items that differ from the first. -/
theorem eraseDups_induct {α : Type} [BEq α] {motive : List α → Prop} (nil : motive [])
    (cons : ∀ a rest, motive (rest.filter fun b => !b == a) → motive (a :: rest)) (list : List α) :
    motive list := by
  induction length : list.length using Nat.strongRecOn generalizing list with
  | ind n ih =>
    cases list with
    | nil => exact nil
    | cons a rest =>
      have shorter : (rest.filter fun b => !b == a).length < n := by
        rw [← length]
        exact Nat.lt_succ_of_le (List.length_filter_le ..)
      exact cons a rest (ih _ shorter _ rfl)

theorem nodup_eraseDups {α : Type} [BEq α] [LawfulBEq α] (list : List α) : list.eraseDups.Nodup := by
  induction list using eraseDups_induct with
  | nil => simp
  | cons a rest ih =>
    rw [List.eraseDups_cons, List.nodup_cons]
    exact ⟨by simp, ih⟩

theorem nodup_of_map_str {names : List Text} (once : (names.map Json.str).Nodup) : names.Nodup :=
  List.Pairwise.of_map _ (fun _ _ apart => mt (congrArg Json.str) apart) once

theorem pairwise_mergeSort (names : List Text) :
    (names.mergeSort fun a b => decide (a ≤ b)).Pairwise (· ≤ ·) := by
  have sorted : (names.mergeSort fun a b => decide (a ≤ b)).Pairwise fun a b => decide (a ≤ b) = true := by
    apply List.pairwise_mergeSort
    · intro a b c low high
      simp only [decide_eq_true_eq] at low high ⊢
      exact Text.le_trans low high
    · intro a b
      simpa using Text.le_total a b
  exact sorted.imp of_decide_eq_true

/-- Lists with the same members, each without repetition, are sorted alike. -/
theorem mergeSort_congr {first second : List Text} (once : first.Nodup) (onceToo : second.Nodup)
    (same : ∀ name, name ∈ first ↔ name ∈ second) :
    (first.mergeSort fun a b => decide (a ≤ b)) = second.mergeSort fun a b => decide (a ≤ b) := by
  have members : first.Perm second := (List.perm_ext_iff_of_nodup once onceToo).mpr same
  have perm : (first.mergeSort fun a b => decide (a ≤ b)).Perm
      (second.mergeSort fun a b => decide (a ≤ b)) :=
    ((List.mergeSort_perm first _).trans members).trans (List.mergeSort_perm second _).symm
  apply List.Perm.eq_of_pairwise _ (pairwise_mergeSort first) (pairwise_mergeSort second) perm
  intro a b _ _ low high
  exact Text.le_antisymm low high

namespace Verdict

theorem nodup_hostsOf {workload : WorkloadClass} {document : Option Json} {hosts : List Json}
    (told : hostsOf workload document = .ok hosts) : hosts.Nodup := by
  unfold hostsOf at told
  split at told
  · cases told
    exact List.nodup_nil
  · cases told
    exact List.nodup_nil
  · split at told
    · cases told
      exact nodup_eraseDups _
    · cases told
  · cases told

namespace Source

/-- The hosts that pods of a class are admitted under: those of the verdict, none if it cannot be
read. -/
def heeded (source : Source) (workload : WorkloadClass) : List Json :=
  (source.precludedHosts workload).outcome.toOption.getD []

/-- A source tells these names, or cannot be read and counts as telling none. -/
def Tells (source : Source) (workload : WorkloadClass) (names : List Text) : Prop :=
  source.heeded workload = names.map .str

instance (source : Source) (workload : WorkloadClass) (names : List Text) :
    Decidable (source.Tells workload names) :=
  inferInstanceAs (Decidable (source.heeded workload = names.map .str))

theorem nodup_precludedHosts {source : Source} {workload : WorkloadClass} {hosts : List Json}
    (told : (source.precludedHosts workload).outcome = .ok hosts) : hosts.Nodup := by
  cases source with
  | table t =>
    cases told
    exact nodup_eraseDups _
  | store keyspace s =>
    obtain ⟨document, -, decoded⟩ := Fallible.bind_eq_ok.mp told
    exact nodup_hostsOf decoded

theorem Tells.nodup {source : Source} {workload : WorkloadClass} {names : List Text}
    (told : source.Tells workload names) : names.Nodup := by
  have once : (source.heeded workload).Nodup := by
    cases outcome : (source.precludedHosts workload).outcome with
    | error fault => simp [heeded, outcome, Except.toOption]
    | ok hosts => simpa [heeded, outcome, Except.toOption] using nodup_precludedHosts outcome
  rw [told] at once
  exact nodup_of_map_str once

end Source
end Verdict

namespace Affinity

/-- Values are names, or one of them is the first that is not. -/
theorem names_or_other (values : List Json) :
    (∃ names : List Text, values = names.map .str) ∨
      ∃ (before : List Text) (v : Json) (after : List Json),
        values = before.map .str ++ v :: after ∧ ∀ text, v ≠ .str text := by
  induction values with
  | nil => exact .inl ⟨[], rfl⟩
  | cons first rest ih =>
    cases first with
    | str name =>
      rcases ih with ⟨names, rfl⟩ | ⟨before, v, after, rfl, other⟩
      · exact .inl ⟨name :: names, rfl⟩
      · exact .inr ⟨name :: before, v, after, rfl, other⟩
    | null | bool | int | float | arr | obj => exact .inr ⟨[], _, rest, rfl, fun _ same => nomatch same⟩

theorem hostnames_names (names : List Text) :
    hostnames (names.map .str) = .ok (names.mergeSort fun a b => decide (a ≤ b)) := by
  rw [hostnames, Fallible.mapM_map]
  · rfl
  · intro name
    rfl

theorem hostnames_other {v : Json} (before : List Text) (after : List Json) (other : ∀ text, v ≠ .str text) :
    hostnames (before.map .str ++ v :: after) = .error (.hostname v) := by
  rw [hostnames, Fallible.bind_eq_error, Fallible.mapM_eq_error_iff]
  refine .inl ⟨before.map .str, v, after, rfl, ⟨before, ?_⟩, ?_⟩
  · exact Fallible.mapM_map (by intro name; rfl) before
  · cases v with
    | str text => exact absurd rfl (other text)
    | null | bool | int | float | arr | obj => rfl

/-- What becomes of values: names are sorted, and otherwise the first value that is none is refused. -/
theorem ofHostnames_spec (values : List Json) :
    (∃ names : List Text, values = names.map .str ∧
        ofHostnames values = .ok (excluding (names.mergeSort fun a b => decide (a ≤ b)))) ∨
      ∃ v ∈ values, (∀ text, v ≠ .str text) ∧ ofHostnames values = .error (.hostname v) := by
  rcases names_or_other values with ⟨names, rfl⟩ | ⟨before, v, after, rfl, other⟩
  · refine .inl ⟨names, rfl, ?_⟩
    rw [ofHostnames, hostnames_names, Fallible.map_ok]
  · refine .inr ⟨v, by simp, other, ?_⟩
    exact Fallible.map_eq_error.mpr (hostnames_other before after other)

end Affinity

namespace Pod

/-- The entry that keeps a pod off some hosts. -/
def hostEntries (names : List Text) : List Patch.Entry :=
  if names.isEmpty then []
  else [.add "/spec/affinity" (Affinity.excluding (names.mergeSort fun a b => decide (a ≤ b)))]

theorem affinityEntries_names (names : List Text) :
    affinityEntries (names.map .str) = .ok (hostEntries names) := by
  cases names with
  | nil => rfl
  | cons name rest =>
    simp only [affinityEntries, Affinity.ofHostnames, Affinity.hostnames_names, hostEntries]
    rfl

theorem hostEntries_congr {first second : List Text} (once : first.Nodup) (onceToo : second.Nodup)
    (same : ∀ name, name ∈ first ↔ name ∈ second) : hostEntries first = hostEntries second := by
  have empty : first.isEmpty = second.isEmpty := by
    rw [Bool.eq_iff_iff, List.isEmpty_iff, List.isEmpty_iff, List.eq_nil_iff_forall_not_mem,
      List.eq_nil_iff_forall_not_mem]
    exact forall_congr' fun name => not_congr (same name)
  simp only [hostEntries, empty, mergeSort_congr once onceToo same]

end Pod
end WorkloadAdmission
