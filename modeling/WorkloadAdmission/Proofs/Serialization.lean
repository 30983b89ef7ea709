import WorkloadAdmission.Proofs.Wire
import WorkloadAdmission.Proofs.Writability

/-! Writing a patch while it is put together. A patch is refused for the numbers that stand in its values,
however deep, and for nothing else. A refusal leaves the patch as it was: the calls that follow it meet the
same patch, and give the same replies, as if it had not been asked for its text. -/
namespace WorkloadAdmission

/-! ### Numbers in a value -/

namespace Json

/-- A value stands in another one: it is the same value, or stands in an item or a field of it. -/
inductive StandsIn (v : Json) : Json → Prop where
  | itself : StandsIn v v
  | item {items : List Json} {w : Json} : w ∈ items → StandsIn v w → StandsIn v (.arr items)
  | field {fields : Fields Json} {key : Text} {w : Json} : (key, w) ∈ fields → StandsIn v w →
      StandsIn v (.obj fields)

/-- A number that JSON has no text for stands somewhere in a value. -/
def HoldsNonfinite (v : Json) : Prop := ∃ x : Binary64, StandsIn (.float x) v ∧ x.isFinite = false

theorem holdsNonfinite_arr {items : List Json} :
    (Json.arr items).HoldsNonfinite ↔ ∃ v ∈ items, v.HoldsNonfinite := by
  constructor
  · rintro ⟨x, stands, infinite⟩
    cases stands with
    | item member inside => exact ⟨_, member, x, inside, infinite⟩
  · rintro ⟨v, member, x, inside, infinite⟩
    exact ⟨x, .item member inside, infinite⟩

theorem holdsNonfinite_obj {fields : Fields Json} :
    (Json.obj fields).HoldsNonfinite ↔ ∃ field ∈ fields, field.2.HoldsNonfinite := by
  constructor
  · rintro ⟨x, stands, infinite⟩
    cases stands with
    | field member inside => exact ⟨_, member, x, inside, infinite⟩
  · rintro ⟨⟨key, v⟩, member, x, inside, infinite⟩
    exact ⟨x, .field member inside, infinite⟩

/-- The check of a value goes through all that stands in it. -/
theorem isFinite_eq_false_iff (v : Json) : v.isFinite = false ↔ v.HoldsNonfinite := by
  induction v using induct with
  | float x =>
    constructor
    · intro infinite
      exact ⟨x, .itself, infinite⟩
    · rintro ⟨_, stands, infinite⟩
      cases stands
      exact infinite
  | arr items ih =>
    rw [holdsNonfinite_arr, isFinite, areFinite_eq_all, List.all_eq_false]
    simp only [Bool.not_eq_true]
    exact exists_congr fun v => and_congr_right fun member => ih v member
  | obj fields ih =>
    rw [holdsNonfinite_obj, isFinite, haveFinite_eq_all, List.all_eq_false]
    simp only [Bool.not_eq_true]
    exact exists_congr fun field => and_congr_right fun member => ih field member
  | null | bool | int | str =>
    constructor
    · intro infinite
      cases infinite
    · rintro ⟨_, stands, -⟩
      cases stands

end Json

/-! ### Calls -/

namespace Patch

/-- What is asked of a patch: to take one more entry, or for its text. -/
inductive Call where
  | add (path : Text) (value : Json)
  | addEntry (op path : Text) (value : Json)
  | serialize

/-- The entry that a call brings. -/
def Call.entry? : Call → Option Entry
  | .add path value => some (.add path value)
  | .addEntry op path value => some ⟨op, path, value⟩
  | .serialize => none

/-- What became of calls: the reply to each, a text for those that asked for one, and the patch after them. -/
structure Run where
  replies : List (Except PatchFault (Option String))
  patch : Patch

/-- The reply to a call, which may be a fault. -/
def reply (p : Patch) : Call → Except PatchFault (Option String)
  | .serialize => p.serialize.map some
  | _ => .ok none

/-- The patch that a call leaves behind, whatever its reply. -/
def next (p : Patch) (call : Call) : Patch := (call.entry?.map p.push).getD p

def run (p : Patch) : List Call → Run
  | [] => ⟨[], p⟩
  | call :: rest =>
    let later := (p.next call).run rest
    ⟨p.reply call :: later.replies, later.patch⟩

variable {p : Patch}

theorem entries_next (p : Patch) (call : Call) : (p.next call).entries = p.entries ++ call.entry?.toList := by
  cases call with
  | add | addEntry => rfl
  | serialize => exact (List.append_nil _).symm

/-- The entries are those that the calls brought, in their order. -/
theorem entries_run (p : Patch) (calls : List Call) :
    (p.run calls).patch.entries = p.entries ++ calls.filterMap Call.entry? := by
  induction calls generalizing p with
  | nil => exact (List.append_nil _).symm
  | cons call rest ih =>
    rw [run, ih, entries_next, List.append_assoc, List.filterMap_cons]
    cases call.entry? <;> rfl

theorem size_run (p : Patch) (calls : List Call) :
    (p.run calls).patch.size = p.size + (calls.filterMap Call.entry?).length := by
  rw [size, entries_run, List.length_append, size]

theorem isEmpty_run (p : Patch) (calls : List Call) :
    (p.run calls).patch.isEmpty = (p.isEmpty && (calls.filterMap Call.entry?).isEmpty) := by
  rw [isEmpty, entries_run, isEmpty]
  cases p.entries <;> rfl

theorem length_replies (p : Patch) (calls : List Call) : (p.run calls).replies.length = calls.length := by
  induction calls generalizing p with
  | nil => rfl
  | cons call rest ih => rw [run, List.length_cons, ih, List.length_cons]

theorem run_append (p : Patch) (first second : List Call) : p.run (first ++ second) =
    ⟨(p.run first).replies ++ ((p.run first).patch.run second).replies,
      ((p.run first).patch.run second).patch⟩ := by
  induction first generalizing p with
  | nil => rfl
  | cons call rest ih =>
    rw [List.cons_append, run, ih]
    rfl

/-- Asking for the text adds a reply to those of the other calls and changes nothing else. -/
theorem run_serialize (p : Patch) (before after : List Call) :
    let asked := p.run (before ++ .serialize :: after)
    let spared := p.run (before ++ after)
    asked.patch = spared.patch ∧
      asked.replies[before.length]? = some ((p.run before).patch.serialize.map some) ∧
      asked.replies.eraseIdx before.length = spared.replies := by
  intro asked spared
  have length := length_replies p before
  have apart : asked.replies = (p.run before).replies ++
      (p.run before).patch.serialize.map some :: ((p.run before).patch.run after).replies := by
    simp only [asked, run_append]
    rfl
  refine ⟨?_, ?_, ?_⟩
  · simp only [asked, spared, run_append]
    rfl
  · rw [apart, ← length]
    simp
  · rw [apart, ← length, List.eraseIdx_append_of_length_le (Nat.le_refl _), Nat.sub_self]
    simp only [spared, run_append]
    rfl

/-! ### Texts -/

theorem serialize_eq_error_iff :
    p.serialize = .error .notFinite ↔ ∃ e ∈ p.entries, e.value.HoldsNonfinite := by
  have infinite : p.toJson.isFinite = false ↔ ∃ e ∈ p.entries, e.value.HoldsNonfinite := by
    rw [isFinite_toJson, List.all_eq_false]
    simp only [Bool.not_eq_true, Json.isFinite_eq_false_iff]
  rw [← infinite, serialize]
  cases p.toJson.isFinite <;> simp

theorem isOk_serialize_iff :
    (∃ text, p.serialize = .ok text) ↔ ¬ ∃ e ∈ p.entries, e.value.HoldsNonfinite := by
  rw [← serialize_eq_error_iff, serialize]
  cases p.toJson.isFinite <;> simp

/-- The entries of a patch are read back from its text. -/
theorem ofBytes?_serialize (regular : ∀ e ∈ p.entries, e.value.isRegular = true)
    (unpaired : p.toJson.isUnpaired = true) {text : String} (written : p.serialize = .ok text) :
    Json.ofBytes? text.toUTF8 = some p.toJson := by
  unfold serialize at written
  split at written
  · cases written
    exact Json.ofBytes?_render (isRegular_toJson regular) unpaired
  · cases written

/-- After any calls, a patch is refused exactly if a value that they brought holds, at some depth, a number that
is not finite; otherwise it has a text, which is that of the entries. Either way it has the entries, the size
and the emptiness that it had, and the calls that follow go on as if it had not been asked. -/
theorem serialize_refuses_iff (before after : List Call)
    (regular : ∀ e ∈ before.filterMap Call.entry?, e.value.isRegular = true) :
    let patch := (empty.run before).patch
    let left := patch.next .serialize
    let asked := empty.run (before ++ .serialize :: after)
    let spared := empty.run (before ++ after)
    (patch.entries = before.filterMap Call.entry? ∧
      patch.size = (before.filterMap Call.entry?).length ∧
      patch.isEmpty = (before.filterMap Call.entry?).isEmpty) ∧
    (patch.serialize = .error .notFinite ↔
      ∃ e ∈ patch.entries, ∃ x : Binary64, Json.StandsIn (.float x) e.value ∧ x.isFinite = false) ∧
    ((∃ text, patch.serialize = .ok text) ↔
      ∀ e ∈ patch.entries, ∀ x : Binary64, Json.StandsIn (.float x) e.value → x.isFinite = true) ∧
    (patch.toJson.isUnpaired = true → ∀ text, patch.serialize = .ok text →
      Json.ofBytes? text.toUTF8 = some (.arr (patch.entries.map fun e =>
        .obj [("op", .str e.op), ("path", .str e.path), ("value", e.value)]))) ∧
    (left = patch ∧ left.entries = patch.entries ∧ left.size = patch.size ∧ left.isEmpty = patch.isEmpty) ∧
    asked.replies[before.length]? = some (patch.serialize.map some) ∧
    asked.replies.eraseIdx before.length = spared.replies ∧
    asked.patch = spared.patch ∧ asked.patch.size = spared.patch.size ∧
      asked.patch.isEmpty = spared.patch.isEmpty := by
  intro patch left asked spared
  have entries : patch.entries = before.filterMap Call.entry? := entries_run empty before
  have size : patch.size = (before.filterMap Call.entry?).length := by
    rw [size_run]
    exact Nat.zero_add _
  have isEmpty : patch.isEmpty = (before.filterMap Call.entry?).isEmpty := isEmpty_run empty before
  have finite_iff : (¬ ∃ e ∈ patch.entries, e.value.HoldsNonfinite) ↔
      ∀ e ∈ patch.entries, ∀ x : Binary64, Json.StandsIn (.float x) e.value → x.isFinite = true := by
    simp [Json.HoldsNonfinite]
  have regularToo : ∀ e ∈ patch.entries, e.value.isRegular = true := by rwa [entries]
  obtain ⟨same, replied, others⟩ := run_serialize empty before after
  refine ⟨⟨entries, size, isEmpty⟩, serialize_eq_error_iff, isOk_serialize_iff.trans finite_iff,
    fun unpaired _ => ofBytes?_serialize regularToo unpaired, ⟨rfl, rfl, rfl, rfl⟩, replied, others, same, ?_, ?_⟩
  · exact congrArg Patch.size same
  · exact congrArg Patch.isEmpty same

/-- An infinity three levels deep, in the first of two entries, and a third entry after the refusal. -/
theorem serialize_refuses_iff_nested :
    let taint : Json := .obj [("key", .str "ci-"), ("value", .arr [.null, .float (.infinite true)])]
    let before : List Call := [.add "/spec/taints" (.arr [taint]), .addEntry "remove" "/a" (.int (-5))]
    let after : List Call := [.add "/b" .null, .serialize]
    (∀ e ∈ before.filterMap Call.entry?, e.value.isRegular = true) ∧
    (empty.run before).patch.serialize = .error .notFinite ∧
    ((empty.run before).patch.next .serialize).size = 2 ∧
    ((empty.run before).patch.next .serialize).isEmpty = false ∧
    (empty.run (before ++ .serialize :: after)).replies =
      [.ok none, .ok none, .error .notFinite, .ok none, .error .notFinite] ∧
    (empty.run (before ++ after)).replies = [.ok none, .ok none, .ok none, .error .notFinite] ∧
    (empty.run (before ++ .serialize :: after)).patch = (empty.run (before ++ after)).patch := by
  intro taint before after
  have regular : ∀ e ∈ before.filterMap Call.entry?, e.value.isRegular = true := by decide +kernel
  obtain ⟨⟨entries, size, isEmpty⟩, refused_iff, -, -, ⟨-, -, sameSize, sameEmptiness⟩, -, others, same, -, -⟩ :=
    serialize_refuses_iff before after regular
  have stands : Json.StandsIn (.float (.infinite true)) (.arr [taint]) :=
    .item List.mem_cons_self (.field (List.mem_cons_of_mem _ List.mem_cons_self)
      (.item (List.mem_cons_of_mem _ List.mem_cons_self) .itself))
  have asked : (empty.run (before ++ .serialize :: after)).replies =
      [.ok none, .ok none, .error .notFinite, .ok none, .error .notFinite] := rfl
  have refused := refused_iff.mpr ⟨.add "/spec/taints" (.arr [taint]), by simp [entries, before, Call.entry?],
    .infinite true, stands, rfl⟩
  refine ⟨regular, refused, sameSize.trans size, sameEmptiness.trans isEmpty, asked, ?_, same⟩
  rw [← others, asked]
  rfl

end Patch
end WorkloadAdmission
