import Mathlib.Data.List.Forall2
import WorkloadAdmission.Proofs.Manifest
import WorkloadAdmission.Proofs.Reduction

/-! What the entries that shrink requests do to a document. An entry is made for the container at a
position and leads to the requests of the item at that position, so each item is rewritten by its own
entry or kept as it is. Rewritten requests have the same keys, and the same values beside the one for
CPU. This holds for counts of any size. -/
namespace WorkloadAdmission.Container

variable {c : Container} {factor : Binary64} {millis : Int}

theorem reducible?_eq_some :
    c.reducible? = some millis ↔ c.cpuMillis = some millis ∧ 0 < millis ∧ millis % 10 ≠ 1 := by
  simp only [reducible?, Option.filter_eq_some_iff, Bool.and_eq_true, decide_eq_true_eq,
    Bool.not_eq_true', ← Bool.not_eq_true, isReduced_iff]

/-! ### Items of a document -/

theorem ofJson_eq_ok {item : Json} : ofJson item = .ok c ↔
    ∃ fields resources, item = .obj fields ∧ c.name = (Fields.get fields "name").label ∧
      Fields.objectOrEmpty fields "resources" "container resources" = .ok resources ∧
      Fields.objectOrEmpty resources "requests" "container resource requests" = .ok c.requests ∧
      (Fields.get? c.requests "cpu").mapM requestedMillis = .ok c.cpuMillis := by
  cases item with
  | obj fields =>
    simp only [ofJson, Fallible.bind_eq_ok, Fallible.mapError_eq_ok, Fallible.pure_eq_ok, Json.obj.injEq]
    constructor
    · rintro ⟨resources, outer, requests, inner, counted, counts, rfl⟩
      exact ⟨fields, resources, rfl, rfl, outer, inner, counts⟩
    · rintro ⟨_, resources, rfl, name, outer, inner, counts⟩
      exact ⟨resources, outer, c.requests, inner, c.cpuMillis, counts, by rw [← name]⟩
  | null | bool | int | float | str | arr => simp [ofJson]

theorem get?_cpu_of_counted (counts : (Fields.get? c.requests "cpu").mapM requestedMillis = .ok c.cpuMillis)
    (held : c.cpuMillis = some millis) : (Fields.get? c.requests "cpu").isSome := by
  cases found : Fields.get? c.requests "cpu" with
  | none =>
    rw [found, held] at counts
    cases counts
  | some quantity => rfl

/-- A counted CPU request stands in an object of requests in an object of resources. -/
theorem ofJson_requests {item : Json} (decoded : ofJson item = .ok c)
    (held : c.cpuMillis = some millis) :
    ∃ fields resources, item = .obj fields ∧ c.name = (Fields.get fields "name").label ∧
      Fields.get? fields "resources" = some (.obj resources) ∧
      Fields.get? resources "requests" = some (.obj c.requests) ∧
      (Fields.get? c.requests "cpu").isSome := by
  obtain ⟨fields, resources, rfl, name, outer, inner, counts⟩ := ofJson_eq_ok.mp decoded
  have cpu := get?_cpu_of_counted counts held
  obtain ⟨quantity, asked⟩ := Option.isSome_iff_exists.mp cpu
  have given := Fields.get?_of_found inner asked
  exact ⟨fields, resources, rfl, name, Fields.get?_of_found outer given, given, cpu⟩

theorem addAt?_requests {fields resources : Fields Json} (value : Json)
    (held : Fields.get? fields "resources" = some (.obj resources)) :
    Patch.addAt? value ["resources", "requests"] (.obj fields) =
      some (.obj (Fields.insert "resources" (.obj (Fields.insert "requests" value resources)) fields)) :=
  Patch.addAt?_field held rfl

/-- What shrinking by a factor makes of the item that a container is decoded from. -/
inductive Shrinks (factor : Binary64) : Json → Json → Prop where
  | spared {item : Json} {c : Container} : ofJson item = .ok c →
      factor.isAtLeastOne = true ∨ c.reducible? = none → Shrinks factor item item
  | shrunk {item item' : Json} {c : Container} {millis r : Int} : ofJson item = .ok c →
      factor.isAtLeastOne = false → c.reducible? = some millis → reducedMillis millis factor = .ok r →
      Patch.addAt? (.obj (c.requestsWith (toString r))) ["resources", "requests"] item = some item' →
      Shrinks factor item item'

/-! ### What an item keeps -/

/-- The same requests with another text for CPU. -/
structure CpuReplaced (text : Text) (before after : Fields Json) : Prop where
  cpu : Fields.get? after "cpu" = some (.str text)
  others : Fields.AgreeBeside ["cpu"] before after
  keys : ∀ key, (Fields.get? after key).isSome = (Fields.get? before key).isSome

/-- Two items are the same, unless a factor below one can shrink the CPU request of the first. Then
they are the same beside that request, which the second has as the reduced count of millicores. -/
inductive KeptBesideCpu (factor : Binary64) : Json → Json → Prop where
  | same {item : Json} {c : Container} : ofJson item = .ok c →
      factor.isAtLeastOne = true ∨ c.reducible? = none → KeptBesideCpu factor item item
  | cpu {fields resources requests replaced : Fields Json} {c : Container} {millis r : Int} :
      ofJson (.obj fields) = .ok c → factor.isAtLeastOne = false → c.reducible? = some millis →
      reducedMillis millis factor = .ok r →
      Fields.get? fields "resources" = some (.obj resources) →
      Fields.get? resources "requests" = some (.obj requests) →
      CpuReplaced (toString r ++ "m" : String) requests replaced →
      KeptBesideCpu factor (.obj fields)
        (.obj (Fields.insert "resources" (.obj (Fields.insert "requests" (.obj replaced) resources)) fields))

theorem cpuReplaced_requestsWith (requested : (Fields.get? c.requests "cpu").isSome) (count : String) :
    CpuReplaced (count ++ "m" : String) c.requests (c.requestsWith count) := by
  have cpu : Fields.get? (c.requestsWith count) "cpu" = some (.str (count ++ "m" : String)) := by
    simp [requestsWith, Fields.get?]
  have others {key : Text} (apart : key ≠ "cpu") :
      Fields.get? (c.requestsWith count) key = Fields.get? c.requests key := by
    have behind : (key == "cpu") = false := by simpa using apart
    rw [← Fields.get?_erase_ne c.requests apart]
    simp [requestsWith, Fields.get?, List.lookup_cons, behind]
  refine ⟨cpu, fun key apart => others (by simpa using apart), ?_⟩
  intro key
  by_cases same : key = "cpu"
  · rw [same, cpu, requested]
    rfl
  · rw [others same]

theorem Shrinks.keptBesideCpu {item item' : Json} (shrinks : Shrinks factor item item') :
    KeptBesideCpu factor item item' := by
  cases shrinks with
  | spared decoded nothing => exact .same decoded nothing
  | shrunk decoded below reducible reduced added =>
    obtain ⟨fields, resources, rfl, -, outer, inner, cpu⟩ :=
      ofJson_requests decoded (reducible?_eq_some.mp reducible).1
    rw [addAt?_requests _ outer] at added
    cases added
    exact .cpu decoded below reducible reduced outer inner (cpuReplaced_requestsWith cpu _)

/-! ### Entries -/

variable {kind : Text} {index : Nat} {containers : List Container} {entries : List Patch.Entry}

theorem segments?_requestsPath (plain : Pointer.IsPlain kind) (index : Nat) :
    Pointer.segments? (requestsPath kind index) =
      some (["spec", kind, toString index, "resources", "requests"] : List Text) := by
  let names : List Text := ["spec", kind, toString index, "resources", "requests"]
  have written : requestsPath kind index = Text.ofPoints ((names.map Text.points).flatMap (Pointer.slash :: ·)) := by
    rw [← Text.points_inj]
    simp [names, requestsPath, Pointer.slash]
  rw [written]
  apply Pointer.segments?_plain
  simp only [names, List.mem_cons, List.not_mem_nil, or_false]
  rintro s (rfl | rfl | rfl | rfl | rfl)
  · decide +kernel
  · exact plain
  · exact Patch.isPlain_position index
  · decide +kernel
  · decide +kernel

theorem reaches_requestsPath (plain : Pointer.IsPlain kind) {m : Manifest}
    {done rest : List Json} {item item' value : Json}
    (held : Fields.get? m.spec kind = some (.arr (done ++ item :: rest)))
    (added : Patch.addAt? value ["resources", "requests"] item = some item') :
    Manifest.Reaches [.add (requestsPath kind done.length) value] m
      (m.withSpec (Fields.insert kind (.arr (done ++ item' :: rest)) m.spec)) :=
  Manifest.reaches_addAt?_spec (segments?_requestsPath plain done.length)
    (Patch.addAt?_field held (Patch.addAt?_item added))

theorem integerText_eq_ok {n : Int} {text : String} (written : integerText n = .ok text) :
    text = toString n := by
  unfold integerText at written
  split at written
  · cases written
  · exact (Except.ok.inj written).symm

/-- A container gets an entry exactly when its request can shrink. -/
theorem reduction_eq_ok {entry : Option Patch.Entry}
    (reduced : reduction kind factor index c = .ok entry) :
    (c.reducible? = none ∧ entry = none) ∨
      ∃ millis r, c.reducible? = some millis ∧ reducedMillis millis factor = .ok r ∧
        entry = some (.add (requestsPath kind index) (.obj (c.requestsWith (toString r)))) := by
  unfold reduction at reduced
  cases reducible : c.reducible? with
  | none =>
    rw [reducible] at reduced
    cases reduced
    exact .inl ⟨rfl, rfl⟩
  | some millis =>
    rw [reducible, Option.mapM_some] at reduced
    obtain ⟨written, wrote, rfl⟩ := Fallible.map_eq_ok.mp reduced
    simp only [Fallible.bind_eq_ok, Fallible.pure_eq_ok] at wrote
    obtain ⟨r, shrunk, text, printed, rfl⟩ := wrote
    rw [integerText_eq_ok printed]
    exact .inr ⟨millis, r, rfl, shrunk, rfl⟩

/-- Every entry that shrinks containers writes the reduced request of one that can shrink. -/
theorem mem_reductionsFrom (reduced : reductionsFrom kind factor index containers = .ok entries) :
    ∀ e ∈ entries, ∃ i c millis r, containers[i]? = some c ∧ c.reducible? = some millis ∧
      reducedMillis millis factor = .ok r ∧
      e = .add (requestsPath kind (index + i)) (.obj (c.requestsWith (toString r))) := by
  induction containers generalizing index entries with
  | nil =>
    cases reduced
    simp
  | cons c rest ih =>
    simp only [reductionsFrom, Fallible.bind_eq_ok, Fallible.pure_eq_ok] at reduced
    obtain ⟨entry, here, remaining, there, rfl⟩ := reduced
    intro e member
    rcases List.mem_append.mp member with first | later
    · rcases reduction_eq_ok here with ⟨-, rfl⟩ | ⟨millis, r, reducible, shrunk, rfl⟩
      · cases first
      · exact ⟨0, c, millis, r, rfl, reducible, shrunk, List.mem_singleton.mp first⟩
    · obtain ⟨i, c', millis, r, held, reducible, shrunk, rfl⟩ := ih there e later
      refine ⟨i + 1, c', millis, r, held, reducible, shrunk, ?_⟩
      rw [Nat.add_assoc, Nat.add_comm 1 i]

/-- The entries that shrink containers write their requests and nothing else. -/
theorem path_reductionsFrom (reduced : reductionsFrom kind factor index containers = .ok entries) :
    ∀ e ∈ entries, ∃ position, e.path = requestsPath kind position := by
  intro e member
  obtain ⟨i, c, millis, r, -, -, -, rfl⟩ := mem_reductionsFrom reduced e member
  exact ⟨index + i, rfl⟩

theorem path_reductions (reduced : reductions kind factor containers = .ok entries) :
    ∀ e ∈ entries, ∃ position, e.path = requestsPath kind position := by
  unfold reductions at reduced
  split at reduced
  · cases reduced
    simp
  · exact path_reductionsFrom reduced

/-- Applying the entries for the containers from a position on rewrites the items from there on, each
by its own entry, and leaves the rest of the document as it is. -/
theorem reaches_reductionsFrom (plain : Pointer.IsPlain kind)
    (below : factor.isAtLeastOne = false) {done todo : List Json} {m : Manifest}
    (decoded : todo.mapM ofJson = .ok containers)
    (held : Fields.get? m.spec kind = some (.arr (done ++ todo)))
    (reduced : reductionsFrom kind factor done.length containers = .ok entries) :
    ∃ items, Manifest.Reaches entries m (m.withSpec (Fields.insert kind (.arr (done ++ items)) m.spec)) ∧
      List.Forall₂ (Shrinks factor) todo items := by
  -- The position of the next item is the number of those done, so an item moves over at each step,
  -- and the document changes with it.
  induction todo generalizing done containers m entries with
  | nil =>
    cases decoded
    cases reduced
    rw [List.append_nil] at held
    exact ⟨[], by simp [Fields.insert_get? held, Manifest.Reaches.nil], .nil⟩
  | cons item rest ih =>
    obtain ⟨c, others, first, remaining, rfl⟩ := Fallible.mapM_cons_eq_ok.mp decoded
    simp only [reductionsFrom, Fallible.bind_eq_ok, Fallible.pure_eq_ok] at reduced
    obtain ⟨entry, here, later, there, rfl⟩ := reduced
    rcases reduction_eq_ok here with ⟨nothing, rfl⟩ | ⟨millis, r, reducible, shrunk, rfl⟩
    · have heldThere : Fields.get? m.spec kind = some (.arr (done ++ [item] ++ rest)) := by
        simpa using held
      have thereToo : reductionsFrom kind factor (done ++ [item]).length others = .ok later := by
        rwa [List.length_append, List.length_singleton]
      obtain ⟨items, leads, shrinks⟩ := ih remaining heldThere thereToo
      exact ⟨item :: items, by simpa using leads, .cons (.spared first (.inr nothing)) shrinks⟩
    · obtain ⟨fields, resources, rfl, -, outer, -⟩ :=
        ofJson_requests first (reducible?_eq_some.mp reducible).1
      have added := addAt?_requests (.obj (c.requestsWith (toString r))) outer
      generalize Json.obj (Fields.insert "resources" _ fields) = item' at added
      have leads := reaches_requestsPath plain held added
      let m' := m.withSpec (Fields.insert kind (.arr (done ++ item' :: rest)) m.spec)
      have heldThere : Fields.get? m'.spec kind = some (.arr (done ++ [item'] ++ rest)) := by
        simp [m']
      have thereToo : reductionsFrom kind factor (done ++ [item']).length others = .ok later := by
        rwa [List.length_append, List.length_singleton]
      obtain ⟨items, leadsOn, shrinks⟩ := ih remaining heldThere thereToo
      refine ⟨item' :: items, leads.cons (by simpa [m'] using leadsOn), .cons ?_ shrinks⟩
      exact .shrunk first below reducible shrunk added

/-! ### All containers under a field -/

/-- What becomes of a field that may hold a list: each item is followed by one that it leads to, in its
place. Anything but a list stays as it is. -/
def ItemsBecome (leads : Json → Json → Prop) (before after : Option Json) : Prop :=
  match before with
  | some (.arr items) => ∃ items', after = some (.arr items') ∧ List.Forall₂ leads items items'
  | other => after = other

section Lists

variable {kind : String}

theorem listOf_eq_ok {spec : Fields Json} : listOf spec kind = .ok containers ↔
    (Fields.get spec kind = .null ∧ containers = []) ∨
      ∃ items, Fields.get spec kind = .arr items ∧ items.mapM ofJson = .ok containers := by
  unfold listOf
  cases Fields.get spec kind <;> simp [eq_comm]

theorem listOf_congr {spec changed : Fields Json} (same : Fields.get changed kind = Fields.get spec kind) :
    listOf changed kind = listOf spec kind := by
  rw [listOf, listOf, same]

theorem itemsBecome_of_null {leads : Json → Json → Prop} {spec : Fields Json}
    (nothing : Fields.get spec kind = .null) (after : Option Json) :
    ItemsBecome leads (Fields.get? spec kind) after ↔ after = Fields.get? spec kind := by
  cases found : Fields.get? spec kind with
  | none => rfl
  | some value =>
    rw [Fields.get_of_get? found] at nothing
    rw [nothing]
    rfl

theorem ItemsBecome.imp {leads leads' : Json → Json → Prop} {before after : Option Json}
    (become : ItemsBecome leads before after) (weaker : ∀ item item', leads item item' → leads' item item') :
    ItemsBecome leads' before after := by
  unfold ItemsBecome at become ⊢
  split at become
  · obtain ⟨items', rfl, pairs⟩ := become
    exact ⟨items', rfl, pairs.imp weaker⟩
  · exact become

theorem shrinks_of_isAtLeastOne (atLeastOne : factor.isAtLeastOne = true) {items : List Json}
    (decoded : items.mapM ofJson = .ok containers) : List.Forall₂ (Shrinks factor) items items := by
  induction items generalizing containers with
  | nil => exact .nil
  | cons item rest ih =>
    obtain ⟨c, others, first, remaining, rfl⟩ := Fallible.mapM_cons_eq_ok.mp decoded
    exact .cons (.spared first (.inl atLeastOne)) (ih remaining)

/-- Applying the entries for the containers under a field of a spec shrinks its items and changes no
other field. -/
theorem reaches_of_reductions (plain : Pointer.IsPlain kind) {m : Manifest}
    (decoded : listOf m.spec kind = .ok containers)
    (reduced : reductions kind factor containers = .ok entries) :
    ∃ spec, Manifest.Reaches entries m (m.withSpec spec) ∧
      ItemsBecome (Shrinks factor) (Fields.get? m.spec kind) (Fields.get? spec kind) ∧
      Fields.AgreeBeside [kind] m.spec spec := by
  have untouched : Manifest.Reaches [] m (m.withSpec m.spec) := by
    rw [Manifest.withSpec_self]
    exact .nil
  rcases listOf_eq_ok.mp decoded with ⟨nothing, rfl⟩ | ⟨items, held, itemwise⟩
  · have noEntries : reductions kind factor [] = .ok [] := by
      unfold reductions
      split <;> rfl
    cases noEntries.symm.trans reduced
    exact ⟨m.spec, untouched, (itemsBecome_of_null nothing _).mpr rfl, .refl _ _⟩
  · have heldAt : Fields.get? m.spec kind = some (.arr items) := Fields.get?_of_get held (by simp)
    unfold reductions at reduced
    split at reduced
    next atLeastOne =>
      cases reduced
      refine ⟨m.spec, untouched, ?_, .refl _ _⟩
      rw [heldAt]
      exact ⟨items, rfl, shrinks_of_isAtLeastOne atLeastOne itemwise⟩
    next below =>
      have heldFromStart : Fields.get? m.spec kind = some (.arr ([] ++ items)) := heldAt
      obtain ⟨shrunk, leads, shrinks⟩ :=
        reaches_reductionsFrom plain (Bool.eq_false_iff.mpr below) itemwise heldFromStart reduced
      refine ⟨_, leads, ?_, (Fields.AgreeBeside.refl _ _).insert (List.mem_singleton_self _) _⟩
      rw [heldAt, Fields.get?_insert_self]
      exact ⟨shrunk, rfl, shrinks⟩

end Lists

end WorkloadAdmission.Container
