import WorkloadAdmission.Proofs.Applicability

/-! Entries in another order. Two paths part when neither leads through the other, and then what is
added at one of them is no part of what is added at the other. So a list of entries whose paths part
can be applied in any order: the documents that come out are the same, up to the order of fields,
since a new field becomes the last one. Items of an array are another matter, as adding one moves
those behind it, so all paths here end in the name of a field. -/
namespace WorkloadAdmission

/-! ### The order of fields -/

namespace Json

/-- Values that are the same up to the order of fields, at any depth. -/
inductive Alike : Json → Json → Prop where
  | refl (v : Json) : Alike v v
  | arr {items items' : List Json} : items.length = items'.length →
      (∀ (i : Nat) (v v' : Json), items[i]? = some v → items'[i]? = some v' → Alike v v') →
      Alike (.arr items) (.arr items')
  | obj {fields fields' : Fields Json} :
      (∀ key, (Fields.get? fields key).isSome = (Fields.get? fields' key).isSome) →
      (∀ key v v', Fields.get? fields key = some v → Fields.get? fields' key = some v' → Alike v v') →
      Alike (.obj fields) (.obj fields')

namespace Alike

variable {v v' v'' value value' : Json} {items items' : List Json} {fields fields' : Fields Json}

theorem arr_iff : Alike (.arr items) (.arr items') ↔ items.length = items'.length ∧
    ∀ (i : Nat) (v v' : Json), items[i]? = some v → items'[i]? = some v' → Alike v v' := by
  constructor
  · intro alike
    cases alike with
    | refl =>
      refine ⟨rfl, fun i v v' held held' => ?_⟩
      cases held.symm.trans held'
      exact .refl v
    | arr length each => exact ⟨length, each⟩
  · rintro ⟨length, each⟩
    exact .arr length each

theorem obj_iff : Alike (.obj fields) (.obj fields') ↔
    (∀ key, (Fields.get? fields key).isSome = (Fields.get? fields' key).isSome) ∧
      ∀ key v v', Fields.get? fields key = some v → Fields.get? fields' key = some v' → Alike v v' := by
  constructor
  · intro alike
    cases alike with
    | refl =>
      refine ⟨fun _ => rfl, fun key v v' held held' => ?_⟩
      cases held.symm.trans held'
      exact .refl v
    | obj names each => exact ⟨names, each⟩
  · rintro ⟨names, each⟩
    exact .obj names each

theorem of_get? (same : ∀ key, Fields.get? fields key = Fields.get? fields' key) :
    Alike (.obj fields) (.obj fields') := by
  refine .obj (fun key => by rw [same]) fun key v v' held held' => ?_
  cases held.symm.trans ((same key).trans held')
  exact .refl v

theorem isArray (alike : Alike (.arr items) v) : ∃ items', v = .arr items' := by
  cases alike with
  | refl | arr => exact ⟨_, rfl⟩

theorem isObject (alike : Alike (.obj fields) v) : ∃ fields', v = .obj fields' := by
  cases alike with
  | refl | obj => exact ⟨_, rfl⟩

theorem exists_getElem? {i : Nat} (length : items.length = items'.length) (held : items[i]? = some v) :
    ∃ v', items'[i]? = some v' := by
  obtain ⟨within, -⟩ := List.getElem?_eq_some_iff.mp held
  exact ⟨items'[i], List.getElem?_eq_getElem (length ▸ within)⟩

theorem trans (first : Alike v v') (second : Alike v' v'') : Alike v v'' := by
  induction first generalizing v'' with
  | refl => exact second
  | @arr items items' length each ih =>
    obtain ⟨items'', rfl⟩ := second.isArray
    obtain ⟨length', each'⟩ := arr_iff.mp second
    refine .arr (length.trans length') fun i a c held held'' => ?_
    obtain ⟨b, held'⟩ := exists_getElem? length held
    exact ih i a b held held' (each' i b c held' held'')
  | @obj fields fields' names each ih =>
    obtain ⟨fields'', rfl⟩ := second.isObject
    obtain ⟨names', each'⟩ := obj_iff.mp second
    refine .obj (fun key => (names key).trans (names' key)) fun key a c held held'' => ?_
    obtain ⟨b, held'⟩ := Option.isSome_iff_exists.mp ((names key).symm.trans (by rw [held]; rfl))
    exact ih key a b held held' (each' key b c held' held'')

theorem insert (alike : Alike (.obj fields) (.obj fields')) (key : Text) (values : Alike value value') :
    Alike (.obj (Fields.insert key value fields)) (.obj (Fields.insert key value' fields')) := by
  obtain ⟨names, each⟩ := obj_iff.mp alike
  refine .obj (fun other => ?_) fun other v v' held held' => ?_
  · by_cases same : other = key
    · rw [same, Fields.get?_insert_self, Fields.get?_insert_self]
      rfl
    · rw [Fields.get?_insert_ne _ _ same, Fields.get?_insert_ne _ _ same, names other]
  · by_cases same : other = key
    · rw [same, Fields.get?_insert_self] at held held'
      cases held
      cases held'
      exact values
    · rw [Fields.get?_insert_ne _ _ same] at held held'
      exact each other v v' held held'

theorem set (alike : Alike (.arr items) (.arr items')) (i : Nat) (values : Alike value value') :
    Alike (.arr (items.set i value)) (.arr (items'.set i value')) := by
  obtain ⟨length, each⟩ := arr_iff.mp alike
  refine .arr (by simpa using length) fun j v v' held held' => ?_
  by_cases same : i = j
  · subst same
    simp only [List.getElem?_set_self', Option.map_eq_map, Option.map_eq_some_iff, Function.const_apply]
      at held held'
    obtain ⟨-, -, rfl⟩ := held
    obtain ⟨-, -, rfl⟩ := held'
    exact values
  · rw [List.getElem?_set_ne same] at held held'
    exact each j v v' held held'

end Alike

/-! ### Values under a segment -/

/-- The value that a segment of a path leads to. -/
def child? (document : Json) (key : Text) : Option Json :=
  match document with
  | .obj fields => Fields.get? fields key
  | .arr items => (Patch.position? key items.length).bind (items[·]?)
  | _ => none

/-- The document with another value under a segment, if the segment leads somewhere. -/
def withChild (document : Json) (key : Text) (value : Json) : Json :=
  match document with
  | .obj fields => .obj (Fields.insert key value fields)
  | .arr items =>
    match Patch.position? key items.length with
    | some i => .arr (items.set i value)
    | none => .arr items
  | v => v

variable {key other : Text} {v v' inner value value' : Json}

/-- A position that has an item is named in one way only. -/
theorem position?_inj {i length : Nat} (within : i < length)
    (named : Patch.position? key length = some i) (namedToo : Patch.position? other length = some i) :
    key = other := by
  have digits {segment : Text} (named : Patch.position? segment length = some i) :
      toString i = segment := by
    unfold Patch.position? at named
    split at named
    · exact absurd (Option.some.inj named) (Nat.ne_of_gt within)
    · exact of_decide_eq_true (List.find?_range_eq_some.mp named).1
  exact (digits named).symm.trans (digits namedToo)

theorem child?_withChild_self (held : v.child? key = some inner) (value : Json) :
    (v.withChild key value).child? key = some value := by
  cases v with
  | obj fields => exact Fields.get?_insert_self fields key value
  | arr items =>
    obtain ⟨i, named, found⟩ := Option.bind_eq_some_iff.mp held
    obtain ⟨within, -⟩ := List.getElem?_eq_some_iff.mp found
    simp only [withChild, named, child?, List.length_set, Option.bind_some,
      List.getElem?_set_self within]
  | null | bool | int | float | str => cases held

theorem child?_withChild_ne (apart : other ≠ key) (v value : Json) :
    (v.withChild key value).child? other = v.child? other := by
  cases v with
  | obj fields => exact Fields.get?_insert_ne fields value apart
  | arr items =>
    simp only [withChild]
    split
    next i named =>
      simp only [child?, List.length_set]
      cases namedToo : Patch.position? other items.length with
      | none => rfl
      | some j =>
        by_cases same : i = j
        · subst same
          have outside : ¬ i < items.length := fun within => apart (position?_inj within namedToo named)
          rw [List.set_eq_of_length_le (Nat.le_of_not_lt outside)]
        · simp only [Option.bind_some, List.getElem?_set_ne same]
    next => rfl
  | null | bool | int | float | str => rfl

theorem withChild_withChild (key : Text) (v value value' : Json) :
    (v.withChild key value).withChild key value' = v.withChild key value' := by
  cases v with
  | obj fields => exact congrArg Json.obj (Fields.insert_insert fields key value value')
  | arr items =>
    cases named : Patch.position? key items.length with
    | none => simp only [withChild, named]
    | some i => simp only [withChild, named, List.length_set, List.set_set]
  | null | bool | int | float | str => rfl

theorem withChild_comm_arr (apart : key ≠ other) (items : List Json) (value value' : Json) :
    ((arr items).withChild key value).withChild other value' =
      ((arr items).withChild other value').withChild key value := by
  cases named : Patch.position? key items.length with
  | none =>
    cases namedToo : Patch.position? other items.length with
    | none => simp only [withChild, named, namedToo]
    | some j => simp only [withChild, named, namedToo, List.length_set]
  | some i =>
    cases namedToo : Patch.position? other items.length with
    | none => simp only [withChild, named, namedToo, List.length_set]
    | some j =>
      simp only [withChild, named, namedToo, List.length_set]
      by_cases same : i = j
      · subst same
        have outside : ¬ i < items.length := fun within => apart (position?_inj within named namedToo)
        simp only [List.set_eq_of_length_le, Nat.le_of_not_lt outside]
      · rw [List.set_comm _ _ same]

/-- Under two segments the values can be set in either order. -/
theorem withChild_comm (apart : key ≠ other) (v value value' : Json) :
    Alike ((v.withChild key value).withChild other value')
      ((v.withChild other value').withChild key value) := by
  cases v with
  | obj fields => exact Alike.of_get? (Fields.get?_insert_comm fields apart value value')
  | arr items =>
    rw [withChild_comm_arr apart]
    exact .refl _
  | null | bool | int | float | str => exact .refl _

theorem Alike.child? (alike : Alike v v') (held : v.child? key = some inner) :
    ∃ inner', v'.child? key = some inner' ∧ Alike inner inner' := by
  cases alike with
  | refl => exact ⟨inner, held, .refl inner⟩
  | obj names each =>
    obtain ⟨inner', held'⟩ := Option.isSome_iff_exists.mp
      ((names key).symm.trans (Option.isSome_iff_exists.mpr ⟨inner, held⟩))
    exact ⟨inner', held', each key inner inner' held held'⟩
  | @arr items items' length each =>
    obtain ⟨i, named, found⟩ := Option.bind_eq_some_iff.mp held
    obtain ⟨inner', found'⟩ := exists_getElem? length found
    refine ⟨inner', ?_, each i inner inner' found found'⟩
    simp only [Json.child?, ← length, named, Option.bind_some, found']

theorem Alike.withChild (alike : Alike v v') (key : Text) (values : Alike value value') :
    Alike (v.withChild key value) (v'.withChild key value') := by
  cases v with
  | obj fields =>
    obtain ⟨fields', rfl⟩ := alike.isObject
    exact alike.insert key values
  | arr items =>
    obtain ⟨items', rfl⟩ := alike.isArray
    simp only [Json.withChild, ← (Alike.arr_iff.mp alike).1]
    split
    next i _ => exact alike.set i values
    next => exact alike
  | null | bool | int | float | str =>
    cases alike
    exact .refl _

end Json

/-! ### Additions -/

namespace Patch

open Json

variable {key other : Text} {path path' : List Text} {value value' document document' changed target : Json}
  {entries entries' : List Entry}

/-- A path that ends in the name of a field, or leads to the whole document. -/
def EndsInName (path : List Text) : Prop := ∀ last ∈ path.getLast?, IsName last

/-- What an addition puts under the first segment of its path. A path that ends there adds to an object. -/
def put? (value : Json) (key : Text) : List Text → Json → Option Json
  | [], document => document.fields?.map fun _ => value
  | next :: rest, document => (document.child? key).bind (addAt? value (next :: rest))

theorem addAt?_cons (ends : EndsInName (key :: path)) (value document : Json) :
    addAt? value (key :: path) document = (put? value key path document).map (document.withChild key ·) := by
  cases path with
  | nil =>
    have named : IsName key := ends key rfl
    cases document with
    | arr items => simp [addAt?, put?, fields?, position?_of_isName named]
    | obj fields => rfl
    | null | bool | int | float | str => rfl
  | cons next rest =>
    cases document with
    | obj fields =>
      simp only [addAt?, put?, child?, withChild, Option.bind_eq_bind, Option.pure_def]
      cases Fields.get? fields key with
      | none => rfl
      | some inner => simp [Option.map_eq_bind]
    | arr items =>
      simp only [addAt?, put?, child?, withChild, Option.bind_eq_bind, Option.pure_def]
      cases position? key items.length with
      | none => rfl
      | some i => simp [Option.map_eq_bind, Option.bind_assoc]
    | null | bool | int | float | str => simp [addAt?, put?, child?]

theorem put?_withChild (apart : key ≠ other) (value : Json) (path : List Text) (document value' : Json) :
    put? value key path (document.withChild other value') = put? value key path document := by
  cases path with
  | nil =>
    cases document with
    | arr items =>
      simp only [put?, withChild]
      split <;> rfl
    | obj | null | bool | int | float | str => rfl
  | cons next rest => simp only [put?, child?_withChild_ne apart]

theorem EndsInName.tail (ends : EndsInName (key :: path)) : EndsInName path := by
  cases path with
  | nil => simp [EndsInName]
  | cons next rest => simpa [EndsInName] using ends

/-- An addition makes like documents of like ones. -/
theorem addAt?_alike (ends : EndsInName path) (alike : Alike document document')
    (added : addAt? value path document = some changed) :
    ∃ changed', addAt? value path document' = some changed' ∧ Alike changed changed' := by
  induction path generalizing document document' changed with
  | nil => exact ⟨changed, added, .refl changed⟩
  | cons key rest ih =>
    rw [addAt?_cons ends] at added ⊢
    obtain ⟨put, puts, rfl⟩ := Option.map_eq_some_iff.mp added
    have putsToo : ∃ put', put? value key rest document' = some put' ∧ Alike put put' := by
      cases rest with
      | nil =>
        obtain ⟨fields, object, rfl⟩ := Option.map_eq_some_iff.mp puts
        cases document with
        | obj fields =>
          obtain ⟨fields', rfl⟩ := alike.isObject
          exact ⟨value, rfl, .refl value⟩
        | null | bool | int | float | str | arr => cases object
      | cons next others =>
        obtain ⟨inner, held, there⟩ := Option.bind_eq_some_iff.mp puts
        obtain ⟨inner', held', alikeInside⟩ := alike.child? held
        obtain ⟨put', puts', alikePuts⟩ := ih ends.tail alikeInside there
        exact ⟨put', by rw [put?, held', Option.bind_some, puts'], alikePuts⟩
    obtain ⟨put', puts', alikePuts⟩ := putsToo
    exact ⟨document'.withChild key put', by rw [puts', Option.map_some], alike.withChild key alikePuts⟩

/-- Where two paths part, two additions can be made in either order. -/
theorem addAt?_comm (ends : EndsInName path) (endsToo : EndsInName path')
    (parts : ¬ path <+: path') (partsToo : ¬ path' <+: path)
    (first : addAt? value path document = some changed)
    (second : addAt? value' path' changed = some target) :
    ∃ changed' target', addAt? value' path' document = some changed' ∧
      addAt? value path changed' = some target' ∧ Alike target target' := by
  -- As long as the paths go together the additions happen under one segment; where they part, under two.
  induction path generalizing path' document changed target with
  | nil => exact absurd List.nil_prefix parts
  | cons key rest ih =>
    cases path' with
    | nil => exact absurd List.nil_prefix partsToo
    | cons other rest' =>
      rw [addAt?_cons ends] at first
      rw [addAt?_cons endsToo] at second
      obtain ⟨put, puts, rfl⟩ := Option.map_eq_some_iff.mp first
      obtain ⟨put', puts', rfl⟩ := Option.map_eq_some_iff.mp second
      simp only [addAt?_cons ends, addAt?_cons endsToo]
      by_cases together : key = other
      · subst together
        simp only [List.cons_prefix_cons, true_and] at parts partsToo
        cases rest with
        | nil => exact absurd List.nil_prefix parts
        | cons next onward =>
          cases rest' with
          | nil => exact absurd List.nil_prefix partsToo
          | cons next' onward' =>
            obtain ⟨inner, held, there⟩ := Option.bind_eq_some_iff.mp puts
            rw [put?, child?_withChild_self held, Option.bind_some] at puts'
            obtain ⟨inner', last, here, thereToo, alike⟩ :=
              ih ends.tail endsToo.tail parts partsToo there puts'
            refine ⟨document.withChild key inner', document.withChild key last, ?_, ?_, ?_⟩
            · rw [put?, held, Option.bind_some, here, Option.map_some]
            · rw [put?, child?_withChild_self held, Option.bind_some, thereToo, Option.map_some,
                withChild_withChild]
            · rw [withChild_withChild]
              exact (Alike.refl document).withChild key alike
      · rw [put?_withChild (Ne.symm together)] at puts'
        refine ⟨document.withChild other put', (document.withChild other put').withChild key put, ?_, ?_, ?_⟩
        · rw [puts', Option.map_some]
        · rw [put?_withChild together, puts, Option.map_some]
        · exact withChild_comm together document put put'

/-! ### Entries -/

/-- An entry that adds a field, or replaces the whole document. -/
structure Entry.AddsField (e : Entry) : Prop where
  adds : e.op = "add"
  ends : ∃ path, Pointer.segments? e.path = some path ∧ EndsInName path

/-- The paths of two entries part: neither leads through the other, so they are not the same either. -/
def Entry.Apart (e e' : Entry) : Prop :=
  ∃ path path', Pointer.segments? e.path = some path ∧ Pointer.segments? e'.path = some path' ∧
    ¬ path <+: path' ∧ ¬ path' <+: path

theorem Entry.Apart.symm {e e' : Entry} (apart : e.Apart e') : e'.Apart e := by
  obtain ⟨path, path', leads, leads', parts, partsToo⟩ := apart
  exact ⟨path', path, leads', leads, partsToo, parts⟩

theorem Entry.applied?_of_add {e : Entry} (adds : e.op = "add")
    (leads : Pointer.segments? e.path = some path) (document : Json) :
    e.applied? document = addAt? e.value path document := by
  obtain ⟨op, written, value⟩ := e
  cases adds
  exact Manifest.applied?_add leads

theorem Entry.AddsField.applied?_alike {e : Entry} (field : e.AddsField)
    (alike : Alike document document') (applied : e.applied? document = some changed) :
    ∃ changed', e.applied? document' = some changed' ∧ Alike changed changed' := by
  obtain ⟨adds, path, leads, ends⟩ := field
  rw [Entry.applied?_of_add adds leads] at applied ⊢
  exact addAt?_alike ends alike applied

theorem Entry.Apart.applied?_comm {e e' : Entry} (apart : e.Apart e') (field : e.AddsField)
    (field' : e'.AddsField) (first : e.applied? document = some changed)
    (second : e'.applied? changed = some target) :
    ∃ changed' target', e'.applied? document = some changed' ∧ e.applied? changed' = some target' ∧
      Alike target target' := by
  obtain ⟨path, path', leads, leads', parts, partsToo⟩ := apart
  obtain ⟨adds, _, same, ends⟩ := field
  cases leads.symm.trans same
  obtain ⟨adds', _, same', ends'⟩ := field'
  cases leads'.symm.trans same'
  simp only [Entry.applied?_of_add adds leads, Entry.applied?_of_add adds' leads'] at first second ⊢
  exact addAt?_comm ends ends' parts partsToo first second

theorem applied?_cons {e : Entry} : (⟨e :: entries⟩ : Patch).applied? document = some target ↔
    ∃ changed, e.applied? document = some changed ∧ (⟨entries⟩ : Patch).applied? changed = some target := by
  simp only [Patch.applied?, List.foldlM_cons, Option.bind_eq_bind, Option.bind_eq_some_iff]

theorem applied?_alike (fields : ∀ e ∈ entries, e.AddsField) (alike : Alike document document')
    (applied : (⟨entries⟩ : Patch).applied? document = some target) :
    ∃ target', (⟨entries⟩ : Patch).applied? document' = some target' ∧ Alike target target' := by
  induction entries generalizing document document' with
  | nil =>
    cases applied
    exact ⟨document', rfl, alike⟩
  | cons e rest ih =>
    obtain ⟨field, others⟩ := List.forall_mem_cons.mp fields
    obtain ⟨changed, here, later⟩ := applied?_cons.mp applied
    obtain ⟨changed', here', alikeHere⟩ := field.applied?_alike alike here
    obtain ⟨target', later', alikeLater⟩ := ih others alikeHere later
    exact ⟨target', applied?_cons.mpr ⟨changed', here', later'⟩, alikeLater⟩

/-- Entries that add fields on paths that part apply in any order, with like results. -/
theorem applied?_perm (perm : entries.Perm entries') (fields : ∀ e ∈ entries, e.AddsField)
    (apart : entries.Pairwise Entry.Apart) (alike : Alike document document')
    (applied : (⟨entries⟩ : Patch).applied? document = some target) :
    ∃ target', (⟨entries'⟩ : Patch).applied? document' = some target' ∧ Alike target target' := by
  induction perm generalizing document document' target with
  | nil => exact applied?_alike fields alike applied
  | cons e _ ih =>
    obtain ⟨field, others⟩ := List.forall_mem_cons.mp fields
    obtain ⟨changed, here, later⟩ := applied?_cons.mp applied
    obtain ⟨changed', here', alikeHere⟩ := field.applied?_alike alike here
    obtain ⟨target', later', alikeLater⟩ := ih others (List.pairwise_cons.mp apart).2 alikeHere later
    exact ⟨target', applied?_cons.mpr ⟨changed', here', later'⟩, alikeLater⟩
  | swap e e' rest =>
    obtain ⟨field', field, others⟩ : e'.AddsField ∧ e.AddsField ∧ ∀ e ∈ rest, e.AddsField := by
      simpa only [List.forall_mem_cons] using fields
    obtain ⟨changed, first, behind⟩ := applied?_cons.mp applied
    obtain ⟨both, second, later⟩ := applied?_cons.mp behind
    have parts := (List.pairwise_cons.mp apart).1 e List.mem_cons_self
    obtain ⟨other, swapped, firstSwapped, secondSwapped, alikeSwapped⟩ :=
      parts.applied?_comm field' field first second
    obtain ⟨other', first', alikeFirst⟩ := field.applied?_alike alike firstSwapped
    obtain ⟨both', second', alikeBoth⟩ := field'.applied?_alike alikeFirst secondSwapped
    obtain ⟨target', later', alikeLater⟩ := applied?_alike others (alikeSwapped.trans alikeBoth) later
    exact ⟨target', applied?_cons.mpr ⟨other', first', applied?_cons.mpr ⟨both', second', later'⟩⟩,
      alikeLater⟩
  | trans perm _ ih ihToo =>
    obtain ⟨middle, reached, alikeMiddle⟩ := ih fields apart alike applied
    obtain ⟨target', reached', alikeTarget⟩ := ihToo
      (fun e member => fields e (perm.mem_iff.mpr member))
      ((perm.pairwise_iff Entry.Apart.symm).mp apart) (.refl document') reached
    exact ⟨target', reached', alikeMiddle.trans alikeTarget⟩

end Patch
end WorkloadAdmission
