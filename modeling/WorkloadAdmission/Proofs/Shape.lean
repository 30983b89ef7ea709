import WorkloadAdmission.Proofs.Countability
import WorkloadAdmission.Proofs.Taints

/-! The types that decoding checks. A reader accepts a part exactly if it is left out, null or of the type
that is read, so a decoded pod or node has these types at all parts that are read. Metadata and spec are no
such parts: where they are no objects they count as empty. A document with another type at some part is
blamed for it, unless a container before that part asks for a quantity that cannot be counted. -/
namespace WorkloadAdmission

namespace Json

/-! ### Shapes -/

def IsObject (v : Json) : Prop := ∃ fields, v = .obj fields

/-- An object whose values are all texts. -/
def IsTextMap (v : Json) : Prop := ∃ entries, v = .obj entries ∧ ∀ entry ∈ entries, ∃ s, entry.2 = .str s

def IsListOf (shape : Json → Prop) (v : Json) : Prop := ∃ items, v = .arr items ∧ ∀ item ∈ items, shape item

/-- Null, as an absent field is, or of some shape. -/
def OrNull (shape : Json → Prop) (v : Json) : Prop := v = .null ∨ shape v

/-- Falsy, as an absent field is, or an object. -/
def IsObjectOrFalsy (v : Json) : Prop := v.isFalsy = true ∨ v.IsObject

end Json

open Json

/-! ### Readers -/

namespace Fields

variable {fields : Fields Json} {kind name part : String} {key : Text}

theorem isTextMap_iff {v : Json} : v.IsTextMap ↔ ∃ written, v = textsToJson written := by
  constructor
  · rintro ⟨entries, rfl, all⟩
    induction entries with
    | nil => exact ⟨[], rfl⟩
    | cons entry rest ih =>
      obtain ⟨name, value⟩ := entry
      obtain ⟨⟨s, rfl⟩, there⟩ := List.forall_mem_cons.mp all
      obtain ⟨written, same⟩ := ih there
      refine ⟨(name, s) :: written, ?_⟩
      rw [textsToJson, Json.obj.injEq] at same ⊢
      rw [List.map_cons, ← same]
  · rintro ⟨written, rfl⟩
    refine ⟨_, rfl, fun entry member => ?_⟩
    obtain ⟨⟨k, s⟩, -, rfl⟩ := List.mem_map.mp member
    exact ⟨s, rfl⟩

/-- A map of texts is read exactly where there is one or nothing. -/
theorem isOk_texts_iff :
    (∃ found, texts fields kind name = .ok found) ↔ (get fields name).OrNull IsTextMap := by
  rw [OrNull, isTextMap_iff]
  constructor
  · rintro ⟨_ | written, read⟩
    · left
      unfold texts at read
      split at read
      next nothing => exact nothing
      next =>
        obtain ⟨_, -, found⟩ := Fallible.bind_eq_ok.mp read
        cases found
      next => cases read
    · exact .inr ⟨written, eq_textsToJson_of_texts read⟩
  · rintro (nothing | ⟨written, held⟩)
    · exact ⟨none, by rw [texts, nothing]⟩
    · exact ⟨some written, texts_textsToJson held kind⟩

theorem isOk_objectOrEmpty_iff :
    (∃ inner, objectOrEmpty fields key part = .ok inner) ↔ (get fields key).IsObjectOrFalsy := by
  unfold objectOrEmpty IsObjectOrFalsy IsObject
  cases get fields key with
  | obj inner => simp
  | null | bool | int | float | str | arr =>
    dsimp only
    split <;> simp_all

/-- What is read in a part is read where the part is an object. -/
theorem orNull_get_part {shape : Json → Prop} {outer : Text} :
    (get (Fields.part fields outer) key).OrNull shape ↔
      ∀ inner, get fields outer = .obj inner → (get inner key).OrNull shape := by
  unfold Fields.part
  cases get fields outer with
  | obj inner => simp
  | null | bool | int | float | str | arr => simp [get, OrNull]

end Fields

theorem Node.isOk_taintsOf_iff {spec : Fields Json} :
    (∃ taints, taintsOf spec = .ok taints) ↔ (Fields.get spec "taints").OrNull (IsListOf IsObject) := by
  unfold taintsOf OrNull IsListOf IsObject
  cases Fields.get spec "taints" with
  | null => simp
  | arr items =>
    have itemwise :
        (∃ taints, items.mapM (fun v => v.fields?.elim (Except.error ObjectFault.taints) .ok) = .ok taints) ↔
          ∀ item ∈ items, ∃ fields, item = .obj fields := by
      rw [Fallible.isOk_mapM_iff]
      refine forall₂_congr fun item _ => ?_
      cases item <;> simp [fields?]
    simpa using itemwise
  | bool | int | float | str | obj => simp

namespace Container

/-- An object whose resources, and the requests in them, are objects unless they are falsy. -/
def IsShaped (item : Json) : Prop :=
  ∃ fields, item = .obj fields ∧ (Fields.get fields "resources").IsObjectOrFalsy ∧
    ∀ resources, Fields.get fields "resources" = .obj resources →
      (Fields.get resources "requests").IsObjectOrFalsy

theorem isShaped_of_ofJson {item : Json} {c : Container} (decoded : ofJson item = .ok c) : IsShaped item := by
  obtain ⟨fields, resources, rfl, -, outer, inner, -⟩ := ofJson_eq_ok.mp decoded
  refine ⟨fields, rfl, Fields.isOk_objectOrEmpty_iff.mp ⟨_, outer⟩, ?_⟩
  intro given held
  have same : given = resources := by
    rw [Fields.objectOrEmpty, held] at outer
    exact Except.ok.inj outer
  rw [same]
  exact Fields.isOk_objectOrEmpty_iff.mp ⟨_, inner⟩

theorem isListOf_of_listOf {spec : Fields Json} {kind : String} {containers : List Container}
    (decoded : listOf spec kind = .ok containers) : (Fields.get spec kind).OrNull (IsListOf IsShaped) := by
  rcases listOf_eq_ok.mp decoded with ⟨nothing, -⟩ | ⟨items, held, itemwise⟩
  · exact .inl nothing
  · refine .inr ⟨items, held, fun item member => ?_⟩
    obtain ⟨c, read⟩ := Fallible.isOk_mapM_iff.mp ⟨_, itemwise⟩ item member
    exact isShaped_of_ofJson read

end Container

/-! ### Documents -/

namespace Pod

/-- An object with these types: labels and annotations in its metadata are maps of texts, and both kinds of
containers in its spec are lists of containers, as far as they are given. -/
def IsShaped (document : Json) : Prop :=
  ∃ fields, document = .obj fields ∧
    (∀ metadata, Fields.get fields "metadata" = .obj metadata →
      (Fields.get metadata "labels").OrNull IsTextMap ∧ (Fields.get metadata "annotations").OrNull IsTextMap) ∧
    ∀ spec, Fields.get fields "spec" = .obj spec →
      (Fields.get spec "initContainers").OrNull (IsListOf Container.IsShaped) ∧
        (Fields.get spec "containers").OrNull (IsListOf Container.IsShaped)

theorem isShaped_of_ofJson {document : Json} {pod : Pod} (decoded : ofJson document = .ok pod) :
    IsShaped document := by
  cases document with
  | obj fields =>
    simp only [ofJson, Fallible.bind_eq_ok, Fallible.mapError_eq_ok] at decoded
    obtain ⟨labels, labelled, annotations, annotated, initial, first, containers, rest, -⟩ := decoded
    have maps := Fields.isOk_texts_iff.mp ⟨_, labelled⟩
    have mapsToo := Fields.isOk_texts_iff.mp ⟨_, annotated⟩
    have lists := Container.isListOf_of_listOf first
    have listsToo := Container.isListOf_of_listOf rest
    rw [Fields.orNull_get_part] at maps mapsToo lists listsToo
    exact ⟨fields, rfl, fun metadata held => ⟨maps metadata held, mapsToo metadata held⟩,
      fun spec held => ⟨lists spec held, listsToo spec held⟩⟩
  | null | bool | int | float | str | arr => cases decoded

end Pod

namespace Node

/-- An object with these types: labels in its metadata are a map of texts, and taints in its spec are a list
of objects, as far as they are given. -/
def IsShaped (document : Json) : Prop :=
  ∃ fields, document = .obj fields ∧
    (∀ metadata, Fields.get fields "metadata" = .obj metadata →
      (Fields.get metadata "labels").OrNull IsTextMap) ∧
    ∀ spec, Fields.get fields "spec" = .obj spec → (Fields.get spec "taints").OrNull (IsListOf IsObject)

theorem isOk_ofJson_iff {document : Json} : (∃ node, ofJson document = .ok node) ↔ IsShaped document := by
  cases document with
  | obj fields =>
    have labels : (∃ found, Fields.texts (Fields.part fields "metadata") "node" "labels" = .ok found) ↔ _ :=
      Fields.isOk_texts_iff
    have taints : (∃ taints, taintsOf (Fields.part fields "spec") = .ok taints) ↔ _ := isOk_taintsOf_iff
    rw [Fields.orNull_get_part] at labels taints
    simp only [IsShaped, Json.obj.injEq, exists_eq_left', ← labels, ← taints]
    simp only [ofJson, Fallible.bind_eq_ok, Fallible.mapError_eq_ok]
    constructor
    · rintro ⟨node, found, tainted, read, labelled, -⟩
      exact ⟨⟨read, labelled⟩, found, tainted⟩
    · rintro ⟨⟨read, labelled⟩, found, tainted⟩
      exact ⟨_, found, tainted, read, labelled, rfl⟩
  | null | bool | int | float | str | arr => simp [ofJson, IsShaped]

theorem ofJson_eq_error {document : Json} {fault : Fault} (fails : ofJson document = .error fault) :
    ∃ blamed, fault = .object blamed := by
  cases document with
  | obj fields =>
    simp only [ofJson, Fallible.bind_eq_error, Fallible.mapError_eq_error] at fails
    rcases fails with ⟨blamed, -, rfl⟩ | ⟨taints, -, ⟨blamed, -, rfl⟩ | ⟨labels, -, none⟩⟩
    · exact ⟨blamed, rfl⟩
    · exact ⟨blamed, rfl⟩
    · cases none
  | null | bool | int | float | str | arr =>
    cases fails
    exact ⟨_, rfl⟩

end Node

/-- What decoding accepts has the types that are read, and a document with others is blamed for it. For a
pod that holds unless decoding meets an uncountable quantity first; a node has no quantities. -/
theorem decoded_documents_are_shaped (document : Json) :
    ((∃ pod, Pod.ofJson document = .ok pod) → Pod.IsShaped document) ∧
    (¬ Pod.IsShaped document → (∀ cause, ¬ Pod.MeetsUncountable document cause) →
      ∃ blamed, Pod.ofJson document = .error (.object blamed)) ∧
    ((∃ node, Node.ofJson document = .ok node) ↔ Node.IsShaped document) ∧
    (¬ Node.IsShaped document → ∃ blamed, Node.ofJson document = .error (.object blamed)) := by
  refine ⟨fun ⟨pod, decoded⟩ => Pod.isShaped_of_ofJson decoded, ?_, Node.isOk_ofJson_iff, ?_⟩
  · intro odd countable
    rcases Pod.decoded_or_blamed_iff.mpr countable with ⟨pod, decoded⟩ | blamed
    · exact absurd (Pod.isShaped_of_ofJson decoded) odd
    · exact blamed
  · intro odd
    cases decodes : Node.ofJson document with
    | ok node => exact absurd (Node.isOk_ofJson_iff.mp ⟨node, decodes⟩) odd
    | error fault =>
      obtain ⟨blamed, rfl⟩ := Node.ofJson_eq_error decodes
      exact ⟨blamed, rfl⟩

/-- A pod with a label that is no text, and a node with a taint that is no object. -/
theorem decoded_documents_are_shaped_odd :
    (∃ blamed, Pod.ofJson (.obj [("metadata", .obj [("labels", .obj [("app", .int 5)])])]) =
      .error (.object blamed)) ∧
    ∃ blamed, Node.ofJson (.obj [("spec", .obj [("taints", .arr [.null])])]) = .error (.object blamed) := by
  constructor
  · refine (decoded_documents_are_shaped _).2.1 ?_ ?_
    · rintro ⟨fields, same, metadata, -⟩
      cases same
      rcases (metadata _ rfl).1 with none | ⟨entries, same, all⟩
      · cases none
      · cases same
        obtain ⟨s, text⟩ := all _ List.mem_cons_self
        cases text
    · rintro cause ⟨item, quantity, ⟨fields, same, ⟨labels, labelled⟩, -⟩, -⟩
      cases same
      cases labelled
  · refine (decoded_documents_are_shaped _).2.2.2 ?_
    rintro ⟨fields, same, -, spec⟩
    cases same
    rcases spec _ rfl with none | ⟨items, same, all⟩
    · cases none
    · cases same
      obtain ⟨taint, object⟩ := all _ List.mem_cons_self
      cases object

/-- Metadata and spec may have any type. -/
theorem oddly_typed_parts_decode :
    ¬ ((∀ document, (∃ pod, Pod.ofJson document = .ok pod) → ∃ fields, document = .obj fields ∧
        (Fields.get fields "metadata").OrNull IsObject ∧ (Fields.get fields "spec").OrNull IsObject) ∨
      ∀ document, (∃ node, Node.ofJson document = .ok node) → ∃ fields, document = .obj fields ∧
        (Fields.get fields "metadata").OrNull IsObject ∧ (Fields.get fields "spec").OrNull IsObject) := by
  have apart (rejects : ∃ fields, Json.obj [("metadata", .int 5), ("spec", .str "none")] = .obj fields ∧
      (Fields.get fields "metadata").OrNull IsObject ∧ (Fields.get fields "spec").OrNull IsObject) : False := by
    obtain ⟨fields, same, none | ⟨metadata, object⟩, -⟩ := rejects
    · cases same
      cases none
    · cases same
      cases object
  rintro (pods | nodes)
  · exact apart (pods _ ⟨⟨"", "", none, none, [], []⟩, by decide⟩)
  · exact apart (nodes _ ⟨⟨"", none, []⟩, by decide⟩)

end WorkloadAdmission
