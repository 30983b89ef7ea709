import WorkloadAdmission.Proofs.Fields
import WorkloadAdmission.Proofs.Path

/-! Documents with the outline that every Kubernetes object has: metadata and spec are objects. An
entry whose path leads into one of them keeps the outline and changes that one only. Unknown fields,
and fields of unexpected types further inside, are part of a manifest like any other. -/
namespace WorkloadAdmission

structure Manifest where
  fields : Fields Json
  metadata : Fields Json
  spec : Fields Json
  get?_metadata : Fields.get? fields "metadata" = some (.obj metadata)
  get?_spec : Fields.get? fields "spec" = some (.obj spec)

namespace Manifest

variable (m : Manifest)

def toJson : Json := .obj m.fields

theorem toJson_injective : Function.Injective toJson := by
  rintro ⟨fields, metadata, spec, held, heldToo⟩ ⟨fields', metadata', spec', held', heldToo'⟩ same
  cases same
  cases held.symm.trans held'
  cases heldToo.symm.trans heldToo'
  rfl

/-- The manifest that consists of its metadata and spec only. -/
def bare (metadata spec : Fields Json) : Manifest where
  fields := [("metadata", .obj metadata), ("spec", .obj spec)]
  metadata := metadata
  spec := spec
  get?_metadata := rfl
  get?_spec := rfl

def withMetadata (metadata : Fields Json) : Manifest where
  fields := Fields.insert "metadata" (.obj metadata) m.fields
  metadata := metadata
  spec := m.spec
  get?_metadata := Fields.get?_insert_self ..
  get?_spec := (Fields.get?_insert_ne _ _ (by decide)).trans m.get?_spec

def withSpec (spec : Fields Json) : Manifest where
  fields := Fields.insert "spec" (.obj spec) m.fields
  metadata := m.metadata
  spec := spec
  get?_metadata := (Fields.get?_insert_ne _ _ (by decide)).trans m.get?_metadata
  get?_spec := Fields.get?_insert_self ..

@[simp] theorem metadata_withMetadata (metadata : Fields Json) :
    (m.withMetadata metadata).metadata = metadata := rfl

@[simp] theorem spec_withMetadata (metadata : Fields Json) :
    (m.withMetadata metadata).spec = m.spec := rfl

@[simp] theorem metadata_withSpec (spec : Fields Json) : (m.withSpec spec).metadata = m.metadata := rfl

@[simp] theorem spec_withSpec (spec : Fields Json) : (m.withSpec spec).spec = spec := rfl

@[simp] theorem withMetadata_self : m.withMetadata m.metadata = m := by
  obtain ⟨fields, metadata, spec, held, heldToo⟩ := m
  simp [withMetadata, Fields.insert_get? held]

@[simp] theorem withSpec_self : m.withSpec m.spec = m := by
  obtain ⟨fields, metadata, spec, held, heldToo⟩ := m
  simp [withSpec, Fields.insert_get? heldToo]

@[simp] theorem withSpec_withSpec (first second : Fields Json) :
    (m.withSpec first).withSpec second = m.withSpec second := by
  simp [withSpec]

theorem agreeBeside_withMetadata (m : Manifest) (metadata : Fields Json) :
    Fields.AgreeBeside ["metadata", "spec"] m.fields (m.withMetadata metadata).fields :=
  (Fields.AgreeBeside.refl _ _).insert (by simp) _

theorem agreeBeside_withSpec (m : Manifest) (spec : Fields Json) :
    Fields.AgreeBeside ["metadata", "spec"] m.fields (m.withSpec spec).fields :=
  (Fields.AgreeBeside.refl _ _).insert (by simp) _

@[simp] theorem part_metadata : Fields.part m.fields "metadata" = m.metadata :=
  Fields.part_of_get? m.get?_metadata

@[simp] theorem part_spec : Fields.part m.fields "spec" = m.spec := Fields.part_of_get? m.get?_spec

/-! ### Entries -/

variable {m} {path key : Text} {rest : List Text} {value : Json} {inner : Fields Json}

theorem applied?_add {document : Json} (leads : Pointer.segments? path = some rest) :
    (Patch.Entry.add path value).applied? document = Patch.addAt? value rest document := by
  have adds : (Patch.Entry.add path value).applied? document =
      (Pointer.segments? path).bind fun segments => Patch.addAt? value segments document := by rfl
  rw [adds, leads]
  rfl

/-- Applying entries to a manifest gives another one. -/
def Reaches (entries : List Patch.Entry) (m target : Manifest) : Prop :=
  (⟨entries⟩ : Patch).applied? m.toJson = some target.toJson

theorem Reaches.nil : Reaches [] m m := rfl

theorem Reaches.append {first second : List Patch.Entry} {middle target : Manifest}
    (leads : Reaches first m middle) (leadsOn : Reaches second middle target) :
    Reaches (first ++ second) m target := by
  simp only [Reaches, Patch.applied?] at leads leadsOn ⊢
  rw [List.foldlM_append, leads]
  exact leadsOn

theorem Reaches.cons {entry : Patch.Entry} {entries : List Patch.Entry} {middle target : Manifest}
    (leads : Reaches [entry] m middle) (leadsOn : Reaches entries middle target) :
    Reaches (entry :: entries) m target := leads.append leadsOn

theorem reaches_addAt?_metadata (leads : Pointer.segments? path = some ("metadata" :: key :: rest : List Text))
    (changed : Patch.addAt? value (key :: rest) (.obj m.metadata) = some (.obj inner)) :
    Reaches [.add path value] m (m.withMetadata inner) := by
  have applied := (applied?_add leads).trans (Patch.addAt?_field m.get?_metadata changed)
  simp only [Reaches, Patch.applied?, List.foldlM_cons, toJson, applied]
  rfl

theorem reaches_addAt?_spec (leads : Pointer.segments? path = some ("spec" :: key :: rest : List Text))
    (changed : Patch.addAt? value (key :: rest) (.obj m.spec) = some (.obj inner)) :
    Reaches [.add path value] m (m.withSpec inner) := by
  have applied := (applied?_add leads).trans (Patch.addAt?_field m.get?_spec changed)
  simp only [Reaches, Patch.applied?, List.foldlM_cons, toJson, applied]
  rfl

theorem reaches_metadata (leads : Pointer.segments? path = some (["metadata", key] : List Text)) (m : Manifest)
    (value : Json) :
    Reaches [.add path value] m (m.withMetadata (Fields.insert key value m.metadata)) :=
  reaches_addAt?_metadata leads rfl

theorem reaches_spec (leads : Pointer.segments? path = some (["spec", key] : List Text)) (m : Manifest)
    (value : Json) :
    Reaches [.add path value] m (m.withSpec (Fields.insert key value m.spec)) :=
  reaches_addAt?_spec leads rfl

end Manifest
end WorkloadAdmission
