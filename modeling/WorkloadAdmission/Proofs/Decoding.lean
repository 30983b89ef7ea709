import WorkloadAdmission.Proofs.Shrinking

/-! How decoding a pod fails. Its parts are decoded in order, and the first one that cannot be decoded
gives the fault of the whole: a part of the document that has a wrong type, or the CPU request of a
container that is not counted. -/
namespace WorkloadAdmission

namespace Container

/-- A CPU request stands in an object of requests in an object of resources. -/
def Asks (item quantity : Json) : Prop :=
  ∃ fields resources requests, item = .obj fields ∧
    Fields.get? fields "resources" = some (.obj resources) ∧
    Fields.get? resources "requests" = some (.obj requests) ∧ Fields.get? requests "cpu" = some quantity

/-- The item of a list that decoding comes to, all items before it being decoded. -/
def ComesTo (spec : Fields Json) (kind : Text) (item : Json) : Prop :=
  ∃ before after, Fields.get? spec kind = some (.arr (before ++ item :: after)) ∧
    ∃ containers, before.mapM ofJson = .ok containers

variable {item quantity : Json} {fault : Fault} {spec : Fields Json} {kind : String}

theorem requestedMillis_eq_error (fails : requestedMillis quantity = .error fault) :
    (∃ cause, fault = .object cause) ∨ ∃ cause, fault = .arithmetic cause := by
  unfold requestedMillis at fails
  split at fails
  · cases fails
  all_goals cases fails
  · exact .inr ⟨_, rfl⟩
  · exact .inr ⟨_, rfl⟩
  · exact .inr ⟨_, rfl⟩
  · exact .inl ⟨_, rfl⟩

theorem ofJson_eq_error (fails : ofJson item = .error fault) :
    (∃ cause, fault = .object cause) ∨ ∃ quantity, Asks item quantity ∧ requestedMillis quantity = .error fault := by
  cases item with
  | obj fields =>
    simp only [ofJson, Fallible.bind_eq_error, Fallible.mapError_eq_error, Fallible.mapError_eq_ok] at fails
    rcases fails with ⟨cause, -, rfl⟩ | ⟨resources, outer, ⟨cause, -, rfl⟩ | ⟨requests, inner, fails⟩⟩
    · exact .inl ⟨cause, rfl⟩
    · exact .inl ⟨cause, rfl⟩
    · rcases fails with counts | ⟨millis, -, none⟩
      · obtain ⟨quantity, asked, fails⟩ := Fallible.option_mapM_eq_error_iff.mp counts
        have given := Fields.get?_of_found inner asked
        exact .inr ⟨quantity,
          ⟨fields, resources, requests, rfl, Fields.get?_of_found outer given, given, asked⟩, fails⟩
      · cases none
  | null | bool | int | float | str | arr =>
    cases fails
    exact .inl ⟨_, rfl⟩

theorem ofJson_of_asks (asks : Asks item quantity) (fails : requestedMillis quantity = .error fault) :
    ofJson item = .error fault := by
  obtain ⟨fields, resources, requests, rfl, outer, inner, asked⟩ := asks
  simp only [ofJson, Fields.objectOrEmpty_of_get? outer, Fields.objectOrEmpty_of_get? inner, asked,
    Fallible.mapError_ok, Fallible.ok_bind]
  exact Fallible.bind_eq_error.mpr (.inl (Fallible.option_mapM_eq_error_iff.mpr ⟨quantity, rfl, fails⟩))

theorem listOf_eq_error (fails : listOf spec kind = .error fault) :
    (∃ cause, fault = .object cause) ∨ ∃ item, ComesTo spec kind item ∧ ofJson item = .error fault := by
  unfold listOf at fails
  split at fails
  · cases fails
  next items held =>
    obtain ⟨before, item, after, rfl, decoded, fails⟩ := Fallible.mapM_eq_error_iff.mp fails
    have given := Fields.get?_of_get held (by simp)
    exact .inr ⟨item, ⟨before, after, given, decoded⟩, fails⟩
  · cases fails
    exact .inl ⟨_, rfl⟩

theorem listOf_of_comesTo (comes : ComesTo spec kind item) (fails : ofJson item = .error fault) :
    listOf spec kind = .error fault := by
  obtain ⟨before, after, given, decoded⟩ := comes
  rw [listOf, Fields.get_of_get? given]
  exact Fallible.mapM_eq_error_iff.mpr ⟨before, item, after, rfl, decoded, fails⟩

end Container

namespace Pod

/-- The container that decoding a pod comes to: labels and annotations are maps of texts where they are
given, and all containers before it are decoded, the initial ones first. -/
def ComesTo (document item : Json) : Prop :=
  ∃ fields, document = .obj fields ∧
    (∃ labels, Fields.texts (Fields.part fields "metadata") "pod" "labels" = .ok labels) ∧
    (∃ annotations, Fields.texts (Fields.part fields "metadata") "pod" "annotations" = .ok annotations) ∧
    (Container.ComesTo (Fields.part fields "spec") "initContainers" item ∨
      (∃ first, Container.listOf (Fields.part fields "spec") "initContainers" = .ok first) ∧
        Container.ComesTo (Fields.part fields "spec") "containers" item)

variable {document item : Json} {fault : Fault}

theorem ofJson_eq_error (fails : ofJson document = .error fault) :
    (∃ cause, fault = .object cause) ∨ ∃ item, ComesTo document item ∧ Container.ofJson item = .error fault := by
  cases document with
  | obj fields =>
    simp only [ofJson, Fallible.bind_eq_error, Fallible.mapError_eq_error, Fallible.mapError_eq_ok] at fails
    rcases fails with ⟨cause, -, rfl⟩ | ⟨labels, labelled, ⟨cause, -, rfl⟩ | ⟨annotations, annotated, fails⟩⟩
    · exact .inl ⟨cause, rfl⟩
    · exact .inl ⟨cause, rfl⟩
    · rcases fails with initial | ⟨first, decoded, later | ⟨containers, -, none⟩⟩
      · rcases Container.listOf_eq_error initial with object | ⟨item, comes, fails⟩
        · exact .inl object
        · exact .inr ⟨item, ⟨fields, rfl, ⟨labels, labelled⟩, ⟨annotations, annotated⟩, .inl comes⟩, fails⟩
      · rcases Container.listOf_eq_error later with object | ⟨item, comes, fails⟩
        · exact .inl object
        · exact .inr ⟨item, ⟨fields, rfl, ⟨labels, labelled⟩, ⟨annotations, annotated⟩,
            .inr ⟨⟨first, decoded⟩, comes⟩⟩, fails⟩
      · cases none
  | null | bool | int | float | str | arr =>
    cases fails
    exact .inl ⟨_, rfl⟩

theorem ofJson_of_comesTo (comes : ComesTo document item) (fails : Container.ofJson item = .error fault) :
    ofJson document = .error fault := by
  obtain ⟨fields, rfl, ⟨labels, labelled⟩, ⟨annotations, annotated⟩, comes⟩ := comes
  simp only [ofJson, labelled, annotated, Fallible.mapError_ok, Fallible.ok_bind]
  rcases comes with initial | ⟨⟨first, decoded⟩, later⟩
  · exact Fallible.bind_eq_error.mpr (.inl (Container.listOf_of_comesTo initial fails))
  · rw [decoded, Fallible.ok_bind]
    exact Fallible.bind_eq_error.mpr (.inl (Container.listOf_of_comesTo later fails))

/-- A fault of decoding is the object's or the arithmetic's. -/
theorem object_or_arithmetic (fails : ofJson document = .error fault) :
    (∃ cause, fault = .object cause) ∨ ∃ cause, fault = .arithmetic cause := by
  rcases ofJson_eq_error fails with object | ⟨item, -, itemFails⟩
  · exact .inl object
  · rcases Container.ofJson_eq_error itemFails with object | ⟨quantity, -, requestFails⟩
    · exact .inl object
    · exact Container.requestedMillis_eq_error requestFails

end Pod
end WorkloadAdmission
