import WorkloadAdmission.Proofs.Answering
import WorkloadAdmission.Proofs.Document

/-! A patch on its way to the one who applies it. The answer carries it as base64 of the bytes of its
JSON text, and both are undone without loss: the list of entries that is read from the answer is the
list that was put into it. -/
namespace WorkloadAdmission

namespace Patch

variable {patch : Patch}

theorem isRegular_toJson (regular : ∀ e ∈ patch.entries, e.value.isRegular = true) :
    patch.toJson.isRegular = true := by
  rw [toJson, Json.isRegular, Json.areRegular_iff]
  intro v member
  obtain ⟨e, entry, rfl⟩ := List.mem_map.mp member
  simp [Entry.toJson, Json.isRegular, Json.haveRegular, regular e entry]

theorem isUnpaired_toJson (unpaired : ∀ e ∈ patch.entries,
      e.op.isUnpaired = true ∧ e.path.isUnpaired = true ∧ e.value.isUnpaired = true) :
    patch.toJson.isUnpaired = true := by
  rw [toJson, Json.isUnpaired, Json.areUnpaired_iff]
  intro v member
  obtain ⟨e, entry, rfl⟩ := List.mem_map.mp member
  simp [Entry.toJson, Json.isUnpaired, Json.haveUnpaired, unpaired e entry]

theorem encode_of_isFinite (finite : patch.toJson.isFinite = true) :
    patch.encode = .ok (Base64.encode patch.toJson.render.toUTF8) := by
  rw [encode, serialize, if_pos finite]
  rfl

end Patch

namespace Answer

/-- A patch with entries, of finite numbers and no integer that is too long, is carried by the answer
that is made for it, as ASCII and with each entry as it was. Fields of one object have distinct names. Its
texts may hold any code points, but no high surrogate directly before a low one: such a pair is read as the
character that it writes. -/
theorem review_carries_entries {patch : Patch} (some : patch.entries ≠ [])
    (finite : ∀ e ∈ patch.entries, e.value.isFinite = true)
    (regular : ∀ e ∈ patch.entries, e.value.isRegular = true)
    (unpaired : ∀ e ∈ patch.entries,
      e.op.isUnpaired = true ∧ e.path.isUnpaired = true ∧ e.value.isUnpaired = true)
    (uid : Text) (allowed : Bool) (apiVersion kind : Text) :
    ∃ (answer : Answer) (body response : Fields Json) (text : String) (bytes : ByteArray),
      review uid allowed patch apiVersion kind = .ok answer ∧
      answer.toJson = .obj body ∧ Fields.get? body "response" = .some (.obj response) ∧
      Fields.get? response "patch" = .some (.str text) ∧ Base64.decode? text = .some bytes ∧
      (∀ b ∈ bytes.data.toList, b.toNat < 128) ∧
      Json.ofBytes? bytes = .some (.arr (patch.entries.map fun e =>
        .obj [("op", .str e.op), ("path", .str e.path), ("value", e.value)])) := by
  have writable : patch.toJson.isFinite = true := by
    rw [Patch.isFinite_toJson, List.all_eq_true]
    exact finite
  have plain : ∀ c ∈ patch.toJson.render.toList, Text.IsPlain c := by
    rw [Json.render, String.toList_ofList]
    exact Json.isPlain_chars patch.toJson
  have full : patch.isEmpty = false := by
    rw [Patch.isEmpty]
    simpa using some
  have made : review uid allowed patch apiVersion kind = .ok ⟨apiVersion, kind, uid, allowed,
      .some (Base64.encode patch.toJson.render.toUTF8), none⟩ := by
    rw [review, full, Patch.encode_of_isFinite writable]
    rfl
  refine ⟨_, _, _, _, _, made, rfl, rfl, rfl, Base64.decode?_encode _, ?_, ?_⟩
  · intro b member
    exact (Text.toUTF8_of_plain plain b member).2
  · exact Json.ofBytes?_render (Patch.isRegular_toJson regular) (Patch.isUnpaired_toJson unpaired)

/-- Characters of every length, a surrogate that stands alone, a field without a name, the least and a large
number, and integers beside them. -/
theorem review_carries_entries_mixed :
    let least : Json := .float (.ofDecimal true 5 (-324))
    let value : Json := .obj [("\x00\x7f\t\"\\/", .arr [least, .int (-5), .null, .obj [], .str (.broken "a" 0 "b")]),
      ("é€😀", .bool false), ("", .arr [.float (.ofDecimal false 1 22), .int (10 ^ 22)])]
    let patch : Patch := ⟨[⟨"add", "/metadata/labels", value⟩, ⟨"remove", "/a~1b", .str "😀"⟩]⟩
    ∃ (answer : Answer) (body response : Fields Json) (text : String) (bytes : ByteArray),
      review "u" true patch "v1" "AdmissionReview" = .ok answer ∧
      answer.toJson = .obj body ∧ Fields.get? body "response" = some (.obj response) ∧
      Fields.get? response "patch" = some (.str text) ∧ Base64.decode? text = some bytes ∧
      (∀ b ∈ bytes.data.toList, b.toNat < 128) ∧
      Json.ofBytes? bytes = some (.arr
        [.obj [("op", .str "add"), ("path", .str "/metadata/labels"), ("value", value)],
          .obj [("op", .str "remove"), ("path", .str "/a~1b"), ("value", .str "😀")]]) := by
  intro least value patch
  exact review_carries_entries (by simp [patch]) (by decide +kernel) (by decide +kernel) (by decide +kernel)
    "u" true "v1" "AdmissionReview"

end Answer
end WorkloadAdmission
