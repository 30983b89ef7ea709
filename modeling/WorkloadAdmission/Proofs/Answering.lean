import WorkloadAdmission.Proofs.Fallible
import WorkloadAdmission.Service

/-! How a review is answered once its patch is known. A patch without entries and a patch of finite
values allow the object; any other patch refuses it. What a pod or node review is answered with is
settled by the object and its patch, whatever else the request holds. -/
namespace WorkloadAdmission

namespace Json

theorem areFinite_eq_all (items : List Json) : areFinite items = items.all isFinite := by
  induction items with
  | nil => rfl
  | cons item rest ih => rw [areFinite, ih, List.all_cons]

theorem areFinite_texts (names : List Text) : areFinite (names.map .str) = true := by
  rw [areFinite_eq_all, List.all_map, List.all_eq_true]
  intro name _
  rfl

end Json

namespace Patch

/-- A patch has a text when the values of its entries have one. -/
theorem isFinite_toJson (p : Patch) : p.toJson.isFinite = p.entries.all (·.value.isFinite) := by
  rw [toJson, Json.isFinite, Json.areFinite_eq_all, List.all_map]
  congr 1
  funext e
  simp [Entry.toJson, Json.isFinite, Json.haveFinite]

end Patch

namespace Answer

variable {uid apiVersion kind : Text} {p : Patch}

theorem review_empty : review uid true .empty apiVersion kind =
    .ok ⟨apiVersion, kind, uid, true, none, none⟩ := rfl

theorem review_of_isFinite (finite : p.toJson.isFinite = true) :
    ∃ answer, review uid true p apiVersion kind = .ok answer := by
  cases empty : p.isEmpty with
  | true => exact ⟨_, by rw [review, empty]; rfl⟩
  | false => exact ⟨_, by rw [review, empty, Patch.encode, Patch.serialize, if_pos finite]; rfl⟩

theorem review_of_not_isFinite (infinite : p.toJson.isFinite = false) :
    review uid true p apiVersion kind = .error .notFinite := by
  have some : p.isEmpty = false := by
    cases empty : p.isEmpty with
    | false => rfl
    | true =>
      rw [Patch.isEmpty, List.isEmpty_iff] at empty
      simp [Patch.isFinite_toJson, empty] at infinite
  rw [review, some, Patch.encode, Patch.serialize, infinite]
  rfl

end Answer

def Review.nsOf (review : Review) (pod : Pod) : Text := if review.ns = "" then pod.ns else review.ns

def Review.nameOf (review : Review) (pod : Pod) : Text :=
  if review.name = "" then pod.name else review.name

theorem Fault.status_ne_ok (fault : Fault) : fault.status ≠ 200 := by
  cases fault <;> simp [status]

namespace Service

/-- A response that allows the object of a review, with a patch unless that is empty. -/
def Allows (response : Response) (review : Review) (patch : Patch) : Prop :=
  ∃ answer, Answer.review review.uid true patch review.apiVersion review.kind = .ok answer ∧
    response = ⟨200, some answer.toJson⟩

/-- The response to a review that leads to an answer or a fault. -/
def responseTo (review : Review) (outcome : Except Fault Answer) : Response :=
  match outcome with
  | .ok answer => ⟨200, some answer.toJson⟩
  | .error fault => refuse fault review.uid review.apiVersion review.kind

def allowing (review : Review) (patch : Patch) : Except Fault Answer :=
  (Answer.review review.uid true patch review.apiVersion review.kind).mapError .patch

variable {settings : Settings} {source : Verdict.Source} {request : Request} {review : Review}
  {patch : Patch}

theorem Allows.status {response : Response} (allows : Allows response review patch) :
    response.status = 200 := by
  obtain ⟨answer, -, rfl⟩ := allows
  rfl

theorem allows_allowing (finite : patch.toJson.isFinite = true) :
    Allows (responseTo review (allowing review patch)) review patch := by
  obtain ⟨answer, answered⟩ := Answer.review_of_isFinite finite
  refine ⟨answer, answered, ?_⟩
  simp only [allowing, answered, Fallible.mapError_ok, responseTo]

theorem allowing_not_isFinite (infinite : patch.toJson.isFinite = false) :
    allowing review patch = .error (.patch .notFinite) := by
  rw [allowing, Answer.review_of_not_isFinite infinite]
  rfl

theorem mutate_eq_responseTo (reviewed : Service.review request = .ok review) :
    (mutate settings source request).outcome =
      responseTo review (answer settings source review).outcome := by
  rw [mutate, reviewed]
  cases answered : (answer settings source review).outcome with
  | ok a => simp only [answered, responseTo]
  | error fault => simp only [answered, responseTo]

theorem mutate_pod (reviewed : Service.review request = .ok review)
    (about : review.resource = some .pods) :
    (mutate settings source request).outcome = responseTo review (do
      let pod ← Pod.ofJson review.object
      let planned ← (pod.patch (review.nsOf pod) (review.nameOf pod) settings source).outcome
      allowing review planned.2) := by
  have notNodes : ¬ review.resource.any (fun r => r.resource = Resource.nodes.resource) = true := by
    rw [about]
    decide
  rw [mutate_eq_responseTo reviewed, answer, if_neg notNodes, answerPod, if_neg fun apart => apart about]
  cases Pod.ofJson review.object with
  | error fault => rfl
  | ok pod => rfl

theorem mutate_pod_planned (reviewed : Service.review request = .ok review)
    (about : review.resource = some .pods) {pod : Pod} (decoded : Pod.ofJson review.object = .ok pod)
    {workload : WorkloadClass}
    (planned : (pod.patch (review.nsOf pod) (review.nameOf pod) settings source).outcome =
      .ok (workload, patch)) :
    (mutate settings source request).outcome = responseTo review (allowing review patch) := by
  rw [mutate_pod reviewed about, decoded, Fallible.ok_bind, planned, Fallible.ok_bind]

theorem mutate_node (reviewed : Service.review request = .ok review)
    (about : review.resource = some .nodes) :
    (mutate settings source request).outcome = responseTo review (do
      let node ← Node.ofJson review.object
      allowing review (node.patch source).outcome.patch) := by
  have nodes : review.resource.any (fun r => r.resource = Resource.nodes.resource) = true := by
    rw [about]
    decide
  rw [mutate_eq_responseTo reviewed, answer, if_pos nodes, answerNode, if_neg fun apart => apart about]
  cases Node.ofJson review.object with
  | error fault => rfl
  | ok node => rfl

end Service
end WorkloadAdmission
