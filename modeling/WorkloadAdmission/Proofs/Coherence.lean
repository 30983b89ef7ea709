import WorkloadAdmission.Proofs.Answering

/-! Every answer to a posted review is a review itself, wherever the admission fails: at the content
type, the body, the resource, the object, its patch, or the text of that. The status that an answer is
sent with, what it allows and what it carries hang together, and it goes by the names of the review
that was posted, as soon as that could be read. -/
namespace WorkloadAdmission

/-- A body that is a review with an answer in it, as it goes with a status. -/
structure CoherentReview (status : Nat) (uid apiVersion kind : Text) (body answered : Fields Json) :
    Prop where
  apiVersion : Fields.get? body "apiVersion" = some (.str apiVersion)
  kind : Fields.get? body "kind" = some (.str kind)
  response : Fields.get? body "response" = some (.obj answered)
  uid : Fields.get? answered "uid" = some (.str uid)
  allowed : Fields.get? answered "allowed" = some (.bool (decide (status = 200)))
  patchType_iff : (Fields.get? answered "patchType").isSome ↔ (Fields.get? answered "patch").isSome
  patch_allowed : (Fields.get? answered "patch").isSome → status = 200
  status_iff : (Fields.get? answered "status").isSome ↔ status ≠ 200
  code : ∀ v, Fields.get? answered "status" = some v →
    ∃ told, v = .obj told ∧ Fields.get? told "code" = some (.int status)

/-- An answer carries the text of a patch, and nothing for one without entries. -/
structure Carries (answered : Fields Json) (patch : Patch) : Prop where
  patch_iff : (Fields.get? answered "patch").isSome ↔ patch.entries ≠ []
  text : ∀ v, Fields.get? answered "patch" = some v → ∃ text, patch.encode = .ok text ∧ v = .str text

namespace Answer

variable {uid apiVersion kind : Text} {patch : Patch} {answer : Answer}

/-- The answer that allows an object holds the text of the patch, unless that has no entries. -/
theorem review_eq_ok (answered : review uid true patch apiVersion kind = .ok answer) :
    (patch.entries = [] ∧ answer = ⟨apiVersion, kind, uid, true, none, none⟩) ∨
      ∃ text, patch.entries ≠ [] ∧ patch.encode = .ok text ∧
        answer = ⟨apiVersion, kind, uid, true, some text, none⟩ := by
  cases empty : patch.isEmpty with
  | true =>
    rw [review, empty] at answered
    cases answered
    exact .inl ⟨List.isEmpty_iff.mp empty, rfl⟩
  | false =>
    rw [review, empty] at answered
    obtain ⟨text, written, made⟩ := Fallible.bind_eq_ok.mp answered
    obtain ⟨encoded, encodes, rfl⟩ := Fallible.map_eq_ok.mp written
    cases made
    refine .inr ⟨encoded, fun nothing => ?_, encodes, rfl⟩
    rw [Patch.isEmpty, nothing] at empty
    cases empty

theorem coherent_review (answered : review uid true patch apiVersion kind = .ok answer) :
    ∃ body answered, answer.toJson = .obj body ∧
      CoherentReview 200 uid apiVersion kind body answered ∧ Carries answered patch := by
  rcases review_eq_ok answered with ⟨empty, rfl⟩ | ⟨text, some, encodes, rfl⟩
  · refine ⟨_, _, rfl, ⟨rfl, rfl, rfl, rfl, rfl, ?_, ?_, ?_, ?_⟩, ⟨?_, ?_⟩⟩ <;>
      simp [Fields.get?, List.lookup_cons, empty]
  · refine ⟨_, _, rfl, ⟨rfl, rfl, rfl, rfl, rfl, ?_, ?_, ?_, ?_⟩, ⟨?_, ?_⟩⟩ <;>
      simp [Fields.get?, List.lookup_cons, some, encodes]

theorem coherent_refusal {code : Nat} (refuses : code ≠ 200) (uid message apiVersion kind : Text) :
    ∃ body answered, (refusal uid code message apiVersion kind).toJson = .obj body ∧
      CoherentReview code uid apiVersion kind body answered := by
  refine ⟨_, _, rfl, ⟨rfl, rfl, rfl, rfl, ?_, ?_, ?_, ?_, ?_⟩⟩ <;>
    simp [refusal, Fields.get?, List.lookup_cons, refuses]

end Answer

theorem Fault.status_mem (fault : Fault) : fault.status ∈ [400, 500] := by
  cases fault <;> simp [status]

namespace Service

/-- A request that says it holds a review and does. -/
def Decodes (request : Request) (review : Review) : Prop :=
  mediaType (request.contentType.getD "") = "application/json" ∧
    ∃ v, Json.ofBytes? request.body = some v ∧ Review.ofJson v = .ok review

/-- A request that posts a review, whatever the query behind its path. -/
def Posts (request : Request) : Prop :=
  request.method.toUpper = "POST" ∧ endpoint? (path request.target) = some .mutate

/-- The patch that is made for the object under review. -/
inductive Plans (settings : Settings) (source : Verdict.Source) (review : Review) : Patch → Prop where
  | pod {pod : Pod} {workload : WorkloadClass} {patch : Patch} : review.resource = some .pods →
      Pod.ofJson review.object = .ok pod →
      (pod.patch (review.nsOf pod) (review.nameOf pod) settings source).outcome = .ok (workload, patch) →
      Plans settings source review patch
  | node {node : Node} : review.resource = some .nodes → Node.ofJson review.object = .ok node →
      Plans settings source review (node.patch source).outcome.patch

variable {settings : Settings} {source : Verdict.Source} {request : Request} {review : Review}
  {answered : Answer}

theorem review_eq_ok : Service.review request = .ok review ↔ Decodes request review := by
  unfold Service.review Decodes
  split
  next apart => simp [apart]
  next told =>
    have isJson := Decidable.of_not_not told
    cases Json.ofBytes? request.body with
    | none => simp
    | some v =>
      cases v with
      | null => simp [Review.ofJson]
      | bool | int | float | str | arr | obj => simp [isJson]

theorem answer_eq_ok (answers : (answer settings source review).outcome = .ok answered) :
    ∃ patch, Plans settings source review patch ∧
      Answer.review review.uid true patch review.apiVersion review.kind = .ok answered := by
  unfold answer at answers
  split at answers
  · unfold answerNode at answers
    split at answers
    · cases answers
    next about =>
      split at answers
      · cases answers
      next node decoded =>
        exact ⟨_, .node (Decidable.of_not_not about) decoded, Fallible.mapError_eq_ok.mp answers⟩
  · unfold answerPod at answers
    split at answers
    · cases answers
    next about =>
      split at answers
      · cases answers
      next pod decoded =>
        obtain ⟨⟨workload, patch⟩, planned, written⟩ := Fallible.bind_eq_ok.mp answers
        exact ⟨patch, .pod (Decidable.of_not_not about) decoded planned, Fallible.mapError_eq_ok.mp written⟩

/-- A refusal is coherent under whatever names it goes. -/
theorem coherent_refuse (fault : Fault) (uid apiVersion kind : Text) :
    let response := refuse fault uid apiVersion kind
    response.status ∈ [400, 500] ∧ ∃ body answered, response.body = some (.obj body) ∧
      CoherentReview response.status uid apiVersion kind body answered := by
  obtain ⟨body, answered, written, coherent⟩ :=
    Answer.coherent_refusal fault.status_ne_ok uid fault.message apiVersion kind
  exact ⟨fault.status_mem, body, answered, congrArg some written, coherent⟩

theorem respond_of_posts (posts : Posts request) :
    respond settings source request = mutate settings source request := by
  obtain ⟨method, target⟩ := posts
  simp only [respond, method, target]

/-- A review that could be read gives its names to whatever it is answered with. -/
theorem mutate_of_decodes (decodes : Decodes request review) (settings : Settings)
    (source : Verdict.Source) :
    let response := (mutate settings source request).outcome
    response.status ∈ [200, 400, 500] ∧ ∃ body answered, response.body = some (.obj body) ∧
      CoherentReview response.status review.uid review.apiVersion review.kind body answered ∧
      (response.status = 200 → ∃ patch, Plans settings source review patch ∧ Carries answered patch) := by
  rw [mutate_eq_responseTo (review_eq_ok.mpr decodes)]
  cases outcome : (answer settings source review).outcome with
  | ok allowed =>
    obtain ⟨patch, plans, made⟩ := answer_eq_ok outcome
    obtain ⟨body, answered, written, coherent, carries⟩ := Answer.coherent_review made
    exact ⟨List.mem_cons_self, body, answered, congrArg some written, coherent,
      fun _ => ⟨patch, plans, carries⟩⟩
  | error fault =>
    obtain ⟨status, body, answered, written, coherent⟩ :=
      coherent_refuse fault review.uid review.apiVersion review.kind
    exact ⟨List.mem_cons_of_mem _ status, body, answered, written, coherent,
      fun allowed => absurd allowed fault.status_ne_ok⟩

/-- Without a review that could be read, the answer names none. -/
theorem mutate_of_not_decodes (undecoded : ¬ ∃ review, Decodes request review) (settings : Settings)
    (source : Verdict.Source) :
    let response := (mutate settings source request).outcome
    response.status = 400 ∧ ∃ body answered, response.body = some (.obj body) ∧
      CoherentReview response.status "" Review.defaultApiVersion Review.defaultKind body answered := by
  cases reviewed : Service.review request with
  | ok review => exact absurd ⟨review, review_eq_ok.mp reviewed⟩ undecoded
  | error fault =>
    have refused : (mutate settings source request).outcome =
        refuse (.request fault) "" Review.defaultApiVersion Review.defaultKind := by
      simp only [mutate, reviewed]
    obtain ⟨-, body, answered, written, coherent⟩ :=
      coherent_refuse (.request fault) "" Review.defaultApiVersion Review.defaultKind
    rw [refused]
    exact ⟨rfl, body, answered, written, coherent⟩

/-- A posted review is answered with a review that goes with the status that it is sent with. It has
the names of the posted one, if that could be read, and carries the patch for its object when the
object is allowed. -/
theorem answers_coherently (posts : Posts request) (settings : Settings) (source : Verdict.Source) :
    let response := (respond settings source request).outcome
    response.status ∈ [200, 400, 500] ∧ ∃ uid apiVersion kind body answered,
      response.body = some (.obj body) ∧
      CoherentReview response.status uid apiVersion kind body answered ∧
      (∀ review, Decodes request review →
        uid = review.uid ∧ apiVersion = review.apiVersion ∧ kind = review.kind) ∧
      ((¬ ∃ review, Decodes request review) →
        uid = "" ∧ apiVersion = Review.defaultApiVersion ∧ kind = Review.defaultKind) ∧
      (response.status = 200 → ∃ review patch, Decodes request review ∧
        Plans settings source review patch ∧ Carries answered patch) := by
  rw [respond_of_posts posts]
  by_cases decoded : ∃ review, Decodes request review
  · obtain ⟨review, decodes⟩ := decoded
    obtain ⟨status, body, answered, written, coherent, carries⟩ :=
      mutate_of_decodes decodes settings source
    refine ⟨status, _, _, _, body, answered, written, coherent, ?_, ?_, ?_⟩
    · intro other decodesToo
      cases (review_eq_ok.mpr decodes).symm.trans (review_eq_ok.mpr decodesToo)
      exact ⟨rfl, rfl, rfl⟩
    · exact fun undecoded => absurd ⟨review, decodes⟩ undecoded
    · intro allowed
      obtain ⟨patch, plans, carried⟩ := carries allowed
      exact ⟨review, patch, decodes, plans, carried⟩
  · obtain ⟨status, body, answered, written, coherent⟩ :=
      mutate_of_not_decodes decoded settings source
    refine ⟨by rw [status]; decide, _, _, _, body, answered, written, coherent, ?_, ?_, ?_⟩
    · exact fun review decodes => absurd ⟨review, decodes⟩ decoded
    · exact fun _ => ⟨rfl, rfl, rfl⟩
    · intro allowed
      rw [status] at allowed
      cases allowed

/-- A review of a pod that comes without one, under a name that ends in a surrogate. -/
theorem answers_coherently_without_object :
    let uid : Text := .broken "u" 0 ""
    let posted : Json := .obj [("request", .obj [("uid", .str uid),
      ("resource", .obj [("version", .str "v1"), ("resource", .str "pods")])])]
    let request : Request :=
      ⟨"POST", "/mutate?timeout=10s", some "application/json; charset=utf-8", posted.render.toUTF8⟩
    let response := (respond .default (.table ⟨[], []⟩) request).outcome
    Posts request ∧ response.status = 500 ∧ ∃ body answered, response.body = some (.obj body) ∧
      CoherentReview 500 uid Review.defaultApiVersion Review.defaultKind body answered := by
  intro uid posted request response
  have target : path request.target = "/mutate" := by decide +kernel
  have posts : Posts request := ⟨by decide +kernel, by simp [target, endpoint?]⟩
  let review : Review := ⟨Review.defaultApiVersion, Review.defaultKind, uid, "", "", some .pods, .null⟩
  have decodes : Decodes request review := ⟨by decide +kernel, posted, by decide +kernel, by rfl⟩
  have status : response.status = 500 := by
    simp only [response]
    rw [respond_of_posts posts, mutate_eq_responseTo (review_eq_ok.mpr decodes)]
    rfl
  obtain ⟨-, mirrored, apiVersion, kind, body, answered, written, coherent, names, -, -⟩ :=
    answers_coherently posts .default (.table ⟨[], []⟩)
  obtain ⟨rfl, rfl, rfl⟩ := names review decodes
  rw [status] at coherent
  exact ⟨posts, status, body, answered, written, coherent⟩

end Service
end WorkloadAdmission
