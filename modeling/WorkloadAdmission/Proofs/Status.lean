import WorkloadAdmission.Proofs.Coherence
import WorkloadAdmission.Proofs.Decoding
import WorkloadAdmission.Proofs.Document
import WorkloadAdmission.Proofs.Taints
import WorkloadAdmission.Proofs.Writability

/-! What decides the status of an answer. A request that holds no review of a pod or node is malformed,
and then neither the store nor the object under review has a say. Any other request fails in two ways
only: its object cannot be decoded, or its patch cannot be written. Documents may be nested as deeply
as they like here; a limit on that, as a runtime has one, is not modelled. -/
namespace WorkloadAdmission

/-! ### Faults of the object under review -/

theorem Pod.status_of_ofJson {document : Json} {fault : Fault} (fails : ofJson document = .error fault) :
    fault.status = 500 := by
  rcases object_or_arithmetic fails with ⟨cause, rfl⟩ | ⟨cause, rfl⟩
  · rfl
  · rfl

theorem Node.status_of_ofJson {document : Json} {fault : Fault} (fails : ofJson document = .error fault) :
    fault.status = 500 := by
  cases document with
  | obj fields =>
    simp only [ofJson, Fallible.bind_eq_error, Fallible.mapError_eq_error] at fails
    rcases fails with ⟨cause, -, rfl⟩ | ⟨taints, -, ⟨cause, -, rfl⟩ | ⟨labels, -, none⟩⟩
    · rfl
    · rfl
    · cases none
  | null | bool | int | float | str | arr =>
    cases fails
    rfl

theorem Pod.status_of_patch {pod : Pod} {ns name : Text} {settings : Settings}
    {source : Verdict.Source} {fault : Fault}
    (fails : (pod.patch ns name settings source).outcome = .error fault) : fault.status = 500 := by
  unfold patch at fails
  split at fails
  · cases fails
  · split at fails
    · cases fails
      rfl
    · obtain ⟨cause, -, rfl⟩ := Fallible.mapError_eq_error.mp fails
      rfl

/-! ### The patch of a node -/

namespace Node

/-- The verdict on a node changes its taints to a list that holds a number that is not finite. -/
def IsUnwritable (source : Verdict.Source) (node : Node) : Prop :=
  ∃ workload state, node.workload? = some workload ∧
    (source.avoidance node.name).outcome = .ok (some state) ∧
    (Taint.reconcile node.taints workload state).changed = true ∧
    ∃ taint ∈ (Taint.reconcile node.taints workload state).taints, ∃ key v,
      (key, v) ∈ taint ∧ v.isFinite = false

theorem isFinite_taints (taints : List Taint) :
    (Json.arr (taints.map .obj)).isFinite = true ↔
      ∀ taint ∈ taints, ∀ key v, (key, v) ∈ taint → v.isFinite = true := by
  have whole : (Json.arr (taints.map .obj)).isFinite = taints.all fun taint => taint.all (·.2.isFinite) := by
    rw [Json.isFinite, Json.areFinite_eq_all, List.all_map]
    congr 1
    funext taint
    exact Json.haveFinite_eq_all taint
  rw [whole]
  simp only [List.all_eq_true, Prod.forall]

theorem isFinite_taintEntries (taints : List Taint) (state : Avoidance) :
    (⟨taintEntries taints state⟩ : Patch).toJson.isFinite = (Json.arr (taints.map .obj)).isFinite := by
  have label : (Json.str (if state = .noSchedule then "true" else "false")).isFinite = true := by rfl
  rw [Patch.isFinite_toJson]
  simp only [taintEntries, Patch.Entry.add, List.all_cons, List.all_nil, label, Bool.and_true]

theorem patch_of_state {node : Node} {source : Verdict.Source} {workload : Text} {state : Avoidance}
    (serves : node.workload? = some workload)
    (told : (source.avoidance node.name).outcome = .ok (some state)) :
    (node.patch source).outcome.patch = ⟨if (Taint.reconcile node.taints workload state).changed then
      taintEntries (Taint.reconcile node.taints workload state).taints state else []⟩ := by
  rw [patch_outcome, Verdict.Source.heededState_eq_some_iff.mpr told, planUnder_some serves]

theorem patch_of_no_state {node : Node} {source : Verdict.Source}
    (silent : ∀ workload state, node.workload? = some workload →
      (source.avoidance node.name).outcome ≠ .ok (some state)) :
    (node.patch source).outcome.patch = .empty := by
  rw [patch_outcome]
  rcases node.planUnder_cases (source.heededState node.name) with
    nothing | ⟨workload, state, serves, told, -⟩
  · exact nothing
  · exact absurd (Verdict.Source.heededState_eq_some_iff.mp told) (silent workload state serves)

theorem patch_writable_iff (node : Node) (source : Verdict.Source) :
    (node.patch source).outcome.patch.toJson.isFinite = true ↔ ¬ node.IsUnwritable source := by
  by_cases heeded : ∃ workload state, node.workload? = some workload ∧
      (source.avoidance node.name).outcome = .ok (some state)
  · obtain ⟨workload, state, serves, told⟩ := heeded
    rw [patch_of_state serves told]
    have unwritable_iff : node.IsUnwritable source ↔
        (Taint.reconcile node.taints workload state).changed = true ∧
          ∃ taint ∈ (Taint.reconcile node.taints workload state).taints, ∃ key v,
            (key, v) ∈ taint ∧ v.isFinite = false := by
      simp only [IsUnwritable, serves, told, Option.some.injEq, Except.ok.injEq, exists_and_left,
        exists_eq_left']
    rw [unwritable_iff]
    cases changed : (Taint.reconcile node.taints workload state).changed with
    | false => simp [Patch.isFinite_toJson]
    | true =>
      simp only [if_true, true_and, isFinite_taintEntries, isFinite_taints]
      push Not
      simp only [ne_eq, Bool.not_eq_false]
  · have empty : (node.patch source).outcome.patch = .empty := by
      apply patch_of_no_state
      intro workload state serves told
      exact heeded ⟨workload, state, serves, told⟩
    rw [empty]
    constructor
    · rintro - ⟨workload, state, serves, told, -⟩
      exact heeded ⟨workload, state, serves, told⟩
    · intro _
      rfl

end Node

/-! ### Reads -/

namespace Verdict.Source

theorem length_keys_precludedHosts (source : Source) (workload : WorkloadClass) :
    (source.precludedHosts workload).keys.length ≤ 1 := by
  cases source with
  | table t => exact Nat.zero_le 1
  | store keyspace s => exact Nat.le_refl 1

theorem length_keys_avoidance (source : Source) (node : Text) :
    (source.avoidance node).keys.length ≤ 1 := by
  cases source with
  | table t => exact Nat.zero_le 1
  | store keyspace s => exact Nat.le_refl 1

end Verdict.Source

theorem Pod.length_keys_patch (pod : Pod) (ns name : Text) (settings : Settings)
    (source : Verdict.Source) : (pod.patch ns name settings source).keys.length ≤ 1 := by
  unfold patch
  split
  · exact Nat.zero_le 1
  · split
    · exact Nat.zero_le 1
    · exact source.length_keys_precludedHosts _

theorem Node.length_keys_patch (node : Node) (source : Verdict.Source) :
    (node.patch source).keys.length ≤ 1 := by
  unfold patch
  split
  · exact Nat.zero_le 1
  · dsimp only
    split
    · exact source.length_keys_avoidance _
    · exact source.length_keys_avoidance _

/-- A document with another object under review, if it holds a request. -/
def Json.withObject (document object : Json) : Json :=
  match document with
  | .obj fields =>
    match Fields.get fields "request" with
    | .obj request =>
      .obj (Fields.insert "request" (.obj (Fields.insert "object" object request)) fields)
    | _ => document
  | _ => document

theorem Review.ofJson_withObject (document object : Json) :
    ofJson (document.withObject object) =
      (ofJson document).map fun review => { review with object := object } := by
  cases document with
  | obj fields =>
    cases held : Fields.get fields "request" with
    | obj request =>
      simp [Json.withObject, held, ofJson, textOr]
    | null | bool | int | float | str | arr =>
      simp only [Json.withObject, held, ofJson]
      rfl
  | null | bool | int | float | str | arr => rfl

namespace Service

/-- A request that holds no review of a pod or node. -/
inductive Malformed (request : Request) : Prop where
  | contentType : mediaType (request.contentType.getD "") ≠ "application/json" → Malformed request
  | unparsed : Json.ofBytes? request.body = none → Malformed request
  | notAnObject {v : Json} : Json.ofBytes? request.body = some v → v.fields? = none → Malformed request
  | noRequest {fields : Fields Json} : Json.ofBytes? request.body = some (.obj fields) →
      (Fields.get fields "request").fields? = none → Malformed request
  | resource {fields inner : Fields Json} : Json.ofBytes? request.body = some (.obj fields) →
      Fields.get fields "request" = .obj inner →
      Resource.ofJson? (Fields.get inner "resource") ∉ [some .pods, some .nodes] → Malformed request

/-- Why a review of a pod or node is not answered with its patch. -/
inductive Fails (settings : Settings) (source : Verdict.Source) (review : Review) : Prop where
  | undecodedPod : review.resource = some .pods → (∀ pod, Pod.ofJson review.object ≠ .ok pod) →
      Fails settings source review
  | undecodedNode : review.resource = some .nodes → (∀ node, Node.ofJson review.object ≠ .ok node) →
      Fails settings source review
  | unwritablePod {pod : Pod} {c : Container} : review.resource = some .pods →
      Pod.ofJson review.object = .ok pod →
      pod.classify (review.nsOf pod) (review.nameOf pod) ≠ .unclassified →
      c ∈ pod.initContainers ++ pod.containers →
      c.IsUnwritable (settings.cpuFactor (pod.classify (review.nsOf pod) (review.nameOf pod))) →
      Fails settings source review
  | unwritableNode {node : Node} : review.resource = some .nodes → Node.ofJson review.object = .ok node →
      node.IsUnwritable source → Fails settings source review

variable {settings : Settings} {source : Verdict.Source} {keyspace : Text} {s : Store}
  {request other : Request} {review : Review} {object : Json} {pod : Pod} {node : Node}

/-! ### Malformed requests -/

theorem review_of_held {fields inner : Fields Json} (held : Fields.get fields "request" = .obj inner) :
    ∃ review, Review.ofJson (.obj fields) = .ok review ∧
      review.resource = Resource.ofJson? (Fields.get inner "resource") := by
  simp only [Review.ofJson, held]
  exact ⟨_, rfl, rfl⟩

theorem malformed_iff : Malformed request ↔
    ∀ review, Decodes request review → review.resource ∉ [some .pods, some .nodes] := by
  constructor
  · rintro malformed review ⟨isJson, v, parsed, decoded⟩
    cases malformed with
    | contentType apart => exact absurd isJson apart
    | unparsed none => cases parsed.symm.trans none
    | notAnObject parsedToo apart =>
      cases parsed.symm.trans parsedToo
      cases v with
      | obj fields => cases apart
      | null | bool | int | float | str | arr => cases decoded
    | noRequest parsedToo apart =>
      cases parsed.symm.trans parsedToo
      cases held : Fields.get _ "request" with
      | obj inner =>
        rw [held] at apart
        cases apart
      | null | bool | int | float | str | arr =>
        simp only [Review.ofJson, held] at decoded
        cases decoded
    | resource parsedToo held apart =>
      cases parsed.symm.trans parsedToo
      obtain ⟨decodedToo, decodes, about⟩ := review_of_held held
      cases decoded.symm.trans decodes
      rw [about]
      exact apart
  · intro neither
    by_cases isJson : mediaType (request.contentType.getD "") = "application/json"
    · cases parsed : Json.ofBytes? request.body with
      | none => exact .unparsed parsed
      | some v =>
        cases v with
        | obj fields =>
          cases held : Fields.get fields "request" with
          | obj inner =>
            obtain ⟨review, decodes, about⟩ := review_of_held held
            exact .resource parsed held (about ▸ neither review ⟨isJson, _, parsed, decodes⟩)
          | null | bool | int | float | str | arr => exact .noRequest parsed (by rw [held]; rfl)
        | null | bool | int | float | str | arr => exact .notAnObject parsed rfl
    · exact .contentType isJson

/-- A request with another object is read as the same review with that object. -/
theorem review_withObject (sameType : other.contentType = request.contentType)
    (sameRest : Json.ofBytes? other.body = (Json.ofBytes? request.body).map (·.withObject object)) :
    Service.review other = (Service.review request).map fun review => { review with object := object } := by
  unfold Service.review
  rw [sameType, sameRest]
  split
  · rfl
  · cases Json.ofBytes? request.body with
    | none => rfl
    | some document =>
      cases document with
      | obj fields =>
        have replaced := Review.ofJson_withObject (.obj fields) object
        cases held : Fields.get fields "request" with
        | obj inner | null | bool | int | float | str | arr =>
          simp only [Option.map_some, Json.withObject, held] at replaced ⊢
          exact replaced
      | null | bool | int | float | str | arr => rfl

/-- A review of anything else is refused before its object or any verdict is looked at. -/
theorem answer_of_resource (apart : review.resource ∉ [some .pods, some .nodes]) :
    ∃ cause, ∀ settings source object, answer settings source { review with object := object } =
      ⟨.error (.request cause), []⟩ := by
  simp only [List.mem_cons, List.not_mem_nil, or_false, not_or] at apart
  by_cases nodes : review.resource.any (·.resource = Resource.nodes.resource) = true
  · refine ⟨.notANode review.resource, ?_⟩
    intro settings source object
    rw [answer, if_pos nodes, answerNode, if_pos apart.2]
  · refine ⟨.notAPod review.resource, ?_⟩
    intro settings source object
    rw [answer, if_neg nodes, answerPod, if_pos apart.1]

/-- A malformed request is refused as such, whatever object it holds. -/
theorem mutate_of_malformed (malformed : Malformed request) :
    ∃ response : Response, response.status = 400 ∧
      ∀ settings source, mutate settings source request = ⟨response, []⟩ ∧
        ∀ other object, other.contentType = request.contentType →
          Json.ofBytes? other.body = (Json.ofBytes? request.body).map (·.withObject object) →
          mutate settings source other = ⟨response, []⟩ := by
  cases reviewed : Service.review request with
  | error fault =>
    refine ⟨refuse (.request fault) "" Review.defaultApiVersion Review.defaultKind, rfl, ?_⟩
    intro settings source
    constructor
    · rw [mutate, reviewed]
    · intro other object sameType sameRest
      rw [mutate, review_withObject sameType sameRest, reviewed]
      rfl
  | ok review =>
    obtain ⟨cause, refused⟩ := answer_of_resource (malformed_iff.mp malformed review (review_eq_ok.mp reviewed))
    refine ⟨refuse (.request cause) review.uid review.apiVersion review.kind, rfl, ?_⟩
    intro settings source
    constructor
    · rw [mutate, reviewed]
      simp only [refused settings source review.object]
    · intro other object sameType sameRest
      rw [mutate, review_withObject sameType sameRest, reviewed]
      simp only [Fallible.map_ok, refused settings source object]

/-! ### Reviews of pods and nodes -/

theorem status_of_error {fault : Fault} (fails : fault.status = 500) :
    (responseTo review (.error fault)).status = 500 := fails

theorem status_allowing (review : Review) (patch : Patch) :
    (responseTo review (allowing review patch)).status = if patch.toJson.isFinite then 200 else 500 := by
  cases finite : patch.toJson.isFinite with
  | true => exact (allows_allowing finite).status
  | false =>
    rw [allowing_not_isFinite finite]
    rfl

/-- A pod that could be decoded is allowed exactly when its patch can be written. -/
theorem status_of_pod (settings : Settings) (source : Verdict.Source)
    (reviewed : Service.review request = .ok review)
    (about : review.resource = some .pods) (decoded : Pod.ofJson review.object = .ok pod) :
    let status := (mutate settings source request).outcome.status
    let planned := (pod.patch (review.nsOf pod) (review.nameOf pod) settings source).outcome
    ((∃ workload patch, planned = .ok (workload, patch) ∧ patch.toJson.isFinite = true) → status = 200) ∧
      ((¬ ∃ workload patch, planned = .ok (workload, patch) ∧ patch.toJson.isFinite = true) →
        status = 500) := by
  intro status planned
  cases plan : planned with
  | ok result =>
    obtain ⟨workload, patch⟩ := result
    have answered : status = if patch.toJson.isFinite then 200 else 500 := by
      rw [← status_allowing review]
      exact congrArg Response.status (mutate_pod_planned reviewed about decoded plan)
    rw [answered]
    constructor
    · rintro ⟨_, _, same, finite⟩
      cases same
      exact if_pos finite
    · intro unwritable
      exact if_neg fun finite => unwritable ⟨workload, patch, rfl, finite⟩
  | error fault =>
    constructor
    · rintro ⟨workload, patch, made, -⟩
      cases made
    · intro _
      have refused : (mutate settings source request).outcome = responseTo review (.error fault) := by
        rw [mutate_pod reviewed about, decoded, Fallible.ok_bind]
        exact congrArg (fun outcome => responseTo review (outcome >>= _)) plan
      exact (congrArg Response.status refused).trans (status_of_error (Pod.status_of_patch plan))

theorem fails_pod_iff (about : review.resource = some .pods) (decoded : Pod.ofJson review.object = .ok pod) :
    Fails settings source review ↔
      ¬ (pod.classify (review.nsOf pod) (review.nameOf pod) ≠ .unclassified →
        ∀ c ∈ pod.initContainers ++ pod.containers,
          ¬ c.IsUnwritable (settings.cpuFactor (pod.classify (review.nsOf pod) (review.nameOf pod)))) := by
  push Not
  constructor
  · intro fails
    cases fails with
    | undecodedPod _ undecoded => exact absurd decoded (undecoded pod)
    | unwritablePod _ decodedToo classified member unwritable =>
      cases decoded.symm.trans decodedToo
      exact ⟨classified, _, member, unwritable⟩
    | undecodedNode aboutNode | unwritableNode aboutNode =>
      exact absurd (about.symm.trans aboutNode) (by decide)
  · rintro ⟨classified, c, member, unwritable⟩
    exact .unwritablePod about decoded classified member unwritable

theorem fails_node_iff (about : review.resource = some .nodes)
    (decoded : Node.ofJson review.object = .ok node) :
    Fails settings source review ↔ node.IsUnwritable source := by
  constructor
  · intro fails
    cases fails with
    | undecodedNode _ undecoded => exact absurd decoded (undecoded node)
    | unwritableNode _ decodedToo unwritable =>
      cases decoded.symm.trans decodedToo
      exact unwritable
    | undecodedPod aboutPod | unwritablePod aboutPod =>
      exact absurd (about.symm.trans aboutPod) (by decide)
  · exact .unwritableNode about decoded

theorem status_pod (reviewed : Service.review request = .ok review)
    (about : review.resource = some .pods) (positive : settings.HasPositiveFactors) :
    let status := (mutate settings (.store keyspace s) request).outcome.status
    (Fails settings (.store keyspace s) review → status = 500) ∧
      (¬ Fails settings (.store keyspace s) review → status = 200) := by
  intro status
  cases decoded : Pod.ofJson review.object with
  | ok pod =>
    obtain ⟨written, unwritten⟩ := status_of_pod settings (.store keyspace s) reviewed about decoded
    rw [Pod.patch_writable_iff (Pod.isCounted_of_ofJson decoded) positive] at written unwritten
    rw [fails_pod_iff about decoded, not_not]
    exact ⟨unwritten, written⟩
  | error fault =>
    have fails : Fails settings (.store keyspace s) review := by
      apply Fails.undecodedPod about
      intro pod decodedToo
      cases decoded.symm.trans decodedToo
    refine ⟨fun _ => ?_, absurd fails⟩
    simp only [status, mutate_pod reviewed about, decoded]
    exact status_of_error (Pod.status_of_ofJson decoded)

theorem status_node (reviewed : Service.review request = .ok review)
    (about : review.resource = some .nodes) :
    let status := (mutate settings source request).outcome.status
    (Fails settings source review → status = 500) ∧ (¬ Fails settings source review → status = 200) := by
  intro status
  cases decoded : Node.ofJson review.object with
  | ok node =>
    have answered : status = if (node.patch source).outcome.patch.toJson.isFinite then 200 else 500 := by
      rw [← status_allowing review]
      simp only [status, mutate_node reviewed about, decoded, Fallible.ok_bind]
    have written := node.patch_writable_iff source
    rw [fails_node_iff about decoded, answered]
    constructor
    · intro unwritable
      exact if_neg fun finite => written.mp finite unwritable
    · intro writable
      exact if_pos (written.mpr writable)
  | error fault =>
    have fails : Fails settings source review := by
      apply Fails.undecodedNode about
      intro node decodedToo
      cases decoded.symm.trans decodedToo
    refine ⟨fun _ => ?_, absurd fails⟩
    simp only [status, mutate_node reviewed about, decoded]
    exact status_of_error (Node.status_of_ofJson decoded)

/-- A review of a pod or node is allowed unless it fails. -/
theorem status_of_decodes (keyspace : Text) (s : Store) (decodes : Decodes request review)
    (about : review.resource ∈ [some .pods, some .nodes]) (positive : settings.HasPositiveFactors) :
    let status := (mutate settings (.store keyspace s) request).outcome.status
    (Fails settings (.store keyspace s) review → status = 500) ∧
      (¬ Fails settings (.store keyspace s) review → status = 200) := by
  have reviewed := review_eq_ok.mpr decodes
  simp only [List.mem_cons, List.not_mem_nil, or_false] at about
  rcases about with pods | nodes
  · exact status_pod reviewed pods positive
  · exact status_node reviewed nodes

theorem length_keys_answer (settings : Settings) (source : Verdict.Source) (review : Review) :
    (answer settings source review).keys.length ≤ 1 := by
  unfold answer
  split
  · unfold answerNode
    split
    · exact Nat.zero_le 1
    · split
      · exact Nat.zero_le 1
      · exact Node.length_keys_patch _ source
  · unfold answerPod
    split
    · exact Nat.zero_le 1
    · split
      · exact Nat.zero_le 1
      · exact Pod.length_keys_patch _ _ _ settings source

theorem length_keys_mutate (settings : Settings) (source : Verdict.Source) (request : Request) :
    (mutate settings source request).keys.length ≤ 1 := by
  unfold mutate
  split
  · exact Nat.zero_le 1
  next review reviewed =>
    have few := length_keys_answer settings source review
    dsimp only
    split
    · exact few
    · exact few

/-- The status of the answer to a posted review, under any state of the store and any settings from an
environment. A malformed request is a bad one, and neither the store nor its object is looked at for
that. Every other request holds a review of a pod or node, and is allowed unless it fails. -/
theorem status_decided (posts : Posts request) (env : Environment) (keyspace : Text) (s : Store) :
    let answered := respond (.ofEnvironment env) (.store keyspace s) request
    (answered.outcome.status = 400 ↔ Malformed request) ∧
      (Malformed request → answered.keys = [] ∧ ∀ source other object, Posts other →
        other.contentType = request.contentType →
        Json.ofBytes? other.body = (Json.ofBytes? request.body).map (·.withObject object) →
        respond (.ofEnvironment env) source other = answered) ∧
      (¬ Malformed request → ∃ review, Decodes request review ∧
        (answered.outcome.status = 500 ↔ Fails (.ofEnvironment env) (.store keyspace s) review) ∧
        (answered.outcome.status = 200 ↔ ¬ Fails (.ofEnvironment env) (.store keyspace s) review)) ∧
      answered.keys.length ≤ 1 := by
  intro answered
  have positive := Settings.hasPositiveFactors_ofEnvironment env
  have mutates : answered = mutate (.ofEnvironment env) (.store keyspace s) request :=
    respond_of_posts posts
  generalize Settings.ofEnvironment env = settings at positive mutates ⊢
  by_cases malformed : Malformed request
  · obtain ⟨response, status, refused⟩ := mutate_of_malformed malformed
    have refusal : answered = ⟨response, []⟩ := mutates.trans (refused settings _).1
    rw [refusal]
    refine ⟨iff_of_true status malformed, fun _ => ⟨rfl, ?_⟩, absurd malformed, Nat.zero_le 1⟩
    intro otherSource other object postsToo sameType sameRest
    rw [respond_of_posts postsToo]
    exact (refused settings otherSource).2 other object sameType sameRest
  · obtain ⟨review, decodes, about⟩ : ∃ review, Decodes request review ∧
        review.resource ∈ [some .pods, some .nodes] := by
      rw [malformed_iff] at malformed
      push Not at malformed
      exact malformed
    obtain ⟨refused, allowed⟩ := status_of_decodes keyspace s decodes about positive
    have few := length_keys_mutate settings (.store keyspace s) request
    rw [← mutates] at refused allowed few
    refine ⟨?_, fun absent => absurd absent malformed, fun _ => ⟨review, decodes, ?_⟩, few⟩
    · by_cases fails : Fails settings (.store keyspace s) review
      · simp [refused fails, malformed]
      · simp [allowed fails, malformed]
    · by_cases fails : Fails settings (.store keyspace s) review
      · simp [refused fails, fails]
      · simp [allowed fails, fails]

/-- A test, with a surrogate that stands alone for its status, whose CPU request would be halved beside a
request for memory that is no number. -/
theorem status_decided_memory_nan :
    let c : Container := ⟨"", [("cpu", .str "100m"), ("memory", .float .nan)], some 100⟩
    let object : Json := .obj [("status", .str (.broken "" 0 "")), ("spec", .obj [("containers", .arr
      [.obj [("resources", .obj [("requests", .obj c.requests)])]])])]
    let posted : Json := .obj [("request", .obj [("namespace", .str "ci-op-x"),
      ("resource", .obj [("version", .str "v1"), ("resource", .str "pods")]), ("object", object)])]
    let body := posted.render.toUTF8
    let request : Request := ⟨"post", "/mutate", some "Application/JSON", body⟩
    Posts request ∧ (respond (.ofEnvironment [("SHRINK_TEST_CPU", "0.5")])
      (.store "ci-scheduling" ⟨[], false⟩) request).outcome.status = 500 := by
  intro c object posted body request
  let pod : Pod := ⟨"", "", none, none, [], [c]⟩
  let review : Review :=
    ⟨Review.defaultApiVersion, Review.defaultKind, "", "", "ci-op-x", some .pods, object⟩
  have target : path request.target = "/mutate" := by decide +kernel
  have posts : Posts request := ⟨by decide +kernel, by simp [target, endpoint?]⟩
  have isJson : mediaType "Application/JSON" = "application/json" := by decide +kernel
  have regular : posted.isRegular = true := by decide +kernel
  have parsed : Json.ofBytes? body = some posted := Json.ofBytes?_render regular (by decide +kernel)
  clear_value body
  have decodes : Decodes request review := ⟨isJson, posted, parsed, by rfl⟩
  have sound : ¬ Malformed request := by
    intro malformed
    exact absurd (malformed_iff.mp malformed review decodes) (by decide)
  have unwritable : c.IsUnwritable ((Settings.ofEnvironment [("SHRINK_TEST_CPU", "0.5")]).cpuFactor
      (pod.classify (review.nsOf pod) (review.nameOf pod))) := by
    refine ⟨51, ⟨by decide +kernel, 100, rfl, by decide +kernel⟩, .inr ⟨"memory", .float .nan, ?_⟩⟩
    decide +kernel
  refine ⟨posts, ?_⟩
  obtain ⟨-, -, decided, -⟩ := status_decided posts [("SHRINK_TEST_CPU", "0.5")] "ci-scheduling" ⟨[], false⟩
  obtain ⟨found, decodesToo, fails_iff, -⟩ := decided sound
  cases (review_eq_ok.mpr decodes).symm.trans (review_eq_ok.mpr decodesToo)
  have decoded : Pod.ofJson review.object = .ok pod := by decide +kernel
  exact fails_iff.mpr (.unwritablePod rfl decoded (by decide +kernel) (List.mem_singleton_self c) unwritable)

end Service
end WorkloadAdmission
