import WorkloadAdmission.Proofs.Coherence
import WorkloadAdmission.Proofs.Document
import WorkloadAdmission.Proofs.Steering
import WorkloadAdmission.Proofs.Taints

/-! What the answer to a review can depend on. Objects are decoded part by part, and what no part holds
is gone before anything is decided: a pod is known by its labels, its annotations and what its
containers ask for, a node by its name, labels and taints. The name and namespace that a pod gives
itself count where the review gives none. So two reviews that agree on all of this are answered alike,
whatever else they hold. Agreement is of values as they are written, with the order of their fields,
which a patch repeats. -/
namespace WorkloadAdmission

namespace Fallible

variable {ε α β γ : Type}

theorem map_bind {step : Except ε α} {next : α → Except ε β} {g : β → γ} :
    (step >>= next).map g = step >>= fun value => (next value).map g := by
  cases step <;> rfl

/-- Lists whose items lead to the same after some view of the results lead to the same themselves. -/
theorem map_mapM_congr {f : α → Except ε β} {g : β → γ} {list other : List α}
    (same : List.Forall₂ (fun a b => (f a).map g = (f b).map g) list other) :
    (list.mapM f).map (List.map g) = (other.mapM f).map (List.map g) := by
  have step (a : α) (rest : List α) : ((a :: rest).mapM f).map (List.map g) =
      (f a).map g >>= fun first => ((rest.mapM f).map (List.map g)).map (first :: ·) := by
    rw [List.mapM_cons]
    cases f a with
    | error cause => rfl
    | ok first => cases rest.mapM f <;> rfl
  induction same with
  | nil => rfl
  | cons here _ ih => rw [step, step, here, ih]

end Fallible

theorem Fields.objectOrEmpty_congr {fields changed : Fields Json} {key : Text}
    (same : get changed key = get fields key) (part : String) :
    objectOrEmpty changed key part = objectOrEmpty fields key part := by
  rw [objectOrEmpty, objectOrEmpty, same]

/-! ### Containers -/

namespace Container

/-- The container without its name. -/
def anonymous (c : Container) : Container := { c with name := "" }

/-- What a container asks for, as its fields tell. -/
def requestsOf (fields : Fields Json) : Except Fault (Fields Json) := do
  let resources ← (Fields.objectOrEmpty fields "resources" "container resources").mapError .object
  (Fields.objectOrEmpty resources "requests" "container resource requests").mapError .object

/-- Two containers that ask for the same, be it in resources that agree on nothing else. -/
def AskAlike (item other : Json) : Prop :=
  ∃ fields fields', item = .obj fields ∧ other = .obj fields' ∧
    (Fields.get fields "resources" = Fields.get fields' "resources" ∨
      ∃ resources resources', Fields.get fields "resources" = .obj resources ∧
        Fields.get fields' "resources" = .obj resources' ∧
        Fields.get resources "requests" = Fields.get resources' "requests")

/-- The items of a list of containers, which may be left out. -/
def itemsOf? : Json → Option (List Json)
  | .null => some []
  | .arr items => some items
  | _ => none

/-- Two lists of as many containers that ask for the same one by one, or anything equal. -/
def ListsAlike (v other : Json) : Prop :=
  v = other ∨ ∃ items items', itemsOf? v = some items ∧ itemsOf? other = some items' ∧
    List.Forall₂ AskAlike items items'

variable {kind : Text} {factor : Binary64} {index : Nat} {containers : List Container}

theorem ofJson_anonymous (fields : Fields Json) : (ofJson (.obj fields)).map anonymous = (do
    let requests ← requestsOf fields
    let cpuMillis ← (Fields.get? requests "cpu").mapM requestedMillis
    return ⟨"", requests, cpuMillis⟩) := by
  rw [ofJson, requestsOf]
  cases (Fields.objectOrEmpty fields "resources" "container resources").mapError Fault.object with
  | error fault => rfl
  | ok resources =>
    simp only [Fallible.ok_bind]
    cases (Fields.objectOrEmpty resources "requests" "container resource requests").mapError Fault.object with
    | error fault => rfl
    | ok requests =>
      simp only [Fallible.ok_bind]
      cases (Fields.get? requests "cpu").mapM requestedMillis <;> rfl

theorem ofJson_of_askAlike {item other : Json} (alike : AskAlike item other) :
    (ofJson item).map anonymous = (ofJson other).map anonymous := by
  obtain ⟨fields, fields', rfl, rfl, same⟩ := alike
  have asked : requestsOf fields = requestsOf fields' := by
    rcases same with same | ⟨resources, resources', held, held', same⟩
    · rw [requestsOf, requestsOf, Fields.objectOrEmpty_congr same]
    · have given : Fields.objectOrEmpty fields "resources" "container resources" = .ok resources := by
        rw [Fields.objectOrEmpty, held]
      have given' : Fields.objectOrEmpty fields' "resources" "container resources" = .ok resources' := by
        rw [Fields.objectOrEmpty, held']
      rw [requestsOf, requestsOf, given, given', Fallible.mapError_ok, Fallible.mapError_ok,
        Fallible.ok_bind, Fallible.ok_bind, Fields.objectOrEmpty_congr same]
  rw [ofJson_anonymous, ofJson_anonymous, asked]

theorem listOf_items {kind : String} {spec : Fields Json} {items : List Json}
    (held : itemsOf? (Fields.get spec kind) = some items) : listOf spec kind = items.mapM ofJson := by
  rw [listOf]
  cases value : Fields.get spec kind with
  | null =>
    rw [value] at held
    cases held
    rfl
  | arr items =>
    rw [value] at held
    cases held
    rfl
  | bool | int | float | str | obj =>
    rw [value] at held
    cases held

theorem listOf_of_listsAlike {kind : String} {spec spec' : Fields Json}
    (alike : ListsAlike (Fields.get spec kind) (Fields.get spec' kind)) :
    (listOf spec kind).map (List.map anonymous) = (listOf spec' kind).map (List.map anonymous) := by
  rcases alike with same | ⟨items, items', held, held', alike⟩
  · rw [listOf_congr same]
  · rw [listOf_items held, listOf_items held']
    exact Fallible.map_mapM_congr (alike.imp fun _ _ => ofJson_of_askAlike)

theorem reductionsFrom_anonymous :
    reductionsFrom kind factor index (containers.map anonymous) = reductionsFrom kind factor index containers := by
  induction containers generalizing index with
  | nil => rfl
  | cons c rest ih =>
    have entry : c.anonymous.reduction kind factor index = c.reduction kind factor index := rfl
    rw [List.map_cons, reductionsFrom, reductionsFrom, entry, ih]

theorem reductions_anonymous :
    reductions kind factor (containers.map anonymous) = reductions kind factor containers := by
  rw [reductions, reductions, reductionsFrom_anonymous]

theorem requestsSpecial_anonymous : requestsSpecial (containers.map anonymous) = requestsSpecial containers := by
  rw [requestsSpecial, requestsSpecial, List.any_map]
  rfl

end Container

/-! ### Pods and nodes -/

namespace Pod

variable {name ns : Text} {m m' : Manifest}

/-- The pod as admission sees it under the name and namespace of a review: the names that it gives itself
count where the review gives none, and those of its containers not at all. -/
def seenUnder (name ns : Text) (pod : Pod) : Pod where
  name := if name = "" then pod.name else name
  ns := if ns = "" then pod.ns else ns
  labels := pod.labels
  annotations := pod.annotations
  initContainers := pod.initContainers.map .anonymous
  containers := pod.containers.map .anonymous

/-- Two pods that no rule of admission tells apart under the name and namespace of a review. -/
structure SeenAlike (name ns : Text) (m m' : Manifest) : Prop where
  labels : Fields.get m.metadata "labels" = Fields.get m'.metadata "labels"
  annotations : Fields.get m.metadata "annotations" = Fields.get m'.metadata "annotations"
  name : name = "" → Fields.get m.metadata "name" = Fields.get m'.metadata "name"
  ns : ns = "" → Fields.get m.metadata "namespace" = Fields.get m'.metadata "namespace"
  initContainers : Container.ListsAlike (Fields.get m.spec "initContainers") (Fields.get m'.spec "initContainers")
  containers : Container.ListsAlike (Fields.get m.spec "containers") (Fields.get m'.spec "containers")

theorem classify_seenUnder (pod : Pod) (ns' name' : Text) :
    (pod.seenUnder name ns).classify ns' name' = pod.classify ns' name' := by
  have label (key : Text) : (pod.seenUnder name ns).hasLabel key = pod.hasLabel key := rfl
  have initial : requestsSpecial (pod.seenUnder name ns).initContainers = requestsSpecial pod.initContainers :=
    Container.requestsSpecial_anonymous
  have regular : requestsSpecial (pod.seenUnder name ns).containers = requestsSpecial pod.containers :=
    Container.requestsSpecial_anonymous
  simp only [classify, label, initial, regular]

theorem reductionEntries_seenUnder (pod : Pod) (factor : Binary64) :
    (pod.seenUnder name ns).reductionEntries factor = pod.reductionEntries factor := by
  simp only [reductionEntries, seenUnder, Container.reductions_anonymous]

/-- No name that a pod gives itself or a container goes into a patch. -/
theorem patch_seenUnder (pod : Pod) (ns' name' : Text) (settings : Settings) (source : Verdict.Source) :
    (pod.seenUnder name ns).patch ns' name' settings source = pod.patch ns' name' settings source := by
  have eviction : (pod.seenUnder name ns).evictionEntries ns' name' = pod.evictionEntries ns' name' := rfl
  have labels (workload : WorkloadClass) :
      (pod.seenUnder name ns).labelEntries workload ns' = pod.labelEntries workload ns' := rfl
  simp only [patch, eviction, classify_seenUnder, reductionEntries_seenUnder, labels]

theorem ofJson_seenUnder (m : Manifest) : (ofJson m.toJson).map (seenUnder name ns) = (do
    let labels ← (Fields.texts m.metadata "pod" "labels").mapError .object
    let annotations ← (Fields.texts m.metadata "pod" "annotations").mapError .object
    let initContainers ← (Container.listOf m.spec "initContainers").map (List.map .anonymous)
    let containers ← (Container.listOf m.spec "containers").map (List.map .anonymous)
    return ⟨if name = "" then (Fields.get m.metadata "name").label else name,
      if ns = "" then (Fields.get m.metadata "namespace").label else ns, labels, annotations,
      initContainers, containers⟩) := by
  simp only [Manifest.toJson, ofJson, Manifest.part_metadata, Manifest.part_spec, Fallible.map_bind]
  congr 1
  funext labels
  congr 1
  funext annotations
  cases Container.listOf m.spec "initContainers" with
  | error fault => rfl
  | ok initContainers => cases Container.listOf m.spec "containers" <;> rfl

theorem ofJson_of_seenAlike (alike : SeenAlike name ns m m') :
    (ofJson m.toJson).map (seenUnder name ns) = (ofJson m'.toJson).map (seenUnder name ns) := by
  have named : (if name = "" then (Fields.get m.metadata "name").label else name) =
      if name = "" then (Fields.get m'.metadata "name").label else name := by
    split
    next unnamed => rw [alike.name unnamed]
    next => rfl
  have spaced : (if ns = "" then (Fields.get m.metadata "namespace").label else ns) =
      if ns = "" then (Fields.get m'.metadata "namespace").label else ns := by
    split
    next unspaced => rw [alike.ns unspaced]
    next => rfl
  rw [ofJson_seenUnder, ofJson_seenUnder, Fields.texts_congr alike.labels,
    Fields.texts_congr alike.annotations, Container.listOf_of_listsAlike alike.initContainers,
    Container.listOf_of_listsAlike alike.containers, named, spaced]

end Pod

/-- Two nodes that no rule of admission tells apart. -/
structure Node.SeenAlike (m m' : Manifest) : Prop where
  name : Fields.get m.metadata "name" = Fields.get m'.metadata "name"
  labels : Fields.get m.metadata "labels" = Fields.get m'.metadata "labels"
  taints : Fields.get m.spec "taints" = Fields.get m'.spec "taints"

theorem Node.ofJson_of_seenAlike {m m' : Manifest} (alike : SeenAlike m m') :
    ofJson m.toJson = ofJson m'.toJson := by
  have taints : taintsOf m.spec = taintsOf m'.spec := by rw [taintsOf, taintsOf, alike.taints]
  simp only [Manifest.toJson, ofJson, Manifest.part_metadata, Manifest.part_spec, taints, alike.name,
    Fields.texts_congr alike.labels]

/-! ### Reviews -/

namespace Service

variable {settings : Settings} {source : Verdict.Source} {review : Review} {object other : Json}

/-- The answer to the review of a pod, by the pod that is seen. -/
theorem answerPod_eq (review : Review) (about : review.resource = some .pods) : answerPod settings source review =
    match (Pod.ofJson review.object).map (Pod.seenUnder review.name review.ns) with
    | .error fault => ⟨.error fault, []⟩
    | .ok pod =>
      let plan := pod.patch pod.ns pod.name settings source
      ⟨plan.outcome.bind fun planned => allowing review planned.2, plan.keys⟩ := by
  rw [answerPod, if_neg fun apart => apart about]
  cases Pod.ofJson review.object with
  | error fault => rfl
  | ok pod =>
    simp only [Fallible.map_ok, Pod.patch_seenUnder]
    rfl

/-- What a review says beside its object decides the answer together with what is seen of that. -/
theorem answer_withObject
    (pods : review.resource = some .pods → (Pod.ofJson object).map (Pod.seenUnder review.name review.ns) =
      (Pod.ofJson other).map (Pod.seenUnder review.name review.ns))
    (nodes : review.resource = some .nodes → Node.ofJson object = Node.ofJson other) :
    answer settings source { review with object := object } =
      answer settings source { review with object := other } := by
  unfold answer
  dsimp only
  split
  · unfold answerNode
    dsimp only
    split
    · rfl
    next about => rw [nodes (Decidable.of_not_not about)]
  · by_cases about : review.resource = some .pods
    · rw [answerPod_eq { review with object := object } about,
        answerPod_eq { review with object := other } about]
      simp only [pods about]
      rfl
    · rw [answerPod, answerPod, if_pos about, if_pos about]

/-- A request that posts a review of an object with metadata and spec. -/
structure PostedReview (request : Request) where
  fields : Fields Json
  asked : Fields Json
  object : Manifest
  posts : Posts request
  typed : mediaType (request.contentType.getD "") = "application/json"
  read : Json.ofBytes? request.body = some (.obj fields)
  get_request : Fields.get fields "request" = .obj asked
  get_object : Fields.get asked "object" = object.toJson

namespace PostedReview

variable {request other : Request}

def toReview (posted : PostedReview request) : Review where
  apiVersion := Review.textOr posted.fields "apiVersion" Review.defaultApiVersion
  kind := Review.textOr posted.fields "kind" Review.defaultKind
  uid := (Fields.get posted.asked "uid").label
  name := (Fields.get posted.asked "name").label
  ns := (Fields.get posted.asked "namespace").label
  resource := Resource.ofJson? (Fields.get posted.asked "resource")
  object := posted.object.toJson

theorem decodes (posted : PostedReview request) : Decodes request posted.toReview := by
  refine ⟨posted.typed, _, posted.read, ?_⟩
  rw [Review.ofJson, posted.get_request]
  dsimp only
  rw [posted.get_object]
  rfl

/-- Two reviews that agree on all that is read of them. -/
structure AgreesWith (first : PostedReview request) (second : PostedReview other) : Prop where
  outer : ∀ key ∈ (["apiVersion", "kind"] : List Text), Fields.get first.fields key = Fields.get second.fields key
  asked : ∀ key ∈ (["uid", "name", "namespace", "resource"] : List Text),
    Fields.get first.asked key = Fields.get second.asked key
  pods : first.toReview.resource = some .pods →
    Pod.SeenAlike first.toReview.name first.toReview.ns first.object second.object
  nodes : first.toReview.resource = some .nodes → Node.SeenAlike first.object second.object

theorem AgreesWith.toReview_eq {first : PostedReview request} {second : PostedReview other}
    (agree : first.AgreesWith second) :
    second.toReview = { first.toReview with object := second.object.toJson } := by
  obtain ⟨outer, asked, -, -⟩ := agree
  simp only [List.forall_mem_cons] at outer asked
  obtain ⟨apiVersion, kind, -⟩ := outer
  obtain ⟨uid, name, ns, resource, -⟩ := asked
  simp only [toReview, Review.textOr, apiVersion, kind, uid, name, ns, resource]

end PostedReview

/-- Fields that admission does not read have no say in its answer: two posted reviews that agree on all
that is read are answered with the same status and the same body, refusals included, and after the same
reads. -/
theorem unread_fields_have_no_say {request other : Request} (first : PostedReview request)
    (second : PostedReview other) (agree : first.AgreesWith second) (settings : Settings)
    (source : Verdict.Source) : respond settings source request = respond settings source other := by
  have reviewed := review_eq_ok.mpr first.decodes
  have reviewed' := review_eq_ok.mpr second.decodes
  have answered : answer settings source first.toReview = answer settings source second.toReview := by
    rw [agree.toReview_eq]
    exact answer_withObject (fun about => Pod.ofJson_of_seenAlike (agree.pods about))
      fun about => Node.ofJson_of_seenAlike (agree.nodes about)
  rw [respond_of_posts first.posts, respond_of_posts second.posts, mutate, mutate, reviewed, reviewed']
  simp only [answered]
  rw [agree.toReview_eq]

/-- A test pod that is created, and one with another image and no limits, under another name of its own, about
which some other operation asks, called by a surrogate that stands alone. -/
theorem unread_fields_have_no_say_image :
    let asks : Json := .obj [("cpu", .str "1500m"), ("memory", .str "1Gi")]
    let asked (operation : Text) (object : Manifest) : Fields Json :=
      [("uid", .str "u"), ("name", .str "e2e"), ("namespace", .str "ci-op-x"), ("operation", .str operation),
        ("resource", .obj [("version", .str "v1"), ("resource", .str "pods")]), ("object", object.toJson)]
    let created : Manifest := .bare [("name", .str "a"), ("labels", .obj [("app", .str "x")])]
      [("containers", .arr [.obj [("image", .str "a"), ("resources", .obj [("requests", asks),
        ("limits", .obj [("cpu", .int 2)])])]])]
    let updated : Manifest := .bare [("labels", .obj [("app", .str "x")]), ("annotations", .null)]
      [("nodeSelector", .obj []), ("containers", .arr [.obj [("name", .int 1), ("resources",
        .obj [("requests", asks)])]]), ("initContainers", .arr [])]
    let document (operation : Text) (object : Manifest) : Json :=
      .obj [("request", .obj (asked operation object))]
    let body := (document "CREATE" created).render.toUTF8
    let broken : Text := .broken "" 0 ""
    let bodyToo := (document broken updated).render.toUTF8
    let first : Request := ⟨"POST", "/mutate", some "application/json", body⟩
    let second : Request := ⟨"POST", "/mutate?timeout=10s", some "application/json; charset=utf-8", bodyToo⟩
    ∃ (posted : PostedReview first) (postedToo : PostedReview second), posted.AgreesWith postedToo ∧
      ∀ settings source, respond settings source first = respond settings source second := by
  intro asks asked created updated document body broken bodyToo first second
  have method : "POST".toUpper = "POST" := by decide +kernel
  have posts {target : String} (leads : path target = "/mutate") (contentType : String) (body : ByteArray) :
      Posts ⟨"POST", target, some contentType, body⟩ := ⟨method, by simp [leads, endpoint?]⟩
  have regular : (document "CREATE" created).isRegular = true := by decide +kernel
  have regularToo : (document broken updated).isRegular = true := by decide +kernel
  have parsed : Json.ofBytes? body = some (document "CREATE" created) :=
    Json.ofBytes?_render regular (by decide +kernel)
  have parsedToo : Json.ofBytes? bodyToo = some (document broken updated) :=
    Json.ofBytes?_render regularToo (by decide +kernel)
  have typed : mediaType "application/json" = "application/json" := by decide +kernel
  have typedToo : mediaType "application/json; charset=utf-8" = "application/json" := by decide +kernel
  clear_value body bodyToo
  let posted : PostedReview first := ⟨_, asked "CREATE" created, created, posts (by decide +kernel) _ _,
    typed, parsed, rfl, rfl⟩
  let postedToo : PostedReview second := ⟨_, asked broken updated, updated, posts (by decide +kernel) _ _,
    typedToo, parsedToo, rfl, rfl⟩
  have containers : List.Forall₂ Container.AskAlike
      [.obj [("image", .str "a"), ("resources", .obj [("requests", asks), ("limits", .obj [("cpu", .int 2)])])]]
      [.obj [("name", .int 1), ("resources", .obj [("requests", asks)])]] :=
    .cons ⟨_, _, rfl, rfl, .inr ⟨_, _, rfl, rfl, rfl⟩⟩ .nil
  have named : posted.toReview.name = "e2e" := by rfl
  have spaced : posted.toReview.ns = "ci-op-x" := by rfl
  have about : posted.toReview.resource = some .pods := by rfl
  have pods : Pod.SeenAlike posted.toReview.name posted.toReview.ns created updated := by
    rw [named, spaced]
    exact ⟨rfl, rfl, by simp, by simp, .inr ⟨[], [], rfl, rfl, .nil⟩, .inr ⟨_, _, rfl, rfl, containers⟩⟩
  have agree : posted.AgreesWith postedToo := by
    refine ⟨?_, ?_, fun _ => pods, ?_⟩
    · simp only [List.forall_mem_cons]
      exact ⟨rfl, rfl, by simp⟩
    · simp only [List.forall_mem_cons]
      exact ⟨rfl, rfl, rfl, rfl, by simp⟩
    · rw [about]
      simp [Resource.pods, Resource.nodes]
  exact ⟨posted, postedToo, agree, unread_fields_have_no_say posted postedToo agree⟩

end Service
end WorkloadAdmission
