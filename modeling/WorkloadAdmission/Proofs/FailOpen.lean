import WorkloadAdmission.Proofs.Answering
import WorkloadAdmission.Proofs.Steering

/-! Admission under a store that may hold anything or be down. What the store answers never decides
whether a pod is admitted: two stores lead to the same status, and to patches that differ in the
affinity at most, which one key alone decides. A node without a readable verdict is admitted as it
is. -/
namespace WorkloadAdmission

theorem eraseDups_map_str (names : List Text) :
    (names.map Json.str).eraseDups = names.eraseDups.map Json.str := by
  induction names using eraseDups_induct with
  | nil => simp
  | cons name rest ih =>
    have kept : (rest.map Json.str).filter (fun v => !v == .str name) =
        (rest.filter fun other => !other == name).map Json.str := by
      rw [List.filter_map]
      congr 2
      funext other
      simp
    rw [List.map_cons, List.eraseDups_cons, List.eraseDups_cons, kept, ih, List.map_cons]

namespace Verdict

/-- The hostnames that a stored verdict tells: those of a list of texts, none for anything else. -/
def hostnamesIn : Except StoreFault (Option Json) → List Text
  | .ok (some (.arr items)) =>
    if items.all fun v => v.text?.isSome then (items.filterMap Json.text?).eraseDups else []
  | _ => []

theorem map_filterMap_text {items : List Json} (texts : items.all (fun v => v.text?.isSome) = true) :
    (items.filterMap Json.text?).map Json.str = items := by
  induction items with
  | nil => rfl
  | cons item rest ih =>
    rw [List.all_cons, Bool.and_eq_true] at texts
    cases item with
    | str s =>
      have text : Json.text? (.str s) = some s := rfl
      rw [List.filterMap_cons_some text, List.map_cons, ih texts.2]
    | null | bool | int | float | arr | obj => simp [Json.text?] at texts

theorem isSome_text_names (names : List Text) :
    (names.map Json.str).all (fun v => v.text?.isSome) = true := by
  simp [Json.text?]

theorem hostnamesIn_names (names : List Text) :
    hostnamesIn (.ok (some (.arr (names.map .str)))) = names.eraseDups := by
  have read : (names.map Json.str).filterMap Json.text? = names := by
    rw [List.filterMap_map]
    exact List.filterMap_some
  rw [hostnamesIn, if_pos (isSome_text_names names), read]

theorem joined_key (keyspace kind name : Text) :
    keyspace ++ ":" ++ (kind ++ name) = keyspace ++ (":" ++ kind) ++ name := by
  simp only [Text.append_assoc]

/-- What a source over a store answers about a class, by the one key that it reads. -/
theorem precludedHosts_store (keyspace : Text) (s : Store) (workload : WorkloadClass) :
    Source.precludedHosts (.store keyspace s) workload =
      ⟨((s.read (keyspace ++ ":preclude:" ++ workload.name)).mapError
          (.unreadable ("preclude:" ++ workload.name))).bind (hostsOf workload),
        [keyspace ++ ":preclude:" ++ workload.name]⟩ := by
  have key : keyspace ++ ":" ++ ("preclude:" ++ workload.name) = keyspace ++ ":preclude:" ++ workload.name :=
    joined_key keyspace "preclude:" workload.name
  simp only [Source.precludedHosts, Source.read, key]

/-- What a source over a store answers about a node, by the one key that it reads. -/
theorem avoidance_store (keyspace : Text) (s : Store) (node : Text) :
    Source.avoidance (.store keyspace s) node =
      ⟨((s.read (keyspace ++ ":avoidance:" ++ node)).mapError (.unreadable ("avoidance:" ++ node))).bind
          (stateOf node),
        [keyspace ++ ":avoidance:" ++ node]⟩ := by
  have key : keyspace ++ ":" ++ ("avoidance:" ++ node) = keyspace ++ ":avoidance:" ++ node :=
    joined_key keyspace "avoidance:" node
  simp only [Source.avoidance, Source.read, key]

theorem tells_store (keyspace : Text) (s : Store) (workload : WorkloadClass) :
    Source.Tells (.store keyspace s) workload
      (hostnamesIn (s.read (keyspace ++ ":preclude:" ++ workload.name))) := by
  rw [Source.Tells, Source.heeded, precludedHosts_store]
  cases s.read (keyspace ++ ":preclude:" ++ workload.name) with
  | error cause => rfl
  | ok document =>
    cases document with
    | none => rfl
    | some v =>
      cases v with
      | arr items =>
        simp only [Fallible.mapError_ok, Except.bind, hostsOf, hostnamesIn]
        cases texts : items.all fun v => v.text?.isSome with
        | true =>
          simp only [if_true]
          rw [← eraseDups_map_str, map_filterMap_text texts]
          rfl
        | false => rfl
      | null | bool | int | float | str | obj => rfl

theorem hostnamesIn_eq_nil {found : Except StoreFault (Option Json)}
    (none : ∀ names : List Text, names ≠ [] → found ≠ .ok (some (.arr (names.map .str)))) :
    hostnamesIn found = [] := by
  unfold hostnamesIn
  split
  next items =>
    split
    next texts =>
      cases names : items.filterMap Json.text? with
      | nil => rfl
      | cons name rest =>
        have held := map_filterMap_text texts
        rw [names] at held
        exact absurd (by rw [held]) (none (name :: rest) (by simp))
    next => rfl
  next => rfl

/-- The hosts that a stored verdict keeps pods of a class off. Those of no class are kept off none. -/
def storedHosts (workload : WorkloadClass) (found : Except StoreFault (Option Json)) : List Text :=
  if workload = .unclassified then [] else hostnamesIn found

theorem storedHosts_eq_nil {workload : WorkloadClass} {found : Except StoreFault (Option Json)}
    (none : ∀ names : List Text, names ≠ [] → found ≠ .ok (some (.arr (names.map .str)))) :
    storedHosts workload found = [] := by
  unfold storedHosts
  split
  · rfl
  · exact hostnamesIn_eq_nil none

/-- Without a state under its key, a source over a store tells nothing of a node. -/
theorem avoidance_store_none {keyspace node : Text} {s : Store}
    (none : ∀ state : Avoidance,
      s.read (keyspace ++ ":avoidance:" ++ node) ≠ .ok (some (.str state.name))) :
    (Source.avoidance (.store keyspace s) node).outcome.toOption.join = .none := by
  rw [avoidance_store]
  cases found : s.read (keyspace ++ ":avoidance:" ++ node) with
  | error cause => rfl
  | ok document =>
    cases document with
    | none => rfl
    | some v =>
      cases v with
      | str text =>
        cases named : Avoidance.ofName? text with
        | none => simp [Except.bind, stateOf, Json.text?, named, Except.toOption]
        | some state =>
          have same : state.name = text := by simpa using List.find?_some named
          exact absurd (by rw [found, same]) (none state)
      | null | bool | int | float | arr | obj => rfl

end Verdict

namespace Patch

/-- Whether an entry writes the affinity of a pod. -/
def Entry.writesAffinity (e : Entry) : Bool := e.path = "/spec/affinity"

end Patch

namespace Pod

variable {pod : Pod} {ns name : Text} {settings : Settings} {workload : WorkloadClass}
  {names : List Text} {keyspace : Text} {s : Store}

theorem writesAffinity_hostEntries : ∀ e ∈ hostEntries names, e.writesAffinity = true := by
  unfold hostEntries
  split <;> simp [Patch.Entry.add, Patch.Entry.writesAffinity]

theorem isFinite_hostEntries : (hostEntries names).all (·.value.isFinite) = true := by
  unfold hostEntries
  split
  · rfl
  · simp [Patch.Entry.add, Affinity.excluding, Json.isFinite, Json.haveFinite, Json.areFinite,
      Json.areFinite_texts]

theorem writesAffinity_reductions {kind : Text} (plain : Pointer.IsPlain kind)
    {factor : Binary64} {containers : List Container} {reductions : List Patch.Entry}
    (reduced : Container.reductions kind factor containers = .ok reductions) :
    ∀ e ∈ reductions, e.writesAffinity = false := by
  intro e member
  obtain ⟨position, path⟩ := Container.path_reductions reduced e member
  have short : Pointer.segments? "/spec/affinity" = some (["spec", "affinity"] : List Text) := by rfl
  rw [Patch.Entry.writesAffinity, decide_eq_false_iff_not, path]
  intro same
  rw [← same, Container.segments?_requestsPath plain] at short
  simp at short

theorem writesAffinity_reductionEntries {factor : Binary64} {reductions : List Patch.Entry}
    (reduced : pod.reductionEntries factor = .ok reductions) :
    ∀ e ∈ reductions, e.writesAffinity = false := by
  simp only [reductionEntries, Fallible.bind_eq_ok, Fallible.pure_eq_ok] at reduced
  obtain ⟨first, begins, second, follows, rfl⟩ := reduced
  rw [List.forall_mem_append]
  exact ⟨writesAffinity_reductions (by decide) begins, writesAffinity_reductions (by decide) follows⟩

theorem writesAffinity_standing (pod : Pod) (ns name : Text) (workload : WorkloadClass) :
    (∀ e ∈ pod.evictionEntries ns name, e.writesAffinity = false) ∧
      (∀ e ∈ poolEntries workload, e.writesAffinity = false) ∧
      ∀ e ∈ pod.labelEntries workload ns, e.writesAffinity = false := by
  refine ⟨?_, by simp [poolEntries, Patch.Entry.add, Patch.Entry.writesAffinity],
    by simp [labelEntries, Patch.Entry.add, Patch.Entry.writesAffinity]⟩
  unfold evictionEntries
  split <;> simp [Patch.Entry.add, Patch.Entry.writesAffinity]

/-- No entry of a patch that is made around the affinity writes one. -/
theorem writesAffinity_around {factor : Binary64} {reductions : List Patch.Entry}
    (reduced : pod.reductionEntries factor = .ok reductions) (ns name : Text) (workload : WorkloadClass) :
    ∀ e ∈ pod.evictionEntries ns name ++ reductions ++ poolEntries workload ++ pod.labelEntries workload ns,
      e.writesAffinity = false := by
  obtain ⟨eviction, pool, labels⟩ := pod.writesAffinity_standing ns name workload
  simp only [List.forall_mem_append]
  exact ⟨⟨⟨eviction, writesAffinity_reductionEntries reduced⟩, pool⟩, labels⟩

/-- The affinity is all that the names a source tells bring into a patch. -/
theorem filter_affinity (names : List Text) {before after : List Patch.Entry}
    (apart : ∀ e ∈ before ++ after, e.writesAffinity = false) :
    (before ++ hostEntries names ++ after).filter (fun e => !e.writesAffinity) = before ++ after ∧
      (before ++ hostEntries names ++ after).filter (·.writesAffinity) = hostEntries names := by
  obtain ⟨apartBefore, apartAfter⟩ := List.forall_mem_append.mp apart
  have others {entries : List Patch.Entry} (apart : ∀ e ∈ entries, e.writesAffinity = false) :
      entries.filter (fun e => !e.writesAffinity) = entries ∧ entries.filter (·.writesAffinity) = [] :=
    ⟨List.filter_eq_self.mpr (by simpa using apart), List.filter_eq_nil_iff.mpr (by simpa using apart)⟩
  have hosts : (hostEntries names).filter (fun e => !e.writesAffinity) = [] ∧
      (hostEntries names).filter (·.writesAffinity) = hostEntries names :=
    ⟨List.filter_eq_nil_iff.mpr (by simpa using writesAffinity_hostEntries),
      List.filter_eq_self.mpr writesAffinity_hostEntries⟩
  simp only [List.filter_append, others apartBefore, others apartAfter, hosts, List.append_nil,
    List.nil_append, and_self]

/-- The affinity in a patch that is made around stored hosts, and its absence where there are none. -/
theorem affinity_of_entries {before after : List Patch.Entry}
    (apart : ∀ e ∈ before ++ after, e.writesAffinity = false) {patch : Patch}
    {found : Except StoreFault (Option Json)}
    (entries : patch.entries = before ++ hostEntries (Verdict.storedHosts workload found) ++ after) :
    patch.entries.filter (fun e => !e.writesAffinity) = before ++ after ∧
      patch.entries.filter (·.writesAffinity) = hostEntries (Verdict.storedHosts workload found) ∧
      ((∀ names : List Text, names ≠ [] → found ≠ .ok (some (.arr (names.map .str)))) →
        patch.entries.filter (·.writesAffinity) = []) := by
  obtain ⟨others, hosts⟩ := filter_affinity (Verdict.storedHosts workload found) apart
  rw [← entries] at others hosts
  refine ⟨others, hosts, ?_⟩
  intro none
  rw [hosts, Verdict.storedHosts_eq_nil none]
  rfl

theorem isFinite_aroundHosts {before after : List Patch.Entry} :
    (⟨before ++ hostEntries names ++ after⟩ : Patch).toJson.isFinite =
      (before ++ after).all (·.value.isFinite) := by
  rw [Patch.isFinite_toJson]
  simp only [List.all_append, isFinite_hostEntries, Bool.and_true]

/-- A pod's patch under a store fails as under any other store, or the store decides its affinity and
nothing else. -/
theorem patch_store (pod : Pod) (ns name : Text) (settings : Settings) (keyspace : Text) :
    (∃ fault, ∀ s, (pod.patch ns name settings (.store keyspace s)).outcome = .error fault) ∨
      ∃ before after, (∀ e ∈ before ++ after, e.writesAffinity = false) ∧
        ∀ s, (pod.patch ns name settings (.store keyspace s)).outcome =
          .ok (pod.classify ns name, ⟨before ++ hostEntries (Verdict.storedHosts (pod.classify ns name)
            (s.read (keyspace ++ ":preclude:" ++ (pod.classify ns name).name))) ++ after⟩) := by
  by_cases outside : pod.classify ns name = .unclassified
  · obtain ⟨eviction, -, -⟩ := pod.writesAffinity_standing ns name (pod.classify ns name)
    refine .inr ⟨pod.evictionEntries ns name, [], by simpa using eviction, ?_⟩
    intro s
    rw [patch_unclassified outside, outside]
    simp [Verdict.storedHosts, hostEntries]
  · cases reduced : pod.reductionEntries (settings.cpuFactor (pod.classify ns name)) with
    | error cause =>
      refine .inl ⟨.arithmetic cause, ?_⟩
      intro s
      rw [patch_classified outside (Verdict.tells_store keyspace s _), reduced]
      rfl
    | ok reductions =>
      refine .inr ⟨pod.evictionEntries ns name ++ reductions ++ poolEntries (pod.classify ns name),
        pod.labelEntries (pod.classify ns name) ns, writesAffinity_around reduced ns name _, ?_⟩
      intro s
      rw [patch_classified outside (Verdict.tells_store keyspace s _), reduced, Verdict.storedHosts,
        if_neg outside]
      rfl

end Pod

namespace Service

variable {settings : Settings} {keyspace : Text} {request : Request} {review : Review}

/-- Whether the review of a pod is answered with a patch does not depend on the store. -/
theorem mutate_pod_store (reviewed : Service.review request = .ok review)
    (about : review.resource = some .pods) (settings : Settings) (keyspace : Text) :
    (∃ status, status ≠ 200 ∧
        ∀ s, (mutate settings (.store keyspace s) request).outcome.status = status) ∨
      ∃ pod workload before after, Pod.ofJson review.object = .ok pod ∧
        (∀ e ∈ before ++ after, e.writesAffinity = false) ∧
        ∀ s, ∃ patch : Patch,
          (pod.patch (review.nsOf pod) (review.nameOf pod) settings (.store keyspace s)).outcome =
            .ok (workload, patch) ∧
          Allows (mutate settings (.store keyspace s) request).outcome review patch ∧
          patch.entries = before ++ Pod.hostEntries (Verdict.storedHosts workload
            (s.read (keyspace ++ ":preclude:" ++ workload.name))) ++ after := by
  cases decoded : Pod.ofJson review.object with
  | error fault =>
    refine .inl ⟨fault.status, fault.status_ne_ok, ?_⟩
    intro s
    rw [mutate_pod reviewed about, decoded]
    rfl
  | ok pod =>
    rcases pod.patch_store (review.nsOf pod) (review.nameOf pod) settings keyspace with
      ⟨fault, fails⟩ | ⟨before, after, apart, outcomes⟩
    · refine .inl ⟨fault.status, fault.status_ne_ok, ?_⟩
      intro s
      rw [mutate_pod reviewed about, decoded, Fallible.ok_bind, fails]
      rfl
    · cases finite : (before ++ after).all (·.value.isFinite) with
      | false =>
        refine .inl ⟨500, by decide, ?_⟩
        intro s
        rw [mutate_pod_planned reviewed about decoded (outcomes s),
          allowing_not_isFinite (Pod.isFinite_aroundHosts.trans finite)]
        rfl
      | true =>
        refine .inr ⟨pod, _, before, after, rfl, apart, fun s => ⟨_, outcomes s, ?_, rfl⟩⟩
        rw [mutate_pod_planned reviewed about decoded (outcomes s)]
        exact allows_allowing (Pod.isFinite_aroundHosts.trans finite)

/-- Without a state under its key, a node is admitted as it is. -/
theorem mutate_node_store (reviewed : Service.review request = .ok review)
    (about : review.resource = some .nodes) {node : Node} (decoded : Node.ofJson review.object = .ok node)
    {s : Store} (none : ∀ state : Avoidance,
      s.read (keyspace ++ ":avoidance:" ++ node.name) ≠ .ok (some (.str state.name))) :
    (mutate settings (.store keyspace s) request).outcome =
      ⟨200, some (Answer.toJson ⟨review.apiVersion, review.kind, review.uid, true, .none, .none⟩)⟩ := by
  have empty : (node.patch (.store keyspace s)).outcome.patch = .empty := by
    unfold Node.patch
    split
    · rfl
    · simp only [Verdict.avoidance_store_none none]
  rw [mutate_node reviewed about, decoded, Fallible.ok_bind, empty, allowing, Answer.review_empty]
  rfl

/-- What a store holds never decides whether a pod is admitted. Under any two stores the status is
the same, and the patches differ in the affinity at most, which is that of the hostnames under one
key and absent unless they are a list of some texts. A node is admitted as it is unless one of the
avoidance states stands under its key. -/
theorem verdicts_fail_open (reviewed : Service.review request = .ok review) (settings : Settings)
    (keyspace : Text) (first second : Store) :
    let answered (s : Store) := (mutate settings (.store keyspace s) request).outcome
    (review.resource = some .pods →
      (answered first).status = (answered second).status ∧
      ((answered first).status = 200 → ∃ pod workload, Pod.ofJson review.object = .ok pod ∧
        ∃ patch₁ patch₂ : Patch,
          Allows (answered first) review patch₁ ∧ Allows (answered second) review patch₂ ∧
          patch₁.entries.filter (fun e => !e.writesAffinity) =
            patch₂.entries.filter (fun e => !e.writesAffinity) ∧
          ∀ planned ∈ [(first, patch₁), (second, patch₂)],
            let found := planned.1.read (keyspace ++ ":preclude:" ++ workload.name)
            (pod.patch (review.nsOf pod) (review.nameOf pod) settings
              (.store keyspace planned.1)).outcome = .ok (workload, planned.2) ∧
            planned.2.entries.filter (·.writesAffinity) =
              Pod.hostEntries (Verdict.storedHosts workload found) ∧
            ((∀ names : List Text, names ≠ [] → found ≠ .ok (some (.arr (names.map .str)))) →
              planned.2.entries.filter (·.writesAffinity) = []))) ∧
    (review.resource = some .nodes → ∀ node, Node.ofJson review.object = .ok node →
      (∀ state : Avoidance,
        first.read (keyspace ++ ":avoidance:" ++ node.name) ≠ .ok (some (.str state.name))) →
      answered first =
        ⟨200, some (Answer.toJson ⟨review.apiVersion, review.kind, review.uid, true, none, none⟩)⟩) := by
  intro answered
  constructor
  · intro about
    rcases mutate_pod_store reviewed about settings keyspace with
      ⟨status, fails, same⟩ | ⟨pod, workload, before, after, decoded, apart, planned⟩
    · constructor
      · exact (same first).trans (same second).symm
      · intro allowed
        exact absurd ((same first).symm.trans allowed) fails
    · obtain ⟨patch₁, outcome₁, allows₁, entries₁⟩ := planned first
      obtain ⟨patch₂, outcome₂, allows₂, entries₂⟩ := planned second
      obtain ⟨others₁, hosts₁, absent₁⟩ := Pod.affinity_of_entries apart entries₁
      obtain ⟨others₂, hosts₂, absent₂⟩ := Pod.affinity_of_entries apart entries₂
      constructor
      · exact allows₁.status.trans allows₂.status.symm
      · intro _
        refine ⟨pod, workload, decoded, patch₁, patch₂, allows₁, allows₂,
          others₁.trans others₂.symm, ?_⟩
        simp only [List.forall_mem_cons]
        exact ⟨⟨outcome₁, hosts₁, absent₁⟩, ⟨outcome₂, hosts₂, absent₂⟩, by simp⟩
  · intro about node decoded none
    exact mutate_node_store reviewed about decoded none

/-- A test pod under a store with an undecodable verdict and under one with hosts, of which one is called by a
surrogate that stands alone, and a node under a store with an unknown state. -/
theorem verdicts_fail_open_unreadable :
    let request (resource : Text) (fields : Fields Json) : Request :=
      ⟨"POST", "/mutate", some "application/json", (Json.render (.obj [("request", .obj
        (("resource", .obj [("version", .str "v1"), ("resource", .str resource)]) :: fields))])).toUTF8⟩
    let pods := request "pods" [("namespace", .str "ci-op-x"), ("object", .obj [])]
    let nodes := request "nodes" [("object", .obj [("metadata", .obj
      [("labels", .obj [("ci-workload", .str "tests")])])])]
    let unreadable : Store := ⟨[("ci:preclude:tests", "[".toUTF8), ("ci:avoidance:", "1".toUTF8)], true⟩
    let hosts : Store := ⟨[("ci:preclude:tests", "[\"a\", \"\\ud800\"]".toUTF8)], true⟩
    (mutate .default (.store "ci" unreadable) pods).outcome.status =
        (mutate .default (.store "ci" hosts) pods).outcome.status ∧
      (mutate .default (.store "ci" unreadable) nodes).outcome =
        ⟨200, some (Answer.toJson
          ⟨Review.defaultApiVersion, Review.defaultKind, "", true, none, none⟩)⟩ := by
  intro request pods nodes unreadable hosts
  let review (ns : Text) (resource : Resource) (object : Json) : Review :=
    ⟨Review.defaultApiVersion, Review.defaultKind, "", "", ns, some resource, object⟩
  have podsReviewed : Service.review pods = .ok (review "ci-op-x" .pods (.obj [])) := by decide +kernel
  have nodesReviewed : Service.review nodes = .ok (review "" .nodes (.obj [("metadata", .obj
      [("labels", .obj [("ci-workload", .str "tests")])])])) := by decide +kernel
  refine ⟨((verdicts_fail_open podsReviewed .default "ci" unreadable hosts).1 rfl).1,
    (verdicts_fail_open nodesReviewed .default "ci" unreadable hosts).2 rfl
      ⟨"", some [("ci-workload", "tests")], []⟩ (by decide +kernel) ?_⟩
  intro state
  cases state <;> decide +kernel

end Service
end WorkloadAdmission
