import Mathlib.Data.List.Perm.Basic
import Mathlib.Logic.Relation
import WorkloadAdmission.Workload.Classification

/-! What decides on the class of a pod. Beside the namespace and the name it is admitted under, three
questions do: whether Prow has labelled it, whether a build name labels it, and whether some container of
it asks for a resource that not every pool has. Which container asks, in which list it stands and how much
it asks for play no part. So a pod that asks for more keeps its class or loses it, and one with a longer
name keeps its class or becomes a long test. -/
namespace WorkloadAdmission

/-- The namespaces of jobs, by what they begin with. -/
def IsJobNamespace (ns : Text) : Prop :=
  ("ci-op-" : Text).points <+: ns.points ∨ ("ci-ln-" : Text).points <+: ns.points

theorem isJobNamespace_iff {ns : Text} :
    IsJobNamespace ns ↔ jobNamespacePrefixes.any (Text.beginsWith ns) = true := by
  simp only [IsJobNamespace, jobNamespacePrefixes, List.any_cons, List.any_nil, Bool.or_false,
    Bool.or_eq_true, Text.beginsWith_iff]

theorem IsJobNamespace.ne_ci {ns : Text} (job : IsJobNamespace ns) : ns ≠ ciNamespace := by
  rintro rfl
  revert job
  unfold IsJobNamespace
  decide

/-- What marks the name of a long test marks every continuation of it. -/
theorem isLongTest_append {name : Text} (long : isLongTest name = true) (suffix : Text) :
    isLongTest (name ++ suffix) = true := by
  have begins : name.points <+: (name ++ suffix).points := by
    rw [Text.points_append]
    exact List.prefix_append _ _
  simp only [isLongTest, Bool.or_eq_true, List.any_eq_true, Text.beginsWith_iff, Text.holds_iff] at long ⊢
  exact long.imp (fun ⟨start, listed, found⟩ => ⟨start, listed, found.trans begins⟩)
    fun ⟨part, listed, found⟩ => ⟨part, listed, found.trans begins.isInfix⟩

namespace Container

/-- The resources that a container asks for. -/
def keys (c : Container) : List Text := c.requests.map Prod.fst

/-- A list of containers with one more in it, or with one in it that asks for more. -/
inductive Enlarges : List Container → List Container → Prop where
  | container (before after : List Container) (c : Container) :
      Enlarges (before ++ after) (before ++ c :: after)
  | requests (before after : List Container) {c larger : Container} : c.keys ⊆ larger.keys →
      Enlarges (before ++ c :: after) (before ++ larger :: after)

/-- Enlarging a list of containers takes nothing away from what they ask for. -/
theorem Enlarges.subset {containers larger : List Container} (step : Enlarges containers larger) :
    containers.flatMap keys ⊆ larger.flatMap keys := by
  cases step with
  | container before after c =>
    rw [List.flatMap_append, List.flatMap_append, List.flatMap_cons]
    exact List.append_subset.mpr ⟨List.subset_append_left _ _,
      List.subset_append_of_subset_right _ (List.subset_append_right _ _)⟩
  | requests before after more =>
    simp only [List.flatMap_append, List.flatMap_cons]
    exact List.append_subset.mpr ⟨List.subset_append_left _ _, List.subset_append_of_subset_right _
      (List.append_subset.mpr ⟨List.subset_append_of_subset_left _ more, List.subset_append_right _ _⟩)⟩

end Container

namespace Pod

variable {pod other : Pod} {ns name key : Text}

/-- The resources that the containers of a pod ask for, initial and regular. -/
def requested (pod : Pod) : List Text := (pod.initContainers ++ pod.containers).flatMap Container.keys

/-- Some container of a pod asks for a resource that not every pool has. -/
def AsksSpecial (pod : Pod) : Prop :=
  ∃ key ∈ pod.requested, key ∉ (["cpu", "memory", "ephemeral-storage"] : List Text)

/-- A pod with the same containers in other places, with one of them once more, or with other quantities
in their requests. -/
inductive Rearranges (pod : Pod) : Pod → Prop where
  | move {initial regular : List Container} :
      (initial ++ regular).Perm (pod.initContainers ++ pod.containers) →
      Rearranges pod { pod with initContainers := initial, containers := regular }
  | duplicate {c : Container} {initial regular : List Container} :
      c ∈ pod.initContainers ++ pod.containers →
      (initial ++ regular).Perm (c :: (pod.initContainers ++ pod.containers)) →
      Rearranges pod { pod with initContainers := initial, containers := regular }
  | requantify {initial regular : List Container} :
      initial.map Container.keys = pod.initContainers.map Container.keys →
      regular.map Container.keys = pod.containers.map Container.keys →
      Rearranges pod { pod with initContainers := initial, containers := regular }

/-- A pod with a container or a request added. -/
inductive Grows (pod : Pod) : Pod → Prop where
  | initial {larger : List Container} : Container.Enlarges pod.initContainers larger →
      Grows pod { pod with initContainers := larger }
  | regular {larger : List Container} : Container.Enlarges pod.containers larger →
      Grows pod { pod with containers := larger }

/-! ### What a pod asks for -/

theorem asksSpecial_iff :
    pod.AsksSpecial ↔ (requestsSpecial pod.initContainers || requestsSpecial pod.containers) = true := by
  rw [requestsSpecial, requestsSpecial, ← List.any_append]
  simp only [AsksSpecial, requested, Container.keys, standardResources, List.any_eq_true, Bool.not_eq_true',
    List.contains_eq_mem, decide_eq_false_iff_not, List.mem_flatMap, List.mem_map]
  constructor
  · rintro ⟨_, ⟨c, member, request, asked, rfl⟩, special⟩
    exact ⟨c, member, request, asked, special⟩
  · rintro ⟨c, member, request, asked, special⟩
    exact ⟨request.1, ⟨c, member, request, asked, rfl⟩, special⟩

instance (pod : Pod) : Decidable pod.AsksSpecial := decidable_of_iff _ asksSpecial_iff.symm

theorem AsksSpecial.mono (special : pod.AsksSpecial) (more : pod.requested ⊆ other.requested) :
    other.AsksSpecial := by
  obtain ⟨key, asked, apart⟩ := special
  exact ⟨key, more asked, apart⟩

theorem Rearranges.labels (step : pod.Rearranges other) : other.labels = pod.labels := by
  cases step <;> rfl

/-- Rearranging a pod adds no resource to what it asks for and takes none away. -/
theorem Rearranges.mem_requested_iff (step : pod.Rearranges other) :
    key ∈ other.requested ↔ key ∈ pod.requested := by
  cases step with
  | move perm => exact (perm.flatMap_right _).mem_iff
  | duplicate member perm =>
    rw [requested, (perm.flatMap_right _).mem_iff, List.flatMap_cons, List.mem_append]
    exact or_iff_right_of_imp fun asked => List.mem_flatMap.mpr ⟨_, member, asked⟩
  | requantify initial regular =>
    simp only [requested, List.flatMap_def, List.map_append, initial, regular]

theorem Grows.labels (step : pod.Grows other) : other.labels = pod.labels := by
  cases step <;> rfl

/-- Adding to a pod takes nothing away from what it asks for. -/
theorem Grows.subset (step : pod.Grows other) : pod.requested ⊆ other.requested := by
  cases step with
  | initial enlarges =>
    simp only [requested, List.flatMap_append]
    exact List.append_subset.mpr ⟨List.subset_append_of_subset_left _ enlarges.subset,
      List.subset_append_right _ _⟩
  | regular enlarges =>
    simp only [requested, List.flatMap_append]
    exact List.append_subset.mpr ⟨List.subset_append_left _ _,
      List.subset_append_of_subset_right _ enlarges.subset⟩

/-- What any number of rearrangements leaves. -/
theorem same_of_rearranges (run : Relation.ReflTransGen Rearranges pod other) :
    other.labels = pod.labels ∧ ∀ key, key ∈ other.requested ↔ key ∈ pod.requested := by
  induction run with
  | refl => exact ⟨rfl, fun _ => Iff.rfl⟩
  | tail _ step ih => exact ⟨step.labels.trans ih.1, fun key => step.mem_requested_iff.trans (ih.2 key)⟩

/-- What any number of additions leaves. -/
theorem more_of_grows (run : Relation.ReflTransGen Grows pod other) :
    other.labels = pod.labels ∧ pod.requested ⊆ other.requested := by
  induction run with
  | refl => exact ⟨rfl, List.Subset.refl _⟩
  | tail _ step ih => exact ⟨step.labels.trans ih.1, List.Subset.trans ih.2 step.subset⟩

/-! ### Classes -/

theorem hasLabel_congr (labels : other.labels = pod.labels) (label : Text) :
    pod.hasLabel label = other.hasLabel label := by
  rw [hasLabel, hasLabel, labels]

/-- The three questions about a pod that its class depends on. -/
theorem classify_congr (prow : pod.hasLabel "created-by-prow" = other.hasLabel "created-by-prow")
    (build : pod.hasLabel "openshift.io/build.name" = other.hasLabel "openshift.io/build.name")
    (special : pod.AsksSpecial ↔ other.AsksSpecial) (ns name : Text) :
    pod.classify ns name = other.classify ns name := by
  rw [asksSpecial_iff, asksSpecial_iff, ← Bool.eq_iff_iff] at special
  rw [classify, classify, createdByProwLabel, buildNameLabel, prow, build, special]

/-- Outside the namespaces of jobs it does not matter what a pod asks for. -/
theorem classify_of_outside (outside : ¬ IsJobNamespace ns) (labels : other.labels = pod.labels)
    (name : Text) : other.classify ns name = pod.classify ns name := by
  rw [isJobNamespace_iff, Bool.not_eq_true] at outside
  simp only [classify, hasLabel_congr labels, outside, Bool.not_false, if_true]

theorem classify_of_asksSpecial (job : IsJobNamespace ns) (special : pod.AsksSpecial) (name : Text) :
    pod.classify ns name = .unclassified := by
  rw [classify, if_neg job.ne_ci, isJobNamespace_iff.mp job, asksSpecial_iff.mp special]
  rfl

/-- A pod that asks for more keeps its class, or loses it in the namespace of a job. -/
theorem classify_of_more (labels : other.labels = pod.labels) (more : pod.requested ⊆ other.requested)
    (ns name : Text) :
    other.classify ns name = pod.classify ns name ∨
      IsJobNamespace ns ∧ other.classify ns name = .unclassified := by
  by_cases job : IsJobNamespace ns
  · by_cases special : other.AsksSpecial
    · exact .inr ⟨job, classify_of_asksSpecial job special name⟩
    · have plain : ¬ pod.AsksSpecial := fun asked => special (asked.mono more)
      exact .inl (classify_congr (hasLabel_congr labels _).symm (hasLabel_congr labels _).symm
        (iff_of_false special plain) ns name)
  · exact .inl (classify_of_outside job labels name)

/-- A pod under a longer name keeps its class, or turns from a test into a long one. -/
theorem classify_append (pod : Pod) (ns name suffix : Text) :
    pod.classify ns (name ++ suffix) = pod.classify ns name ∨
      pod.classify ns name = .tests ∧ pod.classify ns (name ++ suffix) = .longTests := by
  by_cases same : isLongTest (name ++ suffix) = isLongTest name
  · left
    simp only [classify, same]
  · have long : isLongTest (name ++ suffix) = true := by
      by_contra short
      have shorter : ¬ isLongTest name = true := fun long => short (isLongTest_append long suffix)
      exact same (by simp only [Bool.not_eq_true] at short shorter; rw [short, shorter])
    have short : isLongTest name = false := by
      simpa [long] using Ne.symm same
    simp only [classify, long, short]
    split_ifs <;> simp

/-- The class of a pod depends on three questions about it, and so on no rearrangement of what its
containers ask for. What is added to a pod or to its name moves it in one direction only. -/
theorem classify_depends :
    (∀ (pod other : Pod) (ns name : Text),
      pod.hasLabel "created-by-prow" = other.hasLabel "created-by-prow" →
      pod.hasLabel "openshift.io/build.name" = other.hasLabel "openshift.io/build.name" →
      (pod.AsksSpecial ↔ other.AsksSpecial) → pod.classify ns name = other.classify ns name) ∧
    (∀ (pod other : Pod) (ns name : Text), Relation.ReflTransGen Rearranges pod other →
      other.classify ns name = pod.classify ns name) ∧
    (∀ (pod other : Pod) (ns name : Text), Relation.ReflTransGen Grows pod other →
      other.classify ns name = pod.classify ns name ∨
        IsJobNamespace ns ∧ other.classify ns name = .unclassified) ∧
    ∀ (pod : Pod) (ns name suffix : Text),
      pod.classify ns (name ++ suffix) = pod.classify ns name ∨
        pod.classify ns name = .tests ∧ pod.classify ns (name ++ suffix) = .longTests := by
  refine ⟨?_, ?_, ?_, classify_append⟩
  · intro pod other ns name prow build special
    exact classify_congr prow build special ns name
  · intro pod other ns name run
    obtain ⟨labels, same⟩ := same_of_rearranges run
    have special : other.AsksSpecial ↔ pod.AsksSpecial :=
      ⟨fun asked => asked.mono fun key => (same key).mp, fun asked => asked.mono fun key => (same key).mpr⟩
    exact classify_congr (hasLabel_congr labels _).symm (hasLabel_congr labels _).symm special ns name
  · intro pod other ns name run
    obtain ⟨labels, more⟩ := more_of_grows run
    exact classify_of_more labels more ns name

/-- A test whose container moves to the initial ones and asks for less, to which one for a special
resource is added, and whose name goes on to that of a long test. -/
theorem classify_depends_upgrade :
    let test : Container := ⟨"test", [("cpu", .str "2"), ("memory", .str "1Gi")], some 2000⟩
    let smaller : Container := ⟨"test", [("cpu", .str "1"), ("memory", .int 0)], some 1000⟩
    let pod : Pod := ⟨"e2e", "ci-op-x", none, none, [], [test]⟩
    let idle : Pod := ⟨"", "", some [], some [], [], []⟩
    let moved : Pod := { pod with initContainers := [smaller], containers := [] }
    let special : Pod := { pod with containers := [test, ⟨"gpu", [("nvidia.com/gpu", .int 1)], none⟩] }
    pod.classify "ci-op-x" "e2e" = .tests ∧
      pod.hasLabel "created-by-prow" = idle.hasLabel "created-by-prow" ∧
      pod.hasLabel "openshift.io/build.name" = idle.hasLabel "openshift.io/build.name" ∧
      (pod.AsksSpecial ↔ idle.AsksSpecial) ∧
      pod.classify "ci-op-x" "e2e" = idle.classify "ci-op-x" "e2e" ∧
      Relation.ReflTransGen Rearranges pod moved ∧
      moved.classify "ci-op-x" "e2e" = pod.classify "ci-op-x" "e2e" ∧
      Relation.ReflTransGen Grows pod special ∧
      special.classify "ci-op-x" "e2e" = .unclassified ∧
      pod.classify "ci-op-x" ("e2e" ++ "-aws-upgrade") = .longTests := by
  intro test smaller pod idle moved special
  have prow : pod.hasLabel "created-by-prow" = idle.hasLabel "created-by-prow" := by decide
  have build : pod.hasLabel "openshift.io/build.name" = idle.hasLabel "openshift.io/build.name" := by decide
  have alike : pod.AsksSpecial ↔ idle.AsksSpecial := by decide
  have moves : pod.Rearranges { pod with initContainers := [test], containers := [] } :=
    .move (List.Perm.refl _)
  have shrinks : Rearranges { pod with initContainers := [test], containers := [] } moved :=
    .requantify rfl rfl
  have run := (Relation.ReflTransGen.single moves).tail shrinks
  have grows : Relation.ReflTransGen Grows pod special :=
    .single (.regular (.container [test] [] _))
  obtain ⟨congr, rearranged, grown, longer⟩ := classify_depends
  have tests : pod.classify "ci-op-x" "e2e" = .tests := by decide
  have lost : special.classify "ci-op-x" "e2e" ≠ pod.classify "ci-op-x" "e2e" := by decide
  have long : pod.classify "ci-op-x" ("e2e" ++ "-aws-upgrade") ≠ pod.classify "ci-op-x" "e2e" := by decide
  exact ⟨tests, prow, build, alike, congr pod idle _ _ prow build alike, run, rearranged pod moved _ _ run,
    grows, ((grown pod special _ _ grows).resolve_left lost).2,
    ((longer pod "ci-op-x" "e2e" "-aws-upgrade").resolve_left long).2⟩

end Pod
end WorkloadAdmission
