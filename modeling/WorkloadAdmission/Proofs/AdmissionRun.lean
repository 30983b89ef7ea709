import Mathlib.Data.List.Chain
import Mathlib.Data.List.Forall2
import WorkloadAdmission.Proofs.Steering

/-! Admitting a pod any number of times, each time under other settings and other verdicts. A
container is kept by one admission or settled by it, and a settled container is kept by every later
one, so over a whole run its requests change once at most. -/
namespace WorkloadAdmission

namespace Container

/-- What may have become of a container over some admissions: it is as it was, or it could shrink and
is stamped. -/
def Became (before after : Container) : Prop :=
  after = before ∨ before.reducible?.isSome ∧ after.IsStamped

variable {c before middle after : Container} {factor : Binary64} {containers : List Container}

theorem Became.eq_of_stamped (became : Became before after) (stamped : before.IsStamped) :
    after = before := by
  obtain same | ⟨reducible, -⟩ := became
  · exact same
  · simp [stamped.reducible?] at reducible

theorem Became.trans (first : Became before middle) (second : Became middle after) :
    Became before after := by
  rcases first with rfl | ⟨reducible, stamped⟩
  · exact second
  · rw [second.eq_of_stamped stamped]
    exact .inr ⟨reducible, stamped⟩

theorem became_settled (exact : c.IsExact) (above : factor.isPositive = true)
    (below : factor.isAtLeastOne = false) : Became c (c.settled factor) := by
  cases reducible : c.reducible? with
  | none => exact .inl (settled_of_none reducible)
  | some millis =>
    right
    constructor
    · rw [reducible, Option.isSome_some]
    · exact isStamped_settled reducible exact above below

theorem became_settledAll (exact : ∀ c ∈ containers, c.IsExact) (above : factor.isPositive = true) :
    List.Forall₂ Became containers (settledAll factor containers) := by
  cases below : factor.isAtLeastOne with
  | true =>
    simp only [settledAll, below, if_true]
    exact List.forall₂_same.mpr fun _ _ => .inl rfl
  | false =>
    simp only [settledAll, below, Bool.false_eq_true, if_false]
    rw [List.forall₂_map_right_iff, List.forall₂_same]
    intro c member
    exact became_settled (exact c member) above below

/-! ### The track of one container -/

def ShrinksAt (track : List Container) (step : Nat) : Prop :=
  ∃ before after, track[step]? = some before ∧ track[step + 1]? = some after ∧
    after.requests ≠ before.requests

/-- At most one step of a track changes the requests. From then on the CPU request counts the same
millicores, which carry the stamp. -/
structure ShrinksOnce (track : List Container) : Prop where
  once : ∀ first second, ShrinksAt track first → ShrinksAt track second → first = second
  stamped : ∀ step, ShrinksAt track step →
    ∃ millis : Int, millis % 10 = 1 ∧ ∀ c ∈ track.drop (step + 1), c.cpuMillis = some millis

variable {track : List Container}

instance : Trans Became Became Became := ⟨Became.trans⟩

theorem became_of_lt (evolves : track.IsChain Became) {first second : Nat} (later : first < second)
    (here : track[first]? = some before) (there : track[second]? = some after) :
    Became before after := by
  obtain ⟨reach, rfl⟩ := List.getElem?_eq_some_iff.mp here
  obtain ⟨reachToo, rfl⟩ := List.getElem?_eq_some_iff.mp there
  exact List.pairwise_iff_getElem.mp (List.isChain_iff_pairwise.mp evolves) _ _ reach reachToo later

/-- A step that changes the requests leaves a stamped container, which stays as it is. -/
theorem eq_of_shrinksAt (evolves : track.IsChain Became) {step : Nat} (shrinks : ShrinksAt track step) :
    ∃ settled : Container, settled.IsStamped ∧
      ∀ later > step, ∀ c, track[later]? = some c → c = settled := by
  obtain ⟨before, after, here, next, differ⟩ := shrinks
  have stamped : after.IsStamped := by
    rcases became_of_lt evolves (Nat.lt_succ_self step) here next with rfl | ⟨-, stamped⟩
    · exact absurd rfl differ
    · exact stamped
  refine ⟨after, stamped, ?_⟩
  intro later behind c there
  rcases Nat.eq_or_lt_of_le (Nat.succ_le_of_lt behind) with rfl | further
  · exact Option.some.inj (there.symm.trans next)
  · exact (became_of_lt evolves further next there).eq_of_stamped stamped

theorem not_shrinksAt_later (evolves : track.IsChain Became) {first second : Nat}
    (shrinks : ShrinksAt track first) (later : first < second) : ¬ ShrinksAt track second := by
  obtain ⟨settled, -, stays⟩ := eq_of_shrinksAt evolves shrinks
  rintro ⟨before, after, here, next, differ⟩
  rw [stays _ later before here, stays _ (Nat.lt_succ_of_lt later) after next] at differ
  exact differ rfl

theorem shrinksOnce_of_isChain (evolves : track.IsChain Became) : ShrinksOnce track where
  once first second shrinks shrinksToo := by
    rcases Nat.lt_trichotomy first second with later | same | later
    · exact absurd shrinksToo (not_shrinksAt_later evolves shrinks later)
    · exact same
    · exact absurd shrinks (not_shrinksAt_later evolves shrinksToo later)
  stamped step shrinks := by
    obtain ⟨settled, ⟨millis, held, stamp⟩, stays⟩ := eq_of_shrinksAt evolves shrinks
    refine ⟨millis, stamp, ?_⟩
    intro c member
    obtain ⟨n, there⟩ := List.mem_iff_getElem?.mp member
    rw [List.getElem?_drop] at there
    rw [stays _ (by omega) c there, held]

theorem track_of_isChain {list : List Container} {rest : List (List Container)}
    (evolve : (list :: rest).IsChain (List.Forall₂ Became)) {position : Nat}
    (reach : position < list.length) :
    ∃ track, rest.mapM (fun list => list[position]?) = some track ∧
      (list[position] :: track).IsChain Became := by
  induction rest generalizing list with
  | nil => exact ⟨[], rfl, .singleton _⟩
  | cons next others ih =>
    obtain ⟨evolves, remaining⟩ := List.isChain_cons_cons.mp evolve
    have reachNext : position < next.length := evolves.length_eq ▸ reach
    obtain ⟨track, found, chain⟩ := ih remaining reachNext
    refine ⟨next[position] :: track, ?_, .cons_cons (evolves.get reach reachNext) chain⟩
    simp [List.mapM_cons, found, List.getElem?_eq_getElem reachNext]

end Container

/-! ### Runs -/

/-- What may differ from one admission of a pod to the next. -/
structure Admission where
  settings : Settings
  source : Verdict.Source

namespace Admission

/-- Both factors are above zero, and what the source tells of a class are hostnames. -/
def IsSound (a : Admission) : Prop :=
  a.settings.HasPositiveFactors ∧ ∀ workload, ∃ names, a.source.Tells workload names

/-- Admits the pod in a document: decodes it, makes the patch and applies it. -/
def admit? (ns name : Text) (document : Json) (a : Admission) : Option Json := do
  let pod ← (Pod.ofJson document).toOption
  let (_, patch) ← (pod.patch ns name a.settings a.source).outcome.toOption
  patch.applied? document

/-- The documents before, between and after admissions. -/
def history? (ns name : Text) : Json → List Admission → Option (List Json)
  | document, [] => some [document]
  | document, a :: rest => do
    let next ← admit? ns name document a
    return document :: (← history? ns name next rest)

end Admission

namespace Pod

variable {pod : Pod} {ns name : Text} {m : Manifest}

def Precedes (ns name : Text) (before after : Pod) : Prop :=
  before.IsExact ∧ ∃ settings : Settings, settings.HasPositiveFactors ∧
    after = before.admitted ns name settings

theorem became_admittedContainers {workload : WorkloadClass} {settings : Settings}
    {containers : List Container} (positive : settings.HasPositiveFactors)
    (exact : ∀ c ∈ containers, c.IsExact) :
    List.Forall₂ Container.Became containers (admittedContainers workload settings containers) := by
  unfold admittedContainers
  split
  · exact List.forall₂_same.mpr fun _ _ => .inl rfl
  · exact Container.became_settledAll exact (positive.cpuFactor workload)

theorem Precedes.became {before after : Pod} (precedes : Precedes ns name before after)
    {containersOf : Pod → List Container} (field : containersOf ∈ [initContainers, containers]) :
    List.Forall₂ Container.Became (containersOf before) (containersOf after) := by
  obtain ⟨exact, settings, positive, rfl⟩ := precedes
  obtain ⟨exactFirst, exactSecond⟩ := List.forall_mem_append.mp exact
  simp only [List.mem_cons, List.not_mem_nil, or_false] at field
  rcases field with rfl | rfl
  · exact became_admittedContainers positive exactFirst
  · exact became_admittedContainers positive exactSecond

theorem admit?_eq_some (ns name : Text) (decoded : ofJson m.toJson = .ok pod)
    (exact : pod.IsExact) {a : Admission} (sound : a.IsSound) :
    ∃ target : Manifest, Admission.admit? ns name m.toJson a = some target.toJson ∧
      ofJson target.toJson = .ok (pod.admitted ns name a.settings) := by
  obtain ⟨names, told⟩ := sound.2 (pod.classify ns name)
  obtain ⟨patch, target, outcome, leads, decodes, -⟩ := admits decoded exact sound.1 told
  refine ⟨target, ?_, decodes⟩
  simp only [Admission.admit?, decoded, Except.toOption, outcome, Option.bind_eq_bind, Option.bind_some]
  exact leads

/-- A run of admissions succeeds, and each document in it decodes to what the one before leaves. -/
theorem history_isChain (decoded : ofJson m.toJson = .ok pod) (exact : pod.IsExact)
    {admissions : List Admission} (sound : ∀ a ∈ admissions, a.IsSound) :
    ∃ documents pods, Admission.history? ns name m.toJson admissions = some documents ∧
      documents.mapM ofJson = .ok (pod :: pods) ∧ pods.length = admissions.length ∧
      (pod :: pods).IsChain (Precedes ns name) := by
  -- Counts stay exact along the run, so the next pod meets the hypothesis of this one.
  induction admissions generalizing pod m with
  | nil =>
    refine ⟨[m.toJson], [], rfl, ?_, rfl, .singleton _⟩
    rw [Fallible.mapM_cons_eq_ok]
    exact ⟨pod, [], decoded, rfl, rfl⟩
  | cons a rest ih =>
    obtain ⟨soundHere, soundThere⟩ := List.forall_mem_cons.mp sound
    obtain ⟨target, admits, decodes⟩ := admit?_eq_some ns name decoded exact soundHere
    obtain ⟨documents, pods, history, decodesAll, length, chain⟩ :=
      ih decodes (isExact_admitted soundHere.1 exact) soundThere
    refine ⟨m.toJson :: documents, pod.admitted ns name a.settings :: pods, ?_, ?_, ?_, ?_⟩
    · simp only [Admission.history?, admits, history, Option.bind_eq_bind, Option.bind_some,
        Option.pure_def]
    · rw [Fallible.mapM_cons_eq_ok]
      exact ⟨pod, _, decoded, decodesAll, rfl⟩
    · rw [List.length_cons, List.length_cons, length]
    · exact .cons_cons ⟨exact, a.settings, soundHere.1, rfl⟩ chain

/-- Over any run of admissions, each container under either field is shrunk at most once, and from
then on its request counts the same stamped millicores. -/
theorem shrinks_at_most_once (decoded : ofJson m.toJson = .ok pod) (exact : pod.IsExact)
    {admissions : List Admission} (sound : ∀ a ∈ admissions, a.IsSound) :
    ∃ documents pods, Admission.history? ns name m.toJson admissions = some documents ∧
      documents.mapM ofJson = .ok pods ∧ pods.length = admissions.length + 1 ∧
      ∀ containersOf ∈ [initContainers, containers],
        (∀ p ∈ pods, (containersOf p).length = (containersOf pod).length) ∧
        ∀ position < (containersOf pod).length,
          ∃ track, pods.mapM (fun p => (containersOf p)[position]?) = some track ∧
            Container.ShrinksOnce track := by
  obtain ⟨documents, pods, history, decodes, length, chain⟩ := history_isChain decoded exact sound
  refine ⟨documents, pod :: pods, history, decodes, by rw [List.length_cons, length], ?_⟩
  intro containersOf field
  have evolve : ((pod :: pods).map containersOf).IsChain (List.Forall₂ Container.Became) :=
    List.isChain_map_of_isChain _ (fun _ _ precedes => precedes.became field) chain
  have lengths : ((pod :: pods).map fun p => (containersOf p).length).IsChain (· = ·) :=
    List.isChain_map_of_isChain _ (fun _ _ precedes => (precedes.became field).length_eq) chain
  constructor
  · have pairwise := List.isChain_iff_pairwise.mp lengths
    rw [List.map_cons, List.pairwise_cons] at pairwise
    intro p member
    rcases List.mem_cons.mp member with rfl | later
    · rfl
    · exact (pairwise.1 _ (List.mem_map_of_mem later)).symm
  · intro position reach
    obtain ⟨track, found, tracks⟩ := Container.track_of_isChain evolve reach
    have found : pods.mapM (fun p => (containersOf p)[position]?) = some track := by
      rw [List.mapM_map] at found
      exact found
    refine ⟨(containersOf pod)[position] :: track, ?_, Container.shrinksOnce_of_isChain tracks⟩
    simp [List.mapM_cons, List.getElem?_eq_getElem reach, found]

/-- A test of one and a half cores that is admitted three times: unshrunk, halved with a store that
is down, and under one tenth. -/
theorem shrinks_at_most_once_halved :
    let m : Manifest := .bare [("name", .str "e2e")] [("containers", .arr [.obj [("name", .str "test"),
      ("resources", .obj [("requests", .obj [("cpu", .str "1500m")])])]])]
    let admissions : List Admission :=
      [⟨Settings.ofEnvironment [], .table ⟨[], []⟩⟩,
        ⟨Settings.ofEnvironment [("SHRINK_TEST_CPU", "0.5")], .store "ci-scheduling" ⟨[], false⟩⟩,
        ⟨Settings.ofEnvironment [("SHRINK_TEST_CPU", "0.1")],
          .table ⟨[(.tests, [.str "a", .str "b"])], []⟩⟩]
    let pod : Pod := ⟨"e2e", "", none, none, [], [⟨"test", [("cpu", .str "1500m")], some 1500⟩]⟩
    ∃ documents pods, Admission.history? "ci-op-x" "e2e" m.toJson admissions = some documents ∧
      documents.mapM ofJson = .ok pods ∧ pods.length = admissions.length + 1 ∧
      ∀ containersOf ∈ [initContainers, containers],
        (∀ p ∈ pods, (containersOf p).length = (containersOf pod).length) ∧
        ∀ position < (containersOf pod).length,
          ∃ track, pods.mapM (fun p => (containersOf p)[position]?) = some track ∧
            Container.ShrinksOnce track := by
  intro m admissions pod
  have decoded : ofJson m.toJson = .ok pod := by decide +kernel
  refine shrinks_at_most_once decoded ?_ ?_
  · intro c member millis held
    obtain rfl := List.mem_singleton.mp member
    cases held
    decide
  · simp only [admissions, List.forall_mem_cons]
    refine ⟨⟨Settings.hasPositiveFactors_ofEnvironment _, fun _ => ⟨[], rfl⟩⟩,
      ⟨Settings.hasPositiveFactors_ofEnvironment _, fun _ => ⟨[], rfl⟩⟩,
      ⟨Settings.hasPositiveFactors_ofEnvironment _, ?_⟩, by simp⟩
    intro workload
    cases workload with
    | tests => exact ⟨["a", "b"], by decide +kernel⟩
    | unclassified | builds | longTests | prowJobs => exact ⟨[], by decide +kernel⟩

end Pod
end WorkloadAdmission
