import WorkloadAdmission.Proofs.Steering

/-! Admitting a pod twice. The cluster may call the service again with a pod that it has already
steered. The second patch then writes what stands there already: it shrinks no request, and it gives
the document back as it is, down to the order of the fields. -/
namespace WorkloadAdmission.Pod

variable {pod : Pod} {ns name : Text} {settings : Settings} {source again : Verdict.Source}
  {names namesAgain : List Text} {m : Manifest}

/-- An admitted pod has no request left to shrink under the same settings. -/
theorem reductionEntries_admitted (exact : pod.IsExact) (positive : settings.HasPositiveFactors)
    (inside : pod.classify ns name ≠ .unclassified) :
    (pod.admitted ns name settings).reductionEntries (settings.cpuFactor (pod.classify ns name)) =
      .ok [] := by
  have above := positive.cpuFactor (pod.classify ns name)
  obtain ⟨exactFirst, exactSecond⟩ := List.forall_mem_append.mp exact
  simp only [reductionEntries, admitted, admittedContainers, inside, if_false,
    Container.reductions_settledAll above exactFirst, Container.reductions_settledAll above exactSecond]
  rfl

/-- The patch of an admitted pod is made of standing entries only. -/
theorem patch_admitted (exact : pod.IsExact) (positive : settings.HasPositiveFactors)
    (told : source.Tells (pod.classify ns name) names) :
    ((pod.admitted ns name settings).patch ns name settings source).outcome =
      .ok (pod.classify ns name, ⟨pod.standingEntries ns name names⟩) := by
  have same : (pod.admitted ns name settings).classify ns name = pod.classify ns name :=
    classify_admitted
  rw [← same] at told
  have nothing : (pod.admitted ns name settings).classify ns name ≠ .unclassified →
      (pod.admitted ns name settings).reductionEntries
        (settings.cpuFactor ((pod.admitted ns name settings).classify ns name)) = .ok [] := by
    rw [same]
    exact reductionEntries_admitted exact positive
  have patch := patch_standing told nothing
  rwa [same, standingEntries_admitted] at patch

theorem standingEntries_congr (told : source.Tells (pod.classify ns name) names)
    (toldAgain : again.Tells (pod.classify ns name) namesAgain)
    (same : ∀ host, host ∈ names ↔ host ∈ namesAgain) :
    pod.standingEntries ns name names = pod.standingEntries ns name namesAgain := by
  rw [standingEntries, standingEntries, hostEntries_congr told.nodup toldAgain.nodup same]

/-- Admission is idempotent: a second one, under a source that tells the same hosts, keeps the class,
shrinks no request and leaves the document as it is. -/
theorem reinvocation_idempotent (decoded : ofJson m.toJson = .ok pod) (exact : pod.IsExact)
    (positive : settings.HasPositiveFactors) (told : source.Tells (pod.classify ns name) names)
    (toldAgain : again.Tells (pod.classify ns name) namesAgain)
    (same : ∀ host, host ∈ names ↔ host ∈ namesAgain) :
    ∃ first document admitted second,
      (pod.patch ns name settings source).outcome = .ok (pod.classify ns name, first) ∧
      first.applied? m.toJson = some document ∧
      ofJson document = .ok admitted ∧
      (admitted.patch ns name settings again).outcome = .ok (pod.classify ns name, second) ∧
      (∀ e ∈ second.entries, ¬ ("/resources/requests" : Text).points <:+ e.path.points) ∧
      second.applied? document = some document := by
  obtain ⟨first, target, outcome, leads, decodes, stands⟩ := admits decoded exact positive told
  refine ⟨first, target.toJson, pod.admitted ns name settings, _, outcome, leads, decodes,
    patch_admitted exact positive toldAgain, ?_, ?_⟩
  · intro e member
    have path := path_standingEntries member
    generalize e.path = written at path
    simp only [List.mem_cons, List.not_mem_nil, or_false] at path
    rcases path with rfl | rfl | rfl | rfl | rfl <;> decide
  · rw [standingEntries_congr told toldAgain same] at stands
    exact stands

/-- A test of one and a half cores that is halved, under hosts in one order and then in another. -/
theorem reinvocation_idempotent_halved :
    let m : Manifest := .bare [("name", .str "e2e")] [("containers", .arr [.obj [("name", .str "test"),
      ("resources", .obj [("requests", .obj [("cpu", .str "1500m")])])]])]
    let pod : Pod := ⟨"e2e", "", none, none, [], [⟨"test", [("cpu", .str "1500m")], some 1500⟩]⟩
    let settings := Settings.ofEnvironment [("SHRINK_TEST_CPU", "0.5")]
    let source : Verdict.Source := .table ⟨[(.tests, [.str "b", .str "a"])], []⟩
    let again : Verdict.Source := .table ⟨[(.tests, [.str "a", .str "b", .str "a"])], []⟩
    ∃ first document admitted second,
      (pod.patch "ci-op-x" "e2e" settings source).outcome = .ok (.tests, first) ∧
      first.applied? m.toJson = some document ∧
      ofJson document = .ok admitted ∧
      (admitted.patch "ci-op-x" "e2e" settings again).outcome = .ok (.tests, second) ∧
      (∀ e ∈ second.entries, ¬ ("/resources/requests" : Text).points <:+ e.path.points) ∧
      second.applied? document = some document := by
  intro m pod settings source again
  have inside : pod.classify "ci-op-x" "e2e" = .tests := by decide +kernel
  have decoded : ofJson m.toJson = .ok pod := by decide +kernel
  have exact : pod.IsExact := by
    intro c member millis held
    obtain rfl := List.mem_singleton.mp member
    cases held
    decide
  have told : source.Tells (pod.classify "ci-op-x" "e2e") ["b", "a"] := by decide +kernel
  have toldAgain : again.Tells (pod.classify "ci-op-x" "e2e") ["a", "b"] := by decide +kernel
  rw [← inside]
  exact reinvocation_idempotent decoded exact (Settings.hasPositiveFactors_ofEnvironment _) told
    toldAgain (by simp [or_comm])

end WorkloadAdmission.Pod
