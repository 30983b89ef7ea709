import WorkloadAdmission.Proofs.Taints

/-! Reconciling the taints of a node with one state after another. Each step writes at most the first
reserved taint, so the taints of others stay as they are and in their order, and a step reports a
change exactly when it made one. A node that someone else has cordoned is never touched. -/
namespace WorkloadAdmission

namespace Taint

/-- The text of the key of a taint, empty where it has none. -/
def keyText (taint : Taint) : Text := ((Fields.get? taint "key").map Json.text).getD ""

/-- The taints that have another key than the reserved one. -/
def others (taints : List Taint) : List Taint :=
  taints.filter fun taint => Fields.get? taint "key" ≠ some (.str reservedKey)

/-- One step of a run: the taints that it found and what it left. -/
structure Step where
  found : List Taint
  left : Reconciled

/-- Reconciles with one state after another, each time what the step before left. -/
def steps (workload : Text) : List Taint → List Avoidance → List Step
  | _, [] => []
  | taints, state :: rest =>
    let settled := reconcile taints workload state
    ⟨taints, settled⟩ :: steps workload settled.taints rest

variable {workload : Text} {effect : Option Text} {taints : List Taint} {taint : Taint}

theorem isForeign_iff : isForeign taint = true ↔
    Fields.get? taint "effect" = some (.str "NoSchedule") ∧
      ¬ ownMarker.points <:+: taint.keyText.points := by
  rw [isForeign, Bool.and_eq_true, decide_eq_true_eq, Bool.not_eq_true', ← Bool.not_eq_true,
    Text.holds_iff, keyText]

@[simp] theorem others_nil : others [] = [] := rfl

theorem others_cons_reserved (own : isReserved taint = true) : others (taint :: taints) = others taints := by
  have key : Fields.get? taint "key" = some (.str reservedKey) := of_decide_eq_true own
  rw [others, List.filter_cons_of_neg (by simpa using key), others]

theorem others_cons_other (own : isReserved taint = false) :
    others (taint :: taints) = taint :: others taints := by
  have key : ¬ Fields.get? taint "key" = some (.str reservedKey) := of_decide_eq_false own
  rw [others, List.filter_cons_of_pos (by simpa using key), others]

/-- Settling keeps the taints of others, each with all its fields. -/
theorem others_settle (workload : Text) (effect : Option Text) (taints : List Taint) :
    others (settle workload effect taints).taints = others taints := by
  induction taints with
  | nil =>
    cases effect with
    | none => rfl
    | some e => exact others_cons_reserved (isReserved_reserved workload e)
  | cons taint rest ih =>
    cases own : isReserved taint with
    | false =>
      simp only [settle, own, Bool.false_eq_true, if_false]
      rw [others_cons_other own, others_cons_other own, ih]
    | true =>
      simp only [settle, own, if_true]
      cases effect with
      | none => exact (others_cons_reserved own).symm
      | some e =>
        dsimp only
        split
        · rfl
        · rw [others_cons_reserved own, others_cons_reserved ((isReserved_insert_effect ..).trans own)]

/-- Settling reports a change exactly when it has made one. -/
theorem changed_settle_iff : (settle workload effect taints).changed = true ↔
    (settle workload effect taints).taints ≠ taints := by
  induction taints with
  | nil => cases effect <;> simp [settle]
  | cons taint rest ih =>
    cases own : isReserved taint with
    | false =>
      simp only [settle, own, Bool.false_eq_true, if_false]
      rw [ih, ne_eq, ne_eq, List.cons_inj_right]
    | true =>
      simp only [settle, own, if_true]
      cases effect with
      | none => simp [List.ne_cons_self]
      | some e =>
        dsimp only
        split
        · simp
        next apart =>
          -- The new list is another one, since the taint in front has another effect.
          have differs : Fields.insert "effect" (.str e) taint ≠ taint := by
            intro same
            rw [← same] at apart
            exact apart (Fields.get?_insert_self ..)
          simp [differs]

theorem others_reconcile (workload : Text) (state : Avoidance) (taints : List Taint) :
    others (reconcile taints workload state).taints = others taints := by
  unfold reconcile
  split
  · rfl
  · exact others_settle ..

theorem changed_reconcile_iff {state : Avoidance} : (reconcile taints workload state).changed = true ↔
    (reconcile taints workload state).taints ≠ taints := by
  unfold reconcile
  split
  · simp
  · exact changed_settle_iff

theorem reconcile_of_isForeign (foreign : taints.any isForeign = true) (workload : Text)
    (state : Avoidance) : reconcile taints workload state = ⟨taints, false⟩ := by
  rw [reconcile, if_pos foreign]

/-! ### Runs -/

theorem length_steps (workload : Text) (taints : List Taint) (states : List Avoidance) :
    (steps workload taints states).length = states.length := by
  induction states generalizing taints with
  | nil => rfl
  | cons state rest ih => simp only [steps, List.length_cons, ih]

/-- A run keeps the taints of others, and each of its steps reports its own change. -/
theorem steps_keep_others {states : List Avoidance} {step : Step}
    (member : step ∈ steps workload taints states) :
    others step.left.taints = others taints ∧
      (step.left.changed = true ↔ step.left.taints ≠ step.found) := by
  induction states generalizing taints with
  | nil => cases member
  | cons state rest ih =>
    rcases List.mem_cons.mp member with rfl | later
    · exact ⟨others_reconcile .., changed_reconcile_iff⟩
    · obtain ⟨kept, reports⟩ := ih later
      exact ⟨kept.trans (others_reconcile ..), reports⟩

/-- A run on the taints of a cordoned node changes none. -/
theorem steps_of_isForeign (foreign : taints.any isForeign = true) {states : List Avoidance} {step : Step}
    (member : step ∈ steps workload taints states) : step.left = ⟨taints, false⟩ := by
  induction states with
  | nil => cases member
  | cons state rest ih =>
    simp only [steps, reconcile_of_isForeign foreign, List.mem_cons] at member
    rcases member with rfl | later
    · rfl
    · exact ih later

end Taint

theorem Node.patch_of_isForeign {node : Node} (foreign : node.taints.any Taint.isForeign = true)
    (source : Verdict.Source) : (node.patch source).outcome.patch = .empty := by
  unfold patch
  split
  · rfl
  · dsimp only
    split
    · rfl
    · simp only [Taint.reconcile_of_isForeign foreign]
      rfl

namespace Taint

variable {workload : Text} {taints : List Taint}

/-- Over any run of states, the taints of others stay the same list, every step reports a change
exactly when it made one, and a taint of someone else that keeps all new pods away stops every step
and every patch. -/
theorem others_undisturbed (workload : Text) (taints : List Taint) (states : List Avoidance) :
    (steps workload taints states).length = states.length ∧
    (∀ step ∈ steps workload taints states,
      others step.left.taints = others taints ∧
        (step.left.changed = true ↔ step.left.taints ≠ step.found)) ∧
    ∀ taint ∈ taints, Fields.get? taint "effect" = some (.str "NoSchedule") →
      ¬ ownMarker.points <:+: taint.keyText.points →
      (∀ step ∈ steps workload taints states, step.left = ⟨taints, false⟩) ∧
        ∀ (node : Node) (source : Verdict.Source), node.taints = taints →
          (node.patch source).outcome.patch = .empty := by
  refine ⟨length_steps .., fun step member => steps_keep_others member, ?_⟩
  intro taint member effect key
  have foreign : taints.any isForeign = true :=
    List.any_eq_true.mpr ⟨taint, member, isForeign_iff.mpr ⟨effect, key⟩⟩
  refine ⟨fun step member => steps_of_isForeign foreign member, ?_⟩
  rintro node source rfl
  exact node.patch_of_isForeign foreign source

/-- A node that someone else has cordoned while this service was about to drain it. -/
theorem others_undisturbed_cordoned :
    let cordon : Taint := [("key", .str "node.kubernetes.io/unschedulable"), ("effect", .str "NoSchedule"),
      ("timeAdded", .str "2024-01-01T00:00:00Z")]
    let taints := [reserved "tests" "PreferNoSchedule", cordon]
    let node : Node := ⟨"n", some [("ci-workload", "tests")], taints⟩
    (∀ step ∈ steps "tests" taints [.off, .noSchedule], step.left = ⟨taints, false⟩) ∧
      (node.patch (.table ⟨[], [("n", .noSchedule)]⟩)).outcome.patch = .empty := by
  intro cordon taints node
  have foreign : ¬ ownMarker.points <:+: cordon.keyText.points := by decide +kernel
  obtain ⟨-, -, cordoned⟩ := others_undisturbed "tests" taints [.off, .noSchedule]
  obtain ⟨stays, spares⟩ := cordoned cordon (by simp [taints]) rfl foreign
  exact ⟨stays, spares node _ rfl⟩

end Taint
end WorkloadAdmission
