import WorkloadAdmission.Proofs.Draining
import WorkloadAdmission.Proofs.Reconciling

/-! Reconciling once more with the same state. A round gives the first reserved taint the effect wanted,
or takes that one away. So one round settles a list with one reserved taint at most, and the next finds
nothing to do. Of several reserved taints the ones behind the first stay: a state that asks for no
taint takes away one of them a round, and any other state keeps them all. The node that an admission
leaves is decoded with its taints settled, so the same verdict leaves it as it is. -/
namespace WorkloadAdmission

namespace Taint

variable {workload : Text} {effect : Option Text} {taints : List Taint} {taint : Taint}
  {state : Avoidance}

/-- The reserved taints are those that a state asks for: none, or a single one with its effect. -/
def Settled (state : Avoidance) (taints : List Taint) : Prop :=
  match state.effect? with
  | none => taints.filter isReserved = []
  | some effect => ∃ taint, taints.filter isReserved = [taint] ∧
      Fields.get? taint "effect" = some (.str effect)

/-- What some rounds of reconciling with one state leave. -/
def afterRounds (workload : Text) (state : Avoidance) : Nat → List Taint → List Taint
  | 0, taints => taints
  | rounds + 1, taints => afterRounds workload state rounds (reconcile taints workload state).taints

/-! ### Foreign taints -/

theorem isForeign_of_isReserved (own : isReserved taint = true) : isForeign taint = false := by
  have key : Fields.get? taint "key" = some (.str reservedKey) := of_decide_eq_true own
  have marked : Text.holds reservedKey ownMarker = true := by rfl
  simp [isForeign, key, Json.text, marked]

theorem any_isForeign_others (taints : List Taint) : (others taints).any isForeign = taints.any isForeign := by
  induction taints with
  | nil => rfl
  | cons taint rest ih =>
    cases own : isReserved taint with
    | false => rw [others_cons_other own, List.any_cons, List.any_cons, ih]
    | true => rw [others_cons_reserved own, List.any_cons, isForeign_of_isReserved own, Bool.false_or, ih]

/-- Settling cordons no node and opens none. -/
theorem any_isForeign_settle (workload : Text) (effect : Option Text) (taints : List Taint) :
    (settle workload effect taints).taints.any isForeign = taints.any isForeign := by
  rw [← any_isForeign_others, others_settle, any_isForeign_others]

theorem reconcile_of_spared (spared : taints.any isForeign = false) (workload : Text)
    (state : Avoidance) : reconcile taints workload state = settle workload state.effect? taints := by
  rw [reconcile, spared]
  rfl

theorem any_isForeign_reconcile (spared : taints.any isForeign = false) (workload : Text)
    (state : Avoidance) : (reconcile taints workload state).taints.any isForeign = false := by
  rw [reconcile_of_spared spared, any_isForeign_settle, spared]

/-! ### Settled lists -/

/-- Nothing is left to settle exactly when the first reserved taint has the effect wanted. -/
theorem settle_eq_self_iff : settle workload effect taints = ⟨taints, false⟩ ↔
    (taints.find? isReserved).map (Fields.get? · "effect") = effect.map fun e => some (.str e) := by
  induction taints with
  | nil => cases effect <;> simp [settle]
  | cons taint rest ih =>
    cases own : isReserved taint with
    | false =>
      rw [List.find?_cons_of_neg (by simp [own]), ← ih]
      cases settled : settle workload effect rest
      simp [settle, own, settled]
    | true =>
      rw [List.find?_cons_of_pos own]
      cases effect with
      | none => simp [settle, own]
      | some e => by_cases same : Fields.get? taint "effect" = some (.str e) <;> simp [settle, own, same]

theorem Settled.settle_eq_self (settled : Settled state taints) (workload : Text) :
    settle workload state.effect? taints = ⟨taints, false⟩ := by
  rw [settle_eq_self_iff, ← List.head?_filter]
  unfold Settled at settled
  split at settled
  next nothing => rw [settled, nothing]; rfl
  next effect wanted =>
    obtain ⟨taint, alone, held⟩ := settled
    rw [alone, wanted, List.head?_cons, Option.map_some, held]
    rfl

/-- A round settles a list with one reserved taint at most, and no other. -/
theorem settled_settle_iff : Settled state (settle workload state.effect? taints).taints ↔
    (taints.filter isReserved).length ≤ 1 := by
  have alone : (taints.filter isReserved).tail = [] ↔ (taints.filter isReserved).length ≤ 1 := by
    rw [← List.length_eq_zero_iff, List.length_tail]
    omega
  unfold Settled
  split
  next nothing => rw [nothing, filter_settle_none, alone]
  next effect wanted =>
    obtain ⟨first, held, settled⟩ := filter_settle_some workload effect taints
    rw [wanted, settled, ← alone]
    constructor
    · rintro ⟨taint, same, -⟩
      exact (List.cons.inj same).2
    · intro none
      exact ⟨first, by rw [none], held⟩

/-- A state that asks for a taint is served in one round, whatever reserved taints there are. -/
theorem settle_again (workload effect : Text) (taints : List Taint) :
    settle workload (some effect) (settle workload (some effect) taints).taints =
      ⟨(settle workload (some effect) taints).taints, false⟩ := by
  obtain ⟨first, held, settled⟩ := filter_settle_some workload effect taints
  rw [settle_eq_self_iff, ← List.head?_filter, settled, List.head?_cons, Option.map_some, held]
  rfl

/-! ### Rounds -/

theorem afterRounds_of_eq_self (stays : reconcile taints workload state = ⟨taints, false⟩) (rounds : Nat) :
    afterRounds workload state rounds taints = taints := by
  induction rounds with
  | zero => rfl
  | succ rounds ih => rw [afterRounds, stays, ih]

/-- Each round that asks for no taint takes away the first reserved one. -/
theorem filter_afterRounds_off (spared : taints.any isForeign = false) (workload : Text) (rounds : Nat) :
    (afterRounds workload .off rounds taints).filter isReserved = (taints.filter isReserved).drop rounds := by
  induction rounds generalizing taints with
  | zero => rfl
  | succ rounds ih =>
    have round : (reconcile taints workload .off).taints.filter isReserved = (taints.filter isReserved).tail := by
      rw [reconcile_of_spared spared]
      exact filter_settle_none workload taints
    rw [afterRounds, ih (any_isForeign_reconcile spared workload .off), round, List.drop_tail]

/-- How many rounds a list takes to be settled: as many as it has reserved taints if none is wanted, and
otherwise the first, unless there are several. -/
theorem settled_afterRounds_iff (spared : taints.any isForeign = false) (workload : Text) (rounds : Nat) :
    Settled state (afterRounds workload state (rounds + 1) taints) ↔
      (taints.filter isReserved).length ≤ if state = .off then rounds + 1 else 1 := by
  have wanted (effect : Text) (wants : state.effect? = some effect) :
      afterRounds workload state (rounds + 1) taints = (settle workload state.effect? taints).taints := by
    rw [afterRounds, afterRounds_of_eq_self, reconcile_of_spared spared]
    rw [reconcile_of_spared (any_isForeign_reconcile spared workload state), reconcile_of_spared spared,
      wants]
    exact settle_again ..
  cases state with
  | off =>
    rw [Settled, if_pos rfl]
    dsimp only [Avoidance.effect?]
    rw [filter_afterRounds_off spared, List.drop_eq_nil_iff]
  | preferNoSchedule => rw [wanted _ rfl, settled_settle_iff, if_neg (by decide)]
  | noSchedule => rw [wanted _ rfl, settled_settle_iff, if_neg (by decide)]

/-- One round settles the taints of a node that nobody else has cordoned, and the next changes nothing,
exactly when one of them at most is reserved. More rounds help where no taint is wanted only: each takes
away one of several reserved taints. -/
theorem reconcile_settles_iff (spared : ∀ taint ∈ taints, isForeign taint = false) (workload : Text)
    (state : Avoidance) :
    let once := (reconcile taints workload state).taints
    (Settled state once ∧ reconcile once workload state = ⟨once, false⟩ ↔
        (taints.filter isReserved).length ≤ 1) ∧
      ∀ rounds, Settled state (afterRounds workload state (rounds + 1) taints) ↔
        (taints.filter isReserved).length ≤ if state = .off then rounds + 1 else 1 := by
  intro once
  have uncordoned : taints.any isForeign = false := List.any_eq_false.mpr (by simpa using spared)
  have settles : Settled state once ↔ (taints.filter isReserved).length ≤ 1 := by
    rw [← settled_settle_iff, ← reconcile_of_spared uncordoned workload state]
  refine ⟨?_, settled_afterRounds_iff uncordoned workload⟩
  rw [← settles, and_iff_left_iff_imp]
  intro settled
  rw [reconcile_of_spared (any_isForeign_reconcile uncordoned workload state)]
  exact settled.settle_eq_self workload

/-- Two reserved taints around one of someone else, on a node that is no longer avoided. -/
theorem reconcile_settles_iff_off :
    let taints := [reserved "tests" "PreferNoSchedule", [("key", .str "gpu"), ("effect", .str "NoExecute")],
      reserved "tests" "NoSchedule"]
    let once := (reconcile taints "tests" .off).taints
    (∀ taint ∈ taints, isForeign taint = false) ∧
      ¬ (Settled .off once ∧ reconcile once "tests" .off = ⟨once, false⟩) ∧
      Settled .off (afterRounds "tests" .off 2 taints) := by
  intro taints once
  have spared : ∀ taint ∈ taints, isForeign taint = false := by decide +kernel
  obtain ⟨one, rounds⟩ := reconcile_settles_iff spared "tests" .off
  exact ⟨spared, fun settled => absurd (one.mp settled) (by decide +kernel),
    (rounds 1).mpr (by decide +kernel)⟩

/-- Not every list is settled by one round. With two reserved taints one is left where none is wanted,
and taken away by another round; both are left where one is wanted. -/
theorem reconcile_leaves_second_reserved :
    let first := reserved "tests" "PreferNoSchedule"
    let second := reserved "tests" "NoSchedule"
    [first, second].any isForeign = false ∧
      reconcile [first, second] "tests" .off = ⟨[second], true⟩ ∧
      reconcile [second] "tests" .off = ⟨[], true⟩ ∧
      reconcile [first, second] "tests" .noSchedule = ⟨[second, second], true⟩ := by
  decide +kernel

end Taint

/-! ### Admission of a node -/

/-- What an admission leaves of a node: every field but the taints, and every label but the one that
stops the cluster autoscaler. -/
structure Node.TouchesOnly (m target : Manifest) : Prop where
  outline : Fields.AgreeBeside ["metadata", "spec"] m.fields target.fields
  metadata : Fields.AgreeBeside ["labels"] m.metadata target.metadata
  labels : Fields.get? target.metadata "labels" = Fields.get? m.metadata "labels" ∨
    ∃ before after, Fields.get? m.metadata "labels" = some (.obj before) ∧
      Fields.get? target.metadata "labels" = some (.obj after) ∧
      Fields.AgreeBeside [ scaleDownDisabledLabel ] before after
  spec : Fields.AgreeBeside ["taints"] m.spec target.spec

namespace Node

open Manifest

variable {m : Manifest} {node : Node} {source : Verdict.Source}

theorem TouchesOnly.refl (m : Manifest) : TouchesOnly m m :=
  ⟨.refl _ _, .refl _ _, .inl rfl, .refl _ _⟩

theorem touchesOnly_withTaints (labelled : m.HasLabels) (taints : List Taint) (disabled : Text) :
    TouchesOnly m (m.withTaints taints disabled) where
  outline := (agreeBeside_withSpec m _).trans (agreeBeside_withMetadata _ _)
  metadata := (Fields.AgreeBeside.refl _ _).insert (by simp) _
  labels := by
    obtain ⟨labels, held⟩ := labelled
    refine .inr ⟨labels, _, held, Fields.get?_insert_self .., ?_⟩
    rw [Fields.part_of_get? held]
    exact (Fields.AgreeBeside.refl _ _).insert (by simp) _
  spec := (Fields.AgreeBeside.refl _ _).insert (by simp) _

theorem workload?_withTaints (node : Node) (taints : List Taint) (disabled : Text) :
    (node.withTaints taints disabled).workload? = node.workload? := by
  cases labelled : node.labels with
  | none => simp [workload?, withTaints, labelled]
  | some labels =>
    have apart : workloadLabel ≠ scaleDownDisabledLabel := by decide
    simp [workload?, withTaints, labelled, Fields.get?_insert_ne _ _ apart]

/-- The verdict that has settled the taints of a node has nothing left to write. -/
theorem planUnder_withTaints {workload : Text} {state : Avoidance} (serves : node.workload? = some workload)
    (spared : node.taints.any Taint.isForeign = false)
    (single : (node.taints.filter Taint.isReserved).length ≤ 1) (disabled : Text) :
    (node.withTaints (Taint.settle workload state.effect? node.taints).taints disabled).planUnder
      (some state) = ⟨some workload, some state, .empty⟩ := by
  have settled : Taint.Settled state (Taint.settle workload state.effect? node.taints).taints :=
    Taint.settled_settle_iff.mpr single
  have stays := settled.settle_eq_self workload
  have uncordoned : (Taint.settle workload state.effect? node.taints).taints.any Taint.isForeign = false := by
    rw [Taint.any_isForeign_settle, spared]
  rw [← Taint.reconcile_of_spared uncordoned] at stays
  rw [planUnder_some ((workload?_withTaints ..).trans serves)]
  simp only [withTaints, stays]
  rfl

/-- A node serves a class by one of its labels, so it has some. -/
theorem hasLabels_of_workload? (decoded : ofJson m.toJson = .ok node) {workload : Text}
    (serves : node.workload? = some workload) : m.HasLabels := by
  obtain ⟨-, -, read⟩ := ofJson_eq_ok.mp decoded
  cases labelled : node.labels with
  | none =>
    rw [workload?, labelled] at serves
    cases serves
  | some written =>
    rw [labelled] at read
    exact ⟨_, Fields.get?_of_get (Fields.eq_textsToJson_of_texts read) (by simp)⟩

/-- A node with one reserved taint at most is settled by one admission. The result can be decoded, the
same verdict leaves it as it is, and beside the taints only the label that stops the cluster autoscaler
has been written: it is `true` for a node that lets no new pod in, and `false` for any other. -/
theorem admission_converges (decoded : ofJson m.toJson = .ok node) (single : m.reservedTaints.length ≤ 1)
    (source : Verdict.Source) :
    let plan := (node.patch source).outcome
    ∃ target node', plan.patch.applied? m.toJson = some target.toJson ∧
      ofJson target.toJson = .ok node' ∧
      (∀ again : Verdict.Source, again.heededState node.name = source.heededState node.name →
        (node'.patch again).outcome = ⟨plan.workload, plan.state, .empty⟩) ∧
      TouchesOnly m target ∧
      (plan.patch ≠ .empty → target.scaleDownDisabled =
        some (.str (if source.heededState node.name = some .noSchedule then "true" else "false"))) := by
  intro plan
  have planned : plan = node.planUnder (source.heededState node.name) := node.patch_outcome source
  rcases node.planUnder_cases (source.heededState node.name) with
    nothing | ⟨workload, state, serves, told, spared, plans⟩
  · rw [← planned] at nothing
    refine ⟨m, node, by rw [nothing]; rfl, decoded, ?_, .refl m, fun some => absurd nothing some⟩
    intro again same
    rw [patch_outcome, same, ← planned, ← nothing]
  · rw [← planned] at plans
    have labelled := hasLabels_of_workload? decoded serves
    rw [reservedTaints, taints_of_ofJson decoded] at single
    let taints := (Taint.settle workload state.effect? node.taints).taints
    let disabled : Text := if state = .noSchedule then "true" else "false"
    refine ⟨m.withTaints taints disabled, node.withTaints taints disabled, ?_,
      ofJson_withTaints decoded labelled taints disabled, ?_, touchesOnly_withTaints labelled taints disabled, ?_⟩
    · rw [plans]
      exact reaches_taintEntries labelled state
    · intro again same
      have named : (node.withTaints taints disabled).name = node.name := rfl
      rw [patch_outcome, named, same, told, planUnder_withTaints serves spared single, plans]
    · intro _
      rw [scaleDownDisabled_withTaints, told]
      simp only [disabled, Option.some.injEq]

/-- A node that was to be avoided and is now to be drained, beside a taint of someone else. -/
theorem admission_converges_drained :
    let m : Manifest := .bare
      [("name", .str "n"), ("labels", .obj [("zone", .str "a"), ("ci-workload", .str "tests")])]
      [("unschedulable", .bool false), ("taints", .arr [.obj [("key", .str "gpu"), ("effect", .str "NoExecute")],
        .obj (Taint.reserved "tests" "PreferNoSchedule")])]
    let source : Verdict.Source := .table ⟨[], [("n", .noSchedule)]⟩
    ∃ node, ofJson m.toJson = .ok node ∧ m.reservedTaints.length ≤ 1 ∧
      (node.patch source).outcome.patch ≠ .empty ∧
      ∃ target node', (node.patch source).outcome.patch.applied? m.toJson = some target.toJson ∧
        ofJson target.toJson = .ok node' ∧
        (node'.patch source).outcome = ⟨some "tests", some .noSchedule, .empty⟩ ∧
        TouchesOnly m target ∧ target.scaleDownDisabled = some (.str "true") := by
  intro m source
  let node : Node := ⟨"n", some [("zone", "a"), ("ci-workload", "tests")],
    [[("key", .str "gpu"), ("effect", .str "NoExecute")], Taint.reserved "tests" "PreferNoSchedule"]⟩
  have decoded : ofJson m.toJson = .ok node := by rfl
  have single : m.reservedTaints.length ≤ 1 := by decide +kernel
  have written : (node.patch source).outcome.patch ≠ .empty := by decide +kernel
  obtain ⟨target, node', applied, decodes, again, touches, label⟩ := admission_converges decoded single source
  exact ⟨node, decoded, single, written, target, node', applied, decodes, again source rfl, touches,
    label written⟩

end Node
end WorkloadAdmission
