import WorkloadAdmission.Proofs.Convergence

/-! The value of the reserved taint. A cycle that finds no reserved taint makes one that names the class of
the node. A cycle that finds one gives it the effect wanted and keeps its value, which names the class that
the node had when the taint was made, however often the node has been relabelled since. Only a cycle that
takes the taint away lets a later one name the class anew. -/
namespace WorkloadAdmission.Taint

variable {workload : Text} {state : Avoidance} {taints : List Taint}

/-! ### One cycle -/

/-- The value of the reserved taint behind a cycle that asks for an effect. -/
def valueAfter (workload : Text) (taints : List Taint) : Option Json :=
  match taints.filter isReserved with
  | [] => some (.str workload)
  | first :: _ => Fields.get? first "value"

/-- A cycle leaves one reserved taint with the effect wanted. Its value is the class only if it is new. -/
theorem reserved_reconcile (spared : taints.any isForeign = false) (few : (taints.filter isReserved).length ≤ 1)
    (on : state ≠ .off) (workload : Text) :
    ∃ taint, (reconcile taints workload state).taints.filter isReserved = [taint] ∧
      Fields.get? taint "effect" = state.effect?.map Json.str ∧
      Fields.get? taint "value" = valueAfter workload taints := by
  obtain ⟨effect, wanted⟩ : ∃ effect, state.effect? = some effect := by
    cases state with
    | off => exact absurd rfl on
    | preferNoSchedule => exact ⟨_, rfl⟩
    | noSchedule => exact ⟨_, rfl⟩
  rw [reconcile_of_spared spared, wanted, filter_settle_eq_renewed, valueAfter]
  cases own : taints.filter isReserved with
  | nil => exact ⟨reserved workload effect, rfl, rfl, rfl⟩
  | cons first rest =>
    obtain rfl : rest = [] := by
      rw [own, List.length_cons] at few
      exact List.length_eq_zero_iff.mp (by omega)
    exact ⟨_, rfl, Fields.get?_insert_self .., Fields.get?_insert_ne _ _ (by decide)⟩

/-! ### Cycles -/

/-- The taints after one cycle, in which the node has a class and a state. -/
def cycle (taints : List Taint) (node : Text × Avoidance) : List Taint :=
  (reconcile taints node.1 node.2).taints

/-- Over any run of cycles that ask for an effect, the reserved taint keeps the value that it has behind the
first, whatever class the node has in the later ones, and has the effect that the last one asks for. -/
theorem value_cycles {run : List (Text × Avoidance)} {first last : Text × Avoidance}
    (spared : taints.any isForeign = false) (few : (taints.filter isReserved).length ≤ 1)
    (on : ∀ node ∈ run, node.2 ≠ .off) (starts : run.head? = some first) (ends : run.getLast? = some last) :
    ∃ taint, (run.foldl cycle taints).filter isReserved = [taint] ∧
      Fields.get? taint "effect" = last.2.effect?.map Json.str ∧
      Fields.get? taint "value" = valueAfter first.1 taints := by
  induction run generalizing taints first with
  | nil => cases starts
  | cons node rest ih =>
    cases starts
    obtain ⟨taint, alone, effect, value⟩ := reserved_reconcile spared few (on node List.mem_cons_self) node.1
    cases rest with
    | nil =>
      cases ends
      exact ⟨taint, alone, effect, value⟩
    | cons next others =>
      rw [List.getLast?_cons_cons] at ends
      have left : ((cycle taints node).filter isReserved).length ≤ 1 :=
        Nat.le_of_eq (congrArg List.length alone)
      obtain ⟨taint', alone', effect', value'⟩ := ih (any_isForeign_reconcile spared node.1 node.2) left
        (fun other member => on other (List.mem_cons_of_mem _ member)) rfl ends
      have kept : valueAfter next.1 (cycle taints node) = Fields.get? taint "value" := by
        rw [valueAfter, show (cycle taints node).filter isReserved = [taint] from alone]
      exact ⟨taint', alone', effect', value'.trans (kept.trans value)⟩

/-- A cycle that asks for none lets the next name the class anew. -/
theorem valueAfter_off (spared : taints.any isForeign = false) (few : (taints.filter isReserved).length ≤ 1)
    (before workload : Text) : valueAfter workload (cycle taints (before, .off)) = some (.str workload) := by
  have none : (cycle taints (before, .off)).filter isReserved = [] := by
    rw [cycle, reconcile_of_spared spared]
    have tail := filter_settle_none before taints
    rw [List.eq_nil_of_length_eq_zero (l := (taints.filter isReserved).tail)] at tail
    · exact tail
    · rw [List.length_tail]
      omega
  rw [valueAfter, none]

/-! ### The class of the node -/

/-- The reserved taint gets the effect wanted, and names the class of the node exactly if there was none
before or the one before named it. -/
theorem reserved_names_class_iff (spared : taints.any isForeign = false)
    (few : (taints.filter isReserved).length ≤ 1) (on : state ≠ .off) (workload : Text) :
    ∃ taint, (reconcile taints workload state).taints.filter isReserved = [taint] ∧
      Fields.get? taint "effect" = state.effect?.map Json.str ∧
      (Fields.get? taint "value" = some (.str workload) ↔
        ∀ old ∈ taints.filter isReserved, Fields.get? old "value" = some (.str workload)) := by
  obtain ⟨taint, alone, effect, value⟩ := reserved_reconcile spared few on workload
  refine ⟨taint, alone, effect, ?_⟩
  rw [value, valueAfter]
  cases own : taints.filter isReserved with
  | nil => simp
  | cons first rest =>
    obtain rfl : rest = [] := by
      rw [own, List.length_cons] at few
      exact List.length_eq_zero_iff.mp (by omega)
    simp

theorem reserved_names_class_iff_new :
    ∃ taint, (reconcile [] "tests" .noSchedule).taints.filter isReserved = [taint] ∧
      Fields.get? taint "effect" = some (.str "NoSchedule") ∧ Fields.get? taint "value" = some (.str "tests") := by
  have on : Avoidance.noSchedule ≠ .off := by decide
  obtain ⟨taint, alone, effect, names⟩ := reserved_names_class_iff (List.any_nil : [].any isForeign = false)
    (Nat.zero_le _) on "tests"
  exact ⟨taint, alone, effect, names.mpr (by simp)⟩

/-- A node that was relabelled from builds to tests after its taint was made. -/
theorem reconcile_keeps_stale_class :
    let taints := [reserved "builds" "NoSchedule"]
    taints.any isForeign = false ∧ (taints.filter isReserved).length ≤ 1 ∧ Avoidance.noSchedule ≠ .off ∧
      ¬ ∃ taint, (reconcile taints "tests" .noSchedule).taints.filter isReserved = [taint] ∧
        Fields.get? taint "effect" = some (.str "NoSchedule") ∧
        Fields.get? taint "value" = some (.str "tests") := by
  have stays : reconcile [reserved "builds" "NoSchedule"] "tests" .noSchedule =
      ⟨[reserved "builds" "NoSchedule"], false⟩ := by decide +kernel
  refine ⟨by decide +kernel, by decide +kernel, by decide, ?_⟩
  rintro ⟨taint, alone, -, value⟩
  rw [stays, List.filter_cons_of_pos (isReserved_reserved ..)] at alone
  cases alone
  exact absurd value (by decide)

end WorkloadAdmission.Taint
