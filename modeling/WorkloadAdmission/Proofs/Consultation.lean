import WorkloadAdmission.Proofs.Publication

/-! Consulting a store for a verdict. A store that can be reached holds a value under a key, as the bytes
of a document that decodes to it, or lacks the key, or else cannot be read there. A verdict is told just as
it is held, a key that is lacking or holds null tells of none, and anything else is refused: no hostname is
made up and none is dropped. Each question reads one key, and what is written elsewhere has no say. -/
namespace WorkloadAdmission

namespace Store

variable {s t : Store} {key other : Text} {v w : Json}

/-- A store holds a value under a key: a document there decodes to it. -/
def Holds (s : Store) (key : Text) (v : Json) : Prop :=
  s.reachable = true ∧ ∃ document, Fields.get? s.documents key = some document ∧ Json.ofBytes? document = some v

/-- A store can be reached and has no document under a key. -/
def Lacks (s : Store) (key : Text) : Prop := s.reachable = true ∧ Fields.get? s.documents key = none

/-- What a read finds. -/
inductive Finds (s : Store) (key : Text) : Except StoreFault (Option Json) → Prop where
  | nothing : s.Lacks key → Finds s key (.ok none)
  | value {v : Json} : s.Holds key v → Finds s key (.ok (some v))
  | failure {cause : StoreFault} : ¬ s.Lacks key → (∀ v, ¬ s.Holds key v) → Finds s key (.error cause)

theorem Holds.unique (held : s.Holds key v) (heldToo : s.Holds key w) : v = w := by
  obtain ⟨-, document, found, decoded⟩ := held
  obtain ⟨-, document', foundToo, decodedToo⟩ := heldToo
  obtain rfl : document = document' := Option.some.inj (found.symm.trans foundToo)
  exact Option.some.inj (decoded.symm.trans decodedToo)

theorem Holds.not_lacks (held : s.Holds key v) : ¬ s.Lacks key := by
  obtain ⟨-, document, found, -⟩ := held
  rintro ⟨-, missing⟩
  cases found.symm.trans missing

theorem read_spec (s : Store) (key : Text) : s.Finds key (s.read key) := by
  cases reachable : s.reachable with
  | false =>
    have down : s.read key = .error .unreachable := by simp [read, reachable]
    rw [down]
    refine .failure ?_ fun v => ?_
    · rintro ⟨up, -⟩
      cases reachable.symm.trans up
    · rintro ⟨up, -⟩
      cases reachable.symm.trans up
  | true =>
    cases found : Fields.get? s.documents key with
    | none =>
      rw [read_of_none reachable found]
      exact .nothing ⟨reachable, found⟩
    | some document =>
      cases decoded : Json.ofBytes? document with
      | some v =>
        rw [read_of_document reachable found decoded]
        exact .value ⟨reachable, document, found, decoded⟩
      | none =>
        have undecodable : s.read key = .error (.undecodable key) := by
          simp only [read, reachable, Bool.not_true, Bool.false_eq_true, if_false, found, decoded]
        rw [undecodable]
        refine .failure ?_ fun v => ?_
        · rintro ⟨-, missing⟩
          cases found.symm.trans missing
        · rintro ⟨-, document', foundToo, decodedToo⟩
          obtain rfl : document = document' := Option.some.inj (found.symm.trans foundToo)
          cases decoded.symm.trans decodedToo

/-! ### Writes elsewhere -/

/-- A store after one write: a document is put under a key, or what is there is deleted. -/
def write (s : Store) (key : Text) : Option ByteArray → Store
  | some document => s.put key document
  | none => s.delete key

/-- A store after several writes, one after the other. -/
def writes (s : Store) (changes : List (Text × Option ByteArray)) : Store :=
  changes.foldl (fun s change => s.write change.1 change.2) s

theorem read_congr (reachable : t.reachable = s.reachable)
    (same : Fields.get? t.documents key = Fields.get? s.documents key) : t.read key = s.read key := by
  rw [read, read, reachable, same]

theorem read_write_ne (apart : other ≠ key) (document : Option ByteArray) :
    (s.write other document).read key = s.read key := by
  cases document with
  | some document => exact read_congr rfl (Fields.get?_insert_ne _ _ apart.symm)
  | none => exact read_congr rfl (Fields.get?_erase_ne _ apart.symm)

/-- Writes under other keys do not change what is read under a key. -/
theorem read_writes_of_apart {changes : List (Text × Option ByteArray)}
    (apart : ∀ change ∈ changes, change.1 ≠ key) : (s.writes changes).read key = s.read key := by
  induction changes generalizing s with
  | nil => rfl
  | cons change rest ih =>
    obtain ⟨first, others⟩ := List.forall_mem_cons.mp apart
    exact (ih others).trans (read_write_ne first change.2)

end Store

namespace Verdict

variable {keyspace node : Text} {s : Store} {workload : WorkloadClass} {v : Json}

/-! ### What a value tells -/

theorem hostsOf_names (workload : WorkloadClass) (names : List Text) :
    hostsOf workload (some (.arr (names.map .str))) = .ok (names.map Json.str).eraseDups := by
  rw [hostsOf, if_pos (isSome_text_names names)]

theorem hostsOf_refused (given : v ≠ .null) (noList : ∀ names : List Text, v ≠ .arr (names.map .str)) :
    hostsOf workload (some v) = .error (.hostnames workload v) := by
  cases v with
  | null => exact absurd rfl given
  | arr items =>
    have other : ¬ items.all (fun v => v.text?.isSome) = true := by
      intro texts
      exact noList _ (congrArg Json.arr (map_filterMap_text texts).symm)
    exact if_neg other
  | bool | int | float | str | obj => rfl

theorem stateOf_name (node : Text) (state : Avoidance) :
    stateOf node (some (.str state.name)) = .ok (some state) := by
  cases state <;> rfl

theorem stateOf_refused (given : v ≠ .null) (noState : ∀ state : Avoidance, v ≠ .str state.name) :
    stateOf node (some v) = .error (.avoidance node v) := by
  cases v with
  | null => exact absurd rfl given
  | str text =>
    cases named : Avoidance.ofName? text with
    | none => simp only [stateOf, Json.text?, Option.bind_some, named]
    | some state =>
      have same : state.name = text := by simpa using List.find?_some named
      exact absurd (congrArg Json.str same.symm) (noState state)
  | bool | int | float | arr | obj => rfl

/-! ### Questions -/

/-- The answer to a question that reads one key and takes what is there to tell something. -/
theorem answer_spec {α : Type} {tells : Option Json → Except VerdictFault α} {key short : Text}
    {outcome : Except VerdictFault α}
    (asked : outcome = ((s.read key).mapError (.unreadable short)).bind tells) :
    (s.Lacks key → outcome = tells none) ∧ (∀ v, s.Holds key v → outcome = tells (some v)) ∧
      (¬ s.Lacks key → (∀ v, ¬ s.Holds key v) → ∃ cause, outcome = .error (.unreadable short cause)) := by
  have finds := s.read_spec key
  generalize s.read key = found at finds asked
  cases finds with
  | nothing lacks =>
    refine ⟨fun _ => asked, fun v held => absurd lacks held.not_lacks, fun some => absurd lacks some⟩
  | value held =>
    refine ⟨fun lacks => absurd lacks held.not_lacks, ?_, fun _ none => absurd held (none _)⟩
    intro v heldToo
    rw [asked, held.unique heldToo]
    rfl
  | failure some none =>
    exact ⟨fun lacks => absurd lacks some, fun v held => absurd held (none v), fun _ _ => ⟨_, asked⟩⟩

/-- Where a key is neither lacking nor holds null or one of the values that are verdicts, the answer is a
fault, which shows the value if there is one. -/
theorem refused_of_apart {α ι : Type} (verdict : ι → Json) {tells : Option Json → Except VerdictFault α}
    {key short : Text} {outcome : Except VerdictFault α} {fault : Json → VerdictFault}
    (asked : outcome = ((s.read key).mapError (.unreadable short)).bind tells)
    (refuses : ∀ v, v ≠ .null → (∀ i, v ≠ verdict i) → tells (some v) = .error (fault v))
    (given : ¬ s.Lacks key) (notNull : ¬ s.Holds key .null) (apart : ∀ i, ¬ s.Holds key (verdict i)) :
    ∃ cause, outcome = .error cause ∧ ∀ v, s.Holds key v → cause = fault v := by
  obtain ⟨-, told, unread⟩ := answer_spec asked
  by_cases held : ∃ v, s.Holds key v
  · obtain ⟨v, held⟩ := held
    have refused := refuses v (fun null => notNull (null ▸ held)) fun i same => apart i (same ▸ held)
    refine ⟨fault v, (told v held).trans refused, fun w heldToo => ?_⟩
    rw [held.unique heldToo]
  · rw [not_exists] at held
    obtain ⟨cause, failed⟩ := unread given held
    exact ⟨_, failed, fun v heldToo => absurd heldToo (held v)⟩

/-- A list of values is the set of some names: it has each of them once and nothing else. -/
def IsSetOf (names : List Text) (hosts : List Json) : Prop :=
  hosts.Nodup ∧ ∀ v, v ∈ hosts ↔ ∃ name ∈ names, v = .str name

theorem isSetOf_eraseDups (names : List Text) : IsSetOf names (names.map Json.str).eraseDups := by
  refine ⟨nodup_eraseDups _, fun v => ?_⟩
  simp only [List.mem_eraseDups, List.mem_map, eq_comm]

/-- A published verdict is told as it is held, an absent one as none, and anything else is refused. Each
question reads the one key that it is about, and no write under another key changes its answer. -/
theorem verdicts_told_or_refused (keyspace : Text) (s : Store) :
    (∀ workload : WorkloadClass,
      let key := keyspace ++ ":preclude:" ++ workload.name
      let asked := Source.precludedHosts (.store keyspace s) workload
      asked.keys = [key] ∧
      (∀ names : List Text, s.Holds key (.arr (names.map .str)) →
        ∃ hosts, asked.outcome = .ok hosts ∧ IsSetOf names hosts) ∧
      (s.Lacks key ∨ s.Holds key .null → asked.outcome = .ok []) ∧
      (¬ s.Lacks key → ¬ s.Holds key .null → (∀ names : List Text, ¬ s.Holds key (.arr (names.map .str))) →
        ∃ fault, asked.outcome = .error fault ∧ ∀ v, s.Holds key v → fault = .hostnames workload v) ∧
      ∀ changes, (∀ change ∈ changes, change.1 ≠ key) →
        Source.precludedHosts (.store keyspace (s.writes changes)) workload = asked) ∧
    ∀ node : Text,
      let key := keyspace ++ ":avoidance:" ++ node
      let asked := Source.avoidance (.store keyspace s) node
      asked.keys = [key] ∧
      (∀ state : Avoidance, s.Holds key (.str state.name) → asked.outcome = .ok (some state)) ∧
      (s.Lacks key ∨ s.Holds key .null → asked.outcome = .ok none) ∧
      (¬ s.Lacks key → ¬ s.Holds key .null → (∀ state : Avoidance, ¬ s.Holds key (.str state.name)) →
        ∃ fault, asked.outcome = .error fault ∧ ∀ v, s.Holds key v → fault = .avoidance node v) ∧
      ∀ changes, (∀ change ∈ changes, change.1 ≠ key) →
        Source.avoidance (.store keyspace (s.writes changes)) node = asked := by
  constructor
  · intro workload key asked
    have equation : asked = ⟨_, [key]⟩ := precludedHosts_store keyspace s workload
    have outcome := congrArg Reads.outcome equation
    obtain ⟨missing, told, -⟩ := answer_spec outcome
    refine ⟨congrArg Reads.keys equation, ?_, ?_, ?_, ?_⟩
    · intro names held
      exact ⟨_, (told _ held).trans (hostsOf_names workload names), isSetOf_eraseDups names⟩
    · rintro (lacks | held)
      · exact missing lacks
      · exact told _ held
    · intro given notNull noList
      exact refused_of_apart (fun names : List Text => .arr (names.map .str)) outcome
        (fun _ => hostsOf_refused) given notNull noList
    · intro changes apart
      rw [equation, precludedHosts_store, Store.read_writes_of_apart apart]
  · intro node key asked
    have equation : asked = ⟨_, [key]⟩ := avoidance_store keyspace s node
    have outcome := congrArg Reads.outcome equation
    obtain ⟨missing, told, -⟩ := answer_spec outcome
    refine ⟨congrArg Reads.keys equation, ?_, ?_, ?_, ?_⟩
    · intro state held
      exact (told _ held).trans (stateOf_name node state)
    · rintro (lacks | held)
      · exact missing lacks
      · exact told _ held
    · intro given notNull noState
      exact refused_of_apart (fun state : Avoidance => .str state.name) outcome
        (fun _ => stateOf_refused) given notNull noState
    · intro changes apart
      rw [equation, avoidance_store, Store.read_writes_of_apart apart]

/-- Names out of order and twice, one of them a surrogate that stands alone, a list with a number in it, bytes
that are no text, and a state, which another write leaves as it is. -/
theorem verdicts_told_or_refused_mixed :
    let s : Store := ⟨[("ci:preclude:tests", "[\"b\", \"\\ud800\", \"b\"]".toUTF8),
      ("ci:preclude:builds", "[\"a\", 1]".toUTF8), ("ci:preclude:longtests", ⟨#[0xff, 0xff, 0xff]⟩),
      ("ci:avoidance:n", "\"NoSchedule\"".toUTF8)], true⟩
    (∃ hosts, (Source.precludedHosts (.store "ci" s) .tests).outcome = .ok hosts ∧
        IsSetOf ["b", .broken "" 0 "", "b"] hosts) ∧
      (Source.precludedHosts (.store "ci" s) .prowJobs).outcome = .ok [] ∧
      (Source.precludedHosts (.store "ci" s) .builds).outcome =
        .error (.hostnames .builds (.arr [.str "a", .int 1])) ∧
      (∃ fault, (Source.precludedHosts (.store "ci" s) .longTests).outcome = .error fault) ∧
      (Source.avoidance (.store "ci" (s.writes [("ci:avoidance:m", none)])) "n").outcome =
        .ok (some .noSchedule) := by
  intro s
  obtain ⟨classes, nodes⟩ := verdicts_told_or_refused "ci" s
  have listed : s.Holds "ci:preclude:tests" (.arr ([("b" : Text), .broken "" 0 "", "b"].map .str)) :=
    ⟨rfl, _, rfl, by decide +kernel⟩
  have lacks : s.Lacks "ci:preclude:prowjobs" := ⟨rfl, by decide⟩
  have mixed : s.Holds "ci:preclude:builds" (.arr [.str "a", .int 1]) := ⟨rfl, _, rfl, by decide +kernel⟩
  have notNull : ¬ s.Holds "ci:preclude:builds" .null := by
    intro null
    cases mixed.unique null
  have there : ¬ s.Lacks "ci:preclude:longtests" := by
    rintro ⟨-, missing⟩
    cases missing
  have undecodable (v : Json) : ¬ s.Holds "ci:preclude:longtests" v := by
    rintro ⟨-, document, found, decoded⟩
    cases found
    have none : Json.ofBytes? ⟨#[0xff, 0xff, 0xff]⟩ = none := by decide +kernel
    cases none.symm.trans decoded
  have noList (names : List Text) : ¬ s.Holds "ci:preclude:builds" (.arr (names.map .str)) := by
    intro held
    have same := Json.arr.inj (mixed.unique held)
    have texts : ∀ v ∈ [Json.str "a", .int 1], v.text?.isSome = true := by
      rw [same]
      simp [Json.text?]
    exact absurd (texts (.int 1) (by simp)) (by decide)
  have state : s.Holds "ci:avoidance:n" (.str Avoidance.noSchedule.name) := ⟨rfl, _, rfl, by decide +kernel⟩
  obtain ⟨-, -, -, refused, -⟩ := classes .builds
  obtain ⟨-, -, -, unread, -⟩ := classes .longTests
  obtain ⟨fault, failed, shown⟩ := refused mixed.not_lacks notNull noList
  obtain ⟨cause, failedToo, -⟩ := unread there (undecodable _) fun _ => undecodable _
  obtain ⟨-, told, -, -, undisturbed⟩ := nodes "n"
  refine ⟨(classes .tests).2.1 _ listed, (classes .prowJobs).2.2.1 (.inl lacks), ?_, ⟨cause, failedToo⟩, ?_⟩
  · rw [failed, shown _ mixed]
  · rw [undisturbed [("ci:avoidance:m", none)] (by decide)]
    exact told .noSchedule state

end Verdict
end WorkloadAdmission
