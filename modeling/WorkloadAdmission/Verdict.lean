import WorkloadAdmission.Json.Printer
import WorkloadAdmission.Json.Reader
import WorkloadAdmission.Workload.Class

/-! Verdicts on where work should not go: the hosts that pods of a class keep off, and the state in
which a node avoids new pods. They come from a table or from a store, which holds JSON documents under
keys: the verdict on a class is the list under `<keyspace>:preclude:<class>` and the verdict on a node
the text under `<keyspace>:avoidance:<node>`. A store that cannot be reached answers no read. An answer
names the keys that were read for it. Connections to a store, and the bytes that a client writes a key as,
are not modelled. -/
namespace WorkloadAdmission

/-! ### Store -/

structure Store where
  documents : List (Text × ByteArray)
  reachable : Bool

inductive StoreFault where
  | unreachable
  | undecodable (key : Text)
  deriving DecidableEq

def StoreFault.message : StoreFault → Text
  | .unreachable => "connection refused"
  | .undecodable key => "undecodable value under " ++ key

namespace Store

def empty : Store := ⟨[], true⟩

def put (s : Store) (key : Text) (document : ByteArray) : Store :=
  { s with documents := Fields.insert key document s.documents }

def delete (s : Store) (key : Text) : Store := { s with documents := Fields.erase s.documents key }

def read (s : Store) (key : Text) : Except StoreFault (Option Json) :=
  if !s.reachable then .error .unreachable
  else
    match Fields.get? s.documents key with
    | none => .ok none
    | some document =>
      match Json.ofBytes? document with
      | some v => .ok (some v)
      | none => .error (.undecodable key)

end Store

/-! ### Verdicts -/

namespace Verdict

/-- Why there is no verdict to rely on. -/
inductive VerdictFault where
  | unreadable (key : Text) (cause : StoreFault)
  | hostnames (workload : WorkloadClass) (value : Json)
  | avoidance (node : Text) (value : Json)
  deriving DecidableEq

def VerdictFault.message : VerdictFault → Text
  | .unreadable key cause => "unable to read " ++ key ++ ": " ++ cause.message
  | .hostnames workload value =>
    "precluded hostnames for " ++ workload.name ++ " must be a list of strings, got: " ++ value.describe
  | .avoidance node value => "unknown avoidance state for node " ++ node ++ ": " ++ value.describe

structure Table where
  precluded : List (WorkloadClass × List Json)
  avoidance : List (Text × Avoidance)

inductive Source where
  | table (t : Table)
  | store (keyspace : Text) (s : Store)

/-- An outcome with the store keys that were read for it, in order. -/
structure Reads (α : Type) where
  outcome : α
  keys : List Text

/-- What a verdict on a class says. No document and null preclude nothing. -/
def hostsOf (workload : WorkloadClass) : Option Json → Except VerdictFault (List Json)
  | none => .ok []
  | some .null => .ok []
  | some (.arr items) =>
    if items.all fun v => v.text?.isSome then .ok items.eraseDups
    else .error (.hostnames workload (.arr items))
  | some v => .error (.hostnames workload v)

/-- What a verdict on a node says. No document and null say nothing. -/
def stateOf (node : Text) : Option Json → Except VerdictFault (Option Avoidance)
  | none => .ok none
  | some .null => .ok none
  | some v =>
    match v.text?.bind Avoidance.ofName? with
    | some state => .ok (some state)
    | none => .error (.avoidance node v)

namespace Source

def read (keyspace : Text) (s : Store) (key : Text) : Reads (Except VerdictFault (Option Json)) :=
  let full := keyspace ++ ":" ++ key
  ⟨(s.read full).mapError (.unreadable key), [full]⟩

/-- The hosts that pods of a class keep off, without repetition. -/
def precludedHosts (source : Source) (workload : WorkloadClass) : Reads (Except VerdictFault (List Json)) :=
  match source with
  | .table t => ⟨.ok ((t.precluded.lookup workload).getD []).eraseDups, []⟩
  | .store keyspace s =>
    let found := read keyspace s ("preclude:" ++ workload.name)
    ⟨found.outcome.bind (hostsOf workload), found.keys⟩

/-- The state in which a node avoids new pods, if there is a verdict on it. -/
def avoidance (source : Source) (node : Text) : Reads (Except VerdictFault (Option Avoidance)) :=
  match source with
  | .table t => ⟨.ok (t.avoidance.lookup node), []⟩
  | .store keyspace s =>
    let found := read keyspace s ("avoidance:" ++ node)
    ⟨found.outcome.bind (stateOf node), found.keys⟩

end Source
end Verdict
end WorkloadAdmission
