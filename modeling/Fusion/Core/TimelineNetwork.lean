import Fusion.Core.CueGating
import Fusion.Transport.Remote

/-!
# TimelineNetwork — a run, its clients and the Runtimes behind them

The executor's answers come from the Runtimes: a request is served once, its
response carries what the record says when the Runtime answers, and each
listener reads its Runtime's log in order from the snapshot on. Requests and
responses may be lost, and anybody may submit to the same Runtimes.
Two clients may name one Runtime. Command ids are never used twice.
-/

namespace Fusion

open Transition

variable {V : Type}

/-- What a Runtime has done about the `submit_command` of a Cue. -/
inductive Served
  | waiting
  | refused
  | accepted (c : CommandId)
deriving DecidableEq

/-- The requests of one Cue: what the Runtime did, and the responses of
`submit_command` and `get_command` under way. -/
structure Rpc where
  served : Served
  answer : Option (Except ClientError (CommandId × CommandView))
  record : Option (Except String CommandView)
deriving DecidableEq

/-- A run and the Runtimes of its clients, as clients see these. -/
structure TimelineNetwork (V : Type) where
  exec : Execution V
  /-- the Runtime behind a client's name -/
  host : String → String
  remotes : String → Remote
  /-- every command id in use, and the Runtime that made it -/
  made : CommandId → Option String
  /-- the sequence number up to which a client's listener has the events -/
  delivered : String → Nat
  rpcs : Nat → Rpc

/-- A move of the run, of a call or of a Runtime. -/
inductive NetLabel
  | exec (env : Env) (label : Execution.ExecLabel)
  /-- the Runtime accepts the command of a Cue -/
  | accept (i : Nat) (c : CommandId)
  | refuse (i : Nat) (message : String)
  /-- the Runtime answers an accepted submission -/
  | respond (i : Nat)
  /-- `submit_command` raises another error than a `RuntimeCommandError` -/
  | lose (i : Nat) (message : String)
  /-- the Runtime answers `get_command` -/
  | readRecord (i : Nat)
  | loseRecord (i : Nat) (message : String)
  /-- a Runtime goes on, with these and other commands -/
  | remote (name : String) (label : RemoteLabel)

namespace TimelineNetwork

/-- A run that has not begun, and Runtimes without commands. -/
def init (timeline : Timeline V) (clients : List String) (runId : String)
    (host : String → String) : TimelineNetwork V where
  exec := .init timeline clients runId
  host := host
  remotes := fun _ => .empty
  made := fun _ => none
  delivered := fun _ => 0
  rpcs := fun _ => ⟨.waiting, none, none⟩

/-- The Runtime behind a client. -/
def remote (s : TimelineNetwork V) (client : String) : Remote := s.remotes (s.host client)

/-- Where the calls of the Cue of position `i` are. -/
def setRpc (s : TimelineNetwork V) (i : Nat) (rpc : Rpc) : TimelineNetwork V :=
  { s with rpcs := Function.update s.rpcs i rpc }

/-- A Runtime takes a step; a command it makes has a new id. -/
def evolve (s : TimelineNetwork V) (name : String) (label : RemoteLabel) :
    Option (TimelineNetwork V) :=
  match label with
  | .begins c =>
      if s.made c = none then
        ((s.remotes name).step label).map fun r =>
          { s with
            remotes := Function.update s.remotes name r
            made := Function.update s.made c (some name) }
      else none
  | _ =>
      ((s.remotes name).step label).map fun r =>
        { s with remotes := Function.update s.remotes name r }

/-- The step of the executor takes what is there to take. -/
def offers (s : TimelineNetwork V) : Execution.ExecLabel → Bool
  | .snapshot (.ok sequence) =>
      match s.exec.phase with
      | .snapshots (name :: _) => sequence ≤ (s.remote name).log.length
      | _ => false
  | .submitAnswered i answer => (s.rpcs i).answer = some answer
  | .recheckAnswered i answer => (s.rpcs i).record = some answer
  | .deliver client event => (s.remote client).log[s.delivered client]? = some event
  | _ => true

/-- How far the listeners have read after a step of the executor: a listener
starts behind its snapshot. -/
def deliveredAfter (s : TimelineNetwork V) : Execution.ExecLabel → String → Nat
  | .snapshot (.ok sequence) =>
      match s.exec.phase with
      | .snapshots (name :: _) => Function.update s.delivered name sequence
      | _ => s.delivered
  | .deliver client _ => Function.update s.delivered client (s.delivered client + 1)
  | _ => s.delivered

/-- One move. -/
def step (s : TimelineNetwork V) : NetLabel → Option (TimelineNetwork V)
  | .exec env label =>
      if s.offers label then
        (s.exec.step env label).map fun exec =>
          { s with exec := exec, delivered := s.deliveredAfter label }
      else none
  | .accept i c =>
      s.exec.timeline.cues[i]?.bind fun cue =>
        if i ∈ s.exec.calls ∧ (s.rpcs i).served = .waiting then
          (s.evolve (s.host cue.runtime) (.begins c)).map fun t =>
            t.setRpc i { s.rpcs i with served := .accepted c }
        else none
  | .refuse i message =>
      if i ∈ s.exec.calls ∧ (s.rpcs i).served = .waiting then
        some (s.setRpc i
          { s.rpcs i with
            served := .refused
            answer := (s.rpcs i).answer.or (some (.error (.command message))) })
      else none
  | .respond i =>
      s.exec.timeline.cues[i]?.bind fun cue =>
        match (s.rpcs i).served, (s.rpcs i).answer with
        | .accepted c, none =>
            ((s.remote cue.runtime).commands c).map fun view =>
              s.setRpc i { s.rpcs i with answer := some (.ok (c, view)) }
        | _, _ => none
  | .lose i message =>
      if (s.exec.tasks i).pc = .submitting then
        some (s.setRpc i { s.rpcs i with answer := some (.error (.other message)) })
      else none
  | .readRecord i =>
      s.exec.timeline.cues[i]?.bind fun cue =>
        match (s.exec.tasks i).pc, (s.rpcs i).record with
        | .rechecking c, none =>
            ((s.remote cue.runtime).commands c).map fun view =>
              s.setRpc i { s.rpcs i with record := some (.ok view) }
        | _, _ => none
  | .loseRecord i message =>
      match (s.exec.tasks i).pc with
      | .rechecking _ => some (s.setRpc i { s.rpcs i with record := some (.error message) })
      | _ => none
  | .remote name label => s.evolve name label

/-- One Cue, on one client. -/
def single : Timeline Int :=
  ⟨[⟨"a", 0, "motor", "motor01", "move", .empty, .observed, [], .default⟩]⟩

/-- The run of this Cue. -/
def singleNetwork : TimelineNetwork Int := init single ["motor"] "run-1" fun client => client

end TimelineNetwork

/-- A reading at the start of the run, with a session on the client. -/
def Env.atStart : Env := ⟨0, 0, false, Dict.empty.set "motor" "cs1"⟩

end Fusion
