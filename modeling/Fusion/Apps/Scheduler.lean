import Fusion.Core.ConfigService
import Fusion.Core.DeviceRuntime
import Fusion.Core.ShowController
import Fusion.Core.TimelineSteps

/-!
# Scheduler — SchedulerRuntimeApp (apps/scheduler/runtime.py)

The controller under its callers (`ShowControl`), with the coroutines the
Scheduler injects into it: `_prepare`, `_run` and `_stop_all`, cut where they
wait for a client. What the clients answer is the label's. A coroutine goes
on to its next wait in one step, so one step of the Scheduler may be several
of the controller (`Simulates`). The requests it makes are kept in order, as
a history.
-/

namespace Fusion

open Transition

variable {V : Type}

/-- Where a call of `arm` is suspended in `_prepare`, or a call of `abort` in
`_stop_all`: the client it waits for, and the clients after it. -/
inductive ShowBody
  | info (name : String) (rest : List String)
  /-- in `acquire_session`, with the place of its request among those sent -/
  | acquiring (request : Nat) (name : String) (rest : List String)
  | targets (name sessionId : String) (rest : List String)
  /-- in `submit_command`, with the targets after this one -/
  | stopping (name sessionId : String) (targets : List TargetManifest) (rest : List String)
  | releasing (rest : List String)
deriving DecidableEq

/-- A request of the Scheduler to a Runtime. -/
inductive Sent (V : Type)
  | acquire (name actor : String)
  /-- the submission of a Cue, by run `r` -/
  | cue (r : Nat) (call : SubmitCall V)
  /-- the stop of a target, by `_stop_all` -/
  | stop (name : String) (request : CommandSubmitRequest V)
  | release (name sessionId : String)

/-- The request submits a Cue. -/
def Sent.isCue : Sent V → Bool
  | cue _ _ => true
  | _ => false

/-- The Scheduler: its Show, its runs and its own configuration. -/
structure Scheduler (V : Type) where
  /-- the clock's reading -/
  now : ℚ
  /-- the names of the clients -/
  clients : List String
  actor : String
  timeline : Option { t : Timeline V // validateTimeline t = [] }
  sessionIds : Dict String String
  lastOutcomes : Dict String CueOutcome
  control : ShowControl
  bodies : Nat → Option ShowBody
  /-- the executor of each run task that has begun -/
  execs : Nat → Option (Execution V)
  config : ConfigService
  applies : Nat → Option ApplyCall
  /-- history: every request made, oldest first -/
  sent : List (Sent V)

namespace Scheduler

/-- A Scheduler without a timeline, at rest. -/
def init (now : ℚ) (clients : List String) (actor : String) : Scheduler V where
  now := now
  clients := clients
  actor := actor
  timeline := none
  sessionIds := .empty
  lastOutcomes := .empty
  control := .init
  bodies := fun _ => none
  execs := fun _ => none
  config := .new
  applies := fun _ => none
  sent := []

/-- The Show state. -/
def state (s : Scheduler V) : ShowState := s.control.controller.state

/-- The controller takes a step. -/
def controls (s : Scheduler V) (l : ShowControl.Label) : Option (Scheduler V) :=
  (s.control.step l).map fun control => { s with control := control }

/-- Call `k` waits, with this much of its coroutine to go. -/
def suspend (s : Scheduler V) (k : Nat) (body : ShowBody) : Scheduler V :=
  { s with bodies := Function.update s.bodies k (some body) }

/-- The coroutine of call `k` ends. -/
def endCall (s : Scheduler V) (k : Nat) (l : ShowControl.Label) : Option (Scheduler V) :=
  { s with bodies := Function.update s.bodies k none }.controls l

/-- A request goes out. -/
def send (s : Scheduler V) (request : Sent V) : Scheduler V :=
  { s with sent := s.sent ++ [request] }

/-! ## `_prepare` -/

/-- `_prepare`, from the head of its loop. -/
def prepareClients (s : Scheduler V) (k : Nat) : List String → Option (Scheduler V)
  | [] => s.endCall k (.prepareReturned k)
  | name :: rest => some (s.suspend k (.info name rest))

/-- `_prepare`, up to its first wait. -/
def prepare (s : Scheduler V) (k : Nat) : Option (Scheduler V) :=
  match s.timeline with
  | none => s.endCall k (.prepareRaised k "no timeline loaded")
  | some _ => s.prepareClients k s.clients

/-- `get_info` answered. -/
def informed (s : Scheduler V) (k : Nat) (name : String) (rest : List String) :
    Except String Unit → Option (Scheduler V)
  | .error message => s.endCall k (.prepareRaised k message)
  | .ok () =>
      some ((s.send (.acquire name s.actor)).suspend k (.acquiring s.sent.length name rest))

/-- `acquire_session` answered. -/
def acquired (s : Scheduler V) (k : Nat) (name : String) (rest : List String) :
    Except String String → Option (Scheduler V)
  | .error message => s.endCall k (.prepareRaised k message)
  | .ok sessionId =>
      { s with sessionIds := s.sessionIds.set name sessionId }.prepareClients k rest

/-! ## `_stop_all` -/

/-- The stop of a target. -/
def stopRequest (sessionId targetId action requestId : String) : CommandSubmitRequest V where
  requestId := requestId
  controlSessionId := some sessionId
  runId := none
  cueId := none
  targetId := targetId
  action := action
  params := .empty
  completionRequirement := .acknowledged
  source := "show-abort"
  actor := none

/-- `_stop_all`, from the head of the loop that releases the sessions. A
session that another `_stop_all` has popped in the meantime is a
`KeyError`. -/
def releaseNext (s : Scheduler V) (k : Nat) : List String → Option (Scheduler V)
  | [] => s.endCall k (.stopReturned k)
  | name :: rest =>
      if name ∉ s.clients then s.endCall k (.stopRaised k)
      else
        match s.sessionIds.get name with
        | none => s.endCall k (.stopRaised k)
        | some sessionId =>
            some (({ s with sessionIds := s.sessionIds.erase name }.send
              (.release name sessionId)).suspend k (.releasing rest))

/-- `_stop_all`, from the head of the loop over the clients. -/
def stopClients (s : Scheduler V) (k : Nat) : List String → Option (Scheduler V)
  | [] => s.releaseNext k s.sessionIds.keys
  | name :: rest =>
      match s.sessionIds.get name with
      | none => s.stopClients k rest
      | some sessionId => some (s.suspend k (.targets name sessionId rest))

/-- `_stop_all`, from the head of the loop over the targets of a client. -/
def stopTargets (s : Scheduler V) (k : Nat) (name sessionId : String) (rest : List String)
    (requestId : String) : List TargetManifest → Option (Scheduler V)
  | [] => s.stopClients k rest
  | target :: targets =>
      match target.actions.find? (·.priority = .control) with
      | none => s.stopTargets k name sessionId rest requestId targets
      | some stopAction =>
          some ((s.send (.stop name
              (stopRequest sessionId target.targetId stopAction.name requestId))).suspend k
            (.stopping name sessionId targets rest))

/-! ## `_run` -/

/-- `cancel()` of a run task reaches its executor. -/
def cancelExec (s : Scheduler V) (r : Nat) : Scheduler V :=
  { s with execs := Function.update s.execs r ((s.execs r).map Execution.cancelRun) }

/-- The outcomes other than SUCCEEDED and SKIPPED. -/
def failed (outcomes : Dict String CueOutcome) : List (String × CueOutcome) :=
  outcomes.items.filter fun x => x.2.outcome ≠ "SUCCEEDED" ∧ x.2.outcome ≠ "SKIPPED"

/-- `_run` and `_drive`, from the end of `TimelineExecutor.run`. The list of
the failed Cues that closes the message is left out. -/
def runEnded (s : Scheduler V) (r : Nat) (e : Execution V) : TaskEnd → Option (Scheduler V)
  | .cancelled => s.controls (.runCancelled r)
  | .raised message => s.controls (.runRaised r message)
  | .returned =>
      let s := { s with lastOutcomes := e.outcomes }
      match failed e.outcomes with
      | [] => s.controls (.runReturned r)
      | failed => s.controls (.runRaised r s!"{failed.length} cue(s) did not succeed")

/-- What one stretch of a task of a run reads. -/
def env (s : Scheduler V) (drift : ℚ) : Env where
  now := s.now
  later := s.now + drift
  hold := s.control.controller.holdRequested
  sessionIds := s.sessionIds

/-- The executor of a run has taken a step. -/
def setExec (s : Scheduler V) (r : Nat) (e e' : Execution V) (drift : ℚ) : Scheduler V :=
  { s with
    now := s.now + drift
    execs := Function.update s.execs r (some e')
    sent := s.sent ++ (e'.submitted.drop e.submitted.length).map (.cue r) }

/-- The executor of a run takes a step, and `_run` goes on when it ended. -/
def runStep (s : Scheduler V) (r : Nat) (e e' : Execution V) (drift : ℚ) :
    Option (Scheduler V) :=
  let s := s.setExec r e e' drift
  match e.phase, e'.phase with
  | .ended _, _ => some s
  | _, .ended result => s.runEnded r e' result
  | _, _ => some s

/-- The run task starts: `_run` makes its executor, or fails an assertion. -/
def runBegins (s : Scheduler V) (r : Nat) (drift : ℚ) : Option (Scheduler V) :=
  match s.timeline, s.control.controller.runId with
  | some timeline, some runId =>
      let e := Execution.init timeline.val s.clients runId
      (e.step (s.env drift) .begin).bind fun e' => s.runStep r e e' drift
  | _, _ => s.controls (.runRaised r "")

/-! ## Configuration -/

/-- `_apply_guard` -/
def applyGuard (s : Scheduler V) : Except Fault Unit :=
  if s.state ≠ .idle then
    .error (.fusion ⟨.validationError,
      s!"show is not idle (state={s.state.value}), cannot apply now"⟩)
  else .ok ()

/-- Where the call `i` of `apply` is, if it has not returned. -/
def setApply (s : Scheduler V) (i : Nat) (call : Option ApplyCall) : Scheduler V :=
  { s with applies := Function.update s.applies i call }

/-- `apply` from its lock on. The guard is a coroutine without an `await`, so
the call goes on to its end without giving up control. -/
def applyLocked (s : Scheduler V) (i : Nat) (call : ApplyCall) : ApplyRecord × Scheduler V :=
  match s.config.applyLocked s.now call.revisionId call.expectedActiveRevision with
  | (some record, config) => (record, { s with config := config }.setApply i none)
  | (none, config) =>
      let (record, config) := config.applyGuarded s.now call.revisionId s.applyGuard
      (record, { s with config := config }.setApply i none)

/-! ## Steps -/

/-- What the Scheduler does next; `k` is a call of `arm` or `abort`, `r` a run. -/
inductive Label (V : Type)
  /-- time passes -/
  | advance (dt : ℚ)
  | loadTimeline (t : Timeline V)
  | arm (k : Nat)
  | informed (k : Nat) (answer : Except String Unit)
  | acquired (k : Nat) (answer : Except String String)
  | start (runId : String)
  | hold
  | abort (k : Nat)
  /-- `abort` resumes from the wait for the run task -/
  | joined (k : Nat)
  /-- `get_targets` answers -/
  | targets (k : Nat) (answer : Except String (List TargetManifest)) (requestId : String)
  /-- the `submit_command` of a stop answers; what it answers is not read -/
  | stopAnswered (k : Nat) (requestId : String)
  | released (k : Nat)
  /-- a call of `arm` or `abort` is cancelled where it is suspended -/
  | callCancelled (k : Nat)
  | runBegins (r : Nat) (drift : ℚ)
  /-- a run task that was cancelled before it began ends -/
  | runDropped (r : Nat)
  /-- a task of a run goes on; its clock readings are `drift` apart -/
  | run (r : Nat) (label : Execution.ExecLabel) (drift : ℚ)
  | stageConfig (kind freshId : String)
  | applyConfig (i : Nat) (revisionId : String) (expectedActiveRevision : Option String)
  /-- a waiting call gets the lock -/
  | applyLocked (i : Nat)
  | applyCancelled (i : Nat)

/-- A label of the executor that its tasks, the listeners and the clients
bring about: not the start of the run, and not `cancel()`. -/
def internal : Execution.ExecLabel → Bool
  | .begin | .cancelRun => false
  | _ => true

/-- One stretch of one coroutine, or a call that returns at once. -/
def step (s : Scheduler V) : Label V → Option (Scheduler V)
  | .advance dt => if 0 ≤ dt then some { s with now := s.now + dt } else none
  | .loadTimeline t =>
      if h : validateTimeline t = [] then some { s with timeline := some ⟨t, h⟩ } else some s
  | .arm k =>
      (s.controls (.arm k)).bind fun t =>
        match t.control.calls k with
        | some _ => t.prepare k
        | none => some t
  | .informed k answer =>
      match s.bodies k with
      | some (.info name rest) => s.informed k name rest answer
      | _ => none
  | .acquired k answer =>
      match s.bodies k with
      | some (.acquiring _ name rest) => s.acquired k name rest answer
      | _ => none
  | .start runId => s.controls (.start runId)
  | .hold => s.controls .hold
  | .abort k =>
      (s.controls (.abort k)).bind fun t =>
        match t.control.calls k with
        | some (.joining r) => some (t.cancelExec r)
        | some _ => t.stopClients k t.clients
        | none => some t
  | .joined k => (s.controls (.joined k)).bind fun t => t.stopClients k t.clients
  | .targets k answer requestId =>
      match s.bodies k with
      | some (.targets name sessionId rest) =>
          match answer with
          | .error _ => s.stopClients k rest
          | .ok targets => s.stopTargets k name sessionId rest requestId targets
      | _ => none
  | .stopAnswered k requestId =>
      match s.bodies k with
      | some (.stopping name sessionId targets rest) =>
          s.stopTargets k name sessionId rest requestId targets
      | _ => none
  | .released k =>
      match s.bodies k with
      | some (.releasing rest) => s.releaseNext k rest
      | _ => none
  | .callCancelled k =>
      match s.control.calls k with
      | some (.joining r) => (s.controls (.callCancelled k)).map fun t => t.cancelExec r
      | _ => s.endCall k (.callCancelled k)
  | .runBegins r drift =>
      if 0 ≤ drift then (s.controls (.runBegins r)).bind fun t => t.runBegins r drift else none
  | .runDropped r => if s.control.runs r = .created then s.controls (.runCancelled r) else none
  | .run r label drift =>
      (s.execs r).bind fun e =>
        if internal label ∧ 0 ≤ drift then
          (e.step (s.env drift) label).bind fun e' => s.runStep r e e' drift
        else none
  | .stageConfig kind freshId =>
      if (s.config.staged.get freshId).isSome then none
      else some { s with config := s.config.stage s.now kind freshId }
  | .applyConfig i revisionId expected =>
      match s.applies i with
      | some _ => none
      | none =>
          match s.config.applyCheck revisionId with
          | .error _ => some s
          | .ok () => some (s.setApply i (some ⟨revisionId, expected, false⟩))
  | .applyLocked i =>
      match s.applies i with
      | some call => if !s.config.applyLock then some (s.applyLocked i call).2 else none
      | none => none
  | .applyCancelled i => if (s.applies i).isSome then some (s.setApply i none) else none

end Scheduler

end Fusion
