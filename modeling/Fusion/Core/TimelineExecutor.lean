import Fusion.Contracts.Timeline
import Fusion.Lib.Rounding
import Fusion.Lib.Transition

/-!
# TimelineExecutor — one run of a Timeline (core/timeline_executor.py)

The run task, one task for each Cue, one listener for each Runtime client
and the future that gathers the Cue tasks, cut at their suspension points.
What the clients answer is the label's; the clock, the hold flag and the
session ids a stretch reads are its environment. Cue tasks are addressed by
the position of their Cue in the timeline.

The gathering future follows asyncio: a Cue task that ended is noticed by a
callback of its own; the first one noticed to have raised fails the future
and leaves the other tasks running; cancelling the future cancels every Cue
task that has not ended.
-/

namespace Fusion

open Rounding

/-- What is recorded of a Cue. -/
structure CueOutcome where
  cueId : String
  outcome : String
  detail : Option String
deriving DecidableEq

/-- How a task ends. -/
inductive TaskEnd
  | returned
  | raised (message : String)
  | cancelled
deriving DecidableEq

/-- What a client call may raise: a `RuntimeCommandError`, or anything else. -/
inductive ClientError
  | command (message : String)
  | other (message : String)
deriving DecidableEq

/-- What a response says of a command record. -/
inductive CommandView
  | inProgress
  | terminal (outcome : CommandOutcome)
deriving DecidableEq

/-- An event as a listener sees it. -/
inductive WireEvent
  | completed (c : CommandId) (outcome : CommandOutcome)
  | other
deriving DecidableEq

/-- Where a Cue task is suspended. -/
inductive CuePc
  /-- before `gather` made the task -/
  | unborn
  | created
  /-- in `done_events[dep].wait()`, with the rest of `depends_on` to go -/
  | waiting (dep : String) (rest : List String)
  /-- in the clock's `sleep` -/
  | sleeping
  /-- in `submit_command` -/
  | submitting
  /-- in `get_command` -/
  | rechecking (c : CommandId)
  /-- in the await of its future -/
  | awaiting (c : CommandId)
  | ended (how : TaskEnd)
deriving DecidableEq

/-- The task of a Cue. -/
structure CueTask where
  pc : CuePc
  /-- `cancel()` was called: the task's next run raises `CancelledError` -/
  cancelRequested : Bool
deriving DecidableEq

/-- The task has ended. -/
def CuePc.isEnded : CuePc → Bool
  | ended _ => true
  | _ => false

/-- The task exists and has not ended. -/
def CuePc.live : CuePc → Bool
  | unborn | ended _ => false
  | _ => true

/-- The future that a listener resolves. -/
inductive FutureState
  | pending
  | resolved (outcome : String)
deriving DecidableEq

/-- Where the listener of a client is. -/
inductive ListenerState
  | unborn
  | streaming
  /-- cancelled by the run's `finally`, and not resumed since -/
  | cancelling
  | ended
deriving DecidableEq

/-- The future of `gather`. -/
inductive GatherState
  | pending
  | done (how : TaskEnd)
deriving DecidableEq

/-- Where the run task is suspended. -/
inductive RunPhase
  | created
  /-- in `get_snapshot` of the first of these clients -/
  | snapshots (rest : List String)
  | gathering
  /-- in the `finally`, waiting for the listeners -/
  | closing (result : TaskEnd)
  | ended (result : TaskEnd)
deriving DecidableEq

/-- One call of `submit_command`. -/
structure SubmitCall (V : Type) where
  index : Nat
  runtime : String
  request : CommandSubmitRequest V

/-- What one stretch of a task reads from outside: the clock, first and at
its last reading, `hold_check()` and `session_ids`. -/
structure Env where
  now : ℚ
  later : ℚ
  hold : Bool
  sessionIds : Dict String String

/-- One call of `run`, with its tasks. -/
structure Execution (V : Type) where
  timeline : Timeline V
  clients : List String
  runId : String
  start : ℚ
  phase : RunPhase
  /-- the run task is to raise `CancelledError` when it next runs -/
  cancelRequested : Bool
  afterSequences : Dict String Nat
  tasks : Nat → CueTask
  gather : GatherState
  /-- `cancel()` reached the Cue tasks through the gathering future -/
  gatherCancelled : Bool
  /-- the Cue tasks whose end the gathering future knows -/
  noticed : Nat → Bool
  listeners : String → ListenerState
  outcomes : Dict String CueOutcome
  doneEvents : Dict String Bool
  /-- `_pending`: a command id and the Cue whose future it resolves -/
  pending : Dict CommandId Nat
  futures : Nat → Option FutureState
  /-- history: every call of `submit_command` -/
  submitted : List (SubmitCall V)

namespace Execution

variable {V : Type}

/-- The call of `run`, before its first stretch. -/
def init (timeline : Timeline V) (clients : List String) (runId : String) : Execution V where
  timeline := timeline
  clients := clients
  runId := runId
  start := 0
  phase := .created
  cancelRequested := false
  afterSequences := .empty
  tasks := fun _ => ⟨.unborn, false⟩
  gather := .pending
  gatherCancelled := false
  noticed := fun _ => false
  listeners := fun _ => .unborn
  outcomes := .empty
  doneEvents := timeline.cues.foldl (fun d cue => d.set cue.cueId false) .empty
  pending := .empty
  futures := fun _ => none
  submitted := []

/-- Where the task of position `i` is. -/
def setPc (s : Execution V) (i : Nat) (pc : CuePc) : Execution V :=
  { s with tasks := Function.update s.tasks i { s.tasks i with pc := pc } }

/-- The Cue task of position `i` ends. -/
def endCue (s : Execution V) (i : Nat) (how : TaskEnd) : Execution V := s.setPc i (.ended how)

/-- `_finish` -/
def finish (s : Execution V) (cue : Cue V) (outcome : String) (detail : Option String) :
    Execution V :=
  { s with
    outcomes := s.outcomes.set cue.cueId ⟨cue.cueId, outcome, detail⟩
    doneEvents := s.doneEvents.set cue.cueId true }

/-- `str` of a `KeyError`. -/
def keyError (key : String) : String := s!"'{key}'"

/-- The deadline of a Cue, on the run's own clock. -/
def deadline (s : Execution V) (cue : Cue V) : ℚ := s.start + cue.atMs / 1000

/-- The request a Cue submits. -/
def request (s : Execution V) (cue : Cue V) (sessionId : String) : CommandSubmitRequest V where
  requestId := s!"{s.runId}:{cue.cueId}"
  controlSessionId := some sessionId
  runId := some s.runId
  cueId := some cue.cueId
  targetId := cue.targetId
  action := cue.action
  params := cue.params
  completionRequirement := cue.completionRequirement
  source := "timeline"
  actor := none

/-- `_run_cue`, from the measure of its lateness to the submission. -/
def fire (s : Execution V) (env : Env) (i : Nat) (cue : Cue V) : Execution V :=
  let latenessMs := (env.later - s.deadline cue) * 1000
  if (cue.latePolicy.maxLatenessMs : ℚ) < latenessMs then
    match cue.latePolicy.mode with
    | .skip =>
        (s.finish cue "SKIPPED" (some s!"late by {roundHalfEven latenessMs}ms")).endCue i .returned
    | .abort =>
        (s.finish cue "FAILED"
          (some s!"late by {roundHalfEven latenessMs}ms (abort policy)")).endCue i
          (.raised s!"cue '{cue.cueId}' exceeded its late policy (abort)")
  else if env.hold then
    (s.finish cue "SKIPPED" (some "Show was held before this cue could fire")).endCue i .returned
  else if cue.runtime ∉ s.clients then s.endCue i (.raised (keyError cue.runtime))
  else
    match env.sessionIds.get cue.runtime with
    | none => s.endCue i (.raised (keyError cue.runtime))
    | some sessionId =>
        { s.setPc i .submitting with
          submitted := s.submitted ++ [⟨i, cue.runtime, s.request cue sessionId⟩] }

/-- `_run_cue`, from the test of the schedule loop. -/
def schedule (s : Execution V) (env : Env) (i : Nat) (cue : Cue V) : Execution V :=
  if env.now < s.deadline cue then s.setPc i .sleeping else s.fire env i cue

/-- The dependency has the outcome SUCCEEDED. -/
def succeeded (s : Execution V) (dep : String) : Bool :=
  (s.outcomes.get dep).any fun o => o.outcome = "SUCCEEDED"

/-- `_run_cue`, from the head of the dependency loop. -/
def waitDeps (s : Execution V) (env : Env) (i : Nat) (cue : Cue V) : List String → Execution V
  | [] => s.schedule env i cue
  | dep :: rest =>
      match s.doneEvents.get dep with
      | none => s.endCue i (.raised (keyError dep))
      | some false => s.setPc i (.waiting dep rest)
      | some true =>
          if s.succeeded dep then s.waitDeps env i cue rest
          else
            (s.finish cue "SKIPPED" (some s!"dependency '{dep}' did not succeed")).endCue i
              .returned

/-- A Cue task runs on where no client answer is due. -/
def runCue (s : Execution V) (env : Env) (i : Nat) (cue : Cue V) : Option (Execution V) :=
  match (s.tasks i).pc with
  | .created => some (s.waitDeps env i cue cue.dependsOn)
  | .waiting dep rest =>
      if s.doneEvents.get dep = some true then some (s.waitDeps env i cue (dep :: rest)) else none
  | .sleeping => some (s.schedule env i cue)
  | .awaiting _ =>
      match s.futures i with
      | some (.resolved outcome) => some ((s.finish cue outcome none).endCue i .returned)
      | _ => none
  | _ => none

/-- `future.set_result`, if the future is not done. -/
def resolve (s : Execution V) (i : Nat) (outcome : String) : Execution V :=
  match s.futures i with
  | some .pending => { s with futures := Function.update s.futures i (some (.resolved outcome)) }
  | _ => s

/-- `submit_command` answers. -/
def submitAnswered (s : Execution V) (i : Nat) (cue : Cue V) :
    Except ClientError (CommandId × CommandView) → Execution V
  | .error (.command message) => (s.finish cue "FAILED" (some message)).endCue i .returned
  | .error (.other message) => s.endCue i (.raised message)
  | .ok (_, .terminal outcome) => (s.finish cue outcome.value none).endCue i .returned
  | .ok (c, .inProgress) =>
      { s.setPc i (.rechecking c) with
        pending := s.pending.set c i
        futures := Function.update s.futures i (some .pending) }

/-- `get_command` answers; a future that is done by then is not waited for. -/
def recheckAnswered (s : Execution V) (i : Nat) (cue : Cue V) (c : CommandId) :
    Except String CommandView → Execution V
  | .error message => s.endCue i (.raised message)
  | .ok view =>
      let s :=
        match view with
        | .inProgress => s
        | .terminal outcome => s.resolve i outcome.value
      match s.futures i with
      | some (.resolved outcome) => (s.finish cue outcome none).endCue i .returned
      | _ => s.setPc i (.awaiting c)

/-- A listener receives an event. -/
def deliver (s : Execution V) : WireEvent → Execution V
  | .other => s
  | .completed c outcome =>
      match s.pending.get c with
      | none => s
      | some i => s.resolve i outcome.value

/-- A listener is told `resync_required`. -/
def resync (s : Execution V) : Execution V :=
  (s.pending.items.map Prod.snd).foldl (fun s i => s.resolve i "UNKNOWN") s

/-- Where the listener of a client is. -/
def setListener (s : Execution V) (client : String) (l : ListenerState) : Execution V :=
  { s with listeners := Function.update s.listeners client l }

/-- The run creates the listeners, the Cue tasks and the gathering future. -/
def beginGather (s : Execution V) : Execution V :=
  { s with
    phase := .gathering
    listeners := fun client => if client ∈ s.clients then .streaming else s.listeners client
    tasks := fun i => if i < s.timeline.cues.length then ⟨.created, false⟩ else s.tasks i
    gather := if s.timeline.cues = [] then .done .returned else .pending }

/-- The run goes on to its next snapshot. -/
def nextSnapshot (s : Execution V) : List String → Execution V
  | [] => s.beginGather
  | rest => { s with phase := .snapshots rest }

/-- The Cue positions. -/
def positions (s : Execution V) : List Nat := List.range s.timeline.cues.length

/-- The gathering future, once it knows of one more Cue task how it ended. -/
def gatherAfter (s : Execution V) (how : TaskEnd) : GatherState :=
  match s.gather, how with
  | .done result, _ => .done result
  | .pending, .returned =>
      if s.positions.all s.noticed then
        .done (if s.gatherCancelled then .cancelled else .returned)
      else .pending
  | .pending, how => .done how

/-- The gathering future learns how a Cue task ended. -/
def notice (s : Execution V) (i : Nat) (how : TaskEnd) : Execution V :=
  let s := { s with noticed := Function.update s.noticed i true }
  { s with gather := s.gatherAfter how }

/-- The `finally` of `run`, up to the wait for the listeners. -/
def closeListeners (s : Execution V) (result : TaskEnd) : Execution V :=
  { s with
    phase := .closing result
    listeners := fun client =>
      if s.listeners client = .streaming then .cancelling else s.listeners client }

/-- `cancel()` of the run task. While it waits for the gathering future and
some Cue task has not ended, the request goes to these tasks; else it is
raised in the run task itself. -/
def cancelRun (s : Execution V) : Execution V :=
  match s.phase with
  | .ended _ => s
  | .gathering =>
      if s.gather = .pending ∧ s.positions.any (fun i => !(s.tasks i).pc.isEnded) then
        { s with
          gatherCancelled := true
          tasks := fun i =>
            if i < s.timeline.cues.length ∧ !(s.tasks i).pc.isEnded then
              { s.tasks i with cancelRequested := true }
            else s.tasks i }
      else { s with cancelRequested := true }
  | _ => { s with cancelRequested := true }

/-- The stretch that is next, with what it is answered. -/
inductive ExecLabel
  /-- the run task starts -/
  | begin
  | snapshot (answer : Except String Nat)
  /-- the run task raises a requested `CancelledError` before the Cue tasks
  exist -/
  | runCancelled
  | cue (i : Nat)
  | submitAnswered (i : Nat) (answer : Except ClientError (CommandId × CommandView))
  | recheckAnswered (i : Nat) (answer : Except String CommandView)
  | cueCancelled (i : Nat)
  | notice (i : Nat)
  /-- the run task resumes from the gathering future -/
  | gathered
  /-- the run task resumes from the wait for the listeners -/
  | closed
  | deliver (client : String) (event : WireEvent)
  | resync (client : String)
  /-- a stream ends, by closing, by an error or by cancellation -/
  | streamEnds (client : String)
  | cancelRun

/-- A Cue task that may run: it exists, has not ended, and was not asked to
stop. -/
def cueAt (s : Execution V) (i : Nat) : Option (Cue V) :=
  if (s.tasks i).cancelRequested then none else s.timeline.cues[i]?

/-- One stretch of one task, under one `Env`. -/
def step (env : Env) (s : Execution V) : ExecLabel → Option (Execution V)
  | .begin =>
      if s.phase = .created ∧ !s.cancelRequested then
        some ({ s with start := env.now }.nextSnapshot s.clients)
      else none
  | .snapshot answer =>
      match s.phase with
      | .snapshots (name :: rest) =>
          if s.cancelRequested then none
          else
            match answer with
            | .error message => some { s with phase := .ended (.raised message) }
            | .ok sequence => some
                ({ s with afterSequences := s.afterSequences.set name sequence }.nextSnapshot rest)
      | _ => none
  | .runCancelled =>
      match s.phase with
      | .created | .snapshots _ =>
          if s.cancelRequested then some { s with phase := .ended .cancelled } else none
      | _ => none
  | .cue i => (s.cueAt i).bind fun cue => s.runCue env i cue
  | .submitAnswered i answer =>
      (s.cueAt i).bind fun cue =>
        if (s.tasks i).pc = .submitting then some (s.submitAnswered i cue answer) else none
  | .recheckAnswered i answer =>
      (s.cueAt i).bind fun cue =>
        match (s.tasks i).pc with
        | .rechecking c => some (s.recheckAnswered i cue c answer)
        | _ => none
  | .cueCancelled i =>
      if (s.tasks i).cancelRequested ∧ (s.tasks i).pc.live then some (s.endCue i .cancelled)
      else none
  | .notice i =>
      match (s.tasks i).pc with
      | .ended how =>
          if i < s.timeline.cues.length ∧ !s.noticed i then some (s.notice i how) else none
      | _ => none
  | .gathered =>
      match s.phase, s.gather with
      | .gathering, .done how =>
          some (s.closeListeners (if s.cancelRequested then .cancelled else how))
      | _, _ => none
  | .closed =>
      match s.phase with
      | .closing result =>
          if s.clients.all (fun client => s.listeners client = .ended) then
            some { s with phase := .ended (if s.cancelRequested then .cancelled else result) }
          else none
      | _ => none
  | .deliver client event =>
      if s.listeners client = .streaming then some (s.deliver event) else none
  | .resync client =>
      if s.listeners client = .streaming then some (s.resync.setListener client .ended) else none
  | .streamEnds client =>
      match s.listeners client with
      | .streaming | .cancelling => some (s.setListener client .ended)
      | _ => none
  | .cancelRun => some s.cancelRun

end Execution

end Fusion
