import Fusion.Core.ConfigService
import Fusion.Core.ControlSession
import Fusion.Core.EventBus
import Fusion.Core.Ledger
import Fusion.Lib.Transition

/-!
# DeviceRuntime — targets, runners and commands

contracts/plugin.py, core/target_runner.py and core/device_runtime.py as one
transition system. The coroutines of a command suspend in `adapter.execute`
and in the observer's `sleep`; everything between two suspension points is
one step, and a label says which coroutine runs next and what the adapter
answers there. An adapter is its answers: the manifest read at a submission,
how `execute` ends, what `is_action_complete` says. A command is submitted
and then observed by one coroutine after the other, so both are kept under
the command's id.
-/

namespace Fusion

/-! ## Manifests -/

/-- Whether an action waits for its target, or takes it over. -/
inductive ActionPriority
  | normal
  | control
deriving DecidableEq, Repr

/-- An action as its manifest declares it. -/
structure ActionSpec where
  name : String
  maxCompletion : CompletionRequirement
  priority : ActionPriority
deriving DecidableEq, Repr

/-- What an adapter can do. -/
structure TargetManifest where
  targetId : String
  actions : List ActionSpec
deriving DecidableEq, Repr

/-- `get_action` -/
def TargetManifest.getAction (m : TargetManifest) (name : String) : Option ActionSpec :=
  m.actions.find? (·.name == name)

/-! ## State -/

/-- The runner of one target; what it runs is in the Runtime's tasks. -/
structure TargetRunner where
  targetId : String
  /-- the command id of the record `_active` refers to -/
  active : Option CommandId
  executionGeneration : Nat
deriving DecidableEq

namespace TargetRunner

/-- `POLL_INTERVAL_S` -/
def pollInterval : ℚ := 1 / 50

/-- `OBSERVE_TIMEOUT_S` -/
def observeTimeout : ℚ := 10

/-- A runner at rest, in its first generation. -/
def new (targetId : String) : TargetRunner := ⟨targetId, none, 1⟩

/-- `bump_generation` -/
def bumpGeneration (r : TargetRunner) : TargetRunner :=
  { r with executionGeneration := r.executionGeneration + 1 }

/-- The tail of `_finish`: the record is no longer the active one. -/
def release (r : TargetRunner) (c : CommandId) : TargetRunner :=
  if r.active = some c then { r with active := none } else r

@[simp] theorem release_targetId (r : TargetRunner) (c : CommandId) :
    (r.release c).targetId = r.targetId := by
  unfold release
  split <;> rfl

@[simp] theorem release_executionGeneration (r : TargetRunner) (c : CommandId) :
    (r.release c).executionGeneration = r.executionGeneration := by
  unfold release
  split <;> rfl

end TargetRunner

/-- Where the coroutine that owns a command is. -/
inductive TaskStage
  /-- `submit`, inside `adapter.execute` -/
  | executing
  /-- `_observe`, created and not yet run -/
  | spawned
  /-- `_observe`, inside `sleep` until `wakeAt` -/
  | observing (deadline wakeAt : ℚ)
deriving DecidableEq

/-- A coroutine that owns a command. -/
structure CommandTask where
  targetId : String
  /-- `generation_at_submit` -/
  generation : Nat
  stage : TaskStage
deriving DecidableEq

/-- A call of `apply_config` that has not returned. -/
structure ApplyCall where
  revisionId : String
  expectedActiveRevision : Option String
  /-- the call holds the lock and awaits the guard -/
  guarding : Bool

/-- A Runtime process. -/
structure DeviceRuntime (V : Type) where
  runtimeId : String
  runtimeBootId : String
  /-- the clock's reading -/
  now : ℚ
  runners : Dict String TargetRunner
  ledger : CommandLedger V
  sessions : ControlSessionManager
  config : ConfigService
  /-- an `apply_guard` was supplied; its answers are the label's -/
  customGuard : Bool
  events : EventBus
  tasks : CommandId → Option CommandTask
  applies : Nat → Option ApplyCall
  /-- history: every event published, oldest first -/
  published : List Event
  /-- history: every call of `adapter.execute`, with the request and command -/
  executed : List (String × CommandId)
  /-- history: every `submit_command` that returned, with its answer's id -/
  returned : List (String × CommandId)

namespace DeviceRuntime

variable {V : Type}

/-- A Runtime at start, with one runner for each target. -/
def init (runtimeId runtimeBootId : String) (now : ℚ) (targets : List String)
    (customGuard : Bool) : DeviceRuntime V where
  runtimeId := runtimeId
  runtimeBootId := runtimeBootId
  now := now
  runners := targets.foldl (fun d t => d.set t (.new t)) .empty
  ledger := .new
  sessions := .new runtimeBootId
  config := .new
  customGuard := customGuard
  events := .new runtimeId runtimeBootId EventBus.defaultReplayBufferSize
    EventBus.defaultSubscriberQueueSize
  tasks := fun _ => none
  applies := fun _ => none
  published := []
  executed := []
  returned := []

/-! ## Records and events -/

/-- `EventBus.publish`, into the history too. -/
def publish (s : DeviceRuntime V) (f : EventFields) : DeviceRuntime V :=
  { s with events := s.events.publish f, published := s.published ++ [s.events.stamp f] }

/-- What `_on_command_change` publishes about a record. -/
def changeEvent (r : CommandRecord V) : EventFields where
  type := if r.status = .terminal then .commandCompleted else .commandStatusChanged
  targetId := some r.targetId
  commandId := some r.commandId
  runId := r.runId
  cueId := r.cueId
  payload :=
    if r.status = .terminal then .completed r.outcome r.achievedCompletion
    else .status r.status

/-- Fields of a record are assigned and `_on_command_change` reports it. -/
def change (s : DeviceRuntime V) (r : CommandRecord V) : DeviceRuntime V :=
  { s with ledger := s.ledger.store r }.publish (changeEvent r)

/-- A runner has changed. -/
def setRunner (s : DeviceRuntime V) (r : TargetRunner) : DeviceRuntime V :=
  { s with runners := s.runners.set r.targetId r }

/-- Where the coroutine of a command is, if there is one. -/
def setTask (s : DeviceRuntime V) (c : CommandId) (t : Option CommandTask) : DeviceRuntime V :=
  { s with tasks := Function.update s.tasks c t }

/-- The record of a command: `get_command`. -/
def getCommand (s : DeviceRuntime V) (c : CommandId) : Option (CommandRecord V) := s.ledger.get c

/-- `busy`: the active record is not TERMINAL. -/
def busy (s : DeviceRuntime V) (runner : TargetRunner) : Bool :=
  match runner.active.bind s.getCommand with
  | none => false
  | some r => r.status ≠ .terminal

/-- The runner invalidates whatever it has in flight. -/
def bumpGenerations (s : DeviceRuntime V) : DeviceRuntime V :=
  { s with runners := s.runners.mapValues fun _ r => r.bumpGeneration }

/-! ## TargetRunner -/

/-- `_finish`; the coroutine that calls it returns right after. -/
def finish (s : DeviceRuntime V) (t : CommandTask) (r : CommandRecord V)
    (outcome : CommandOutcome) (achieved : Option CompletionRequirement) : DeviceRuntime V :=
  let s := s.change (r.finish outcome achieved)
  let s := { s with
    runners := s.runners.mapValues fun target runner =>
      if target = t.targetId then runner.release r.commandId else runner }
  s.setTask r.commandId none

/-- `submit`, from its call to the suspension in `adapter.execute`. -/
def runnerSubmit (s : DeviceRuntime V) (runner : TargetRunner) (r : CommandRecord V)
    (manifest : Except Fault TargetManifest) : Except Fault Unit × DeviceRuntime V :=
  match manifest with
  | .error fault => (.error fault, s)
  | .ok manifest =>
    match manifest.getAction r.action with
    | none =>
        (.error (.fusion ⟨.unknownAction,
          s!"unknown action '{r.action}' for target '{runner.targetId}'"⟩), s)
    | some spec =>
        if s.busy runner && spec.priority ≠ .control then
          (.error (.fusion ⟨.busy, s!"target '{runner.targetId}' is busy"⟩), s)
        else
          let runner := if s.busy runner then runner.bumpGeneration else runner
          let r := r.dispatch runner.executionGeneration
          let s := (s.setRunner { runner with active := some r.commandId }).change r
          (.ok (), { s.setTask r.commandId
              (some ⟨runner.targetId, runner.executionGeneration, .executing⟩) with
            executed := s.executed ++ [(r.requestId, r.commandId)] })

/-- `submit_command` returns the record. -/
def reply (s : DeviceRuntime V) (requestId : String) (c : CommandId) : DeviceRuntime V :=
  { s with returned := s.returned ++ [(requestId, c)] }

/-- `submit` and `submit_command`, from the return of `adapter.execute` to
the end. -/
def executeReturned (s : DeviceRuntime V) (t : CommandTask) (r : CommandRecord V) :
    DeviceRuntime V :=
  let r := r.setStatus .dispatched
  let s := s.change r
  if r.completionRequirement = .dispatched then
    (s.finish t r .succeeded (some .dispatched)).reply r.requestId r.commandId
  else
    let r := r.setStatus .acknowledged
    let s := s.change r
    if r.completionRequirement = .acknowledged then
      (s.finish t r .succeeded (some .acknowledged)).reply r.requestId r.commandId
    else
      let r := r.setStatus .observing
      let s := s.change r
      (s.setTask r.commandId (some { t with stage := .spawned })).reply r.requestId r.commandId

/-- An exception of the adapter ends the command FAILED. -/
def fail (s : DeviceRuntime V) (t : CommandTask) (r : CommandRecord V) (message : String) :
    DeviceRuntime V :=
  s.finish t (r.setInternalError message) .failed none

/-- One pass of the loop of `_observe`. -/
def observeLoop (s : DeviceRuntime V) (t : CommandTask) (r : CommandRecord V) (deadline : ℚ)
    (generation : Nat) (complete : Except String Bool) : DeviceRuntime V :=
  if s.now < deadline then
    if t.generation ≠ generation then s.finish t r .cancelled none
    else
      match complete with
      | .error message => s.fail t r message
      | .ok true => s.finish t r .succeeded (some .observed)
      | .ok false =>
          s.setTask r.commandId
            (some { t with stage := .observing deadline (s.now + TargetRunner.pollInterval) })
  else s.finish t r .expired none

/-- `_observe` runs, for the first time or after a `sleep`. -/
def observe (s : DeviceRuntime V) (t : CommandTask) (r : CommandRecord V) (generation : Nat)
    (complete : Except String Bool) : Option (DeviceRuntime V) :=
  match t.stage with
  | .executing => none
  | .spawned =>
      some (s.observeLoop t r (s.now + TargetRunner.observeTimeout) generation complete)
  | .observing deadline wakeAt =>
      if s.now < wakeAt then none else some (s.observeLoop t r deadline generation complete)

/-- The owning coroutine is cancelled where it is suspended. An observer
that has not run yet ends without running. -/
def cancel (s : DeviceRuntime V) (t : CommandTask) (r : CommandRecord V) : DeviceRuntime V :=
  match t.stage with
  | .executing | .observing _ _ => s.finish t r .cancelled none
  | .spawned => s.setTask r.commandId none

/-! ## DeviceRuntimeApp -/

/-- How the first stretch of a `submit_command` ends: it returns a known
command, or suspends with a new one. -/
inductive SubmitAnswer
  | returned (c : CommandId)
  | suspended (c : CommandId)
deriving DecidableEq

section
variable [BEq V]

/-- `submit_command`, from its call to its return or its suspension. -/
def submitCommand (s : DeviceRuntime V) (req : CommandSubmitRequest V) (freshId : CommandId)
    (manifest : Except Fault TargetManifest) : Except Fault SubmitAnswer × DeviceRuntime V :=
  match s.runners.get req.targetId with
  | none =>
      (.error (.fusion ⟨.unknownTarget, s!"unknown target '{req.targetId}'"⟩), s)
  | some runner =>
    match s.sessions.validate s.now req.controlSessionId with
    | (.error e, sessions) => (.error (.fusion e), { s with sessions := sessions })
    | (.ok _, sessions) =>
      let s := { s with sessions := sessions }
      match s.ledger.begin req s.runtimeId s.runtimeBootId runner.executionGeneration freshId with
      | (.conflict e, _) => (.error (.fusion e), s)
      | (.existing c, _) => (.ok (.returned c), s.reply req.requestId c)
      | (.new r, ledger) =>
        match { s with ledger := ledger }.runnerSubmit runner r manifest with
        | (.ok (), s) => (.ok (.suspended r.commandId), s)
        | (.error (.fusion e), s) =>
            (.error (.fusion e), s.change (r.reject e))
        | (.error (.other message), s) => (.error (.other message), s)

end

/-- `acquire_control_session`: the commands of before are outdated. -/
def acquireControlSession (s : DeviceRuntime V) (actor : String) (mode : RuntimeMode)
    (ttlS : Option ℚ) (freshId : String) : ControlSession × DeviceRuntime V :=
  let s := s.bumpGenerations
  let (session, sessions) := s.sessions.acquire s.now actor mode ttlS freshId
  (session, { s with sessions := sessions })

/-- `renew_control_session` -/
def renewControlSession (s : DeviceRuntime V) (sessionId : String) :
    Except FusionError ControlSession × DeviceRuntime V :=
  let (answer, sessions) := s.sessions.renew s.now sessionId none
  (answer, { s with sessions := sessions })

/-- `release_control_session`, which outdates the commands whatever it releases. -/
def releaseControlSession (s : DeviceRuntime V) (sessionId : String) : DeviceRuntime V :=
  { s with sessions := s.sessions.release sessionId }.bumpGenerations

/-- `_default_apply_guard` -/
def defaultApplyGuard (s : DeviceRuntime V) : Except Fault Unit :=
  match (s.runners.items.filter fun x => s.busy x.2).map Prod.fst with
  | [] => .ok ()
  | busyTargets =>
      let names := ", ".intercalate busyTargets
      .error (.fusion ⟨.validationError, s!"targets busy, cannot apply now: {names}"⟩)

/-- The guard's answer: the label's, if a guard was supplied. -/
def applyGuard (s : DeviceRuntime V) (answer : Except Fault Unit) : Except Fault Unit :=
  if s.customGuard then answer else s.defaultApplyGuard

/-- Where the call `i` of `apply_config` is, if it has not returned. -/
def setApply (s : DeviceRuntime V) (i : Nat) (call : Option ApplyCall) : DeviceRuntime V :=
  { s with applies := Function.update s.applies i call }

/-- `apply_config` is called. -/
def applyConfig (s : DeviceRuntime V) (i : Nat) (revisionId : String)
    (expectedActiveRevision : Option String) : DeviceRuntime V :=
  match s.config.applyCheck revisionId with
  | .error _ => s
  | .ok () => s.setApply i (some ⟨revisionId, expectedActiveRevision, false⟩)

/-- A waiting call gets the lock. -/
def applyLocked (s : DeviceRuntime V) (i : Nat) (call : ApplyCall) : DeviceRuntime V :=
  match s.config.applyLocked s.now call.revisionId call.expectedActiveRevision with
  | (none, config) => { s with config := config }.setApply i (some { call with guarding := true })
  | (some _, config) => { s with config := config }.setApply i none

/-- The guard answers; on success `_on_config_applied` bumps every runner. -/
def applyGuarded (s : DeviceRuntime V) (i : Nat) (call : ApplyCall)
    (guard : Except Fault Unit) : DeviceRuntime V :=
  let (_, config) := s.config.applyGuarded s.now call.revisionId guard
  let s := { s with config := config }.setApply i none
  match guard with
  | .ok () => s.bumpGenerations
  | .error _ => s

/-! ## Steps -/

/-- A call that reaches the Runtime, or the next stretch of one of its coroutines. -/
inductive RuntimeLabel (V : Type)
  /-- time passes -/
  | advance (dt : ℚ)
  | submitCommand (req : CommandSubmitRequest V) (freshId : CommandId)
      (manifest : Except Fault TargetManifest)
  /-- `adapter.execute` returns for the command -/
  | executeReturned (c : CommandId)
  | executeRaised (c : CommandId) (message : String)
  /-- the command's observer runs, and would be told `complete` -/
  | observe (c : CommandId) (complete : Except String Bool)
  | cancel (c : CommandId)
  | publishEvent (name : String) (targetId : Option String)
  | acquireControlSession (actor : String) (mode : RuntimeMode) (ttlS : Option ℚ)
      (freshId : String)
  | renewControlSession (sessionId : String)
  | releaseControlSession (sessionId : String)
  | stageConfig (kind freshId : String)
  | applyConfig (i : Nat) (revisionId : String) (expectedActiveRevision : Option String)
  | applyLocked (i : Nat)
  | applyGuarded (i : Nat) (answer : Except Fault Unit)
  | applyCancelled (i : Nat)
  | subscribeEvents
  | unsubscribeEvents (subId : Nat)
  | eventGet (subId : Nat)

/-- The coroutine of a command, with its record and its runner. -/
def owner (s : DeviceRuntime V) (c : CommandId) :
    Option (CommandTask × CommandRecord V × TargetRunner) :=
  (s.tasks c).bind fun t =>
    (s.getCommand c).bind fun r => (s.runners.get t.targetId).map fun runner => (t, r, runner)

/-- One call or one stretch; what adapters answer is the label's. -/
def step [BEq V] (s : DeviceRuntime V) : RuntimeLabel V → Option (DeviceRuntime V)
  | .advance dt => if 0 ≤ dt then some { s with now := s.now + dt } else none
  | .submitCommand req freshId manifest =>
      if (s.getCommand freshId).isSome then none
      else some (s.submitCommand req freshId manifest).2
  | .executeReturned c =>
      match s.owner c with
      | some (t, r, _) => if t.stage = .executing then some (s.executeReturned t r) else none
      | none => none
  | .executeRaised c message =>
      match s.owner c with
      | some (t, r, _) =>
          if t.stage = .executing then
            some ((s.fail t r message).reply r.requestId r.commandId)
          else none
      | none => none
  | .observe c complete =>
      match s.owner c with
      | some (t, r, runner) => s.observe t r runner.executionGeneration complete
      | none => none
  | .cancel c =>
      match s.owner c with
      | some (t, r, _) => some (s.cancel t r)
      | none => none
  | .publishEvent name targetId =>
      some (s.publish ⟨.adapter name, targetId, none, none, none, .adapter⟩)
  | .acquireControlSession actor mode ttlS freshId =>
      some (s.acquireControlSession actor mode ttlS freshId).2
  | .renewControlSession sessionId => some (s.renewControlSession sessionId).2
  | .releaseControlSession sessionId => some (s.releaseControlSession sessionId)
  | .stageConfig kind freshId => some { s with config := s.config.stage s.now kind freshId }
  | .applyConfig i revisionId expected =>
      match s.applies i with
      | some _ => none
      | none => some (s.applyConfig i revisionId expected)
  | .applyLocked i =>
      match s.applies i with
      | some call =>
          if !call.guarding && !s.config.applyLock then some (s.applyLocked i call) else none
      | none => none
  | .applyGuarded i answer =>
      match s.applies i with
      | some call =>
          if call.guarding then some (s.applyGuarded i call (s.applyGuard answer)) else none
      | none => none
  | .applyCancelled i =>
      match s.applies i with
      | some call =>
          some ({ s with config :=
            { s.config with applyLock := s.config.applyLock && !call.guarding } }.setApply i none)
      | none => none
  | .subscribeEvents => some { s with events := s.events.subscribe }
  | .unsubscribeEvents subId => some { s with events := s.events.unsubscribe subId }
  | .eventGet subId => (s.events.queueGet subId).map fun r => { s with events := r.2 }

end DeviceRuntime

/-! ## The fake motor (simulation/fake_motor.py) -/

/-- Its manifest. -/
def fakeMotor (targetId : String) : TargetManifest where
  targetId := targetId
  actions := [⟨"move", .observed, .normal⟩, ⟨"stop", .acknowledged, .control⟩]

/-- An operator's `move`, under the session `sessionId`. -/
def moveRequest (requestId sessionId : String) (position : Int)
    (level : CompletionRequirement) : CommandSubmitRequest Int where
  requestId := requestId
  controlSessionId := some sessionId
  runId := none
  cueId := none
  targetId := "motor01"
  action := "move"
  params := Dict.empty.set "position" position
  completionRequirement := level
  source := "manual"
  actor := none

/-- A Runtime that serves one fake motor. -/
def motorRuntime : DeviceRuntime Int := .init "motor-test" "boot1" 0 ["motor01"] false

end Fusion
