import Fusion.Lib.Transition

/-!
# ShowController — the Show state machine (core/show_controller.py)

The controller's operations are pure functions of its fields; `arm` and
`abort` are cut where they await `prepare`, the run task and `stop_all`, and
`_drive` where it awaits `run`. `ShowControl` puts them together: the calls
of the operators, and the run tasks, each step of which may be any of what
the injected coroutines can do. A run task is addressed by its place in the
order of the starts.
-/

namespace Fusion

/-- The states of a Show. -/
inductive ShowState
  | idle
  | preparing
  | armed
  | running
  | holding
  | stopping
  | faulted
deriving DecidableEq, Repr

/-- The state as it is printed. -/
def ShowState.value : ShowState → String
  | idle => "IDLE"
  | preparing => "PREPARING"
  | armed => "ARMED"
  | running => "RUNNING"
  | holding => "HOLDING"
  | stopping => "STOPPING"
  | faulted => "FAULTED"

/-- The Show runs: RUNNING or HOLDING. -/
def ShowState.isLive : ShowState → Bool
  | running | holding => true
  | _ => false

/-- No Show runs: IDLE, PREPARING or ARMED. -/
def ShowState.isQuiet : ShowState → Bool
  | idle | preparing | armed => true
  | _ => false

/-- No operation is accepted: PREPARING or STOPPING. -/
def ShowState.isTransitional : ShowState → Bool
  | preparing | stopping => true
  | _ => false

/-- What the controller assigns. -/
structure ShowController where
  state : ShowState
  runId : Option String
  lastError : Option String
  /-- `_run_task`: the run task of the last start -/
  runTask : Option Nat
  holdRequested : Bool
deriving DecidableEq

namespace ShowController

/-- IDLE, with no run. -/
def new : ShowController := ⟨.idle, none, none, none, false⟩

/-- `arm`, up to `prepare`. -/
def arm (c : ShowController) : Except String ShowController :=
  if c.state ≠ .idle then .error s!"cannot arm from state {c.state.value}"
  else .ok { c with state := .preparing }

/-- `prepare` returned. -/
def prepared (c : ShowController) : ShowController :=
  { c with lastError := none, state := .armed }

/-- `prepare` raised. -/
def prepareRaised (c : ShowController) (message : String) : ShowController :=
  { c with lastError := some message, state := .idle }

/-- `start`: a run task is made. -/
def start (c : ShowController) (runId : String) (task : Nat) : Except String ShowController :=
  if c.state ≠ .armed then .error s!"cannot start a Show from state {c.state.value}"
  else .ok
    { state := .running
      runId := some runId
      lastError := none
      runTask := some task
      holdRequested := false }

/-- `_drive`: `run` returned. -/
def runReturned (c : ShowController) : ShowController :=
  if c.state = .running ∨ c.state = .holding then { c with state := .idle } else c

/-- `_drive`: `run` raised an exception other than `CancelledError`. -/
def runRaised (c : ShowController) (message : String) : ShowController :=
  { c with lastError := some message, state := .faulted }

/-- `hold`: the run goes on, and submits no more Cues. -/
def hold (c : ShowController) : Except String ShowController :=
  if c.state ≠ .running then .error s!"cannot hold a Show from state {c.state.value}"
  else .ok { c with holdRequested := true, state := .holding }

/-- `abort`, up to the wait for the run task or `stop_all`. -/
def abort (c : ShowController) : Except String ShowController :=
  if c.state ≠ .running ∧ c.state ≠ .holding ∧ c.state ≠ .faulted then
    .error s!"cannot abort a Show from state {c.state.value}"
  else .ok { c with state := .stopping }

/-- `stop_all` returned. -/
def stopped (c : ShowController) : ShowController := { c with state := .idle }

variable {c c' : ShowController}

theorem arm_ok (h : c.arm = .ok c') :
    c.state = .idle ∧ c' = { c with state := .preparing } := by
  unfold arm at h
  split at h <;> cases h
  rename_i hidle
  exact ⟨not_not.mp hidle, rfl⟩

theorem start_ok {runId : String} {task : Nat} (h : c.start runId task = .ok c') :
    c.state = .armed ∧ c'.state = .running ∧ c'.runTask = some task := by
  unfold start at h
  split at h <;> cases h
  rename_i harmed
  exact ⟨not_not.mp harmed, rfl, rfl⟩

theorem hold_ok (h : c.hold = .ok c') :
    c.state = .running ∧ c'.state = .holding ∧ c'.runTask = c.runTask := by
  unfold hold at h
  split at h <;> cases h
  rename_i hrunning
  exact ⟨not_not.mp hrunning, rfl, rfl⟩

theorem abort_ok (h : c.abort = .ok c') : c' = { c with state := .stopping } := by
  unfold abort at h
  split at h <;> cases h
  rfl

end ShowController

/-! ## The controller under its callers -/

/-- Where a run task is. -/
inductive RunStage
  | created
  | executing
  | ended
deriving DecidableEq

/-- Where a call of `arm` or `abort` is suspended. -/
inductive ShowCall
  /-- `arm`, in `prepare` -/
  | preparing
  /-- `abort`, in the wait for the run task -/
  | joining (task : Nat)
  /-- `abort`, in `stop_all` -/
  | stopping
deriving DecidableEq

/-- The controller among its calls and its run tasks. -/
structure ShowControl where
  controller : ShowController
  /-- the number of run tasks made -/
  started : Nat
  runs : Nat → RunStage
  /-- `cancel()` was called on the run task -/
  cancelRequested : Nat → Bool
  calls : Nat → Option ShowCall
  /-- history: the call that entered PREPARING or STOPPING last -/
  enteredBy : Option Nat

namespace ShowControl

/-- IDLE, before any call. -/
def init : ShowControl where
  controller := .new
  started := 0
  runs := fun _ => .ended
  cancelRequested := fun _ => false
  calls := fun _ => none
  enteredBy := none

/-- A call, or the next stretch of a call or of a run task. -/
inductive Label
  | arm (k : Nat)
  | prepareReturned (k : Nat)
  | prepareRaised (k : Nat) (message : String)
  | start (runId : String)
  /-- the run task starts to execute `run` -/
  | runBegins (r : Nat)
  | runReturned (r : Nat)
  | runRaised (r : Nat) (message : String)
  /-- the run task ends with `CancelledError` -/
  | runCancelled (r : Nat)
  | hold
  | abort (k : Nat)
  /-- `abort` resumes from the wait for the run task -/
  | joined (k : Nat)
  | stopReturned (k : Nat)
  | stopRaised (k : Nat)
  /-- a call of `arm` or `abort` is cancelled where it is suspended -/
  | callCancelled (k : Nat)

/-- Where call `k` is, if it has not returned. -/
def setCall (s : ShowControl) (k : Nat) (call : Option ShowCall) : ShowControl :=
  { s with calls := Function.update s.calls k call }

/-- Where run task `r` is. -/
def setRun (s : ShowControl) (r : Nat) (stage : RunStage) : ShowControl :=
  { s with runs := Function.update s.runs r stage }

/-- `cancel()` of a run task. -/
def cancelRun (s : ShowControl) (r : Nat) : ShowControl :=
  { s with cancelRequested := Function.update s.cancelRequested r true }

/-- The run task that is not done. -/
def pendingRun (s : ShowControl) : Option Nat :=
  s.controller.runTask.filter fun r => s.runs r ≠ .ended

/-- One call or stretch. -/
def step (s : ShowControl) : Label → Option ShowControl
  | .arm k =>
      match s.calls k, s.controller.arm with
      | none, .ok c => some { s.setCall k (some .preparing) with
          controller := c
          enteredBy := some k }
      | none, .error _ => some s
      | some _, _ => none
  | .prepareReturned k =>
      if s.calls k = some .preparing then
        some { s.setCall k none with controller := s.controller.prepared }
      else none
  | .prepareRaised k message =>
      if s.calls k = some .preparing then
        some { s.setCall k none with controller := s.controller.prepareRaised message }
      else none
  | .start runId =>
      match s.controller.start runId s.started with
      | .ok c => some { s.setRun s.started .created with
          controller := c
          started := s.started + 1 }
      | .error _ => some s
  | .runBegins r =>
      if s.runs r = .created ∧ !s.cancelRequested r then some (s.setRun r .executing) else none
  | .runReturned r =>
      if s.runs r = .executing then
        some { s.setRun r .ended with controller := s.controller.runReturned }
      else none
  | .runRaised r message =>
      if s.runs r = .executing then
        some { s.setRun r .ended with controller := s.controller.runRaised message }
      else none
  | .runCancelled r =>
      if s.runs r = .executing ∨ s.runs r = .created ∧ s.cancelRequested r then
        some (s.setRun r .ended)
      else none
  | .hold =>
      match s.controller.hold with
      | .ok c => some { s with controller := c }
      | .error _ => some s
  | .abort k =>
      match s.calls k, s.controller.abort with
      | none, .ok c =>
          let s := { s with controller := c, enteredBy := some k }
          match s.pendingRun with
          | some r => some ((s.cancelRun r).setCall k (some (.joining r)))
          | none => some (s.setCall k (some .stopping))
      | none, .error _ => some s
      | some _, _ => none
  | .joined k =>
      match s.calls k with
      | some (.joining r) =>
          if s.runs r = .ended then some (s.setCall k (some .stopping)) else none
      | _ => none
  | .stopReturned k =>
      if s.calls k = some .stopping then
        some { s.setCall k none with controller := s.controller.stopped }
      else none
  | .stopRaised k => if s.calls k = some .stopping then some (s.setCall k none) else none
  | .callCancelled k =>
      match s.calls k with
      | none => none
      | some (.joining r) =>
          -- the cancellation goes on to the run task, and `abort` suppresses it
          some (s.cancelRun r)
      | some _ => some (s.setCall k none)

end ShowControl

end Fusion
