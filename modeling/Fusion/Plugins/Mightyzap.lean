import Fusion.Core.Lifecycle
import Fusion.Lib.Rounding

/-!
# Mightyzap — the Modbus actuator behind a Runtime
(plugins/mightyzap_modbus/adapter.py)

The adapter's poll cycle and its register writes beside the Runtime that
serves it. A read or a write of registers suspends its coroutine; the label
says when it comes back and with what. `is_action_complete` answers from the
cached registers. Positions are in exact arithmetic.
-/

namespace Fusion.Mightyzap

open Transition Rounding

/-! ## The adapter -/

/-- The registers that are written or polled. -/
def actuatorStop : Nat := 202
def hardwareError : Nat := 204
def goalPosition : Nat := 205
def restart : Nat := 231

/-- The registers of a poll, and where in them the values are. -/
def pollBlockStart : Nat := hardwareError
def pollBlockCount : Nat := 12
def offsetHwError : Nat := hardwareError - pollBlockStart
def offsetPresentPosition : Nat := 210 - pollBlockStart
def offsetMoving : Nat := 215 - pollBlockStart

/-- The counts of a full stroke. -/
def fullStrokeCounts : Nat := 10000

/-- `POLL_INTERVAL_S` -/
def pollInterval : ℚ := 1 / 10

/-- The language's `float(value)`, or the text it raises with, and its
printing of a float. -/
structure FloatOps (V : Type) where
  float : V → Except String ℚ
  print : ℚ → String

/-- What the adapter keeps of its actuator. -/
structure Adapter where
  targetId : String
  strokeMm : ℚ
  positionMm : ℚ
  moving : Bool
  alarm : Bool
  connected : Bool
  observedAt : ℚ

/-- What `execute` is suspended in. -/
inductive Exchange
  /-- nothing: it raises before any write -/
  | raising (message : String)
  /-- `write_single_register` -/
  | writing (register value : Nat)
  /-- the device has echoed the write; the coroutine has not run since -/
  | acknowledged
deriving DecidableEq

namespace Adapter

/-- The adapter before its first poll. -/
def new (targetId : String) (strokeMm now : ℚ) : Adapter where
  targetId := targetId
  strokeMm := strokeMm
  positionMm := 0
  moving := false
  alarm := false
  connected := false
  observedAt := now

/-- What the actuator can do. -/
def manifest (a : Adapter) : TargetManifest where
  targetId := a.targetId
  actions :=
    [⟨"move", .observed, .normal⟩, ⟨"stop", .acknowledged, .control⟩,
      ⟨"restart", .acknowledged, .control⟩]

/-- `execute`, from its call to its first suspension. -/
def execute {V : Type} (ops : FloatOps V) (a : Adapter) (action : String)
    (params : Dict String V) : Exchange :=
  if action = "move" then
    if a.alarm then
      .raising ("hardware alarm active (Hardware Error register nonzero) -- " ++
        "write Restart (0xE7) or power-cycle before moving")
    else
      match params.get "position" with
      | none => .raising "'position'"
      | some v =>
        match ops.float v with
        | .error message => .raising message
        | .ok positionMm =>
          if ¬ (0 ≤ positionMm ∧ positionMm ≤ a.strokeMm) then
            .raising (s!"position {ops.print positionMm}mm out of range " ++
              s!"0..{ops.print a.strokeMm}mm")
          else if a.strokeMm = 0 then .raising "float division by zero"
          else
            .writing goalPosition
              (roundHalfEven (positionMm / a.strokeMm * fullStrokeCounts)).toNat
  else if action = "stop" then .writing actuatorStop 1
  else if action = "restart" then .writing restart 1
  else .raising s!"unknown action '{action}'"

/-- `is_action_complete`, which asks the cache only. -/
def isActionComplete (a : Adapter) (action : String) : Bool :=
  if action = "move" ∨ action = "stop" then !a.moving else true

/-- `_poll_once` once the read came back with a register list. A list that
is too short raises at the first missing register; what was assigned before
that stays. -/
def pollReturned (a : Adapter) (now : ℚ) (registers : List Nat) : Adapter :=
  match registers[offsetPresentPosition]? with
  | none => { a with connected := false, observedAt := now }
  | some position =>
    let a := { a with positionMm := position / fullStrokeCounts * a.strokeMm }
    match registers[offsetMoving]?, registers[offsetHwError]? with
    | some moving, some alarm =>
        { a with
          moving := moving ≠ 0
          alarm := alarm ≠ 0
          connected := true
          observedAt := now }
    | _, _ => { a with connected := false, observedAt := now }

/-- `_poll_once` after the read raised. -/
def pollFailed (a : Adapter) (now : ℚ) : Adapter :=
  { a with connected := false, observedAt := now }

/-- The Moving register of a poll, if the poll was read whole. -/
def movingRegister (registers : List Nat) : Option Nat := registers[offsetMoving]?

/-- `moving` follows the polls that are read whole, and only these. -/
theorem pollReturned_moving (a : Adapter) (now : ℚ) (registers : List Nat) :
    (a.pollReturned now registers).moving =
      match movingRegister registers with
      | none => a.moving
      | some m => decide (m ≠ 0) := by
  unfold pollReturned movingRegister
  cases hm : registers[offsetMoving]? with
  | none => cases registers[offsetPresentPosition]? <;> simp
  | some m =>
    have hlen : 11 < registers.length := (List.getElem?_eq_some_iff.mp hm).1
    have hpos : registers[offsetPresentPosition]? = some (registers.get ⟨6, by omega⟩) :=
      List.getElem?_eq_getElem _
    have halarm : registers[offsetHwError]? = some (registers.get ⟨0, by omega⟩) :=
      List.getElem?_eq_getElem _
    simp [hpos, halarm]

@[simp] theorem pollReturned_targetId (a : Adapter) (now : ℚ) (registers : List Nat) :
    (a.pollReturned now registers).targetId = a.targetId := by
  unfold pollReturned
  split
  · rfl
  · simp only
    split <;> rfl

end Adapter

/-! ## The adapter beside its Runtime -/

/-- Where the poll cycle is. -/
inductive PollPc
  | idle
  /-- `connect`, in the write of Force On -/
  | enabling
  /-- in the read of poll number `n`; `first` is the one `connect` makes
  before it starts the loop -/
  | reading (n : Nat) (first : Bool)
  /-- the loop may poll again from `wakeAt` -/
  | sleeping (wakeAt : ℚ)
deriving DecidableEq

/-- A Runtime with this adapter on one of its targets. -/
structure Station (V : Type) where
  runtime : DeviceRuntime V
  adapter : Adapter
  poll : PollPc
  /-- what the `execute` of a command is suspended in -/
  pending : CommandId → Option Exchange
  /-- history: how many polls were started -/
  pollsStarted : Nat
  /-- history: the poll `moving` was assigned from, 0 before any -/
  cacheFrom : Nat
  /-- history: the polls that succeeded and read Moving = 0 -/
  restPolls : List Nat
  /-- history: how many polls had been started when a command's write was
  acknowledged -/
  acknowledgedAt : CommandId → Option Nat

/-- A step of the Runtime, of an `execute` or of a poll. -/
inductive StationLabel (V : Type)
  /-- a step of the Runtime that this adapter has no part in, or a submission
  or a cancellation that reaches it -/
  | runtime (l : DeviceRuntime.RuntimeLabel V)
  /-- `execute` raises before any write -/
  | executeRaises (c : CommandId)
  | writeAcknowledged (c : CommandId)
  | writeFails (c : CommandId) (message : String)
  /-- the coroutine of an acknowledged write goes on -/
  | executeReturns (c : CommandId)
  | observe (c : CommandId)
  | connect
  | forceOn (acknowledged : Bool)
  | pollStarts
  | pollReturns (registers : List Nat)
  | pollFails
  | disconnect

namespace Station

variable {V : Type}

/-- The Runtime at start; nothing was polled. -/
def init (runtimeId bootId : String) (now : ℚ) (targets : List String) (targetId : String)
    (strokeMm : ℚ) : Station V where
  runtime := .init runtimeId bootId now targets false
  adapter := .new targetId strokeMm now
  poll := .idle
  pending := fun _ => none
  pollsStarted := 0
  cacheFrom := 0
  restPolls := []
  acknowledgedAt := fun _ => none

/-- The command is one of this adapter's target. -/
def ours (s : Station V) (c : CommandId) : Bool :=
  (s.runtime.getCommand c).any fun r => r.targetId = s.adapter.targetId

/-- The Runtime's own labels: what this adapter answers is not free. -/
def allows (s : Station V) : DeviceRuntime.RuntimeLabel V → Bool
  | .submitCommand req _ manifest =>
      req.targetId ≠ s.adapter.targetId ||
        match manifest with
        | .ok m => m = s.adapter.manifest
        | .error _ => false
  | .executeReturned c | .executeRaised c _ | .observe c _ => !s.ours c
  | _ => true

/-- What the `execute` of a command is suspended in. -/
def setPending (s : Station V) (c : CommandId) (e : Option Exchange) : Station V :=
  { s with pending := Function.update s.pending c e }

/-- After a step of the Runtime, an accepted submission to this target is
inside `execute`; a cancelled one is out of it. -/
def follow (ops : FloatOps V) (s : Station V) (rt : DeviceRuntime V) :
    DeviceRuntime.RuntimeLabel V → Station V
  | .submitCommand req freshId _ =>
      if req.targetId = s.adapter.targetId ∧ (rt.tasks freshId).isSome then
        { s with runtime := rt }.setPending freshId
          (some (s.adapter.execute ops req.action req.params))
      else { s with runtime := rt }
  | .cancel c => { s with runtime := rt }.setPending c none
  | _ => { s with runtime := rt }

/-- `_poll_once` is called. -/
def startPoll (s : Station V) (first : Bool) : Station V :=
  { s with poll := .reading (s.pollsStarted + 1) first, pollsStarted := s.pollsStarted + 1 }

/-- `_poll_once` ended: the loop sleeps, or is started now. -/
def endPoll (s : Station V) (first : Bool) : Station V :=
  { s with poll := .sleeping (if first then s.runtime.now else s.runtime.now + pollInterval) }

/-- Poll `n` came back. -/
def takePoll (s : Station V) (n : Nat) (registers : List Nat) : Station V :=
  let s := { s with adapter := s.adapter.pollReturned s.runtime.now registers }
  match Adapter.movingRegister registers with
  | none => s
  | some m =>
      { s with
        cacheFrom := n
        restPolls := if m = 0 then s.restPolls ++ [n] else s.restPolls }

variable [BEq V]

/-- One step. What the Runtime is told of this target is what the adapter answers. -/
def step (ops : FloatOps V) (s : Station V) : StationLabel V → Option (Station V)
  | .runtime l =>
      if s.allows l then (s.runtime.step l).map fun rt => s.follow ops rt l else none
  | .executeRaises c =>
      match s.pending c with
      | some (.raising message) =>
          (s.runtime.step (.executeRaised c message)).map fun rt =>
            { s with runtime := rt }.setPending c none
      | _ => none
  | .writeAcknowledged c =>
      match s.pending c with
      | some (.writing _ _) => some
          { s.setPending c (some .acknowledged) with
            acknowledgedAt := Function.update s.acknowledgedAt c (some s.pollsStarted) }
      | _ => none
  | .writeFails c message =>
      match s.pending c with
      | some (.writing _ _) =>
          (s.runtime.step (.executeRaised c message)).map fun rt =>
            { s with runtime := rt }.setPending c none
      | _ => none
  | .executeReturns c =>
      match s.pending c with
      | some .acknowledged =>
          (s.runtime.step (.executeReturned c)).map fun rt =>
            { s with runtime := rt }.setPending c none
      | _ => none
  | .observe c =>
      match s.runtime.getCommand c with
      | some r =>
          if r.targetId = s.adapter.targetId then
            (s.runtime.step (.observe c (.ok (s.adapter.isActionComplete r.action)))).map
              fun rt => { s with runtime := rt }
          else none
      | none => none
  | .connect =>
      match s.poll with
      | .idle => some { s with poll := .enabling }
      | _ => none
  | .forceOn acknowledged =>
      match s.poll with
      | .enabling => some (if acknowledged then s.startPoll true else { s with poll := .idle })
      | _ => none
  | .pollStarts =>
      match s.poll with
      | .sleeping wakeAt => if s.runtime.now < wakeAt then none else some (s.startPoll false)
      | _ => none
  | .pollReturns registers =>
      match s.poll with
      | .reading n first => some ((s.takePoll n registers).endPoll first)
      | _ => none
  | .pollFails =>
      match s.poll with
      | .reading _ first =>
          some ({ s with adapter := s.adapter.pollFailed s.runtime.now }.endPoll first)
      | _ => none
  | .disconnect =>
      match s.poll with
      | .reading _ false | .sleeping _ => some { s with poll := .idle }
      | _ => none

end Station

end Fusion.Mightyzap
