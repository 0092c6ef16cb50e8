import Fusion.Core.ShowController
import Fusion.Io.TextEventParsing
import Fusion.Lib.Dict
import Mathlib.Tactic.Linarith

/-!
# TriggerEngine — input events that fire actions
(contracts/trigger.py, core/trigger_engine.py)

`handle` goes through the registered Triggers in their order. Only an `abort`
is awaited: a call runs from its start to the first `abort` that suspends,
and from there to the next. Every endpoint starts a task of its own for an
event, so that between two such stretches other calls run. A stretch is taken
at one reading of the clock.
-/

namespace Fusion

open Transition

/-! ## The contract -/

/-- How an event's value is compared with the condition's. -/
inductive Comparator
  | eq
  | ne
  | gt
  | gte
  | lt
  | lte
deriving DecidableEq

/-- What a Trigger asks of the Show. -/
inductive TriggerAction
  | start
  | hold
  | abort
deriving DecidableEq

deriving instance DecidableEq for InputValue

/-- `source` is `none` where any source will do. -/
structure TriggerCondition where
  source : Option String
  type : Text
  comparator : Comparator
  value : InputValue
deriving DecidableEq

/-- A condition, and the action that it fires. -/
structure Trigger where
  triggerId : String
  condition : TriggerCondition
  action : TriggerAction
  showStates : Option (List String)
  debounceMs : ℚ
  cooldownMs : ℚ
deriving DecidableEq

/-- What the language makes of `float | str | bool`: `==`, `float(v)` where
it does not raise, and the order of its floats. -/
structure ValueOps (F : Type) where
  eq : InputValue → InputValue → Bool
  float : InputValue → Option F
  lt : F → F → Bool
  le : F → F → Bool

/-- The operations on what a button sends: booleans, texts and integers. -/
def ValueOps.plain : ValueOps ℚ where
  eq := fun a b => a = b
  float
    | .bool b => some (if b then 1 else 0)
    | .float (.int n) => some n
    | _ => none
  lt := fun a b => a < b
  le := fun a b => a ≤ b

variable {F : Type}

/-- `condition_matches` -/
def conditionMatches (ops : ValueOps F) (condition : TriggerCondition) (event : InputEvent) :
    Bool :=
  if condition.source.any (· ≠ event.source) then false
  else if condition.type ≠ event.type then false
  else
    match condition.comparator with
    | .eq => ops.eq event.value condition.value
    | .ne => !ops.eq event.value condition.value
    | order =>
        match ops.float event.value, ops.float condition.value with
        | some a, some b =>
            match order with
            | .gt => ops.lt b a
            | .gte => ops.le b a
            | .lt => ops.lt a b
            | _ => ops.le a b
        | _, _ => false

/-! ## One pass of the loop -/

/-- The Triggers that are registered, with the times on record for their ids. -/
structure TriggerEngine where
  triggers : List Trigger
  lastMatchedAt : Dict String ℚ
  lastFiredAt : Dict String ℚ

/-- The two times are less than so many milliseconds apart. -/
def Within (ms earlier later : ℚ) : Prop :=
  (later - earlier) * 1000 < ms

instance (ms earlier later : ℚ) : Decidable (Within ms earlier later) :=
  inferInstanceAs (Decidable ((later - earlier) * 1000 < ms))

theorem Within.mono {ms a b now : ℚ} (h : Within ms a now) (hab : a ≤ b) : Within ms b now := by
  unfold Within at *
  linarith

/-- The Show state is not among those the Trigger is for. -/
def Trigger.shut (t : Trigger) (showState : ShowState) : Bool :=
  t.showStates.any (showState.value ∉ ·)

namespace TriggerEngine

/-- An engine with these Triggers registered, in this order. -/
def new (triggers : List Trigger) : TriggerEngine :=
  ⟨triggers, .empty, .empty⟩

/-- The tests before the action; whether it is called. -/
def check (ops : ValueOps F) (e : TriggerEngine) (showState : ShowState) (now : ℚ)
    (event : InputEvent) (t : Trigger) : TriggerEngine × Bool :=
  if conditionMatches ops t.condition event then
    let lastMatched := e.lastMatchedAt.get t.triggerId
    let e := { e with lastMatchedAt := e.lastMatchedAt.set t.triggerId now }
    if lastMatched.any (Within t.debounceMs · now) then (e, false)
    else if t.shut showState then (e, false)
    else if (e.lastFiredAt.get t.triggerId).any (Within t.cooldownMs · now) then (e, false)
    else (e, true)
  else (e, false)

/-- The action ended without an error. -/
def fired (e : TriggerEngine) (t : Trigger) (now : ℚ) : TriggerEngine :=
  { e with lastFiredAt := e.lastFiredAt.set t.triggerId now }

variable {ops : ValueOps F} {e : TriggerEngine} {showState : ShowState} {now : ℚ}
  {event : InputEvent} {t : Trigger}

theorem check_of_no_match (h : conditionMatches ops t.condition event = false) :
    e.check ops showState now event t = (e, false) := by
  simp [check, h]

/-- A match is put on record whatever comes of it. -/
theorem check_of_match (h : conditionMatches ops t.condition event = true) :
    (e.check ops showState now event t).1 =
      { e with lastMatchedAt := e.lastMatchedAt.set t.triggerId now } := by
  simp only [check, h, if_true]
  split
  · rfl
  · split
    · rfl
    · split <;> rfl

@[simp] theorem check_triggers : (e.check ops showState now event t).1.triggers = e.triggers := by
  cases h : conditionMatches ops t.condition event with
  | false => rw [check_of_no_match h]
  | true => rw [check_of_match h]

@[simp] theorem check_lastFiredAt :
    (e.check ops showState now event t).1.lastFiredAt = e.lastFiredAt := by
  cases h : conditionMatches ops t.condition event with
  | false => rw [check_of_no_match h]
  | true => rw [check_of_match h]

theorem check_lastMatchedAt (e : TriggerEngine) (id : String) :
    (e.check ops showState now event t).1.lastMatchedAt.get id =
      if conditionMatches ops t.condition event = true ∧ t.triggerId = id then some now
      else e.lastMatchedAt.get id := by
  cases h : conditionMatches ops t.condition event with
  | false => simp [check_of_no_match h]
  | true => simp [check_of_match h, Dict.get_set]

/-- The action is called when the event matches, the Show state is right and
neither window is open. -/
theorem check_go : (e.check ops showState now event t).2 = true ↔
    conditionMatches ops t.condition event = true ∧
      (∀ at' ∈ e.lastMatchedAt.get t.triggerId, ¬ Within t.debounceMs at' now) ∧
      t.shut showState = false ∧
      ∀ at' ∈ e.lastFiredAt.get t.triggerId, ¬ Within t.cooldownMs at' now := by
  unfold check
  by_cases hmatch : conditionMatches ops t.condition event = true
  · simp only [hmatch, if_true, true_and]
    split
    · rename_i hdebounce
      obtain ⟨at', hat, hwithin⟩ := (Option.any_eq_true ..).mp hdebounce
      exact iff_of_false Bool.false_ne_true fun h => h.1 at' hat (of_decide_eq_true hwithin)
    · rename_i hdebounce
      have hopen : ∀ at' ∈ e.lastMatchedAt.get t.triggerId, ¬ Within t.debounceMs at' now :=
        fun at' hat hwithin =>
          hdebounce ((Option.any_eq_true ..).mpr ⟨at', hat, decide_eq_true hwithin⟩)
      rw [and_iff_right hopen]
      cases t.shut showState with
      | true => simp
      | false =>
        simp only [Bool.false_eq_true, if_false, true_and]
        cases hfired : e.lastFiredAt.get t.triggerId with
        | none => simp
        | some at' => simp [apply_ite Prod.snd]
  · simp [hmatch]

end TriggerEngine

/-! ## Overlapping calls -/

/-- How an action ends. An error is told to `on_action_error`, where that is
set, which may itself raise. -/
inductive ActionEnd
  | returns
  | raises (message : String) (hookRaises : Bool)

/-- What comes of the call of an action within a stretch. -/
inductive Answer
  | ends (how : ActionEnd)
  /-- an `abort` waits for something -/
  | suspends

/-- Where a call of `handle` is. -/
inductive HandlePc
  /-- in the loop, with these Triggers to come -/
  | visiting (rest : List Trigger)
  /-- in the `abort` of the Trigger `t`, which is invocation `k` -/
  | aborting (k : Nat) (t : Trigger) (rest : List Trigger)
  | returned
  | raised

/-- One call of `handle`. -/
structure HandleCall where
  event : InputEvent
  now : ℚ
  pc : HandlePc

/-- One call of an action. -/
structure Invocation where
  trigger : Trigger
  begun : ℚ
deriving DecidableEq

/-- What has become of the call of an action. -/
inductive InvocationState
  | underWay
  | completed
  | failed
deriving DecidableEq

/-- The engine among the calls of `handle` that overlap. -/
structure TriggerCalls where
  clock : ℚ
  showState : ShowState
  engine : TriggerEngine
  /-- `on_action_error` is set -/
  hook : Bool
  reported : List (Trigger × String)
  calls : Nat → Option HandleCall
  /-- the call whose stretch is going on -/
  running : Option Nat
  invocations : List Invocation
  states : Nat → InvocationState

/-- Time, the Show, or the next stretch of a call. -/
inductive TriggerLabel
  | tick (now : ℚ)
  /-- the Show moves between two stretches -/
  | showMoves (showState : ShowState)
  /-- a call of `handle` -/
  | arrive (i : Nat) (event : InputEvent)
  /-- the next round of the loop, or its end; an action that is called may
  move the Show -/
  | visit (answer : Answer) (showState : ShowState)
  /-- the awaited `abort` of a call ends -/
  | aborted (i : Nat) (how : ActionEnd)
  /-- the task of a call is cancelled in its `abort` -/
  | cancel (i : Nat)

namespace TriggerCalls

/-- No call was made yet. -/
def init (triggers : List Trigger) (hook : Bool) (showState : ShowState) (clock : ℚ) :
    TriggerCalls where
  clock := clock
  showState := showState
  engine := .new triggers
  hook := hook
  reported := []
  calls := fun _ => none
  running := none
  invocations := []
  states := fun _ => .underWay

/-- Where call `i` is. -/
def setCall (s : TriggerCalls) (i : Nat) (c : HandleCall) : TriggerCalls :=
  { s with calls := Function.update s.calls i (some c) }

/-- What has become of invocation `k`. -/
def setState (s : TriggerCalls) (k : Nat) (state : InvocationState) : TriggerCalls :=
  { s with states := Function.update s.states k state }

/-- Invocation `k` has ended; the call `c` goes on in the loop, unless the
hook raises. -/
def settle (s : TriggerCalls) (i : Nat) (c : HandleCall) (k : Nat) (t : Trigger)
    (rest : List Trigger) : ActionEnd → TriggerCalls
  | .returns =>
      { (s.setState k .completed).setCall i { c with pc := .visiting rest } with
        engine := s.engine.fired t c.now
        running := some i }
  | .raises message hookRaises =>
      if s.hook then
        { (s.setState k .failed).setCall i
            { c with pc := if hookRaises then .raised else .visiting rest } with
          reported := s.reported ++ [(t, message)]
          running := if hookRaises then none else some i }
      else
        { (s.setState k .failed).setCall i { c with pc := .visiting rest } with
          running := some i }

/-- The loop comes to the Trigger `t`. -/
def visit (ops : ValueOps F) (s : TriggerCalls) (i : Nat) (c : HandleCall) (t : Trigger)
    (rest : List Trigger) (answer : Answer) (showState : ShowState) : Option TriggerCalls :=
  let r := s.engine.check ops s.showState c.now c.event t
  let s := { s with engine := r.1 }
  if r.2 then
    let k := s.invocations.length
    let invocation : Invocation := ⟨t, s.clock⟩
    let s := { s with invocations := s.invocations ++ [invocation], showState }
    match answer with
    | .ends how => some (s.settle i c k t rest how)
    | .suspends =>
        if t.action = .abort then
          some { (s.setState k .underWay).setCall i { c with pc := .aborting k t rest } with
            running := none }
        else none
  else some (s.setCall i { c with pc := .visiting rest })

/-- One round of a stretch; no other call runs before the stretch ends. -/
def step (ops : ValueOps F) (s : TriggerCalls) : TriggerLabel → Option TriggerCalls
  | .tick now =>
      if s.running.isNone ∧ s.clock ≤ now then some { s with clock := now } else none
  | .showMoves showState => if s.running.isNone then some { s with showState } else none
  | .arrive i event =>
      if s.running.isNone ∧ (s.calls i).isNone then
        let c : HandleCall := ⟨event, s.clock, .visiting s.engine.triggers⟩
        some { s.setCall i c with running := some i }
      else none
  | .visit answer showState => do
      let i ← s.running
      let c ← s.calls i
      match c.pc with
      | .visiting [] => some { s.setCall i { c with pc := .returned } with running := none }
      | .visiting (t :: rest) => s.visit ops i c t rest answer showState
      | _ => none
  | .aborted i how => do
      let c ← s.calls i
      match s.running, c.pc with
      | none, .aborting k t rest => some (s.settle i c k t rest how)
      | _, _ => none
  | .cancel i => do
      let c ← s.calls i
      match s.running, c.pc with
      | none, .aborting k _ _ => some ((s.setState k .failed).setCall i { c with pc := .raised })
      | _, _ => none

end TriggerCalls

end Fusion
