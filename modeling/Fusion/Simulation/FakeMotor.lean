import Fusion.Core.AdapterBench
import Mathlib.Algebra.Order.Group.MinMax
import Mathlib.Tactic.Linarith
import Mathlib.Tactic.Ring

/-!
# FakeMotor — simulated motors (simulation/fake_motor.py)

A move is a task that goes a step of at most ten units, sleeps, and goes on
until it is at its goal. A cancelled task does not run again, so only the
newest one is kept. Positions are in exact arithmetic, and goals are finite:
`inf` and `nan`, which `float` accepts too, are left out.
-/

namespace Fusion

open Transition

/-! ## The adapter -/

/-- Where the newest move task is, if it has not ended. -/
inductive MoveStage
  | created
  /-- in the clock's `sleep` -/
  | sleeping (wakeAt : ℚ)
deriving DecidableEq

/-- A simulated motor, with its newest move task. -/
structure FakeMotorAdapter where
  targetId : String
  /-- `fault == "never_complete"` -/
  neverComplete : Bool
  position : ℚ
  targetPosition : ℚ
  moving : Bool
  alarm : Bool
  moveCount : Nat
  moveTask : Option MoveStage
deriving DecidableEq

namespace FakeMotorAdapter

/-- `VELOCITY_UNITS_PER_SEC` -/
def velocity : ℚ := 200

/-- `STEP_S` -/
def stepS : ℚ := 1 / 20

/-- The farthest that one run of the task goes. -/
def stepLength : ℚ := velocity * stepS

/-- The distance that counts as none. -/
def tolerance : ℚ := 1 / 1000000

/-- A motor at rest at 0. -/
def new (targetId : String) (neverComplete : Bool) : FakeMotorAdapter where
  targetId := targetId
  neverComplete := neverComplete
  position := 0
  targetPosition := 0
  moving := false
  alarm := false
  moveCount := 0
  moveTask := none

/-- How far the motor is from its goal. -/
def distance (a : FakeMotorAdapter) : ℚ := |a.targetPosition - a.position|

variable {V : Type} (float : V → Except String ℚ)

/-- `float(params["position"])`, or the text it raises with. -/
def goalOf (params : Dict String V) : Except String ℚ :=
  match params.get "position" with
  | none => .error "'position'"
  | some v => float v

/-- `execute`: a move starts a task, a stop ends it. -/
def execute (a : FakeMotorAdapter) (action : String) (params : Dict String V) :
    Except String Unit × FakeMotorAdapter :=
  if action = "move" then
    if a.alarm then (.error "alarm active", a)
    else
      match goalOf float params with
      | .error message => (.error message, a)
      | .ok goal =>
          (.ok (), { a with
            targetPosition := goal
            moving := true
            moveCount := a.moveCount + 1
            moveTask := some .created })
  else if action = "stop" then (.ok (), { a with moveTask := none, moving := false })
  else (.error s!"unknown action '{action}'", a)

/-- The loop of `_run_move`, up to its next sleep or its end. -/
def moveOn (a : FakeMotorAdapter) (now : ℚ) : FakeMotorAdapter :=
  if tolerance < a.distance then
    { a with
      position :=
        a.position + max (-stepLength) (min stepLength (a.targetPosition - a.position))
      moveTask := some (.sleeping (now + stepS)) }
  else { a with moving := false, moveTask := none }

/-- The move task runs, for the first time or after a `sleep`. -/
def runMove (a : FakeMotorAdapter) (now : ℚ) : Option FakeMotorAdapter :=
  match a.moveTask with
  | none => none
  | some .created =>
      some (if a.neverComplete then { a with moveTask := none } else a.moveOn now)
  | some (.sleeping wakeAt) => if now < wakeAt then none else some (a.moveOn now)

/-- The test of a move compares with the position that the command asked for. -/
def isActionComplete (a : FakeMotorAdapter) (action : String) (params : Dict String V) :
    Except String Bool :=
  if action = "move" then
    if a.moving then .ok false
    else (goalOf float params).map fun goal => decide (|a.position - goal| < tolerance)
  else if action = "stop" then .ok (!a.moving)
  else .ok true

/-- What happens to a motor apart from its calls. -/
inductive MotorAct
  /-- the move task runs -/
  | runMove
  | setAlarm (alarm : Bool)

/-- The motor does one thing by itself. -/
def act (a : FakeMotorAdapter) (now : ℚ) : MotorAct → Option FakeMotorAdapter
  | .runMove => a.runMove now
  | .setAlarm alarm => some { a with alarm := alarm }

/-- The motors as their Runtime sees them; they publish nothing. -/
def adapter : TargetAdapter FakeMotorAdapter MotorAct Empty V where
  manifest := fakeMotor
  execute := execute float
  isActionComplete := isActionComplete float
  act := fun a now i => (a.act now i).map (·, none)

/-! ### One run of the move task -/

variable {a b : FakeMotorAdapter} {now : ℚ}

theorem stepLength_eq : stepLength = 10 := by
  norm_num [stepLength, velocity, stepS]

/-- The move task is due. -/
def Due (a : FakeMotorAdapter) (now : ℚ) : Prop :=
  a.moveTask = some .created ∨ ∃ wakeAt, a.moveTask = some (.sleeping wakeAt) ∧ wakeAt ≤ now

/-- **What a run of the move task does.** -/
inductive Runs (a : FakeMotorAdapter) (now : ℚ) : FakeMotorAdapter → Prop
  /-- the fault: the task ends at once, and the motor is called moving for good -/
  | refuses (created : a.moveTask = some .created) (fault : a.neverComplete = true) :
      Runs a now { a with moveTask := none }
  | arrives (sound : a.moveTask = some .created → a.neverComplete = false)
      (near : a.distance ≤ tolerance) : Runs a now { a with moving := false, moveTask := none }
  | goes (sound : a.moveTask = some .created → a.neverComplete = false)
      (far : tolerance < a.distance) (position : ℚ)
      (less : |a.targetPosition - position| = max 0 (a.distance - stepLength))
      (length : |position - a.position| ≤ stepLength)
      (between : min a.position a.targetPosition ≤ position ∧
        position ≤ max a.position a.targetPosition) :
      Runs a now { a with position := position, moveTask := some (.sleeping (now + stepS)) }

/-- A step of at most `l` towards a point that is `x` away. -/
theorem clamp_towards {x l : ℚ} (hl : 0 ≤ l) :
    |x - max (-l) (min l x)| = max 0 (|x| - l) ∧ |max (-l) (min l x)| ≤ l ∧
      min 0 x ≤ max (-l) (min l x) ∧ max (-l) (min l x) ≤ max 0 x := by
  rcases le_total x (-l) with hfar | hbelow
  · have hclamp : max (-l) (min l x) = -l := by
      rw [min_eq_right (by linarith), max_eq_left hfar]
    rw [hclamp, abs_of_nonpos (by linarith : x ≤ 0), abs_neg, abs_of_nonneg hl,
      min_eq_right (by linarith), max_eq_left (by linarith : x ≤ 0),
      max_eq_right (by linarith), abs_of_nonpos (by linarith)]
    refine ⟨by ring, le_refl _, hfar, by linarith⟩
  · rcases le_total x l with habove | hfar
    · -- the point is reached
      have hclamp : max (-l) (min l x) = x := by
        rw [min_eq_right habove, max_eq_right hbelow]
      have habs : |x| ≤ l := abs_le.mpr ⟨hbelow, habove⟩
      rw [hclamp, sub_self, abs_zero, max_eq_left (by linarith)]
      exact ⟨rfl, habs, min_le_right _ _, le_max_right _ _⟩
    · have hclamp : max (-l) (min l x) = l := by
        rw [min_eq_left hfar, max_eq_right (by linarith)]
      rw [hclamp, abs_of_nonneg (by linarith : 0 ≤ x), abs_of_nonneg hl,
        min_eq_left (by linarith), max_eq_right (by linarith : 0 ≤ x),
        max_eq_right (by linarith), abs_of_nonneg (by linarith)]
      exact ⟨rfl, le_refl _, hl, hfar⟩

theorem moveOn_runs (a : FakeMotorAdapter) (now : ℚ)
    (sound : a.moveTask = some .created → a.neverComplete = false) :
    Runs a now (a.moveOn now) := by
  unfold moveOn
  split
  · rename_i hfar
    have hstep : (0 : ℚ) ≤ stepLength := by norm_num [stepLength_eq]
    obtain ⟨hless, hlength, hlow, hhigh⟩ :=
      clamp_towards (x := a.targetPosition - a.position) hstep
    refine .goes sound hfar _ ?_ ?_ ⟨?_, ?_⟩
    · rw [← sub_sub]
      exact hless
    · rw [add_sub_cancel_left]
      exact hlength
    · have hmin : min a.position a.targetPosition - a.position =
          min 0 (a.targetPosition - a.position) := by
        rw [← min_sub_sub_right, sub_self]
      linarith
    · have hmax : max a.position a.targetPosition - a.position =
          max 0 (a.targetPosition - a.position) := by
        rw [← max_sub_sub_right, sub_self]
      linarith
  · rename_i hnear
    exact .arrives sound (not_lt.mp hnear)

theorem runMove_cases (h : a.runMove now = some b) : a.Due now ∧ Runs a now b := by
  unfold runMove at h
  split at h
  · cases h
  · rename_i hcreated
    refine ⟨.inl hcreated, ?_⟩
    split at h <;> cases h
    · rename_i hfault
      exact .refuses hcreated hfault
    · rename_i hsound
      exact moveOn_runs a now fun _ => by simpa using hsound
  · rename_i wakeAt hsleeping
    split at h <;> cases h
    rename_i hawake
    refine ⟨.inr ⟨wakeAt, hsleeping, not_lt.mp hawake⟩, moveOn_runs a now fun hcreated => ?_⟩
    rw [hsleeping] at hcreated
    cases hcreated

/-- **What a call does**: it starts a move, stops, or leaves the motor alone. -/
inductive Executes (a : FakeMotorAdapter) (action : String) (params : Dict String V) :
    Except String Unit → FakeMotorAdapter → Prop
  | refuses (message : String) : Executes a action params (.error message) a
  | moves (goal : ℚ) (move : action = "move") (asked : goalOf float params = .ok goal) :
      Executes a action params (.ok ())
        { a with
          targetPosition := goal
          moving := true
          moveCount := a.moveCount + 1
          moveTask := some .created }
  | stops (stop : action = "stop") :
      Executes a action params (.ok ()) { a with moveTask := none, moving := false }

theorem execute_cases (a : FakeMotorAdapter) (action : String) (params : Dict String V) :
    Executes float a action params (a.execute float action params).1
      (a.execute float action params).2 := by
  unfold execute
  split
  · rename_i hmove
    split
    · exact .refuses _
    · cases hgoal : goalOf float params with
      | error message => exact .refuses message
      | ok goal => exact .moves goal hmove hgoal
  · split
    · rename_i hstop
      exact .stops hstop
    · exact .refuses _

end FakeMotorAdapter

/-! ## The motors beside their Runtime -/

/-- A Runtime whose targets are fake motors. -/
abbrev MotorBench (V : Type) := AdapterBench FakeMotorAdapter Empty V

namespace MotorBench

open AdapterBench FakeMotorAdapter

variable {V : Type}

/-- Motors at 0; `faults` tells which of them never complete. -/
def init (runtimeId bootId : String) (now : ℚ) (targets : List String)
    (faults : String → Bool) : MotorBench V :=
  AdapterBench.init runtimeId bootId now targets fun target => .new target (faults target)

/-- The label of a run of the target's move task. -/
def runsOf (target : String) : BenchLabel MotorAct V → Bool
  | .act name .runMove => name = target
  | _ => false

variable {float : V → Except String ℚ}

/-- **The law of a motor**: kept while time passes, when its alarm changes, by
a run of its task and by a call. -/
theorem motor_law
    {L : FakeMotorAdapter → List (ExecuteCall FakeMotorAdapter V) → List (AdapterEvent Empty) →
      ℚ → Prop}
    (waits : ∀ {a calls es now later}, now ≤ later → L a calls es now → L a calls es later)
    (alarms : ∀ {a calls es now} (alarm : Bool), L a calls es now →
      L { a with alarm := alarm } calls es now)
    (runs : ∀ {a b calls es now}, a.Due now → a.Runs now b → L a calls es now →
      L b calls es now)
    (executes : ∀ {calls es} (call : ExecuteCall FakeMotorAdapter V),
      call.before.Executes float call.action call.params call.result call.after →
      L call.before calls es call.time → L call.after (calls ++ [call]) es call.time) :
    TargetLaw (adapter float) L where
  waits := waits
  acts := by
    intro a b calls es now i event hact h
    obtain ⟨b', hb, heq⟩ := Option.map_eq_some_iff.mp hact
    cases heq
    rw [events, Option.toList_none, List.map_nil, List.append_nil]
    cases i with
    | setAlarm alarm =>
      cases hb
      exact alarms alarm h
    | runMove =>
      obtain ⟨hdue, hruns⟩ := runMove_cases hb
      exact runs hdue hruns h
  executes := by
    intro calls es call hexecute h
    have hcases := execute_cases float call.before call.action call.params
    rw [show call.before.execute float call.action call.params = _ from hexecute] at hcases
    exact executes call hcases h

variable [BEq V] {s t : MotorBench V} {l : BenchLabel MotorAct V} {target : String}

/-- **What a step is to one motor.** -/
inductive MotorStep (float : V → Except String ℚ) (s : MotorBench V) (l : BenchLabel MotorAct V)
    (t : MotorBench V) (target : String) : Prop
  | idle (alarm : Bool) (label : runsOf target l = false)
      (motor : t.adapters target = { s.adapters target with alarm := alarm })
      (calls : t.calls target = s.calls target)
  | runs (label : runsOf target l = true) (now : t.runtime.now = s.runtime.now)
      (due : (s.adapters target).Due s.runtime.now)
      (runs : (s.adapters target).Runs s.runtime.now (t.adapters target))
      (calls : t.calls target = s.calls target)
  | executes (call : ExecuteCall FakeMotorAdapter V) (label : runsOf target l = false)
      (time : call.time = s.runtime.now) (before : call.before = s.adapters target)
      (executes : (s.adapters target).Executes float call.action call.params call.result
        (t.adapters target))
      (calls : t.calls target = s.calls target ++ [call])

theorem motor_step (h : s.step (adapter float) l = some t) (target : String) :
    MotorStep float s l t target := by
  have hlabel : ownAct target l ≠ some .runMove → runsOf target l = false := by
    intro hno
    unfold runsOf
    split
    · rename_i name
      refine decide_eq_false fun heq => hno ?_
      rw [ownAct, if_pos heq]
    · rfl
  cases targetStep (step_acts h) target with
  | idle label motor calls =>
    refine .idle (s.adapters target).alarm (hlabel ?_) motor calls
    rw [label]
    exact (Option.some_ne_none _).symm
  | acts i event label now act _ calls =>
    obtain ⟨a, ha, heq⟩ := Option.map_eq_some_iff.mp act
    obtain rfl : a = t.adapters target := congrArg Prod.fst heq
    cases i with
    | runMove =>
      obtain ⟨hdue, hruns⟩ := runMove_cases ha
      refine .runs ?_ now hdue hruns calls
      unfold ownAct at label
      split at label
      · split at label
        · rename_i htarget
          obtain rfl := Option.some.inj label
          exact decide_eq_true htarget
        · cases label
      · cases label
    | setAlarm alarm =>
      refine .idle alarm (hlabel ?_) (Option.some.inj ha).symm calls
      rw [label]
      intro heq
      cases heq
  | executes call label time before after executes calls =>
    refine .executes call (hlabel ?_) time before ?_ calls
    · rw [label]
      exact (Option.some_ne_none _).symm
    · have hcases := execute_cases float (s.adapters target) call.action call.params
      rw [show (s.adapters target).execute float call.action call.params = _ from executes]
        at hcases
      exact hcases

end MotorBench

end Fusion
