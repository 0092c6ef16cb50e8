import Fusion.Simulation.FakeMotor

/-!
# MotorCompletion — what an observed move says of the motor

A move that is reported observed is the latest call on its motor. The motion
that completes it is its own, and took the time that the way takes.
-/

namespace Fusion

open Transition

variable {V : Type}

/-! ## One motion -/

namespace FakeMotorAdapter

variable {a b : FakeMotorAdapter} {goal start time now later : ℚ}

/-- Where the motion towards `goal` is that began at `start`: the way gone
never takes less than its time. -/
def Underway (a : FakeMotorAdapter) (goal start time now : ℚ) : Prop :=
  match a.moveTask with
  | some .created => a.moving = true ∧ a.position = start
  | some (.sleeping wakeAt) =>
      a.moving = true ∧ |goal - start| - |goal - a.position| ≤ velocity * (wakeAt - time)
  | none =>
      a.moving = true ∨
        |goal - a.position| ≤ tolerance ∧
          |goal - start| - |goal - a.position| ≤ velocity * (now - time)

theorem Underway.waits (h : a.Underway goal start time now) (hle : now ≤ later) :
    a.Underway goal start time later := by
  unfold Underway at h ⊢
  split
  · simp_all
  · simp_all
  · rename_i hnone
    rw [hnone] at h
    refine h.imp_right ?_
    rintro ⟨hnear, hway⟩
    have hvelocity : velocity * (now - time) ≤ velocity * (later - time) :=
      mul_le_mul_of_nonneg_left (by linarith) (by norm_num [velocity])
    exact ⟨hnear, hway.trans hvelocity⟩

/-- At rest, the motion has reached its goal. -/
theorem Underway.rests (h : a.Underway goal start time now) (hrest : a.moving = false) :
    |goal - a.position| ≤ tolerance ∧
      |goal - start| - |goal - a.position| ≤ velocity * (now - time) := by
  unfold Underway at h
  split at h
  · rw [hrest] at h
    cases h.1
  · rw [hrest] at h
    cases h.1
  · rcases h with hmoving | hdone
    · rw [hrest] at hmoving
      cases hmoving
    · exact hdone

/-- How far the motion has come when its task is due. -/
theorem Underway.due (h : a.Underway goal start time now) (hdue : a.Due now)
    (hsince : time ≤ now) :
    a.moving = true ∧ |goal - start| - |goal - a.position| ≤ velocity * (now - time) := by
  have hnonneg : 0 ≤ velocity * (now - time) :=
    mul_nonneg (by norm_num [velocity]) (by linarith)
  unfold Underway at h
  rcases hdue with hcreated | ⟨wakeAt, hsleeping, hawake⟩
  · rw [hcreated] at h
    obtain ⟨hmoving, rfl⟩ := h
    exact ⟨hmoving, by linarith⟩
  · rw [hsleeping] at h
    obtain ⟨hmoving, hway⟩ := h
    have hvelocity : velocity * (wakeAt - time) ≤ velocity * (now - time) :=
      mul_le_mul_of_nonneg_left (by linarith) (by norm_num [velocity])
    exact ⟨hmoving, hway.trans hvelocity⟩

/-- **One run of the task.** -/
theorem Underway.runs (h : a.Underway goal start time now) (hgoal : a.targetPosition = goal)
    (hsince : time ≤ now) (hdue : a.Due now) (hruns : Runs a now b) :
    b.Underway goal start time now := by
  obtain ⟨hmoving, hway⟩ := h.due hdue hsince
  cases hruns with
  | refuses => exact .inl hmoving
  | arrives _ near =>
    rw [distance, hgoal] at near
    exact .inr ⟨near, hway⟩
  | goes _ far position less length between =>
    rw [distance, hgoal] at less
    refine ⟨hmoving, ?_⟩
    have hstep : |goal - a.position| - stepLength ≤ |goal - position| := by
      rw [less]
      exact le_max_right _ _
    have hnext : velocity * (now + stepS - time) = velocity * (now - time) + stepLength := by
      rw [stepLength]
      ring
    show _ ≤ velocity * (now + stepS - time)
    show |goal - start| - |goal - position| ≤ _
    rw [hnext]
    linarith

end FakeMotorAdapter

namespace MotorBench

open AdapterBench FakeMotorAdapter

variable {float : V → Except String ℚ} {s t : MotorBench V} {l : BenchLabel MotorAct V}

/-! ## The law of a motor -/

/-- A motor and a call of `move` on it. -/
structure Motion (float : V → Except String ℚ) (a : FakeMotorAdapter)
    (call : ExecuteCall FakeMotorAdapter V) (now goal : ℚ) : Prop where
  asked : goalOf float call.params = .ok goal
  target : a.targetPosition = goal
  since : call.time ≤ now
  underway : a.Underway goal call.before.position call.time now

/-- **The law of a motor**: if the latest call on it is a move, it is on its
way or there. -/
def Moves (float : V → Except String ℚ) (a : FakeMotorAdapter)
    (calls : List (ExecuteCall FakeMotorAdapter V)) (_ : List (AdapterEvent Empty)) (now : ℚ) :
    Prop :=
  ∀ call, calls.getLast? = some call → call.result = .ok () → call.action = "move" →
    ∃ goal, Motion float a call now goal

theorem moves_law : TargetLaw (adapter float) (Moves float) := by
  refine motor_law ?_ ?_ ?_ ?_
  · intro a calls es now later hle h call hcall hresult hmove
    obtain ⟨goal, hmotion⟩ := h call hcall hresult hmove
    exact ⟨goal, hmotion.asked, hmotion.target, hmotion.since.trans hle,
      hmotion.underway.waits hle⟩
  · intro a calls es now alarm h call hcall hresult hmove
    obtain ⟨goal, hmotion⟩ := h call hcall hresult hmove
    exact ⟨goal, hmotion.asked, hmotion.target, hmotion.since, hmotion.underway⟩
  · intro a b calls es now hdue hruns h call hcall hresult hmove
    obtain ⟨goal, hmotion⟩ := h call hcall hresult hmove
    refine ⟨goal, hmotion.asked, ?_, hmotion.since,
      hmotion.underway.runs hmotion.target hmotion.since hdue hruns⟩
    rw [← hmotion.target]
    cases hruns with
    | refuses => rfl
    | arrives => rfl
    | goes => rfl
  · intro calls es call hcases _ last hlast hresult hmove
    rw [List.getLast?_concat] at hlast
    obtain rfl := Option.some.inj hlast
    obtain ⟨command, action, params, time, before, result, after⟩ := call
    dsimp only at hcases
    cases hcases with
    | refuses message => cases hresult
    | moves goal _ asked => exact ⟨goal, asked, rfl, le_refl _, rfl, rfl⟩
    | stops stop =>
      have hmove : action = "move" := hmove
      rw [stop] at hmove
      exact absurd hmove (by decide)

/-! ## Observed moves -/

variable [BEq V]

/-- **An observed move was made.** Whenever a `move` is finished SUCCEEDED as
observed, it is the latest call on its motor, the motor rests at the position
asked for, and the time since the call is at least that of the way. -/
theorem observed_move_arrived (runtimeId bootId : String) (now : ℚ) (targets : List String)
    (faults : String → Bool)
    (hs : Reachable (step (adapter float)) (MotorBench.init runtimeId bootId now targets faults) s)
    (h : s.step (adapter float) l = some t) {c : CommandId} {r : CommandRecord V}
    (hr : t.runtime.getCommand c = some r) (hobserved : Observed r) (hmove : r.action = "move")
    (hlive : ∀ r₀, s.runtime.getCommand c = some r₀ → r₀.status ≠ .terminal) :
    ∃ call goal, (t.calls r.targetId).getLast? = some call ∧ call.command = c ∧
      goalOf float r.params = .ok goal ∧ (t.adapters r.targetId).moving = false ∧
      (t.adapters r.targetId).targetPosition = goal ∧
      |goal - (t.adapters r.targetId).position| < tolerance ∧
      |goal - call.before.position| < velocity * (t.runtime.now - call.time) + tolerance := by
  have hacts := step_acts h
  obtain ⟨hcalls, hadapters, hcomplete, call, hcall, hcommand, hresult, haction, hparams⟩ :=
    hacts.observed (inv_reachable hs) hr hobserved hlive
  have hlaw : Keeps (Moves float) r.targetId s := moves_law.reachable (by rintro call ⟨⟩) hs
  obtain ⟨goal, hmotion⟩ := hlaw call hcall hresult (haction.symm.trans hmove)
  have hasked : goalOf float r.params = .ok goal := by
    rw [← hmotion.asked, goalOf, goalOf, Dict.get_of_sortedItems hparams]
  -- and the motor says that it is there
  rw [hmove, show (adapter float).isActionComplete _ _ _ =
    (s.adapters r.targetId).isActionComplete float "move" r.params from rfl, isActionComplete,
    if_pos rfl] at hcomplete
  split at hcomplete
  · cases hcomplete
  · rename_i hmoving
    have hrest : (s.adapters r.targetId).moving = false := by simpa using hmoving
    rw [hasked] at hcomplete
    have hnear := of_decide_eq_true (Except.ok.inj hcomplete)
    rw [abs_sub_comm] at hnear
    obtain ⟨-, hway⟩ := (hmotion.underway.waits hacts.now_le).rests hrest
    rw [hcalls, hadapters]
    exact ⟨call, goal, hcall, hcommand, hasked, hrest, hmotion.target, hnear, by linarith⟩

/-- Integers as parameter values. -/
def intPosition (n : Int) : Except String ℚ := .ok n

/-- One motor without a fault, on the Runtime of the tests. -/
def oneMotor : MotorBench Int := init "motor-test" "boot1" 0 ["motor01"] fun _ => false

/-- A move of ten units, up to the motor's rest. -/
def moved : List (BenchLabel MotorAct Int) :=
  [.runtime (.acquireControlSession "op" .manual none "cs1"),
    .submit (moveRequest "req-1" "cs1" 10 .observed) "c1", .act "motor01" .runMove,
    .runtime (.advance (1 / 20)), .act "motor01" .runMove]

/-- The observer of that move finds it complete. -/
theorem observed_move_arrived_ten :
    ∃ s t r call, Reachable (step (adapter intPosition)) oneMotor s ∧
      s.step (adapter intPosition) (.observe "c1") = some t ∧
      t.runtime.getCommand "c1" = some r ∧ Observed r ∧ r.action = "move" ∧
      (t.calls r.targetId).getLast? = some call ∧ call.command = "c1" ∧
      (t.adapters r.targetId).moving = false := by
  obtain ⟨s, hs, htest⟩ := exec_test (step (adapter intPosition)) oneMotor moved
    (fun s => (s.runtime.getCommand "c1").any (fun r => r.status ≠ .terminal) &&
      (s.step (adapter intPosition) (.observe "c1")).any fun t =>
        (t.runtime.getCommand "c1").any fun r => r.action = "move" && r.status = .terminal &&
          r.outcome = some .succeeded && r.achievedCompletion = some .observed)
    (by decide +kernel)
  simp only [Bool.and_eq_true, Option.any_eq_true, decide_eq_true_eq] at htest
  obtain ⟨⟨r₀, hr₀, hlive⟩, t, ht, r, hr, ⟨⟨hmove, hdone⟩, hsucc⟩, hlevel⟩ := htest
  have hobserved : Observed r := ⟨hdone, hsucc, hlevel⟩
  have hlive' : ∀ r₁, s.runtime.getCommand "c1" = some r₁ → r₁.status ≠ .terminal := by
    intro r₁ hr₁
    obtain rfl := Option.some.inj (hr₀.symm.trans hr₁)
    exact hlive
  obtain ⟨call, goal, hcall, hcommand, -, hrest, -⟩ := observed_move_arrived "motor-test"
    "boot1" 0 ["motor01"] (fun _ => false) hs ht hr hobserved hmove hlive'
  exact ⟨s, t, r, call, hs, ht, hr, hobserved, hmove, hcall, hcommand, hrest⟩

end MotorBench

end Fusion
