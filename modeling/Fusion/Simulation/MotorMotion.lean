import Fusion.Simulation.MotorCompletion
import Mathlib.Data.Rat.Floor

/-!
# MotorMotion — how a motor moves, in any run

A run of the move task goes ten units at most, and the next is due a twentieth
of a second later; but each call starts a task that goes its first units at
once. The units that the task may still go before more time passes are kept
as credit, so that the way is paid for by the time and the calls.
-/

namespace Fusion

open Transition

variable {V : Type} {float : V → Except String ℚ}

namespace FakeMotorAdapter

/-- The way that the move task may go before more time passes. -/
def credit (a : FakeMotorAdapter) (now : ℚ) : ℚ :=
  match a.moveTask with
  | none => 0
  | some .created => stepLength
  | some (.sleeping wakeAt) =>
      if wakeAt ≤ now then stepLength else stepLength - velocity * (wakeAt - now)

/-- A sleep is no longer than a step. -/
def Sleeps (a : FakeMotorAdapter) (now : ℚ) : Prop :=
  ∀ wakeAt, a.moveTask = some (.sleeping wakeAt) → wakeAt ≤ now + stepS

/-- How often the move task is still to run. -/
def runsLeft (a : FakeMotorAdapter) : Nat :=
  match a.moveTask with
  | none => 0
  | some .created =>
      if a.neverComplete then 1 else ⌈(a.distance - tolerance) / stepLength⌉₊ + 1
  | some (.sleeping _) => ⌈(a.distance - tolerance) / stepLength⌉₊ + 1

variable {a b : FakeMotorAdapter} {now later : ℚ}

theorem credit_le (a : FakeMotorAdapter) (now : ℚ) : a.credit now ≤ stepLength := by
  unfold credit
  split
  · norm_num [stepLength_eq]
  · exact le_refl _
  · split
    · exact le_refl _
    · rename_i hasleep
      have hpos : 0 ≤ velocity * (_ - now) :=
        mul_nonneg (by norm_num [velocity]) (sub_nonneg.mpr (not_le.mp hasleep).le)
      linarith

theorem Sleeps.credit_nonneg (h : a.Sleeps now) : 0 ≤ a.credit now := by
  unfold credit
  split
  · exact le_refl _
  · norm_num [stepLength_eq]
  · rename_i wakeAt hsleeping
    split
    · norm_num [stepLength_eq]
    · have hway : velocity * (wakeAt - now) ≤ velocity * stepS :=
        mul_le_mul_of_nonneg_left (by linarith [h wakeAt hsleeping]) (by norm_num [velocity])
      rw [stepLength]
      linarith

/-- Time gives credit, at the motor's velocity at most. -/
theorem credit_waits (a : FakeMotorAdapter) (hle : now ≤ later) :
    a.credit later ≤ a.credit now + velocity * (later - now) := by
  have hgain : 0 ≤ velocity * (later - now) :=
    mul_nonneg (by norm_num [velocity]) (by linarith)
  unfold credit
  split
  · linarith
  · linarith
  · rename_i wakeAt hsleeping
    by_cases hnow : wakeAt ≤ now
    · rw [if_pos hnow, if_pos (hnow.trans hle)]
      linarith
    · rw [if_neg hnow]
      have hsum : velocity * (wakeAt - now) =
          velocity * (wakeAt - later) + velocity * (later - now) := by ring
      split
      · rename_i hlater
        have hway : velocity * (wakeAt - later) ≤ 0 :=
          mul_nonpos_of_nonneg_of_nonpos (by norm_num [velocity]) (by linarith)
        linarith
      · linarith

theorem Due.credit (h : a.Due now) : a.credit now = stepLength := by
  unfold FakeMotorAdapter.credit
  rcases h with hcreated | ⟨wakeAt, hsleeping, hawake⟩
  · rw [hcreated]
  · rw [hsleeping]
    exact if_pos hawake

/-- **A run of the task spends its credit.** -/
theorem Runs.spends (h : Runs a now b) (hdue : a.Due now) :
    |b.position - a.position| + b.credit now ≤ a.credit now := by
  rw [hdue.credit]
  have hstep : (0 : ℚ) ≤ stepLength := by norm_num [stepLength_eq]
  cases h with
  | refuses => simpa [FakeMotorAdapter.credit] using hstep
  | arrives => simpa [FakeMotorAdapter.credit] using hstep
  | goes _ far position less length between =>
    have hspent : FakeMotorAdapter.credit { a with
        position := position, moveTask := some (.sleeping (now + stepS)) } now = 0 := by
      have hasleep : ¬ now + stepS ≤ now := by norm_num [stepS]
      simp only [FakeMotorAdapter.credit, if_neg hasleep, stepLength]
      ring
    rw [hspent, add_zero]
    exact length

theorem ceil_succ {x : ℚ} (h : -1 < x) : ⌈x + 1⌉₊ = ⌈x⌉₊ + 1 := by
  rcases le_or_gt 0 x with hx | hx
  · exact Nat.ceil_add_one hx
  · rw [Nat.ceil_eq_zero.mpr hx.le]
    refine (Nat.ceil_eq_iff one_ne_zero).mpr ⟨?_, ?_⟩
    · simp only [Nat.sub_self, Nat.cast_zero]
      linarith
    · simp only [Nat.cast_one]
      linarith

/-- **A run of the task is one less to come.** -/
theorem Runs.runsLeft (h : Runs a now b) (hdue : a.Due now) :
    a.runsLeft = b.runsLeft + 1 := by
  have hstep : (0 : ℚ) < stepLength := by norm_num [stepLength_eq]
  -- the fault apart, a due task has the way to go
  have hway : (a.moveTask = some .created → a.neverComplete = false) →
      a.runsLeft = ⌈(a.distance - tolerance) / stepLength⌉₊ + 1 := by
    intro hsound
    unfold FakeMotorAdapter.runsLeft
    rcases hdue with hcreated | ⟨wakeAt, hsleeping, -⟩
    · rw [hcreated]
      simp [hsound hcreated]
    · rw [hsleeping]
  cases h with
  | refuses created fault =>
    unfold FakeMotorAdapter.runsLeft
    rw [created]
    simp [fault]
  | arrives sound near =>
    have hceil : ⌈(a.distance - tolerance) / stepLength⌉₊ = 0 :=
      Nat.ceil_eq_zero.mpr (div_nonpos_of_nonpos_of_nonneg (by linarith) hstep.le)
    rw [hway sound, hceil]
    rfl
  | goes sound far position less length between =>
    rw [hway sound]
    show _ = ⌈(|a.targetPosition - position| - tolerance) / stepLength⌉₊ + 1 + 1
    rw [less]
    congr 1
    -- a whole step, or the last one
    rcases le_total stepLength a.distance with hwhole | hlast
    · have hsplit : (a.distance - tolerance) / stepLength =
          (a.distance - stepLength - tolerance) / stepLength + 1 := by
        field_simp
        ring
      have hfar : -1 < (a.distance - stepLength - tolerance) / stepLength := by
        rw [lt_div_iff₀ hstep]
        linarith
      rw [max_eq_right (by linarith), hsplit, ceil_succ hfar]
    · have hnone : ⌈(0 - tolerance) / stepLength⌉₊ = 0 :=
        Nat.ceil_eq_zero.mpr
          (div_nonpos_of_nonpos_of_nonneg (by norm_num [tolerance]) hstep.le)
      have hpos : 0 < (a.distance - tolerance) / stepLength := div_pos (by linarith) hstep
      have hone : (a.distance - tolerance) / stepLength ≤ 1 := by
        have htolerance : (0 : ℚ) < tolerance := by norm_num [tolerance]
        rw [div_le_one hstep]
        linarith
      rw [max_eq_left (by linarith), hnone]
      exact (Nat.ceil_eq_iff one_ne_zero).mpr ⟨by simpa using hpos, by simpa using hone⟩

end FakeMotorAdapter

namespace MotorBench

open AdapterBench FakeMotorAdapter

/-! ## Every run -/

theorem sleeps_law :
    TargetLaw (adapter float) (fun a _ _ now => a.Sleeps now) := by
  refine motor_law ?_ ?_ ?_ ?_
  · intro a calls es now later hle h wakeAt hsleeping
    exact (h wakeAt hsleeping).trans (by linarith)
  · intro a calls es now alarm h wakeAt hsleeping
    exact h wakeAt hsleeping
  · intro a b calls es now hdue hruns h wakeAt hsleeping
    cases hruns with
    | refuses => cases hsleeping
    | arrives => cases hsleeping
    | goes =>
      cases hsleeping
      exact le_refl _
  · intro calls es call hcases h wakeAt hsleeping
    obtain ⟨command, action, params, time, before, result, after⟩ := call
    dsimp only at hcases
    cases hcases with
    | refuses message => exact h wakeAt hsleeping
    | moves => cases hsleeping
    | stops => cases hsleeping

/-- The call is a move, and it was given this goal. -/
structure Asks (float : V → Except String ℚ) (call : ExecuteCall FakeMotorAdapter V) (goal : ℚ) :
    Prop where
  returned : call.result = .ok ()
  move : call.action = "move"
  asked : goalOf float call.params = .ok goal

/-- All moves ask for a goal between two bounds. -/
def Bounded (float : V → Except String ℚ) (calls : List (ExecuteCall FakeMotorAdapter V))
    (low high : ℚ) : Prop :=
  ∀ call ∈ calls, ∀ goal, Asks float call goal → low ≤ goal ∧ goal ≤ high

/-- The motor and its goal are between two bounds. -/
structure Within (a : FakeMotorAdapter) (low high : ℚ) : Prop where
  position : low ≤ a.position ∧ a.position ≤ high
  target : low ≤ a.targetPosition ∧ a.targetPosition ≤ high

/-- Where a motor may be. -/
theorem within_law {low high : ℚ} :
    TargetLaw (adapter float) (fun a calls _ _ =>
      Bounded float calls low high → Within a low high) := by
  refine motor_law ?_ ?_ ?_ ?_
  · intro a calls es now later _ h
    exact h
  · intro a calls es now alarm h hbounded
    exact ⟨(h hbounded).position, (h hbounded).target⟩
  · intro a b calls es now hdue hruns h hbounded
    obtain ⟨⟨hlow, hhigh⟩, hgoal⟩ := h hbounded
    cases hruns with
    | refuses => exact ⟨⟨hlow, hhigh⟩, hgoal⟩
    | arrives => exact ⟨⟨hlow, hhigh⟩, hgoal⟩
    | goes _ _ position _ _ between =>
      exact ⟨⟨(le_min hlow hgoal.1).trans between.1, between.2.trans (max_le hhigh hgoal.2)⟩,
        hgoal⟩
  · intro calls es call hcases h hbounded
    have hold := h fun c hc => hbounded c (List.mem_append_left _ hc)
    have hnew := hbounded call (List.mem_append_right _ (List.mem_singleton_self _))
    obtain ⟨command, action, params, time, before, result, after⟩ := call
    dsimp only at hcases hold
    cases hcases with
    | refuses => exact hold
    | moves goal move asked => exact ⟨hold.position, hnew goal ⟨rfl, move, asked⟩⟩
    | stops => exact ⟨hold.position, hold.target⟩

variable [BEq V] {s t : MotorBench V} {l : BenchLabel MotorAct V} {target : String}

/-- How many moves a motor was given. -/
def moves (s : MotorBench V) (target : String) : ℚ := (s.adapters target).moveCount

omit [BEq V] in
/-- **The way of one step** is paid for by credit, time and calls. -/
theorem motor_spends (h : MotorStep float s l t target) (hnow : s.runtime.now ≤ t.runtime.now)
    (hi : (s.adapters target).Sleeps s.runtime.now) :
    |(t.adapters target).position - (s.adapters target).position| +
        (t.adapters target).credit t.runtime.now ≤
      (s.adapters target).credit s.runtime.now + velocity * (t.runtime.now - s.runtime.now) +
        stepLength * (moves t target - moves s target) := by
  have htime : 0 ≤ velocity * (t.runtime.now - s.runtime.now) :=
    mul_nonneg (by norm_num [velocity]) (by linarith)
  have hcredit := hi.credit_nonneg
  have hwaits := credit_waits (s.adapters target) hnow
  unfold moves
  cases h with
  | idle alarm _ motor =>
    have hsame : (t.adapters target).credit t.runtime.now =
        (s.adapters target).credit t.runtime.now := by rw [motor]; rfl
    rw [hsame, motor]
    simpa using hwaits
  | runs _ now due runs =>
    have hspent := runs.spends due
    have hcount : (t.adapters target).moveCount = (s.adapters target).moveCount := by
      generalize t.adapters target = b at runs
      cases runs with
      | refuses => rfl
      | arrives => rfl
      | goes => rfl
    rw [now, hcount]
    simpa using hspent
  | executes call _ _ _ executes =>
    generalize t.adapters target = b at executes ⊢
    generalize call.result = result at executes
    cases executes with
    | refuses => simpa using hwaits
    | moves goal =>
      have hnew : (FakeMotorAdapter.credit { (s.adapters target) with
          targetPosition := goal
          moving := true
          moveCount := (s.adapters target).moveCount + 1
          moveTask := some .created } t.runtime.now) = stepLength := rfl
      rw [hnew]
      push_cast
      rw [sub_self, abs_zero]
      linarith
    | stops =>
      have hnew : (FakeMotorAdapter.credit { (s.adapters target) with
          moveTask := none, moving := false } t.runtime.now) = 0 := rfl
      rw [hnew]
      simp only [sub_self, abs_zero, mul_zero]
      linarith

section
variable (runtimeId bootId : String) (now : ℚ) (targets : List String) (faults : String → Bool)

theorem sleeps_reachable
    (h : Reachable (step (adapter float)) (MotorBench.init runtimeId bootId now targets faults) s) :
    (s.adapters target).Sleeps s.runtime.now :=
  sleeps_law.reachable (by rintro wakeAt ⟨⟩) h

/-- **How far a motor gets.** Between any two moments of a run a motor goes at
most its velocity times the time between them, ten units for each move that it
was given in between, and ten more; and it stays between 0 and its goals. -/
theorem motion_bounded (target : String)
    (hs : Reachable (step (adapter float)) (MotorBench.init runtimeId bootId now targets faults) s)
    (h : Reachable (step (adapter float)) s t) :
    |(t.adapters target).position - (s.adapters target).position| ≤
        velocity * (t.runtime.now - s.runtime.now) +
          stepLength * (moves t target - moves s target) + stepLength ∧
      ∀ low high, low ≤ 0 → 0 ≤ high → Bounded float (t.calls target) low high →
        low ≤ (t.adapters target).position ∧ (t.adapters target).position ≤ high := by
  constructor
  · have hway := h.relates (I := fun u => (u.adapters target).Sleeps u.runtime.now)
      (R := fun u v => |(v.adapters target).position - (u.adapters target).position| +
          (v.adapters target).credit v.runtime.now ≤
        (u.adapters target).credit u.runtime.now + velocity * (v.runtime.now - u.runtime.now) +
          stepLength * (moves v target - moves u target))
      (fun u => by simp)
      (fun u v w huv hvw => by
        have htriangle := abs_sub_le (w.adapters target).position (v.adapters target).position
          (u.adapters target).position
        linarith)
      (fun _ _ _ hi hs => sleeps_law.step (step_acts hs) hi)
      (fun u l v hi hs => motor_spends (motor_step hs target) (step_acts hs).now_le hi)
      (sleeps_reachable _ _ _ _ _ hs)
    have hspent : 0 ≤ (t.adapters target).credit t.runtime.now :=
      (sleeps_reachable _ _ _ _ _ (hs.trans h)).credit_nonneg
    have hgiven := credit_le (s.adapters target) s.runtime.now
    linarith
  · intro low high hlow hhigh hbounded
    exact (within_law.reachable (fun _ => ⟨⟨hlow, hhigh⟩, hlow, hhigh⟩) (hs.trans h)
      hbounded).position

end

/-- Two moves to 30, each begun at once. -/
def twoMoves : List (BenchLabel MotorAct Int) :=
  [.runtime (.acquireControlSession "op" .manual none "cs1"),
    .submit (moveRequest "req-1" "cs1" 30 .acknowledged) "c1", .act "motor01" .runMove,
    .submit (moveRequest "req-2" "cs1" 30 .acknowledged) "c2", .act "motor01" .runMove]

/-- They take the motor twenty units in no time. -/
theorem motion_bounded_twenty :
    ∃ t, Reachable (step (adapter intPosition)) oneMotor t ∧ t.runtime.now = 0 ∧
      (t.adapters "motor01").position = 20 ∧
      |(t.adapters "motor01").position - (oneMotor.adapters "motor01").position| ≤
        velocity * (t.runtime.now - oneMotor.runtime.now) +
          stepLength * (moves t "motor01" - moves oneMotor "motor01") + stepLength ∧
      0 ≤ (t.adapters "motor01").position ∧ (t.adapters "motor01").position ≤ 30 := by
  obtain ⟨t, ht, htest⟩ := exec_test (step (adapter intPosition)) oneMotor twoMoves
    (fun t => t.runtime.now = 0 && (t.adapters "motor01").position = 20 &&
      (t.calls "motor01").all fun call => goalOf intPosition call.params = .ok 30)
    (by decide +kernel)
  simp only [Bool.and_eq_true, decide_eq_true_eq, List.all_eq_true] at htest
  obtain ⟨⟨hnow, hposition⟩, hgoals⟩ := htest
  obtain ⟨hway, hrange⟩ := motion_bounded "motor-test" "boot1" 0 ["motor01"] (fun _ => false)
    "motor01" .refl ht
  refine ⟨t, ht, hnow, hposition, hway, hrange 0 30 (le_refl _) (by norm_num) ?_⟩
  intro call hcall goal hasks
  obtain rfl : 30 = goal := Except.ok.inj ((hgoals call hcall).symm.trans hasks.asked)
  norm_num

/-! ## One move, to its end -/

/-- A motor without the fault: it is called moving while its task goes on. -/
structure Sound (a : FakeMotorAdapter) : Prop where
  fault : a.neverComplete = false
  moving : a.moving = a.moveTask.isSome

omit [BEq V] in
theorem sound_law : TargetLaw (adapter float) (fun a _ _ _ => Sound a) := by
  refine motor_law ?_ ?_ ?_ ?_
  · intro a calls es now later _ h
    exact h
  · intro a calls es now alarm h
    exact ⟨h.fault, h.moving⟩
  · intro a b calls es now hdue hruns h
    obtain ⟨hfault, hmoving⟩ := h
    have hlive : a.moveTask.isSome = true := by
      rcases hdue with hcreated | ⟨_, hsleeping, -⟩
      · rw [hcreated]
        rfl
      · rw [hsleeping]
        rfl
    cases hruns with
    | refuses _ fault => exact absurd (hfault.symm.trans fault) Bool.false_ne_true
    | arrives => exact ⟨hfault, rfl⟩
    | goes => exact ⟨hfault, hmoving.trans hlive⟩
  · intro calls es call hcases h
    obtain ⟨command, action, params, time, before, result, after⟩ := call
    dsimp only at hcases h
    cases hcases with
    | refuses => exact h
    | moves => exact ⟨h.fault, rfl⟩
    | stops => exact ⟨h.fault, rfl⟩

/-- A motor on its way to its goal, or there. -/
structure OnItsWay (a : FakeMotorAdapter) (goal : ℚ) : Prop where
  sound : Sound a
  target : a.targetPosition = goal
  arrived : a.moving = false → a.distance ≤ tolerance

/-- The calls on a motor that returned. -/
def taken (s : MotorBench V) (target : String) : List (ExecuteCall FakeMotorAdapter V) :=
  (s.calls target).filter fun call => call.result.toBool

/-- A run of the task is one less to come; nothing else changes how many there
are. -/
theorem motor_onItsWay (h : s.step (adapter float) l = some t) {goal : ℚ}
    (hquiet : taken t target = taken s target) (hway : OnItsWay (s.adapters target) goal) :
    OnItsWay (t.adapters target) goal ∧
      (if runsOf target l then 1 else 0) + (t.adapters target).runsLeft =
        (s.adapters target).runsLeft := by
  have hsound : Sound (t.adapters target) := sound_law.step (step_acts h) hway.sound
  cases motor_step h target with
  | idle alarm label motor =>
    rw [label, if_neg Bool.false_ne_true, zero_add]
    rw [motor] at hsound ⊢
    exact ⟨⟨hsound, hway.target, hway.arrived⟩, rfl⟩
  | runs label _ due runs =>
    have hless := runs.runsLeft due
    refine ⟨?_, by rw [if_pos label, hless, Nat.add_comm]⟩
    generalize t.adapters target = b at runs hsound ⊢
    cases runs with
    | refuses _ fault => exact absurd (hway.sound.fault.symm.trans fault) Bool.false_ne_true
    | arrives _ near => exact ⟨hsound, hway.target, fun _ => near⟩
    | goes =>
      refine ⟨hsound, hway.target, fun hrest => ?_⟩
      rw [hsound.moving] at hrest
      cases hrest
  | executes call label _ _ executes calls =>
    rw [label, if_neg Bool.false_ne_true, zero_add]
    -- a call that returns is one more
    have hraised : call.result.toBool = false := by
      by_contra hreturned
      have hreturned : call.result.toBool = true := by simpa using hreturned
      rw [taken, calls, List.filter_append, List.filter_singleton, hreturned] at hquiet
      simpa [taken] using congrArg List.length hquiet
    generalize t.adapters target = b at executes hsound ⊢
    generalize call.result = result at executes hraised
    cases executes with
    | refuses => exact ⟨hway, rfl⟩
    | moves => cases hraised
    | stops => cases hraised

/-- What is left to run of a motor that is on its way. -/
theorem OnItsWay.ends {a : FakeMotorAdapter} {goal : ℚ} (h : OnItsWay a goal) :
    (a.moving = true → a.runsLeft = ⌈(a.distance - tolerance) / stepLength⌉₊ + 1) ∧
      (a.runsLeft = 0 → a.moving = false ∧ |goal - a.position| ≤ tolerance) := by
  have hmoving := h.sound.moving
  have harrived := h.arrived
  unfold runsLeft
  rw [distance, h.target] at harrived
  split
  · rename_i hnone
    rw [hnone] at hmoving
    refine ⟨fun hgoes => ?_, fun _ => ⟨hmoving, harrived hmoving⟩⟩
    rw [hmoving] at hgoes
    cases hgoes
  · rw [h.sound.fault, if_neg Bool.false_ne_true]
    exact ⟨fun _ => rfl, fun hnone => absurd hnone (Nat.succ_ne_zero _)⟩
  · exact ⟨fun _ => rfl, fun hnone => absurd hnone (Nat.succ_ne_zero _)⟩

omit [BEq V] in
/-- While runs are left, the task can run once some time has passed. -/
theorem can_run (hleft : (s.adapters target).runsLeft ≠ 0) :
    ∃ dt, 0 ≤ dt ∧ ((s.adapters target).runMove (s.runtime.now + dt)).isSome = true := by
  cases hstage : (s.adapters target).moveTask with
  | none => simp [runsLeft, hstage] at hleft
  | some stage =>
    cases stage with
    | created => exact ⟨0, le_refl _, by simp [runMove, hstage]⟩
    | sleeping wakeAt =>
      refine ⟨max 0 (wakeAt - s.runtime.now), le_max_left _ _, ?_⟩
      have hawake : ¬ s.runtime.now + max 0 (wakeAt - s.runtime.now) < wakeAt := by
        have hlate := le_max_right 0 (wakeAt - s.runtime.now)
        linarith
      simp [runMove, hstage, hawake]

/-- **A move arrives**, however the steps are interleaved. While its motor is
not called again, the task of a sound motor on its way runs once for each ten
units that are left and once more, no more and no less; after the last of
these runs the motor rests at its goal, and until then the next one only
waits for time to pass. -/
theorem move_arrives (runtimeId bootId : String) (now : ℚ) (targets : List String)
    (faults : String → Bool) (target : String) (hsound : faults target = false)
    (hs : Reachable (step (adapter float)) (MotorBench.init runtimeId bootId now targets faults) s)
    (hmoving : (s.adapters target).moving = true) {xs : List (Step (step (adapter float)))}
    (h : Run (step (adapter float)) s xs t)
    (hquiet : ∀ x ∈ xs, taken x.dst target = taken x.src target) :
    xs.countP (fun x => runsOf target x.label) + (t.adapters target).runsLeft =
        ⌈((s.adapters target).distance - tolerance) / stepLength⌉₊ + 1 ∧
      ((t.adapters target).runsLeft = 0 → (t.adapters target).moving = false ∧
        |(s.adapters target).targetPosition - (t.adapters target).position| ≤ tolerance) ∧
      ((t.adapters target).runsLeft ≠ 0 →
        ∃ dt u v, t.step (adapter float) (.runtime (.advance dt)) = some u ∧
          u.step (adapter float) (.act target .runMove) = some v) := by
  have hstart : OnItsWay (s.adapters target) (s.adapters target).targetPosition := by
    refine ⟨sound_law.reachable ⟨hsound, rfl⟩ hs, rfl, fun hrest => ?_⟩
    rw [hmoving] at hrest
    cases hrest
  have hrun : OnItsWay (t.adapters target) (s.adapters target).targetPosition ∧
      xs.countP (fun x => runsOf target x.label) + (t.adapters target).runsLeft =
        (s.adapters target).runsLeft := by
    clear hmoving
    induction h with
    | nil => exact ⟨hstart, Nat.zero_add _⟩
    | @snoc xs x run ih =>
      obtain ⟨hway, hcount⟩ := ih fun y hy => hquiet y (List.mem_append_left _ hy)
      obtain ⟨hnext, hone⟩ := motor_onItsWay x.fired (hquiet x (by simp)) hway
      refine ⟨hnext, ?_⟩
      rw [List.countP_append, List.countP_singleton, Nat.add_assoc, hone, hcount]
  obtain ⟨hway, hcount⟩ := hrun
  refine ⟨by rw [hcount, hstart.ends.1 hmoving], hway.ends.2, fun hleft => ?_⟩
  obtain ⟨dt, hdt, hruns⟩ := can_run hleft
  obtain ⟨a, ha⟩ := Option.isSome_iff_exists.mp hruns
  let u : MotorBench V := { t with runtime := { t.runtime with now := t.runtime.now + dt } }
  refine ⟨dt, u, u.acted target (a, none), ?_, ?_⟩
  · simp only [step, allows, if_true, DeviceRuntime.step, if_pos hdt]
    rfl
  · have hact : (adapter float).act (t.adapters target) (t.runtime.now + dt) .runMove =
        some (a, none) := Option.map_eq_some_iff.mpr ⟨a, ha, rfl⟩
    exact Option.map_eq_some_iff.mpr ⟨_, hact, rfl⟩

/-- A call is made by a submission alone. -/
theorem taken_step (h : s.step (adapter float) l = some t)
    (hl : ∀ req freshId, l ≠ .submit req freshId) : taken t target = taken s target := by
  cases step_acts h with
  | goesOn => rfl
  | answers => rfl
  | calls req freshId => exact absurd rfl (hl req freshId)
  | acts => rfl

/-- A move of 25 units, begun. -/
def begun : List (BenchLabel MotorAct Int) :=
  [.runtime (.acquireControlSession "op" .manual none "cs1"),
    .submit (moveRequest "req-1" "cs1" 25 .acknowledged) "c1"]

/-- The way that it takes. -/
def restOfWay : List (BenchLabel MotorAct Int) :=
  [.act "motor01" .runMove, .runtime (.advance (1 / 20)), .act "motor01" .runMove,
    .runtime (.advance (1 / 20)), .act "motor01" .runMove, .runtime (.advance (1 / 20)),
    .act "motor01" .runMove]

/-- Four runs take it there, and it rests. -/
theorem move_arrives_twentyFive :
    ∃ s xs t, Reachable (step (adapter intPosition)) oneMotor s ∧
      Run (step (adapter intPosition)) s xs t ∧
      xs.countP (fun x => runsOf "motor01" x.label) = 4 ∧
      (t.adapters "motor01").moving = false ∧
      |25 - (t.adapters "motor01").position| ≤ tolerance := by
  obtain ⟨s, hs, htest⟩ := exec_test (step (adapter intPosition)) oneMotor begun
    (fun s => (s.adapters "motor01").moving && (s.adapters "motor01").targetPosition = 25 &&
      ⌈((s.adapters "motor01").distance - tolerance) / stepLength⌉₊ = 3 &&
      (exec (step (adapter intPosition)) s restOfWay).isSome)
    (by decide +kernel)
  simp only [Bool.and_eq_true, decide_eq_true_eq] at htest
  obtain ⟨⟨⟨hmoving, htarget⟩, hceil⟩, hrest⟩ := htest
  obtain ⟨xs, t, run, hlabels, -⟩ :=
    exec_labels (step (adapter intPosition)) s restOfWay (fun _ => true) (by
      rw [Option.isSome_iff_exists] at hrest
      obtain ⟨t, ht⟩ := hrest
      rw [ht]
      rfl)
  have hcalls : ∀ x ∈ xs, ∀ req freshId, x.label ≠ .submit req freshId := by
    intro x hx req freshId heq
    have hmem : x.label ∈ restOfWay := hlabels ▸ List.mem_map_of_mem hx
    rw [heq] at hmem
    simp [restOfWay] at hmem
  have hcount : xs.countP (fun x => runsOf "motor01" x.label) = 4 := by
    have hmap := List.countP_map (p := runsOf "motor01") (f := Step.label) (l := xs)
    rw [hlabels] at hmap
    exact hmap.symm.trans (by decide)
  obtain ⟨htotal, hends, -⟩ := move_arrives "motor-test" "boot1" 0 ["motor01"]
    (fun _ => false) "motor01" rfl hs hmoving run
    fun x hx => taken_step x.fired (hcalls x hx)
  rw [hcount, hceil] at htotal
  rw [htarget] at hends
  exact ⟨s, xs, t, hs, run, hcount, hends (by omega)⟩

end MotorBench

end Fusion
