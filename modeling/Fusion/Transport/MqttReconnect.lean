import Mathlib.Algebra.Order.Ring.Rat
import Mathlib.Data.List.Chain
import Mathlib.Tactic.Linarith

/-!
# MqttReconnect — the wait before the next attempt
(transport/mqtt_adapter.py)

The delay starts over when `_connect_and_serve` returns. A connection that is
lost after it was established ends by an exception, as one that never was
established does: its delay goes on from the failures before it.
-/

namespace Fusion

namespace MqttSettingAdapter

/-- What one call of `_connect_and_serve` meets: the exception of each of its
steps, if it raises. -/
structure Attempt where
  /-- the client's factory, or its `__aenter__` -/
  enter : Option String
  subscribeStage : Option String
  subscribeApply : Option String
  publishInfo : Option String
  publishStatus : Option String
  /-- the loop over `client.messages` -/
  messages : Option String
  /-- the client's `__aexit__` -/
  exit : Option String

/-- A step that raises, if there is an exception. -/
def raises : Option String → Except String Unit
  | some e => .error e
  | none => .ok ()

namespace Attempt

/-- Up to the loop over the messages. -/
def setUp (w : Attempt) : Except String Unit := do
  raises w.subscribeStage
  raises w.subscribeApply
  raises w.publishInfo
  raises w.publishStatus

/-- `_connect_and_serve` -/
def connectAndServe (w : Attempt) : Except String Unit := do
  raises w.enter
  let body : Except String Unit := do
    w.setUp
    raises w.messages
  -- the exception of the exit takes the place of the body's
  raises w.exit
  body

/-- Subscribed, with the initial info and status published. -/
def established (w : Attempt) : Bool :=
  w.enter.isNone && w.setUp.isOk

/-- How a connection ended. -/
inductive Ending
  /-- before it was established -/
  | failed
  /-- established, and then ended by an exception -/
  | lost
  /-- established, and then ended normally -/
  | ended
deriving DecidableEq

/-- How this one ended. -/
def ending (w : Attempt) : Ending :=
  if w.established then if w.connectAndServe.isOk then .ended else .lost else .failed

/-- What returns was established. -/
theorem established_of_isOk {w : Attempt} (h : w.connectAndServe.isOk = true) :
    w.established = true := by
  unfold connectAndServe at h
  unfold established
  cases henter : w.enter with
  | some e =>
    rw [henter] at h
    cases h
  | none =>
    cases hsetUp : w.setUp with
    | error e =>
      rw [henter, hsetUp] at h
      cases hexit : w.exit <;> rw [hexit] at h <;> cases h
    | ok _ => rfl

theorem ending_ended {w : Attempt} : w.ending = .ended ↔ w.connectAndServe = .ok () := by
  unfold ending
  cases hcall : w.connectAndServe with
  | error e => cases w.established <;> simp [Except.isOk, Except.toBool]
  | ok _ =>
    have hok : w.connectAndServe.isOk = true := by rw [hcall]; rfl
    simp [established_of_isOk hok, Except.isOk, Except.toBool]

end Attempt

/-- The delays that the adapter is given. -/
structure ReconnectDelays where
  initial : ℚ
  max : ℚ

namespace ReconnectDelays

/-- `_run_forever` over some attempts: the wait after each of them, if there
is one. -/
def runForever (d : ReconnectDelays) (delay : ℚ) : List Attempt → List (Option ℚ)
  | [] => []
  | w :: attempts =>
      match w.connectAndServe with
      | .ok () => none :: d.runForever d.initial attempts
      | .error _ => some delay :: d.runForever (min (delay * 2) d.max) attempts

/-- The wait after `k` failures in a row. -/
def backoff (d : ReconnectDelays) (k : ℕ) : ℚ := min (d.initial * 2 ^ k) d.max

/-- The waits that are due after `k` waits in a row: each failure doubles the
last delay, and a connection that is lost starts over at the first. -/
def dueWaits (d : ReconnectDelays) (k : ℕ) : List Attempt → List (Option ℚ)
  | [] => []
  | w :: attempts =>
      match w.ending with
      | .ended => none :: d.dueWaits 0 attempts
      | .failed => some (d.backoff k) :: d.dueWaits (k + 1) attempts
      | .lost => some (d.backoff 0) :: d.dueWaits 1 attempts

variable {d : ReconnectDelays} {delay : ℚ} {w : Attempt} {attempts : List Attempt} {k : ℕ}

theorem runForever_ended (hw : w.ending = .ended) :
    d.runForever delay (w :: attempts) = none :: d.runForever d.initial attempts := by
  rw [runForever, Attempt.ending_ended.mp hw]

theorem runForever_raised (hw : w.ending ≠ .ended) :
    d.runForever delay (w :: attempts) =
      some delay :: d.runForever (min (delay * 2) d.max) attempts := by
  rw [runForever]
  split
  · exact absurd (Attempt.ending_ended.mpr ‹_›) hw
  · rfl

/-! ## The delay after some failures -/

theorem backoff_zero (h : d.initial ≤ d.max) : d.backoff 0 = d.initial := by
  rw [backoff, pow_zero, mul_one, min_eq_left h]

theorem one_le_pow_two (k : ℕ) : (1 : ℚ) ≤ 2 ^ k :=
  one_le_pow₀ (by norm_num)

/-- A delay below zero only falls. -/
theorem mul_pow_le_of_neg {x : ℚ} (hx : x < 0) (k : ℕ) : x * 2 ^ k ≤ x :=
  (mul_le_mul_of_nonpos_left (one_le_pow_two k) hx.le).trans_eq (mul_one x)

/-- The delay is doubled and capped: so is that of one failure more. -/
theorem backoff_succ (h : d.initial ≤ d.max) (k : ℕ) :
    min (d.backoff k * 2) d.max = d.backoff (k + 1) := by
  rw [backoff, backoff, pow_succ, ← mul_assoc]
  rcases le_or_gt (d.initial * 2 ^ k) d.max with hle | hgt
  · rw [min_eq_left hle]
  · -- the cap is not below zero, or no delay would exceed it
    have hmax : 0 ≤ d.max := by
      by_contra hneg
      have hfalls := mul_pow_le_of_neg (x := d.initial) (by linarith) k
      linarith
    rw [min_eq_right hgt.le, min_eq_right (by linarith), min_eq_right (by linarith)]

/-- Doubling leaves the initial delay as it is. -/
def Flat (d : ReconnectDelays) : Prop :=
  d.initial = 0 ∨ (0 < d.initial ∧ d.initial = d.max)

theorem backoff_flat (h : d.initial ≤ d.max) (hflat : d.Flat) (k : ℕ) :
    d.backoff k = d.initial := by
  rw [backoff]
  obtain hzero | ⟨hpos, hmax⟩ := hflat
  · rw [hzero, zero_mul, min_eq_left (hzero ▸ h)]
  · have hgrows : d.max ≤ d.initial * 2 ^ k := by
      rw [← hmax]
      exact le_mul_of_one_le_right hpos.le (one_le_pow_two k)
    rw [min_eq_right hgrows, hmax]

theorem backoff_ne (h : d.initial ≤ d.max) (hflat : ¬ d.Flat) (k : ℕ) :
    d.backoff (k + 1) ≠ d.initial := by
  rw [backoff, pow_succ', ← mul_assoc]
  rcases lt_trichotomy d.initial 0 with hneg | hzero | hpos
  · have hfalls := mul_pow_le_of_neg (x := d.initial * 2) (by linarith) k
    have hmin := min_le_left (d.initial * 2 * 2 ^ k) d.max
    exact ne_of_lt (by linarith)
  · exact absurd (.inl hzero) hflat
  · have hcap : d.initial < d.max := lt_of_le_of_ne h fun heq => hflat (.inr ⟨hpos, heq⟩)
    have hgrows : d.initial * 2 ≤ d.initial * 2 * 2 ^ k :=
      le_mul_of_one_le_right (by linarith) (one_le_pow_two k)
    exact ne_of_gt (lt_min (by linarith) hcap)

/-! ## Every history -/

/-- All waits are those that are due. -/
def Due (d : ReconnectDelays) (attempts : List Attempt) : Prop :=
  d.runForever d.initial attempts = d.dueWaits 0 attempts

/-- Every connection that is lost is the first attempt, or follows one that
ended normally. -/
def LostAfterEnded (attempts : List Attempt) : Prop :=
  attempts.IsChain fun v w => w.ending = .lost → v.ending = .ended

theorem dueWaits_flat (h : d.initial ≤ d.max) (hflat : d.Flat) (k : ℕ) :
    d.runForever d.initial attempts = d.dueWaits k attempts := by
  induction attempts generalizing k with
  | nil => rfl
  | cons w attempts ih =>
    have hflat' := backoff_flat h hflat
    have hnext : min (d.initial * 2) d.max = d.initial := by
      rw [← hflat' 0, backoff_succ h, hflat', hflat']
    cases hw : w.ending with
    | ended => rw [runForever_ended hw, dueWaits, hw, ih 0]
    | failed =>
      rw [runForever_raised (by rw [hw]; nofun), dueWaits, hw, hflat', hnext, ih (k + 1)]
    | lost =>
      rw [runForever_raised (by rw [hw]; nofun), dueWaits, hw, hnext, ih 1, backoff_zero h]

theorem dueWaits_iff (h : d.initial ≤ d.max) (hflat : ¬ d.Flat) (k : ℕ) :
    d.runForever (d.backoff k) attempts = d.dueWaits k attempts ↔
      (k = 0 ∨ ∀ w ∈ attempts.head?, w.ending ≠ .lost) ∧ LostAfterEnded attempts := by
  induction attempts generalizing k with
  | nil => simp [runForever, dueWaits, LostAfterEnded]
  | cons w attempts ih =>
    rw [LostAfterEnded, List.isChain_cons]
    cases hw : w.ending with
    | ended =>
      rw [runForever_ended hw, dueWaits, hw, ← backoff_zero h]
      simp [hw, ih 0, LostAfterEnded]
    | failed =>
      rw [runForever_raised (by rw [hw]; nofun), dueWaits, hw, backoff_succ h]
      simp [hw, ih (k + 1), LostAfterEnded]
    | lost =>
      rw [runForever_raised (by rw [hw]; nofun), dueWaits, hw, backoff_succ h]
      cases k with
      | zero => simp [hw, ih 1, LostAfterEnded]
      | succ k =>
        have hne : d.backoff (k + 1) ≠ d.backoff 0 := by
          rw [backoff_zero h]
          exact backoff_ne h hflat k
        simp [hw, hne]

/-- **All waits are right** exactly when doubling leaves the initial delay as
it is, or every connection that is lost is the first attempt or follows one
that ended normally. -/
theorem waits_due_iff (d : ReconnectDelays) (h : d.initial ≤ d.max) (attempts : List Attempt) :
    d.Due attempts ↔ d.Flat ∨ LostAfterEnded attempts := by
  unfold Due
  by_cases hflat : d.Flat
  · exact iff_of_true (dueWaits_flat h hflat 0) (.inl hflat)
  · have hiff : d.runForever (d.backoff 0) attempts = d.dueWaits 0 attempts ↔ _ :=
      dueWaits_iff h hflat 0
    rw [backoff_zero h] at hiff
    simpa [hflat] using hiff

/-- The default delays. -/
def default : ReconnectDelays := ⟨1, 30⟩

def refused : Attempt := ⟨some "refused", none, none, none, none, none, none⟩

def dropped : Attempt := ⟨none, none, none, none, none, some "disconnected", none⟩

def closed : Attempt := ⟨none, none, none, none, none, none, none⟩

theorem waits_due_iff_outage :
    default.runForever 1 [refused, refused, closed, dropped, refused] =
        [some 1, some 2, none, some 1, some 2] ∧
      (default.Due [refused, refused, closed, dropped, refused] ↔
        default.Flat ∨ LostAfterEnded [refused, refused, closed, dropped, refused]) :=
  ⟨by decide +kernel, waits_due_iff default (by decide +kernel) _⟩

/-- A connection that is established and lost twice is retried after two
seconds the second time. -/
theorem waits_due_dropped : ¬ ∀ (d : ReconnectDelays) (attempts : List Attempt),
    d.initial ≤ d.max → d.Due attempts := by
  intro hall
  have hdue := hall default [dropped, dropped] (by decide +kernel)
  revert hdue
  unfold Due
  decide +kernel

end ReconnectDelays

end MqttSettingAdapter

end Fusion
