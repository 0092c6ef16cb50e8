import Fusion.Core.TriggerEngine
import Mathlib.Tactic.Linarith

/-!
# Cooldown — how far apart a Trigger fires

`handle` compares the time it was called at with the time on record for the
Trigger, and puts its own time on record once the action has ended. An action
that is still under way is on no record, one that ends late overwrites the
record of a younger one, and the time that is recorded may be long past when
the action begins. Where a call begins an action with none of its kind under
way, and at the time it has read, the record is not before any action that
completed.
-/

namespace Fusion

open Transition

variable {F : Type}

/-- The invocation that a call is suspended in, and the Trigger it is for. -/
def HandlePc.waitsFor : HandlePc → Option (Nat × Trigger)
  | .aborting k u _ => some (k, u)
  | _ => none

/-- The invocation may come to its end without an error. -/
def Answer.mayComplete : Answer → Bool
  | .ends (.raises _ _) => false
  | _ => true

/-- The state an invocation ends in. -/
def ActionEnd.state : ActionEnd → InvocationState
  | .returns => .completed
  | .raises _ _ => .failed

namespace TriggerCalls

variable {ops : ValueOps F} {s t : TriggerCalls} {l : TriggerLabel} {id : String}

/-! ## The law -/

/-- The invocations of a Trigger that count are begun at least its cooldown
apart. -/
def Spaced (u : Trigger) (counts : InvocationState → Prop) (s : TriggerCalls) : Prop :=
  ∀ (j : Nat) (b : Invocation), s.invocations[j]? = some b → counts (s.states j) →
    ∀ k < j, ∀ a : Invocation, s.invocations[k]? = some a → counts (s.states k) →
      a.trigger = u → b.trigger = u → ¬ Within u.cooldownMs a.begun b.begun

/-- The Trigger whose action the step begins, unless it raises at once. -/
def begins (ops : ValueOps F) (s : TriggerCalls) : TriggerLabel → Option Trigger
  | .visit answer _ => do
      let i ← s.running
      let c ← s.calls i
      match c.pc with
      | .visiting (u :: _) =>
          if (s.engine.check ops s.showState c.now c.event u).2 && answer.mayComplete then some u
          else none
      | _ => none
  | _ => none

/-- If the step begins an action of a Trigger with this id, no other is under
way, and the time that its call has read is the present. -/
def Undisturbed (ops : ValueOps F) (id : String) (s : TriggerCalls) (l : TriggerLabel) : Prop :=
  ∀ u ∈ s.begins ops l, u.triggerId = id →
    (∀ k < s.invocations.length, ∀ a ∈ s.invocations[k]?, a.trigger.triggerId = id →
      s.states k ≠ .underWay) ∧
    ∀ i ∈ s.running, ∀ c ∈ s.calls i, c.now = s.clock

instance (ops : ValueOps F) (id : String) (s : TriggerCalls) (l : TriggerLabel) :
    Decidable (Undisturbed ops id s l) :=
  inferInstanceAs (Decidable (∀ u ∈ s.begins ops l, u.triggerId = id →
    (∀ k < s.invocations.length, ∀ a ∈ s.invocations[k]?, a.trigger.triggerId = id →
      s.states k ≠ .underWay) ∧
    ∀ i ∈ s.running, ∀ c ∈ s.calls i, c.now = s.clock))

/-! ## What a step does -/

/-- What a step of the call `i` makes of the calls: it is itself at `pc`. -/
structure MovesTo (s t : TriggerCalls) (i : Nat) (c : HandleCall) (pc : HandlePc) : Prop where
  call : s.calls i = some c
  calls : t.calls = Function.update s.calls i (some { c with pc })
  clock : t.clock = s.clock

/-- Invocation `k`, of the Trigger `u`, comes to a state; the call `c` puts its
own time on record if that is the end of it. -/
structure Enters (s t : TriggerCalls) (c : HandleCall) (k : Nat) (u : Trigger)
    (state : InvocationState) : Prop where
  states : t.states = Function.update s.states k state
  lastFiredAt : t.engine.lastFiredAt =
    if state = .completed then s.engine.lastFiredAt.set u.triggerId c.now
    else s.engine.lastFiredAt

/-- What a step means to the invocations and to the times on record. -/
inductive Moves (ops : ValueOps F) (s : TriggerCalls) (l : TriggerLabel) (t : TriggerCalls) : Prop
  /-- no action begins or ends -/
  | stands (begins : s.begins ops l = none) (clock : s.clock ≤ t.clock)
      (calls : ∀ i c, t.calls i = some c → s.calls i = some c ∨ c.pc.waitsFor = none)
      (invocations : t.invocations = s.invocations) (states : t.states = s.states)
      (lastFiredAt : t.engine.lastFiredAt = s.engine.lastFiredAt)
  /-- the action that a call waits for ends -/
  | settles (begins : s.begins ops l = none) (i : Nat) (c : HandleCall) (pc : HandlePc) (k : Nat)
      (u : Trigger) (state : InvocationState) (moves : MovesTo s t i c pc)
      (waits : c.pc.waitsFor = some (k, u)) (loops : pc.waitsFor = none)
      (invocations : t.invocations = s.invocations) (enters : Enters s t c k u state)
  /-- an action begins, and ends or suspends -/
  | begins (i : Nat) (c : HandleCall) (pc : HandlePc) (u : Trigger) (state : InvocationState)
      (running : s.running = some i) (moves : MovesTo s t i c pc)
      (go : (s.engine.check ops s.showState c.now c.event u).2 = true)
      (waits : pc.waitsFor = none ∨
        pc.waitsFor = some (s.invocations.length, u) ∧ state = .underWay)
      (begins : s.begins ops l = if state = .failed then none else some u)
      (invocations : t.invocations = s.invocations ++ [⟨u, s.clock⟩])
      (enters : Enters s t c s.invocations.length u state)

/-- Another call than the one that moves is where it was. -/
theorem MovesTo.cases {i : Nat} {c : HandleCall} {pc : HandlePc} (h : MovesTo s t i c pc)
    {j : Nat} {d : HandleCall} (hd : t.calls j = some d) :
    (j = i ∧ d = { c with pc }) ∨ (j ≠ i ∧ s.calls j = some d) := by
  rw [h.calls] at hd
  by_cases hj : j = i
  · subst hj
    rw [Function.update_self] at hd
    exact .inl ⟨rfl, (Option.some.inj hd).symm⟩
  · rw [Function.update_of_ne hj] at hd
    exact .inr ⟨hj, hd⟩

/-- A round of the loop that calls no action. -/
theorem MovesTo.stands {i : Nat} {c : HandleCall} {pc : HandlePc} (h : MovesTo s t i c pc)
    (begins : s.begins ops l = none) (loops : pc.waitsFor = none)
    (invocations : t.invocations = s.invocations) (states : t.states = s.states)
    (lastFiredAt : t.engine.lastFiredAt = s.engine.lastFiredAt) : Moves ops s l t := by
  refine .stands begins h.clock.ge ?_ invocations states lastFiredAt
  intro j d hd
  rcases h.cases hd with ⟨-, rfl⟩ | ⟨-, hd⟩
  · exact .inr loops
  · exact .inl hd

theorem settle_moves (s : TriggerCalls) {i : Nat} {c : HandleCall} (hc : s.calls i = some c)
    (k : Nat) (u : Trigger) (rest : List Trigger) (how : ActionEnd) :
    ∃ pc, MovesTo s (s.settle i c k u rest how) i c pc ∧ pc.waitsFor = none ∧
      (s.settle i c k u rest how).invocations = s.invocations ∧
      Enters s (s.settle i c k u rest how) c k u how.state := by
  cases how with
  | returns => exact ⟨_, ⟨hc, rfl, rfl⟩, rfl, rfl, rfl, rfl⟩
  | raises message hookRaises =>
    simp only [settle]
    split
    · refine ⟨_, ⟨hc, rfl, rfl⟩, ?_, rfl, rfl, rfl⟩
      cases hookRaises <;> rfl
    · exact ⟨_, ⟨hc, rfl, rfl⟩, rfl, rfl, rfl, rfl⟩

theorem visit_moves {i : Nat} {c : HandleCall} {u : Trigger} {rest : List Trigger}
    {answer : Answer} {showState : ShowState} (hi : s.running = some i) (hc : s.calls i = some c)
    (hpc : c.pc = .visiting (u :: rest))
    (h : s.visit ops i c u rest answer showState = some t) :
    Moves ops s (.visit answer showState) t := by
  have hbegins : s.begins ops (.visit answer showState) =
      if (s.engine.check ops s.showState c.now c.event u).2 && answer.mayComplete
      then some u else none := by
    simp [begins, hi, hc, hpc]
  unfold visit at h
  dsimp only at h
  split at h
  · rename_i hgo
    rw [hgo, Bool.true_and] at hbegins
    cases answer with
    | ends how =>
      cases h
      obtain ⟨pc, moves, loops, hinv, enters⟩ := settle_moves
        { s with
          engine := (s.engine.check ops s.showState c.now c.event u).1
          invocations := s.invocations ++ [⟨u, s.clock⟩]
          showState } hc s.invocations.length u rest how
      refine .begins i c pc u how.state hi ⟨hc, moves.calls, moves.clock⟩ hgo (.inl loops) ?_
        hinv ⟨enters.states, ?_⟩
      · cases how <;> exact hbegins
      · simpa using enters.lastFiredAt
    | suspends =>
      dsimp only at h
      split at h <;> cases h
      exact .begins i c _ u .underWay hi ⟨hc, rfl, rfl⟩ hgo (.inr ⟨rfl, rfl⟩) hbegins rfl
        ⟨rfl, TriggerEngine.check_lastFiredAt⟩
  · rename_i hgo
    cases h
    rw [if_neg (by simp [hgo])] at hbegins
    exact MovesTo.stands ⟨hc, rfl, rfl⟩ hbegins rfl rfl rfl TriggerEngine.check_lastFiredAt

theorem step_moves (h : s.step ops l = some t) : Moves ops s l t := by
  cases l with
  | tick now =>
    simp only [step] at h
    split at h <;> cases h
    rename_i hguard
    exact .stands rfl hguard.2 (fun i c hc => .inl hc) rfl rfl rfl
  | showMoves showState =>
    simp only [step] at h
    split at h <;> cases h
    exact .stands rfl le_rfl (fun i c hc => .inl hc) rfl rfl rfl
  | arrive i event =>
    simp only [step] at h
    split at h <;> cases h
    refine .stands rfl le_rfl ?_ rfl rfl rfl
    intro j c hc
    by_cases hj : j = i
    · subst hj
      cases (Function.update_self ..).symm.trans hc
      exact .inr rfl
    · exact .inl ((Function.update_of_ne hj ..).symm.trans hc)
  | visit answer showState =>
    obtain ⟨i, hi, h⟩ := Option.bind_eq_some_iff.mp h
    obtain ⟨c, hc, h⟩ := Option.bind_eq_some_iff.mp h
    split at h
    · rename_i hpc
      cases h
      exact MovesTo.stands ⟨hc, rfl, rfl⟩ (by simp [begins, hi, hc, hpc]) rfl rfl rfl rfl
    · rename_i hpc
      exact visit_moves hi hc hpc h
    · cases h
  | aborted i how =>
    obtain ⟨c, hc, h⟩ := Option.bind_eq_some_iff.mp h
    split at h
    · rename_i k u rest _ hpc
      cases h
      obtain ⟨pc, moves, loops, hinv, enters⟩ := settle_moves s hc k u rest how
      exact .settles rfl i c pc k u how.state moves (by rw [hpc]; rfl) loops hinv enters
    · cases h
  | cancel i =>
    obtain ⟨c, hc, h⟩ := Option.bind_eq_some_iff.mp h
    split at h
    · rename_i k u _ _ hpc
      cases h
      exact .settles rfl i c .raised k u .failed ⟨hc, rfl, rfl⟩ (by rw [hpc]; rfl) rfl rfl
        ⟨rfl, rfl⟩
    · cases h

/-! ## The invariant -/

/-- Actions begin one after another, and calls wait for invocations of their
own that are under way. -/
structure Inv (s : TriggerCalls) : Prop where
  begun_le : ∀ a ∈ s.invocations, a.begun ≤ s.clock
  inOrder : s.invocations.Pairwise fun a b => a.begun ≤ b.begun
  underWay : ∀ i c k u, s.calls i = some c → c.pc.waitsFor = some (k, u) →
    s.states k = .underWay ∧ ∃ begun, s.invocations[k]? = some ⟨u, begun⟩
  apart : ∀ i j c d k u v, s.calls i = some c → s.calls j = some d →
    c.pc.waitsFor = some (k, u) → d.pc.waitsFor = some (k, v) → i = j

theorem inv_init (triggers : List Trigger) (hook : Bool) (showState : ShowState) (clock : ℚ) :
    Inv (init triggers hook showState clock) where
  begun_le := by
    intro a ha
    cases ha
  inOrder := .nil
  underWay := by
    intro i c k u hc
    cases hc
  apart := by
    intro i j c d k u v hc
    cases hc

/-- Who waits was waiting, for an invocation that is as it was. -/
theorem Inv.of_waiting (hi : Inv s) (clock : s.clock ≤ t.clock)
    (hold : ∀ i c k u, t.calls i = some c → c.pc.waitsFor = some (k, u) →
      s.calls i = some c ∧ t.states k = s.states k)
    (hinv : t.invocations = s.invocations) : Inv t := by
  refine ⟨?_, hinv ▸ hi.inOrder, ?_, ?_⟩
  · intro a ha
    rw [hinv] at ha
    exact (hi.begun_le a ha).trans clock
  · intro i c k u hc hk
    obtain ⟨hc, hstate⟩ := hold i c k u hc hk
    rw [hinv, hstate]
    exact hi.underWay i c k u hc hk
  · intro i j c d k u v hc hd hck hdk
    exact hi.apart i j c d k u v (hold i c k u hc hck).1 (hold j d k v hd hdk).1 hck hdk

/-- Who waits after an action has ended waits for another one. -/
theorem Inv.waiting_settled (hi : Inv s) {i : Nat} {c : HandleCall} {pc : HandlePc} {k : Nat}
    {u : Trigger} {state : InvocationState} (moves : MovesTo s t i c pc)
    (waits : c.pc.waitsFor = some (k, u)) (loops : pc.waitsFor = none)
    (enters : Enters s t c k u state) (j : Nat) (d : HandleCall) (m : Nat) (v : Trigger)
    (hd : t.calls j = some d) (hm : d.pc.waitsFor = some (m, v)) :
    s.calls j = some d ∧ t.states m = s.states m := by
  rcases moves.cases hd with ⟨-, rfl⟩ | ⟨hji, hd⟩
  · cases loops.symm.trans hm
  · have hmk : m ≠ k := by
      rintro rfl
      exact hji (hi.apart j i d c m v u hd moves.call hm waits)
    exact ⟨hd, by rw [enters.states, Function.update_of_ne hmk]⟩

/-- Who waits after an action has begun began it, or was waiting. -/
theorem Inv.waiting_begun (hi : Inv s) {i : Nat} {c : HandleCall} {pc : HandlePc} {u : Trigger}
    {state : InvocationState} (moves : MovesTo s t i c pc)
    (waits : pc.waitsFor = none ∨
      pc.waitsFor = some (s.invocations.length, u) ∧ state = .underWay)
    {j : Nat} {d : HandleCall} {m : Nat} {v : Trigger} (hd : t.calls j = some d)
    (hm : d.pc.waitsFor = some (m, v)) :
    (j = i ∧ d.now = c.now ∧ m = s.invocations.length ∧ v = u ∧ state = .underWay) ∨
      (s.calls j = some d ∧ m < s.invocations.length) := by
  rcases moves.cases hd with ⟨hj, rfl⟩ | ⟨-, hd⟩
  · rcases waits with hnone | ⟨hlast, hstate⟩
    · cases hnone.symm.trans hm
    · cases hlast.symm.trans hm
      exact .inl ⟨hj, rfl, rfl, rfl, hstate⟩
  · obtain ⟨-, begun, hget⟩ := hi.underWay j d m v hd hm
    exact .inr ⟨hd, (List.getElem?_eq_some_iff.mp hget).1⟩

/-- The invocation that is new is nobody else's. -/
theorem Inv.begun (hi : Inv s) {i : Nat} {c : HandleCall} {pc : HandlePc} {u : Trigger}
    {state : InvocationState} (moves : MovesTo s t i c pc)
    (waits : pc.waitsFor = none ∨
      pc.waitsFor = some (s.invocations.length, u) ∧ state = .underWay)
    (invocations : t.invocations = s.invocations ++ [⟨u, s.clock⟩])
    (enters : Enters s t c s.invocations.length u state) : Inv t := by
  refine ⟨?_, ?_, ?_, ?_⟩
  · intro a ha
    rw [invocations, List.mem_append, List.mem_singleton] at ha
    rw [moves.clock]
    rcases ha with ha | rfl
    · exact hi.begun_le a ha
    · exact le_rfl
  · rw [invocations, List.pairwise_append]
    refine ⟨hi.inOrder, List.pairwise_singleton .., ?_⟩
    intro a ha b hb
    rw [List.mem_singleton] at hb
    exact hb ▸ hi.begun_le a ha
  · intro j d m v hd hm
    rw [invocations, enters.states]
    rcases hi.waiting_begun moves waits hd hm with ⟨-, -, rfl, rfl, rfl⟩ | ⟨hd, hlt⟩
    · exact ⟨Function.update_self .., s.clock, List.getElem?_concat_length⟩
    · rw [Function.update_of_ne hlt.ne, List.getElem?_append_left hlt]
      exact hi.underWay j d m v hd hm
  · intro j j' d d' m v v' hd hd' hm hm'
    rcases hi.waiting_begun moves waits hd hm with ⟨hj, -, hlast, -, -⟩ | ⟨hd, hlt⟩
    · rcases hi.waiting_begun moves waits hd' hm' with ⟨hj', -, -, -, -⟩ | ⟨-, hlt⟩
      · exact hj.trans hj'.symm
      · exact absurd hlast hlt.ne
    · rcases hi.waiting_begun moves waits hd' hm' with ⟨-, -, hlast, -, -⟩ | ⟨hd', -⟩
      · exact absurd hlast hlt.ne
      · exact hi.apart j j' d d' m v v' hd hd' hm hm'

theorem Inv.step (hi : Inv s) (h : s.step ops l = some t) : Inv t := by
  cases step_moves h with
  | stands _ clock calls invocations states _ =>
    refine hi.of_waiting clock ?_ invocations
    intro i c k u hc hk
    rcases calls i c hc with hc | hnone
    · exact ⟨hc, congrFun states k⟩
    · cases hnone.symm.trans hk
  | settles _ i c pc k u state moves waits loops invocations enters =>
    exact hi.of_waiting moves.clock.ge (hi.waiting_settled moves waits loops enters) invocations
  | begins i c pc u state _ moves _ waits _ invocations enters =>
    exact hi.begun moves waits invocations enters

/-! ## The record -/

/-- The time on record for an id, now and after the calls that are still in
their `abort`, is not before an action that has or may have completed. -/
structure Recorded (id : String) (s : TriggerCalls) : Prop where
  completed : ∀ k a, s.invocations[k]? = some a → a.trigger.triggerId = id →
    s.states k = .completed → ∃ fired ∈ s.engine.lastFiredAt.get id, a.begun ≤ fired
  waiting : ∀ i c k u, s.calls i = some c → c.pc.waitsFor = some (k, u) → u.triggerId = id →
    ∀ j a, s.invocations[j]? = some a → a.trigger.triggerId = id → s.states j ≠ .failed →
      a.begun ≤ c.now

theorem recorded_init (id : String) (triggers : List Trigger) (hook : Bool)
    (showState : ShowState) (clock : ℚ) :
    Recorded id (init triggers hook showState clock) where
  completed := by
    intro k a ha
    cases ha
  waiting := by
    intro i c k u hc
    cases hc

/-- What has not failed after an action has ended had not before. -/
theorem Enters.unfailed {c : HandleCall} {k : Nat} {u : Trigger} {state : InvocationState}
    (h : Enters s t c k u state) (hk : s.states k = .underWay) {j : Nat}
    (hj : t.states j ≠ .failed) : s.states j ≠ .failed := by
  by_cases hjk : j = k
  · rw [hjk, hk]
    decide
  · rwa [h.states, Function.update_of_ne hjk] at hj

/-- The record of an id changes only with an action of that id that completes. -/
theorem Enters.get {c : HandleCall} {k : Nat} {u : Trigger} {state : InvocationState}
    (h : Enters s t c k u state) (id : String) :
    t.engine.lastFiredAt.get id =
      if state = .completed ∧ u.triggerId = id then some c.now
      else s.engine.lastFiredAt.get id := by
  rw [h.lastFiredAt]
  by_cases hstate : state = .completed
  · simp [hstate, Dict.get_set]
  · simp [hstate]

theorem Recorded.settled (hr : Recorded id s) (hi : Inv s) {i : Nat} {c : HandleCall}
    {pc : HandlePc} {k : Nat} {u : Trigger} {state : InvocationState}
    (moves : MovesTo s t i c pc) (waits : c.pc.waitsFor = some (k, u))
    (loops : pc.waitsFor = none) (invocations : t.invocations = s.invocations)
    (enters : Enters s t c k u state) : Recorded id t := by
  obtain ⟨hunder, begun, hget⟩ := hi.underWay i c k u moves.call waits
  refine ⟨?_, ?_⟩
  · intro j a ha hid hj
    rw [invocations] at ha
    rw [enters.get id]
    split
    · rename_i hset
      have hbefore : s.states j ≠ .failed := enters.unfailed hunder (by rw [hj]; decide)
      exact ⟨c.now, rfl, hr.waiting i c k u moves.call waits hset.2 j a ha hid hbefore⟩
    · rename_i hkept
      have hjk : j ≠ k := by
        rintro rfl
        cases hget.symm.trans ha
        rw [enters.states, Function.update_self] at hj
        exact hkept ⟨hj, hid⟩
      rw [enters.states, Function.update_of_ne hjk] at hj
      exact hr.completed j a ha hid hj
  · intro j d m v hd hm hv n a ha hid hn
    rw [invocations] at ha
    exact hr.waiting j d m v (hi.waiting_settled moves waits loops enters j d m v hd hm).1 hm hv
      n a ha hid (enters.unfailed hunder hn)

/-- An invocation is the one that is new, or was there before. -/
theorem Enters.invocation_cases {c : HandleCall} {u : Trigger} {state : InvocationState}
    (h : Enters s t c s.invocations.length u state)
    (invocations : t.invocations = s.invocations ++ [⟨u, s.clock⟩]) {j : Nat} {a : Invocation}
    (ha : t.invocations[j]? = some a) :
    (j < s.invocations.length ∧ s.invocations[j]? = some a ∧ t.states j = s.states j) ∨
      (j = s.invocations.length ∧ a = ⟨u, s.clock⟩ ∧ t.states j = state) := by
  have hlt := (List.getElem?_eq_some_iff.mp ha).1
  rw [invocations, List.length_append, List.length_singleton] at hlt
  rcases Nat.lt_succ_iff_lt_or_eq.mp hlt with hold | rfl
  · rw [invocations, List.getElem?_append_left hold] at ha
    exact .inl ⟨hold, ha, by rw [h.states, Function.update_of_ne hold.ne]⟩
  · rw [invocations, List.getElem?_concat_length] at ha
    exact .inr ⟨rfl, (Option.some.inj ha).symm, by rw [h.states, Function.update_self]⟩

/-- An action that begins while no other of its id is under way, at the time of
its call, leaves none behind the record. -/
theorem Recorded.begun (hr : Recorded id s) (hi : Inv s) {i : Nat} {c : HandleCall}
    {pc : HandlePc} {u : Trigger} {state : InvocationState} (moves : MovesTo s t i c pc)
    (waits : pc.waitsFor = none ∨
      pc.waitsFor = some (s.invocations.length, u) ∧ state = .underWay)
    (invocations : t.invocations = s.invocations ++ [⟨u, s.clock⟩])
    (enters : Enters s t c s.invocations.length u state)
    (hok : state ≠ .failed → u.triggerId = id → c.now = s.clock ∧
      ∀ k a, s.invocations[k]? = some a → a.trigger.triggerId = id → s.states k ≠ .underWay) :
    Recorded id t := by
  have ht : Inv t := hi.begun moves waits invocations enters
  refine ⟨?_, ?_⟩
  · intro j a ha hid hj
    rw [enters.get id]
    split
    · rename_i hset
      obtain ⟨hnow, -⟩ := hok (by rw [hset.1]; decide) hset.2
      refine ⟨c.now, rfl, ?_⟩
      rw [hnow, ← moves.clock]
      exact ht.begun_le a (List.mem_of_getElem? ha)
    · rename_i hkept
      rcases enters.invocation_cases invocations ha with ⟨-, ha, hsame⟩ | ⟨-, rfl, hnew⟩
      · exact hr.completed j a ha hid (hsame ▸ hj)
      · exact absurd ⟨hnew.symm.trans hj, hid⟩ hkept
  · intro j d m v hd hm hv n a ha hid hn
    rcases hi.waiting_begun moves waits hd hm with ⟨-, hd, -, rfl, rfl⟩ | ⟨hd, -⟩
    · rw [hd, (hok (by decide) hv).1, ← moves.clock]
      exact ht.begun_le a (List.mem_of_getElem? ha)
    · rcases enters.invocation_cases invocations ha with ⟨-, ha, hsame⟩ | ⟨-, rfl, hnew⟩
      · exact hr.waiting j d m v hd hm hv n a ha hid (hsame ▸ hn)
      · obtain ⟨hunder, begun, hget⟩ := hi.underWay j d m v hd hm
        exact absurd hunder ((hok (hnew ▸ hn) hid).2 m ⟨v, begun⟩ hget hv)

/-- What the condition says of the call that begins an action. -/
theorem Undisturbed.of_begins (hok : s.Undisturbed ops id l) {i : Nat} {c : HandleCall}
    {u : Trigger} {state : InvocationState} (running : s.running = some i)
    (call : s.calls i = some c) (begins : s.begins ops l = if state = .failed then none else some u)
    (hstate : state ≠ .failed) (hid : u.triggerId = id) : c.now = s.clock ∧
      ∀ k a, s.invocations[k]? = some a → a.trigger.triggerId = id → s.states k ≠ .underWay := by
  rw [if_neg hstate] at begins
  obtain ⟨quiet, hnow⟩ := hok u begins hid
  refine ⟨hnow i running c call, ?_⟩
  intro k a ha
  exact quiet k (List.getElem?_eq_some_iff.mp ha).1 a ha

theorem Recorded.step (hr : Recorded id s) (hi : Inv s) (h : s.step ops l = some t)
    (hok : s.Undisturbed ops id l) : Recorded id t := by
  cases step_moves h with
  | stands _ _ calls invocations states lastFiredAt =>
    refine ⟨?_, ?_⟩
    · rw [invocations, states, lastFiredAt]
      exact hr.completed
    · intro i c k u hc hk
      rw [invocations, states]
      rcases calls i c hc with hc | hnone
      · exact hr.waiting i c k u hc hk
      · cases hnone.symm.trans hk
  | settles _ i c pc k u state moves waits loops invocations enters =>
    exact hr.settled hi moves waits loops invocations enters
  | begins i c pc u state running moves _ waits begins invocations enters =>
    exact hr.begun hi moves waits invocations enters (hok.of_begins running moves.call begins)

/-! ## One step -/

/-- **A step keeps the invocations apart**, if it begins none while another one
is under way or with a time of the past. -/
theorem Spaced.step {u : Trigger} (hs : s.Spaced u (· ≠ .failed)) (hi : Inv s)
    (hr : Recorded u.triggerId s) (h : s.step ops l = some t)
    (hok : s.Undisturbed ops u.triggerId l) : t.Spaced u (· ≠ .failed) := by
  intro j b hb hj m hm a ha hma
  cases step_moves h with
  | stands _ _ _ invocations states _ =>
    rw [invocations] at hb ha
    rw [states] at hj hma
    exact hs j b hb hj m hm a ha hma
  | settles _ i c pc k v state moves waits _ invocations enters =>
    have hunder := (hi.underWay i c k v moves.call waits).1
    rw [invocations] at hb ha
    exact hs j b hb (enters.unfailed hunder hj) m hm a ha (enters.unfailed hunder hma)
  | begins i c pc v state running moves go _ begins invocations enters =>
    rcases enters.invocation_cases invocations ha with ⟨-, ha, hsame⟩ | ⟨hmlast, -, -⟩
    · rcases enters.invocation_cases invocations hb with ⟨-, hb, hbsame⟩ | ⟨-, rfl, hnew⟩
      · exact hs j b hb (hbsame ▸ hj) m hm a ha (hsame ▸ hma)
      · rintro rfl rfl hwithin
        obtain ⟨hnow, quiet⟩ := hok.of_begins running moves.call begins (hnew ▸ hj) rfl
        have hcompleted : s.states m = .completed := by
          cases hstate : s.states m with
          | underWay => exact absurd hstate (quiet m a ha rfl)
          | completed => rfl
          | failed => exact absurd (hsame.trans hstate) hma
        -- the record held the call back
        obtain ⟨fired, hfired, hle⟩ := hr.completed m a ha rfl hcompleted
        have hopen := (TriggerEngine.check_go.mp go).2.2.2 fired hfired
        rw [hnow] at hopen
        exact hopen (hwithin.mono hle)
    · rcases enters.invocation_cases invocations hb with ⟨hjold, -, -⟩ | ⟨hjlast, -, -⟩ <;> omega

/-! ## Whole runs -/

theorem Spaced.of_unfailed {u : Trigger} (h : s.Spaced u (· ≠ .failed)) :
    s.Spaced u (· = .completed) := by
  intro j b hb hj k hk a ha hka
  exact h j b hb (by rw [hj]; decide) k hk a ha (by rw [hka]; decide)

/-- Without a cooldown there is nothing to keep. -/
theorem Inv.spaced (hi : Inv s) {u : Trigger} (hu : u.cooldownMs ≤ 0)
    (counts : InvocationState → Prop) : s.Spaced u counts := by
  intro j b hb _ k hk a ha _ _ _ hwithin
  obtain ⟨hklt, rfl⟩ := List.getElem?_eq_some_iff.mp ha
  obtain ⟨hjlt, rfl⟩ := List.getElem?_eq_some_iff.mp hb
  have hle := List.pairwise_iff_getElem.mp hi.inOrder k j hklt hjlt hk
  unfold Within at hwithin
  linarith

/-- **The cooldown** of a Trigger is kept throughout a run in which no call
begins an action under its id while another one is under way, or after a wait:
the invocations that complete are a cooldown apart. -/
theorem cooldown_kept (ops : ValueOps F) (triggers : List Trigger) (hook : Bool)
    (showState : ShowState) (clock : ℚ) {xs : List (Step (step ops))}
    (run : Run (step ops) (init triggers hook showState clock) xs s) (u : Trigger)
    (hok : 0 < u.cooldownMs → ∀ x ∈ xs, x.src.Undisturbed ops u.triggerId x.label) :
    ∀ x ∈ xs, x.dst.Spaced u (· = .completed) := by
  intro x hx
  rcases le_or_gt u.cooldownMs 0 with hnone | hsome
  · have hinv : Inv x.src :=
      (run.src_reachable hx).invariant (inv_init ..) (fun _ _ _ hi h => hi.step h)
    exact (hinv.step x.fired).spaced hnone _
  · obtain ⟨hsrc, -⟩ := run.invariant_of
      (I := fun s => Inv s ∧ Recorded u.triggerId s ∧ s.Spaced u (· ≠ .failed))
      (fun x => x.src.Undisturbed ops u.triggerId x.label)
      ⟨inv_init .., recorded_init .., fun j b hb => by cases hb⟩
      (fun x hi hx => ⟨hi.1.step x.fired, hi.2.1.step hi.1 x.fired hx,
        hi.2.2.step hi.1 hi.2.1 x.fired hx⟩) (hok hsome)
    obtain ⟨hi, hr, hs⟩ := hsrc x hx
    exact (hs.step hi hr x.fired (hok hsome x hx)).of_unfailed

/-- An emergency button with a cooldown of a second. -/
def stopButton : Trigger where
  triggerId := "t1"
  condition := ⟨none, Text.of "stop", .eq, .bool true⟩
  action := .abort
  showStates := none
  debounceMs := 0
  cooldownMs := 1000

/-- The event of the button, from one source. -/
def press (source : String) : InputEvent := ⟨source, Text.of "stop", .bool true, 0⟩

/-- Three presses, handled one after another: the `abort` of the first takes a
quarter of a second, the second comes within the cooldown and is ignored. -/
theorem cooldown_kept_pressed : ∃ (xs : List (Step (step ValueOps.plain))) (s : TriggerCalls),
    Run (step ValueOps.plain) (init [stopButton] false .running 0) xs s ∧
    s.invocations.map Invocation.begun = [0, 3 / 2] ∧ s.states 0 = .completed ∧
    s.states 1 = .completed ∧ ∀ x ∈ xs, x.dst.Spaced stopButton (· = .completed) := by
  obtain ⟨xs, s, run, hs⟩ := execSteps_test (step ValueOps.plain)
    (init [stopButton] false .running 0)
    [.arrive 0 (press "panel"), .visit .suspends .running, .tick (1 / 4), .aborted 0 .returns,
      .visit .suspends .running, .tick (1 / 2), .arrive 1 (press "panel"),
      .visit .suspends .running, .visit .suspends .running, .tick (3 / 2),
      .arrive 2 (press "panel"), .visit (.ends .returns) .running]
    (fun r => r.1.all (fun x => x.src.Undisturbed ValueOps.plain "t1" x.label) &&
      decide (r.2.invocations.map Invocation.begun = [0, 3 / 2] ∧ r.2.states 0 = .completed ∧
        r.2.states 1 = .completed)) (by decide +kernel)
  obtain ⟨hok, hend⟩ := (Bool.and_eq_true ..).mp hs
  obtain ⟨hbegun, h0, h1⟩ := of_decide_eq_true hend
  refine ⟨xs, s, run, hbegun, h0, h1, ?_⟩
  exact cooldown_kept ValueOps.plain [stopButton] false .running 0 run stopButton
    fun _ x hx => of_decide_eq_true (List.all_eq_true.mp hok x hx)

/-- Two calls pass the test of the cooldown together, while the `abort` of the
first is under way. -/
theorem cooldown_overlapping : ¬ ∀ (triggers : List Trigger) (hook : Bool) (showState : ShowState)
    (clock : ℚ) (xs : List (Step (step ValueOps.plain))) (s : TriggerCalls),
    (triggers.map Trigger.triggerId).Nodup →
    Run (step ValueOps.plain) (init triggers hook showState clock) xs s →
    ∀ u ∈ triggers, ∀ x ∈ xs, x.dst.Spaced u (· = .completed) := by
  intro hall
  obtain ⟨xs, s, run, hs⟩ := execSteps_test (step ValueOps.plain)
    (init [stopButton] false .running 0)
    [.arrive 0 (press "panel"), .visit .suspends .running, .arrive 1 (press "panel"),
      .visit .suspends .running, .aborted 0 .returns, .visit .suspends .running,
      .aborted 1 .returns]
    (fun r => r.1.any fun x => decide (x.dst.states 0 = .completed ∧ x.dst.states 1 = .completed ∧
      x.dst.invocations = [⟨stopButton, 0⟩, ⟨stopButton, 0⟩])) (by decide +kernel)
  obtain ⟨x, hx, htwo⟩ := List.any_eq_true.mp hs
  obtain ⟨h0, h1, hinv⟩ := of_decide_eq_true htwo
  have hapart := hall [stopButton] false .running 0 xs s (by decide) run stopButton
    (List.mem_singleton_self _) x hx 1 ⟨stopButton, 0⟩ (by rw [hinv]; rfl) h1 0 (by decide)
    ⟨stopButton, 0⟩ (by rw [hinv]; rfl) h0 rfl rfl
  exact hapart (by decide +kernel)

end TriggerCalls

end Fusion
