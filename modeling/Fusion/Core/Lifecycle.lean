import Fusion.Core.RuntimeSteps

/-!
# Lifecycle — statuses only move forward, completion is reported once

The laws of a command's life, read off the effects of a step: how a record
may change (`Later`), and what the event history says about it (`EventInv`).
-/

namespace Fusion.DeviceRuntime

open Transition Relation

variable {V : Type} {s t : DeviceRuntime V}

/-! ## Records -/

/-- `t` comes after `s`: every record is still there, in a later state. -/
def Later (s t : DeviceRuntime V) : Prop :=
  ∀ c r, s.getCommand c = some r → ∃ r', t.getCommand c = some r' ∧ r.Le r'

theorem Later.refl (s : DeviceRuntime V) : Later s s := fun _ r hr => ⟨r, hr, .refl r⟩

theorem Later.trans {u : DeviceRuntime V} (h : Later s t) (h' : Later t u) : Later s u := by
  intro c r hr
  obtain ⟨r', hr', hle⟩ := h c r hr
  obtain ⟨r'', hr'', hle'⟩ := h' c r' hr'
  exact ⟨r'', hr'', hle.trans hle'⟩

section
variable [BEq V]

theorem Effect.later (h : Effect s t) : Later s t := by
  intro c r hr
  cases h with
  | frame ledger _ _ _ => exact ⟨r, by simpa only [getCommand, ledger] using hr, .refl r⟩
  | event _ _ => exact ⟨r, hr, .refl r⟩
  | begun req r' _ _ _ _ hfresh =>
    have hne : r'.commandId ≠ c := by
      rintro rfl
      rw [hfresh] at hr
      cases hr
    exact ⟨r, by rw [getCommand_admitted, if_neg hne, hr], .refl r⟩
  | change old r' hold _ hle =>
    by_cases hc : r'.commandId = c
    · subst hc
      obtain rfl : old = r := Option.some.inj (hold.symm.trans hr)
      exact ⟨r', getCommand_change_self s r', hle⟩
    · exact ⟨r, (getCommand_change_ne s hc).trans hr, .refl r⟩

theorem Effects.later (h : Effects s t) : Later s t := by
  induction h with
  | refl => exact .refl s
  | tail _ he ih => exact ih.trans he.later

end

/-! ## Events -/

/-- The events published about a command. -/
def history (s : DeviceRuntime V) (c : CommandId) : List Event :=
  s.published.filter fun e => e.commandId = some c

/-- Its `command.completed` events. -/
def completions (s : DeviceRuntime V) (c : CommandId) : List Event :=
  (s.history c).filter fun e => e.type = .commandCompleted

/-- What the events `es` of a command say about its record. -/
inductive Reported (r : CommandRecord V) : List Event → Prop
  | live {es : List Event} (live : r.status ≠ .terminal)
      (hes : ∀ e ∈ es, e.type ≠ .commandCompleted) : Reported r es
  | done {es : List Event} {e : Event} (done : r.status = .terminal)
      (hes : ∀ e ∈ es, e.type ≠ .commandCompleted) (he : e.type = .commandCompleted)
      (payload : e.payload = .completed r.outcome r.achievedCompletion) :
      Reported r (es ++ [e])

/-- **The event invariant**: the bus numbers the history, nothing is said of
commands that do not exist, and each record is reported. -/
structure EventInv (s : DeviceRuntime V) : Prop where
  bus : s.events.Inv s.published
  silent : ∀ c, s.getCommand c = none → s.history c = []
  reported : ∀ c r, s.getCommand c = some r → Reported r (s.history c)

theorem history_publish (s : DeviceRuntime V) (f : EventFields) (c : CommandId) :
    (s.publish f).history c
      = s.history c ++ if f.commandId = some c then [s.events.stamp f] else [] := by
  simp only [history, publish, List.filter_append, List.filter_cons, List.filter_nil]
  have hid : (s.events.stamp f).commandId = f.commandId := rfl
  by_cases hc : f.commandId = some c <;> simp [hid, hc]

theorem history_change_self (s : DeviceRuntime V) (r : CommandRecord V) :
    (s.change r).history r.commandId = s.history r.commandId ++ [s.events.stamp (changeEvent r)] :=
  (history_publish ..).trans (by simp [changeEvent, history])

theorem history_change_ne (s : DeviceRuntime V) {r : CommandRecord V} {c : CommandId}
    (h : r.commandId ≠ c) : (s.change r).history c = s.history c :=
  (history_publish ..).trans (by simp [changeEvent, h, history])

/-- The report of a change that a live record makes. -/
theorem Reported.change {old r : CommandRecord V} {es : List Event} (h : Reported old es)
    (hlive : old.status ≠ .terminal) (b : EventBus) :
    Reported r (es ++ [b.stamp (changeEvent r)]) := by
  cases h with
  | done hdone _ _ _ => exact absurd hdone hlive
  | live _ hes =>
    by_cases hr : r.status = .terminal
    · exact .done hr hes (by simp [EventBus.stamp, changeEvent, hr])
        (by simp [EventBus.stamp, changeEvent, hr])
    · refine .live hr fun e he => ?_
      rcases List.mem_append.mp he with he | he
      · exact hes e he
      · rw [List.mem_singleton] at he
        simp [he, EventBus.stamp, changeEvent, hr]

section
variable [BEq V]

theorem Effect.events (h : Effect s t) (hi : EventInv s) : EventInv t := by
  cases h with
  | frame ledger published events _ =>
    have hhist : ∀ c, t.history c = s.history c := fun c => by simp only [history, published]
    refine ⟨published ▸ events _ hi.bus, fun c hc => ?_, fun c r hr => ?_⟩
    · exact (hhist c).trans (hi.silent c (by simpa only [getCommand, ledger] using hc))
    · exact hhist c ▸ hi.reported c r (by simpa only [getCommand, ledger] using hr)
  | event f hf =>
    have hhist : ∀ c, (s.publish f).history c = s.history c := fun c => by
      simp [history_publish, hf]
    exact ⟨hi.bus.publish f, fun c hc => (hhist c).trans (hi.silent c hc),
      fun c r hr => hhist c ▸ hi.reported c r hr⟩
  | begun req r hq hf hstatus hreq hfresh =>
    have hhist : ∀ c, (s.admitted req r).history c = s.history c := fun _ => rfl
    refine ⟨hi.bus, fun c hc => ?_, fun c r' hr' => ?_⟩
    · rw [getCommand_admitted] at hc
      split at hc
      · cases hc
      · exact hi.silent c hc
    · rw [getCommand_admitted] at hr'
      rw [hhist]
      split at hr'
      · rename_i hc
        cases hr'
        exact .live (by simp [hstatus]) (by simp [← hc, hi.silent _ hfresh])
      · exact hi.reported c r' hr'
  | change old r hold hlive hle =>
    refine ⟨hi.bus.publish _, fun c hc => ?_, fun c r' hr' => ?_⟩
    · have hne : r.commandId ≠ c := by
        rintro rfl
        rw [getCommand_change_self] at hc
        cases hc
      rw [history_change_ne s hne]
      exact hi.silent c ((getCommand_change_ne s hne).symm.trans hc)
    · by_cases h : r.commandId = c
      · subst h
        obtain rfl : r = r' := Option.some.inj ((getCommand_change_self s r).symm.trans hr')
        rw [history_change_self]
        exact (hi.reported _ old hold).change hlive s.events
      · rw [history_change_ne s h]
        exact hi.reported c r' ((getCommand_change_ne s h).symm.trans hr')

omit [BEq V] in
theorem EventInv.init (runtimeId bootId : String) (now : ℚ) (targets : List String)
    (customGuard : Bool) :
    EventInv (DeviceRuntime.init (V := V) runtimeId bootId now targets customGuard) where
  bus := EventBus.inv_new ..
  silent := fun _ _ => rfl
  reported := by simp [DeviceRuntime.init, getCommand, CommandLedger.get, CommandLedger.new]

/-! ## Along runs -/

/-- The two invariants, as every reachable state has them. -/
theorem inv_reachable {runtimeId bootId : String} {now : ℚ} {targets : List String}
    {customGuard : Bool}
    (h : Reachable DeviceRuntime.step
      (DeviceRuntime.init (V := V) runtimeId bootId now targets customGuard) s) :
    OwnerInv s ∧ EventInv s := by
  refine h.invariant (I := fun u => OwnerInv u ∧ EventInv u)
    ⟨.init runtimeId bootId now targets customGuard,
      .init runtimeId bootId now targets customGuard⟩ ?_
  intro u l v hu hs
  exact ⟨hu.1.step hs,
    (step_moves hu.1 hs).effects.lift (P := EventInv) (fun _ _ he => he.events) hu.2⟩

/-- From an owner-invariant state, whatever runs, records only move forward. -/
theorem later_of_reachable (hs : OwnerInv s) (h : Reachable DeviceRuntime.step s t) :
    Later s t :=
  h.relates (I := OwnerInv) Later.refl (fun _ _ _ => Later.trans)
    (fun _ _ _ hi hs => hi.step hs) (fun _ _ _ hi hs => (step_moves hi hs).effects.later) hs

omit [BEq V] in
/-- A finished command has exactly one completion event, the last of its
events. -/
theorem EventInv.completed (h : EventInv s) {c : CommandId} {r : CommandRecord V}
    (hr : s.getCommand c = some r) (hdone : r.status = .terminal) :
    ∃ e, s.completions c = [e] ∧ e.payload = .completed r.outcome r.achievedCompletion ∧
      ∀ e' ∈ s.history c, e' ≠ e → e'.sequence < e.sequence := by
  have hordered : (s.history c).Pairwise (fun a b => a.sequence < b.sequence) := by
    have hpub : s.published.Pairwise (fun a b => a.sequence < b.sequence) := by
      rw [← List.pairwise_map (f := Event.sequence) (R := (· < ·)), h.bus.numbered]
      exact List.pairwise_lt_range'
    exact hpub.sublist List.filter_sublist
  unfold completions
  generalize hes : s.history c = es at hordered
  cases hes ▸ h.reported c r hr with
  | live hlive _ => exact absurd hdone hlive
  | @done es e _ hbefore he payload =>
    refine ⟨e, ?_, payload, ?_⟩
    · rw [List.filter_append, List.filter_eq_nil_iff.mpr (by simpa using hbefore)]
      simp [he]
    · intro e' he' hne
      rcases List.mem_append.mp he' with he' | he'
      · exact (List.pairwise_append.mp hordered).2.2 e' he' e (by simp)
      · exact absurd (List.mem_singleton.mp he') hne

omit [BEq V] in
/-- A command that is not finished has none. -/
theorem EventInv.not_completed (h : EventInv s) {c : CommandId}
    (hlive : ∀ r, s.getCommand c = some r → r.status ≠ .terminal) : s.completions c = [] := by
  unfold completions
  cases hr : s.getCommand c with
  | none => simp [h.silent c hr]
  | some r =>
    have hrep := h.reported c r hr
    generalize s.history c = es at hrep
    cases hrep with
    | live _ hes => exact List.filter_eq_nil_iff.mpr (by simpa using hes)
    | done hdone _ _ _ => exact absurd hdone (hlive r hr)

/-- **The command lifecycle**, for every run of a Runtime and every state
`t` reached after a state `s`. -/
theorem command_lifecycle (runtimeId bootId : String) (now : ℚ) (targets : List String)
    (customGuard : Bool)
    (hs : Reachable DeviceRuntime.step
      (DeviceRuntime.init (V := V) runtimeId bootId now targets customGuard) s)
    (ht : Reachable DeviceRuntime.step s t) :
    (∀ c r, s.getCommand c = some r → ∃ r', t.getCommand c = some r' ∧
      r.status.rank ≤ r'.status.rank ∧
      (r.status = .terminal → r'.status = .terminal ∧ r'.outcome = r.outcome ∧
        r'.achievedCompletion = r.achievedCompletion ∧ r'.error = r.error)) ∧
    (∀ c r, s.getCommand c = some r → r.status = .terminal →
      ∃ e, s.completions c = [e] ∧ e.payload = .completed r.outcome r.achievedCompletion ∧
        ∀ e' ∈ s.history c, e' ≠ e → e'.sequence < e.sequence) ∧
    (∀ c, (∀ r, s.getCommand c = some r → r.status ≠ .terminal) → s.completions c = []) := by
  obtain ⟨howner, hevents⟩ := inv_reachable hs
  refine ⟨fun c r hr => ?_, fun c r hr hdone => hevents.completed hr hdone,
    fun c hlive => hevents.not_completed hlive⟩
  obtain ⟨r', hr', hle⟩ := later_of_reachable howner ht c r hr
  refine ⟨r', hr', hle.rank, fun hdone => ?_⟩
  rw [hle.frozen hdone]
  exact ⟨hdone, rfl, rfl, rfl⟩

end

/-- A `move` that is observed to complete, from submission to its one
completion event. -/
theorem command_lifecycle_move :
    ∃ s, Reachable DeviceRuntime.step motorRuntime s ∧ ∃ e, s.completions "c1" = [e] := by
  obtain ⟨s, hs, hdone⟩ := exec_test DeviceRuntime.step motorRuntime
    ([.acquireControlSession "op" .manual none "cs1",
      .submitCommand (moveRequest "req-1" "cs1" 100 .observed) "c1" (.ok (fakeMotor "motor01")),
      .executeReturned "c1", .observe "c1" (.ok false), .advance 1, .observe "c1" (.ok true)])
    (fun s => (s.getCommand "c1").any fun r => r.status = .terminal) (by decide +kernel)
  obtain ⟨r, hr, hstatus⟩ := Option.any_eq_true _ _ |>.mp hdone
  obtain ⟨e, he, _⟩ := (command_lifecycle "motor-test" "boot1" 0 ["motor01"] false hs .refl).2.1
    "c1" r hr (by simpa using hstatus)
  exact ⟨s, hs, e, he⟩

end Fusion.DeviceRuntime
