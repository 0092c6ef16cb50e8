import Fusion.Core.Lifecycle
import Fusion.Core.TimelineExecutor

/-!
# Remote — a Runtime as its clients see it (transport/client.py)

What responses and events tell of a Runtime: for each command whether it is
finished and how, and the events by their sequence numbers. A command is
made, finished once, and its completion is logged in the same step; the
Runtime model refines this machine (`step_remote`).
-/

namespace Fusion

open Transition

/-- What a response carries of a record. -/
def CommandRecord.view {V : Type} (r : CommandRecord V) : CommandView :=
  match r.status, r.outcome with
  | .terminal, some outcome => .terminal outcome
  | _, _ => .inProgress

theorem CommandRecord.view_terminal {V : Type} {r : CommandRecord V} {outcome : CommandOutcome}
    (h : r.view = .terminal outcome) : r.status = .terminal ∧ r.outcome = some outcome := by
  unfold CommandRecord.view at h
  split at h
  · rename_i hstatus houtcome
    cases h
    exact ⟨hstatus, houtcome⟩
  · cases h

/-- What a listener reads of an event. -/
def Event.wire (e : Event) : WireEvent :=
  match e.type, e.commandId, e.payload with
  | .commandCompleted, some c, .completed (some outcome) _ => .completed c outcome
  | _, _, _ => .other

/-- A Runtime as its clients see it. -/
structure Remote where
  commands : CommandId → Option CommandView
  /-- the event of sequence `n + 1` at place `n` -/
  log : List WireEvent

/-- A command begins or ends, or another event is published. -/
inductive RemoteLabel
  | begins (c : CommandId)
  | finishes (c : CommandId) (outcome : CommandOutcome)
  | publishes
deriving DecidableEq

namespace Remote

variable {r r' : Remote}

/-- A Runtime without commands or events. -/
def empty : Remote := ⟨fun _ => none, []⟩

/-- One change that clients can see. -/
def step (r : Remote) : RemoteLabel → Option Remote
  | .begins c =>
      if r.commands c = none then
        some { r with commands := Function.update r.commands c (some .inProgress) }
      else none
  | .finishes c outcome =>
      if r.commands c = some .inProgress then
        some
          { commands := Function.update r.commands c (some (.terminal outcome))
            log := r.log ++ [.completed c outcome] }
      else none
  | .publishes => some { r with log := r.log ++ [.other] }

/-- **The log invariant**: a completion is logged exactly for the commands
that are finished, with their outcome. -/
def Inv (r : Remote) : Prop :=
  ∀ c outcome, .completed c outcome ∈ r.log ↔ r.commands c = some (.terminal outcome)

theorem inv_empty : Inv empty := by simp [Inv, empty]

theorem Inv.step {l : RemoteLabel} (hi : r.Inv) (h : r.step l = some r') : r'.Inv := by
  intro c outcome
  cases l with
  | begins c' =>
    simp only [Remote.step] at h
    split at h <;> cases h
    rename_i hnew
    show _ ∈ r.log ↔ Function.update _ _ _ c = _
    by_cases hc : c = c'
    · subst hc
      rw [hi, hnew]
      simp
    · rw [Function.update_of_ne hc]
      exact hi c outcome
  | finishes c' outcome' =>
    simp only [Remote.step] at h
    split at h <;> cases h
    rename_i hlive
    show _ ∈ r.log ++ _ ↔ Function.update _ _ _ c = _
    rw [List.mem_append, hi c outcome, List.mem_singleton]
    by_cases hc : c = c'
    · subst hc
      simp [hlive, eq_comm]
    · simp [hc]
  | publishes =>
    cases h
    show _ ∈ r.log ++ _ ↔ _
    simpa using hi c outcome

/-- What is said of a command stays said: finished commands stay finished,
with their outcome, and the log only grows. -/
structure Later (r r' : Remote) : Prop where
  known : ∀ c, r.commands c ≠ none → r'.commands c ≠ none
  finished : ∀ c outcome, r.commands c = some (.terminal outcome) →
    r'.commands c = some (.terminal outcome)
  log : r.log <+: r'.log

theorem Later.refl (r : Remote) : Later r r := ⟨fun _ h => h, fun _ _ h => h, List.prefix_rfl⟩

theorem later_step {l : RemoteLabel} (h : r.step l = some r') : Later r r' := by
  cases l with
  | begins c =>
    simp only [step] at h
    split at h <;> cases h
    rename_i hnew
    refine ⟨?_, ?_, List.prefix_rfl⟩
    · intro c' hc'
      have hne : c' ≠ c := by
        rintro rfl
        exact hc' hnew
      simpa [hne] using hc'
    · intro c' outcome hc'
      have hne : c' ≠ c := by
        rintro rfl
        rw [hnew] at hc'
        cases hc'
      simpa [hne] using hc'
  | finishes c outcome =>
    simp only [step] at h
    split at h <;> cases h
    rename_i hlive
    refine ⟨?_, ?_, List.prefix_append _ _⟩
    · intro c' hc'
      by_cases hne : c' = c
      · simp [hne]
      · simpa [hne] using hc'
    · intro c' outcome' hc'
      have hne : c' ≠ c := by
        rintro rfl
        rw [hlive] at hc'
        cases hc'
      simpa [hne] using hc'
  | publishes =>
    cases h
    exact ⟨fun _ h => h, fun _ _ h => h, List.prefix_append _ _⟩

theorem commands_begins {c : CommandId} (h : r.step (.begins c) = some r') :
    r'.commands c = some .inProgress := by
  simp only [step] at h
  split at h <;> cases h
  exact Function.update_self ..

/-- Only `begins` makes a command. -/
theorem begins_of_new {l : RemoteLabel} (h : r.step l = some r') {c : CommandId}
    (hold : r.commands c = none) (hc : r'.commands c ≠ none) : l = .begins c := by
  cases l with
  | begins c' =>
    simp only [step] at h
    split at h <;> cases h
    by_cases hne : c = c'
    · rw [hne]
    · exact absurd hold (by simpa [hne] using hc)
  | finishes c' outcome =>
    simp only [step] at h
    split at h <;> cases h
    rename_i hlive
    have hne : c ≠ c' := by
      rintro rfl
      rw [hlive] at hold
      cases hold
    exact absurd hold (by simpa [hne] using hc)
  | publishes =>
    cases h
    exact absurd hold hc

end Remote

/-! ## The Runtime refines it -/

namespace DeviceRuntime

variable {V : Type} {s t : DeviceRuntime V}

/-- The Runtime as its clients see it. -/
def remote (s : DeviceRuntime V) : Remote where
  commands := fun c => (s.getCommand c).map CommandRecord.view
  log := s.published.map Event.wire

theorem view_live {r : CommandRecord V} (h : r.status ≠ .terminal) : r.view = .inProgress := by
  unfold CommandRecord.view
  cases hs : r.status <;> first | rfl | exact absurd hs h

theorem view_done {r : CommandRecord V} {outcome : CommandOutcome} (h : r.status = .terminal)
    (ho : r.outcome = some outcome) : r.view = .terminal outcome := by
  simp [CommandRecord.view, h, ho]

theorem commands_change (s : DeviceRuntime V) (r : CommandRecord V) :
    (s.change r).remote.commands
      = Function.update s.remote.commands r.commandId (some r.view) := by
  funext c
  simp only [remote, getCommand_change, Function.update_apply]
  by_cases h : c = r.commandId
  · simp [h]
  · simp [h, Ne.symm h]

theorem log_publish (s : DeviceRuntime V) (f : EventFields) :
    (s.publish f).remote.log = s.remote.log ++ [(s.events.stamp f).wire] := by
  simp [remote, publish]

section
variable [BEq V]

/-- Each effect is a step of the client's view, or invisible to it. -/
theorem Effect.remote (h : Effect s t) :
    t.remote = s.remote ∨ ∃ l, s.remote.step l = some t.remote := by
  cases h with
  | frame ledger published _ _ =>
    left
    simp [DeviceRuntime.remote, getCommand, ledger, published]
  | event f hf =>
    right
    refine ⟨.publishes, ?_⟩
    have hwire : (s.events.stamp f).wire = .other := by
      simp [Event.wire, EventBus.stamp, hf]
    show some _ = some _
    rw [← hwire, ← log_publish]
    rfl
  | begun req r _ _ hstatus _ hfresh =>
    right
    refine ⟨.begins r.commandId, ?_⟩
    have hnone : s.remote.commands r.commandId = none := by simp [DeviceRuntime.remote, hfresh]
    rw [Remote.step, if_pos hnone]
    congr 1
    show Remote.mk _ _ = Remote.mk _ _
    congr 1
    funext c
    simp only [Function.update_apply, DeviceRuntime.remote, getCommand_admitted]
    by_cases hc : c = r.commandId
    · simp [hc, view_live (r := r) (by simp [hstatus])]
    · simp [hc, Ne.symm hc]
  | change old r hold hlive hle =>
    right
    have hbefore : s.remote.commands r.commandId = some .inProgress := by
      simp [DeviceRuntime.remote, hold, view_live hlive]
    have hlog : (s.change r).remote.log
        = s.remote.log ++ [(s.events.stamp (changeEvent r)).wire] := log_publish _ _
    by_cases hdone : r.status = .terminal
    · -- the record is finished: its outcome is there and is logged
      obtain ⟨outcome, ho⟩ := Option.isSome_iff_exists.mp (hle.outcome hlive hdone)
      refine ⟨.finishes r.commandId outcome, ?_⟩
      have hwire : (s.events.stamp (changeEvent r)).wire = .completed r.commandId outcome := by
        simp [Event.wire, EventBus.stamp, changeEvent, hdone, ho]
      rw [Remote.step, if_pos hbefore, ← view_done hdone ho, ← hwire, ← hlog, ← commands_change]
    · refine ⟨.publishes, ?_⟩
      have hwire : (s.events.stamp (changeEvent r)).wire = .other := by
        simp [Event.wire, EventBus.stamp, changeEvent, hdone]
      have hcommands : (s.change r).remote.commands = s.remote.commands := by
        rw [commands_change, view_live hdone, ← hbefore, Function.update_eq_self]
      rw [Remote.step, ← hwire, ← hlog, ← hcommands]

/-- **Refinement**: what a step of the Runtime does is a run of the machine
its clients see. -/
theorem step_remote {l : RuntimeLabel V} (h : OwnerInv s) (hs : s.step l = some t) :
    Reachable Remote.step s.remote t.remote := by
  have heffects := (step_moves h hs).effects
  clear hs
  induction heffects with
  | refl => exact .refl
  | tail _ he ih =>
    rcases he.remote with heq | ⟨l, hl⟩
    · exact heq ▸ ih
    · exact ih.tail hl

end

end DeviceRuntime

end Fusion
