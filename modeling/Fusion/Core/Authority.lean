import Fusion.Core.RuntimeSteps

/-!
# Authority — calls that name a session without control

A session id that is not the active, unexpired one gives no control.
`submit_command` and `renew_control_session` refuse it before they touch
anything but an expired session. `release_control_session` leaves the
session of another holder alone, and bumps every runner all the same.
-/

namespace Fusion.DeviceRuntime

open Transition

variable {V : Type} {s t : DeviceRuntime V}

/-- The session of whoever holds control now. -/
def holder (s : DeviceRuntime V) : Option ControlSession :=
  s.sessions.active.filter fun session => s.now < session.expiresAt

/-- The session id a call presents. -/
def presented : RuntimeLabel V → Option String
  | .submitCommand req _ _ => req.controlSessionId
  | .renewControlSession sessionId => some sessionId
  | .releaseControlSession sessionId => some sessionId
  | _ => none

/-- What a call of the wrong caller is to leave as it was: the generations,
the commands, the event sequence and the holder's session. -/
structure Undisturbed (s t : DeviceRuntime V) : Prop where
  generations : ∀ target, t.generation target = s.generation target
  ledger : t.ledger = s.ledger
  sequence : t.events.sequence = s.events.sequence
  holder : t.holder = s.holder

/-- The call bumps no runner: it is not `release_control_session`, or there
is none. -/
def Bumpless (s : DeviceRuntime V) : RuntimeLabel V → Bool
  | .releaseControlSession _ => s.runners.items.isEmpty
  | _ => true

/-! ## The session manager -/

/-- A check that the holder's id was not presented to leaves the holder. -/
theorem holder_requireActive {sessionId : String} (hdead : ¬s.sessions.Live s.now sessionId) :
    holder { s with sessions := (s.sessions.requireActive s.now sessionId).2 } = s.holder ∧
      ∃ e, (s.sessions.requireActive s.now sessionId).1 = .error e := by
  unfold ControlSessionManager.requireActive
  cases hactive : s.sessions.active with
  | none => exact ⟨rfl, _, rfl⟩
  | some session =>
    simp only
    split
    · exact ⟨rfl, _, rfl⟩
    · rename_i hid
      split
      · -- the session is dropped, and was nobody's any more
        rename_i hexpired
        refine ⟨?_, _, rfl⟩
        simp [holder, hactive, Option.filter, hexpired]
      · rename_i hlive
        exact absurd ⟨session, hactive, not_not.mp hid, not_le.mp hlive⟩ hdead

theorem holder_release {sessionId : String} (hdead : ¬s.sessions.Live s.now sessionId) :
    holder { s with sessions := s.sessions.release sessionId } = s.holder := by
  unfold ControlSessionManager.release
  cases hactive : s.sessions.active with
  | none => rfl
  | some session =>
    simp only
    split
    · rename_i hid
      have hexpired : session.expiresAt ≤ s.now :=
        not_lt.mp fun hlt => hdead ⟨session, hactive, hid, hlt⟩
      simp [holder, hactive, Option.filter, hexpired]
    · rfl

theorem undisturbed_sessions {sessions : ControlSessionManager}
    (h : holder { s with sessions := sessions } = s.holder) :
    Undisturbed s { s with sessions := sessions } :=
  ⟨fun _ => rfl, rfl, rfl, h⟩

/-! ## The three calls -/

theorem undisturbed_submitCommand [BEq V] {req : CommandSubmitRequest V} {sessionId : String}
    (hreq : req.controlSessionId = some sessionId) (hdead : ¬s.sessions.Live s.now sessionId)
    (freshId : CommandId) (manifest : Except Fault TargetManifest) :
    Undisturbed s (s.submitCommand req freshId manifest).2 := by
  unfold submitCommand
  cases s.runners.get req.targetId with
  | none => exact undisturbed_sessions rfl
  | some runner =>
    -- the session is looked at before the ledger
    obtain ⟨hholder, e, he⟩ := holder_requireActive hdead
    have hval : s.sessions.validate s.now req.controlSessionId =
        (.error e, (s.sessions.requireActive s.now sessionId).2) := by
      rw [hreq]
      exact Prod.ext he rfl
    simp only [hval]
    exact undisturbed_sessions hholder

theorem undisturbed_renewControlSession {sessionId : String}
    (hdead : ¬s.sessions.Live s.now sessionId) :
    Undisturbed s (s.renewControlSession sessionId).2 := by
  obtain ⟨hholder, e, he⟩ := holder_requireActive hdead
  unfold renewControlSession ControlSessionManager.renew
  generalize s.sessions.requireActive s.now sessionId = answer at hholder he
  obtain ⟨_, sessions⟩ := answer
  cases he
  exact undisturbed_sessions hholder

/-- `release_control_session` disturbs as soon as there is a runner to
bump. -/
theorem undisturbed_releaseControlSession {sessionId : String}
    (hdead : ¬s.sessions.Live s.now sessionId) :
    Undisturbed s (s.releaseControlSession sessionId) ↔ s.runners.items.isEmpty = true := by
  have hgeneration : ∀ target, (s.releaseControlSession sessionId).generation target =
      (s.generation target).map (· + 1) := by
    intro target
    show Option.map _ ((s.runners.mapValues _).get target) = _
    rw [Dict.get_mapValues, Option.map_map, generation, Option.map_map]
    rfl
  constructor
  · intro h
    cases hitems : s.runners.items with
    | nil => rfl
    | cons x rest =>
      have hx : s.runners.get x.1 = some x.2 := Dict.get_eq_some_iff.mpr (by simp [hitems])
      have := h.generations x.1
      rw [hgeneration, generation, hx] at this
      simp at this
  · intro h
    refine ⟨fun target => ?_, rfl, rfl, holder_release hdead⟩
    have hnone : s.runners.get target = none := by
      cases hget : s.runners.get target with
      | none => rfl
      | some runner =>
        have hmem := Dict.get_eq_some_iff.mp hget
        rw [List.isEmpty_iff.mp h] at hmem
        cases hmem
    rw [hgeneration, generation, hnone]
    rfl

/-- **Control is needed to disturb**, except by `release_control_session`: a
call that presents an id without control leaves the holder's world as it was
exactly when it bumps no runner. -/
theorem undisturbed_iff [BEq V] {l : RuntimeLabel V} {sessionId : String}
    (hpresented : presented l = some sessionId) (hdead : ¬s.sessions.Live s.now sessionId)
    (hs : s.step l = some t) : Undisturbed s t ↔ Bumpless s l = true := by
  cases l with
  | submitCommand req freshId manifest =>
    simp only [step] at hs
    split at hs <;> cases hs
    exact iff_of_true (undisturbed_submitCommand hpresented hdead freshId manifest) rfl
  | renewControlSession sessionId =>
    cases hpresented
    cases hs
    exact iff_of_true (undisturbed_renewControlSession hdead) rfl
  | releaseControlSession sessionId =>
    cases hpresented
    cases hs
    exact undisturbed_releaseControlSession hdead
  | _ => cases hpresented

/-- A client whose session was taken over submits again, and is refused. -/
theorem undisturbed_superseded :
    ∃ s t : DeviceRuntime Int, Reachable DeviceRuntime.step motorRuntime s ∧
      s.step (.renewControlSession "cs1") = some t ∧ s.holder.isSome = true ∧
      Undisturbed s t := by
  obtain ⟨s, hreach, hs⟩ := exec_test DeviceRuntime.step motorRuntime
    [.acquireControlSession "op" .manual none "cs1",
      .acquireControlSession "other" .manual none "cs2"]
    (fun s => s.sessions.active.map (·.sessionId) == some "cs2" && s.holder.isSome)
    (by decide +kernel)
  simp only [Bool.and_eq_true, beq_iff_eq] at hs
  refine ⟨s, _, hreach, rfl, hs.2,
    (undisturbed_iff (l := .renewControlSession "cs1") rfl ?_ rfl).mpr rfl⟩
  rintro ⟨session, hactive, hid, -⟩
  rw [hactive, Option.map_some, hid] at hs
  exact absurd hs.1 (by decide)

/-- The defect: a client releases an id that was never issued, and the
holder's runner moves from generation 2 to 3. -/
theorem undisturbed_foreign_release :
    ¬ ∀ (s t : DeviceRuntime Int) (l : RuntimeLabel Int) (sessionId : String),
      Reachable DeviceRuntime.step motorRuntime s → presented l = some sessionId →
      ¬s.sessions.Live s.now sessionId → s.step l = some t → Undisturbed s t := by
  intro hall
  obtain ⟨s, hreach, hs⟩ := exec_test DeviceRuntime.step motorRuntime
    [.acquireControlSession "op" .manual none "cs1"]
    (fun s => s.sessions.active.map (·.sessionId) == some "cs1" &&
      s.generation "motor01" == some 2 &&
      (s.releaseControlSession "stale").generation "motor01" == some 3)
    (by decide +kernel)
  simp only [Bool.and_eq_true, beq_iff_eq] at hs
  obtain ⟨⟨hactive, hbefore⟩, hafter⟩ := hs
  have hdead : ¬s.sessions.Live s.now "stale" := by
    rintro ⟨session, hsession, hid, -⟩
    rw [hsession, Option.map_some, hid] at hactive
    exact absurd hactive (by decide)
  have := (hall s _ (.releaseControlSession "stale") "stale" hreach rfl hdead rfl).generations
    "motor01"
  rw [hbefore, hafter] at this
  cases this

end Fusion.DeviceRuntime
