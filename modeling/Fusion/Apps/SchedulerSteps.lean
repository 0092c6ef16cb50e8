import Fusion.Apps.Scheduler
import Fusion.Core.RunEnd

/-!
# SchedulerSteps — what one step of the Scheduler does

`Moves` says what each step can do to the Show state, the run tasks, their
executors and the requests made. The operators' calls and their coroutines
leave the run tasks alone, but for `cancel()`; the controller moves by its
own steps only (`step_simulates`).
-/

namespace Fusion

open Transition

namespace ShowControl

variable {c d : ShowControl}

/-- The run tasks stay as they are, and no Show goes live. -/
structure Stays (c d : ShowControl) : Prop where
  started : d.started = c.started
  runs : d.runs = c.runs
  cancelRequested : d.cancelRequested = c.cancelRequested
  runTask : d.controller.runTask = c.controller.runTask
  live : d.controller.state.isLive = true → c.controller.state.isLive = true

theorem Stays.refl (c : ShowControl) : Stays c c := ⟨rfl, rfl, rfl, rfl, id⟩

theorem Stays.trans {e : ShowControl} (h : Stays c d) (h' : Stays d e) : Stays c e where
  started := h'.started.trans h.started
  runs := h'.runs.trans h.runs
  cancelRequested := h'.cancelRequested.trans h.cancelRequested
  runTask := h'.runTask.trans h.runTask
  live := h.live ∘ h'.live

/-- The labels that leave the run tasks alone. -/
def Label.sparing : Label → Bool
  | .arm _ | .prepareReturned _ | .prepareRaised _ _ | .hold | .joined _ | .stopReturned _
  | .stopRaised _ => true
  | _ => false

theorem step_stays {l : Label} (hl : l.sparing = true) (h : c.step l = some d) : Stays c d := by
  cases l with
  | arm k =>
    simp only [step] at h
    split at h <;> cases h
    · rename_i c' _ harm
      obtain ⟨-, rfl⟩ := ShowController.arm_ok harm
      exact ⟨rfl, rfl, rfl, rfl, nofun⟩
    · exact .refl c
  | prepareReturned k | prepareRaised k message | stopReturned k =>
    simp only [step] at h
    split at h <;> cases h
    exact ⟨rfl, rfl, rfl, rfl, nofun⟩
  | hold =>
    simp only [step] at h
    split at h <;> cases h
    · rename_i c' hhold
      obtain ⟨hrunning, -, htask⟩ := ShowController.hold_ok hhold
      exact ⟨rfl, rfl, rfl, htask, fun _ => by rw [hrunning]; rfl⟩
    · exact .refl c
  | joined k =>
    simp only [step] at h
    split at h
    · split at h <;> cases h
      exact ⟨rfl, rfl, rfl, rfl, id⟩
    · cases h
  | stopRaised k =>
    simp only [step] at h
    split at h <;> cases h
    exact ⟨rfl, rfl, rfl, rfl, id⟩
  | _ => cases hl

/-- What `abort` does to the run tasks. -/
theorem step_abort {k : Nat} (h : c.step (.abort k) = some d) :
    (d = c ∧ d.calls k = none) ∨
      d.controller.state = .stopping ∧ d.started = c.started ∧ d.runs = c.runs ∧
        d.controller.runTask = c.controller.runTask ∧
        ((c.pendingRun = none ∧ d.calls k = some .stopping ∧
            d.cancelRequested = c.cancelRequested) ∨
          ∃ r, c.pendingRun = some r ∧ d.calls k = some (.joining r) ∧
            d.cancelRequested = Function.update c.cancelRequested r true) := by
  simp only [step] at h
  split at h
  · rename_i c' _ habort
    obtain rfl := ShowController.abort_ok habort
    split at h <;> cases h
    · rename_i r hr
      exact .inr ⟨rfl, rfl, rfl, rfl, .inr ⟨r, hr, by simp [setCall], rfl⟩⟩
    · rename_i hr
      exact .inr ⟨rfl, rfl, rfl, rfl, .inl ⟨hr, by simp [setCall], rfl⟩⟩
  · rename_i hcall _
    cases h
    exact .inl ⟨rfl, hcall⟩
  · cases h

theorem step_callCancelled {k : Nat} (h : c.step (.callCancelled k) = some d) :
    (∀ r, c.calls k ≠ some (.joining r)) ∧ Stays c d ∨
      ∃ r, c.calls k = some (.joining r) ∧ d = c.cancelRun r := by
  simp only [step] at h
  split at h <;> cases h
  · rename_i r hr
    exact .inr ⟨r, hr, rfl⟩
  · rename_i call hjoining hcall
    refine .inl ⟨fun r hr => hjoining r (Option.some.inj (hcall.symm.trans hr)), ?_⟩
    exact ⟨rfl, rfl, rfl, rfl, id⟩

/-- Run task `r` ends, and no Show goes live. -/
structure RunEnds (r : Nat) (c d : ShowControl) : Prop where
  started : d.started = c.started
  runs : d.runs = Function.update c.runs r .ended
  cancelRequested : d.cancelRequested = c.cancelRequested
  runTask : d.controller.runTask = c.controller.runTask
  live : d.controller.state.isLive = true → c.controller.state.isLive = true

theorem step_runReturned {r : Nat} (h : c.step (.runReturned r) = some d) : RunEnds r c d := by
  simp only [step] at h
  split at h <;> cases h
  refine ⟨rfl, rfl, rfl, ?_, ?_⟩ <;> simp only [ShowController.runReturned]
  · split <;> rfl
  · split
    · nofun
    · exact id

theorem step_runRaised {r : Nat} {message : String} (h : c.step (.runRaised r message) = some d) :
    RunEnds r c d := by
  simp only [step] at h
  split at h <;> cases h
  exact ⟨rfl, rfl, rfl, rfl, nofun⟩

theorem step_runCancelled {r : Nat} (h : c.step (.runCancelled r) = some d) :
    d = c.setRun r .ended ∧ (c.runs r = .created → c.cancelRequested r = true) := by
  simp only [step] at h
  split at h <;> cases h
  rename_i halive
  refine ⟨rfl, fun hcreated => ?_⟩
  rcases halive with hexecuting | ⟨-, hcancel⟩
  · rw [hcreated] at hexecuting
    cases hexecuting
  · exact hcancel

theorem step_runBegins {r : Nat} (h : c.step (.runBegins r) = some d) :
    c.runs r = .created ∧ c.cancelRequested r = false ∧ d = c.setRun r .executing := by
  simp only [step] at h
  split at h <;> cases h
  rename_i hcreated
  exact ⟨hcreated.1, by simpa using hcreated.2, rfl⟩

theorem step_start {runId : String} (h : c.step (.start runId) = some d) :
    d = c ∨ c.controller.state = .armed ∧ d.controller.state.isLive = true ∧
      d.started = c.started + 1 ∧ d.runs = Function.update c.runs c.started .created ∧
      d.cancelRequested = c.cancelRequested ∧ d.controller.runTask = some c.started := by
  simp only [step] at h
  split at h <;> cases h
  · rename_i c' hstart
    obtain ⟨harmed, hrunning, htask⟩ := ShowController.start_ok hstart
    exact .inr ⟨harmed, congrArg ShowState.isLive hrunning, rfl, rfl, rfl, htask⟩
  · exact .inl rfl

end ShowControl

namespace Scheduler

variable {V : Type} {s t : Scheduler V}

theorem controls_eq {l : ShowControl.Label} (h : s.controls l = some t) :
    ∃ control, s.control.step l = some control ∧ t = { s with control := control } := by
  obtain ⟨control, hstep, rfl⟩ := Option.map_eq_some_iff.mp h
  exact ⟨control, hstep, rfl⟩

/-- The labels with which the coroutine of a call ends. -/
inductive Ends (k : Nat) : ShowControl.Label → Prop
  | prepareReturned : Ends k (.prepareReturned k)
  | prepareRaised (message : String) : Ends k (.prepareRaised k message)
  | stopReturned : Ends k (.stopReturned k)
  | stopRaised : Ends k (.stopRaised k)

theorem Ends.sparing {k : Nat} {l : ShowControl.Label} (h : Ends k l) : l.sparing = true := by
  cases h <;> rfl

/-- What the coroutine of call `k` does in one stretch: it may end. -/
structure Calls (k : Nat) (s t : Scheduler V) : Prop where
  execs : t.execs = s.execs
  config : t.config = s.config
  applies : t.applies = s.applies
  control : t.control = s.control ∨ ∃ l, Ends k l ∧ s.control.step l = some t.control
  sent : ∃ rs, t.sent = s.sent ++ rs ∧ ∀ q ∈ rs, q.isCue = false

theorem Calls.stays {k : Nat} (h : Calls k s t) : ShowControl.Stays s.control t.control := by
  rcases h.control with h | ⟨l, hl, h⟩
  · rw [h]
    exact .refl _
  · exact ShowControl.step_stays hl.sparing h

theorem Calls.suspend (s : Scheduler V) (k : Nat) (body : ShowBody) :
    Calls k s (s.suspend k body) :=
  ⟨rfl, rfl, rfl, .inl rfl, [], by simp [Scheduler.suspend], by simp⟩

theorem Calls.send (s : Scheduler V) (k : Nat) (body : ShowBody) {q : Sent V}
    (hq : q.isCue = false) : Calls k s ((s.send q).suspend k body) :=
  ⟨rfl, rfl, rfl, .inl rfl, [q], rfl, by simpa using hq⟩

theorem Calls.of_ends {k : Nat} {l : ShowControl.Label} (hl : Ends k l)
    (h : s.endCall k l = some t) : Calls k s t := by
  obtain ⟨control, hstep, rfl⟩ := controls_eq h
  exact ⟨rfl, rfl, rfl, .inr ⟨l, hl, hstep⟩, [], by simp, by simp⟩

/-- What the coroutine did to the sessions before does not matter. -/
theorem Calls.of_sessions {k : Nat} {sessionIds : Dict String String}
    (h : Calls k { s with sessionIds := sessionIds } t) : Calls k s t :=
  ⟨h.execs, h.config, h.applies, h.control, h.sent⟩

theorem prepareClients_calls {k : Nat} {names : List String}
    (h : s.prepareClients k names = some t) : Calls k s t := by
  cases names with
  | nil => exact .of_ends .prepareReturned h
  | cons name rest =>
    cases h
    exact .suspend s k _

theorem prepare_calls {k : Nat} (h : s.prepare k = some t) : Calls k s t := by
  unfold prepare at h
  split at h
  · exact .of_ends (.prepareRaised _) h
  · exact prepareClients_calls h

theorem informed_calls {k : Nat} {name : String} {rest : List String}
    {answer : Except String Unit} (h : s.informed k name rest answer = some t) : Calls k s t := by
  cases answer with
  | error message => exact .of_ends (.prepareRaised message) h
  | ok _ =>
    cases h
    exact .send s k _ rfl

theorem acquired_calls {k : Nat} {name : String} {rest : List String}
    {answer : Except String String} (h : s.acquired k name rest answer = some t) :
    Calls k s t := by
  cases answer with
  | error message => exact .of_ends (.prepareRaised message) h
  | ok sessionId => exact .of_sessions (prepareClients_calls h)

theorem releaseNext_calls {k : Nat} {names : List String}
    (h : s.releaseNext k names = some t) : Calls k s t := by
  cases names with
  | nil => exact .of_ends .stopReturned h
  | cons name rest =>
    simp only [releaseNext] at h
    split at h
    · exact .of_ends .stopRaised h
    · split at h
      · exact .of_ends .stopRaised h
      · rename_i sessionId _
        cases h
        exact .of_sessions (.send { s with sessionIds := s.sessionIds.erase name } k _ rfl)

theorem stopClients_calls {k : Nat} {names : List String}
    (h : s.stopClients k names = some t) : Calls k s t := by
  induction names with
  | nil => exact releaseNext_calls h
  | cons name rest ih =>
    simp only [stopClients] at h
    split at h
    · exact ih h
    · cases h
      exact .suspend s k _

theorem stopTargets_calls {k : Nat} {name sessionId requestId : String} {rest : List String}
    {targets : List TargetManifest}
    (h : s.stopTargets k name sessionId rest requestId targets = some t) : Calls k s t := by
  induction targets with
  | nil => exact stopClients_calls h
  | cons target targets ih =>
    simp only [stopTargets] at h
    split at h
    · exact ih h
    · cases h
      exact .send s k _ rfl

/-! ## The steps -/

/-- No Cue is submitted. -/
def NoCue (s t : Scheduler V) : Prop :=
  ∃ rs, t.sent = s.sent ++ rs ∧ ∀ q ∈ rs, q.isCue = false

theorem NoCue.of_eq (h : t.sent = s.sent) : NoCue s t := ⟨[], by simpa using h, by simp⟩

/-- The labels that can end a run: `abort`, and the steps of its own task. -/
def Label.drives : Label V → Bool
  | .abort _ | .runBegins _ _ | .run _ _ _ => true
  | _ => false

/-- **What a step can do.** -/
inductive Moves (s : Scheduler V) : Label V → Scheduler V → Prop
  /-- no run task is touched -/
  | rests {l : Label V} {t : Scheduler V} (stays : ShowControl.Stays s.control t.control)
      (execs : t.execs = s.execs) (noCue : NoCue s t)
      (refused : l.drives = true → t.control = s.control) : Moves s l t
  /-- `abort` is accepted, and the run task is done -/
  | aborts {k : Nat} {t : Scheduler V} (pending : s.control.pendingRun = none)
      (dead : t.state.isLive = false) (started : t.control.started = s.control.started)
      (runs : t.control.runs = s.control.runs)
      (cancelRequested : t.control.cancelRequested = s.control.cancelRequested)
      (runTask : t.control.controller.runTask = s.control.controller.runTask)
      (execs : t.execs = s.execs) (noCue : NoCue s t) : Moves s (.abort k) t
  /-- `cancel()` of run task `r`, by an accepted `abort` or by the
  cancellation of one -/
  | cancels {l : Label V} {t : Scheduler V} (r : Nat)
      (whose : (∃ k, l = .abort k) ∧ s.control.pendingRun = some r ∧ t.state.isLive = false ∨
        t.state = s.state)
      (started : t.control.started = s.control.started)
      (runs : t.control.runs = s.control.runs)
      (cancelRequested : t.control.cancelRequested =
        Function.update s.control.cancelRequested r true)
      (runTask : t.control.controller.runTask = s.control.controller.runTask)
      (execs : t.execs = Function.update s.execs r ((s.execs r).map Execution.cancelRun))
      (sent : t.sent = s.sent) : Moves s l t
  | starts {runId : String} {t : Scheduler V} (armed : s.state = .armed)
      (live : t.state.isLive = true)
      (started : t.control.started = s.control.started + 1)
      (runs : t.control.runs = Function.update s.control.runs s.control.started .created)
      (cancelRequested : t.control.cancelRequested = s.control.cancelRequested)
      (runTask : t.control.controller.runTask = some s.control.started)
      (execs : t.execs = s.execs) (sent : t.sent = s.sent) : Moves s (.start runId) t
  /-- a run task that was not cancelled begins -/
  | begins {r : Nat} {drift : ℚ} {t : Scheduler V} (timeline : Timeline V) (runId : String)
      (e : Execution V) (created : s.control.runs r = .created)
      (uncancelled : s.control.cancelRequested r = false)
      (step : (Execution.init timeline s.clients runId).step (s.env drift) .begin = some e)
      (control : t.control = s.control.setRun r .executing)
      (execs : t.execs = Function.update s.execs r (some e)) (sent : t.sent = s.sent) :
      Moves s (.runBegins r drift) t
  /-- a run task ends that has no executor: cancelled before it began, or
  stopped by an assertion -/
  | drops {l : Label V} {t : Scheduler V} (r : Nat) (created : s.control.runs r = .created)
      (label : l = .runDropped r ∧ t.state = s.state ∨
        (∃ drift, l = .runBegins r drift) ∧ s.control.cancelRequested r = false)
      (ends : ShowControl.RunEnds r s.control t.control)
      (execs : t.execs = s.execs) (sent : t.sent = s.sent) : Moves s l t
  /-- the executor of a run takes a step, and the run task may end with it -/
  | runs {r : Nat} {label : Execution.ExecLabel} {drift : ℚ} {t : Scheduler V}
      (e e' : Execution V) (exec : s.execs r = some e) (hinternal : internal label = true)
      (step : e.step (s.env drift) label = some e')
      (control : t.control = s.control ∧ (e.phase.isOver = true ∨ e'.phase.isOver = false) ∨
        ShowControl.RunEnds r s.control t.control ∧ e'.phase.isOver = true)
      (execs : t.execs = Function.update s.execs r (some e'))
      (sent : t.sent = s.sent ++ (e'.submitted.drop e.submitted.length).map (.cue r)) :
      Moves s (.run r label drift) t

theorem applyLocked_frame (s : Scheduler V) (i : Nat) (call : ApplyCall) :
    (s.applyLocked i call).2.control = s.control ∧ (s.applyLocked i call).2.execs = s.execs ∧
      (s.applyLocked i call).2.sent = s.sent := by
  unfold applyLocked
  split <;> exact ⟨rfl, rfl, rfl⟩

theorem Calls.moves {k : Nat} (h : Calls k s t) {l : Label V} (hl : l.drives = false) :
    Moves s l t :=
  .rests h.stays h.execs h.sent fun hdrives => absurd (hl.symm.trans hdrives) (by decide)

theorem Moves.of_same {l : Label V} (hcontrol : t.control = s.control)
    (hexecs : t.execs = s.execs) (hsent : t.sent = s.sent) : Moves s l t :=
  .rests (hcontrol ▸ .refl _) hexecs (.of_eq hsent) fun _ => hcontrol

theorem runEnded_ends {r : Nat} {e : Execution V} {how : TaskEnd}
    (h : s.runEnded r e how = some t) :
    ShowControl.RunEnds r s.control t.control ∧ t.execs = s.execs ∧ t.sent = s.sent := by
  cases how with
  | returned =>
    simp only [runEnded] at h
    split at h <;> obtain ⟨control, hstep, rfl⟩ := controls_eq h
    · exact ⟨ShowControl.step_runReturned hstep, rfl, rfl⟩
    · exact ⟨ShowControl.step_runRaised hstep, rfl, rfl⟩
  | raised message =>
    obtain ⟨control, hstep, rfl⟩ := controls_eq h
    exact ⟨ShowControl.step_runRaised hstep, rfl, rfl⟩
  | cancelled =>
    obtain ⟨control, hstep, rfl⟩ := controls_eq h
    obtain ⟨rfl, -⟩ := ShowControl.step_runCancelled hstep
    exact ⟨⟨rfl, rfl, rfl, rfl, id⟩, rfl, rfl⟩

theorem runStep_ends {r : Nat} {e e' : Execution V} {drift : ℚ}
    (h : s.runStep r e e' drift = some t) :
    t.execs = Function.update s.execs r (some e') ∧
      t.sent = s.sent ++ (e'.submitted.drop e.submitted.length).map (.cue r) ∧
      (t.control = s.control ∧ (e.phase.isOver = true ∨ e'.phase.isOver = false) ∨
        ShowControl.RunEnds r s.control t.control ∧ e'.phase.isOver = true) := by
  unfold runStep at h
  split at h
  · rename_i hphase
    cases h
    exact ⟨rfl, rfl, .inl ⟨rfl, .inl (by rw [hphase]; rfl)⟩⟩
  · rename_i result hphase _
    obtain ⟨hends, hexecs, hsent⟩ := runEnded_ends h
    exact ⟨hexecs, hsent, .inr ⟨hends, by rw [hphase]; rfl⟩⟩
  · rename_i hphase
    cases h
    refine ⟨rfl, rfl, .inl ⟨rfl, .inr ?_⟩⟩
    cases hover : e'.phase with
    | ended result => exact absurd hover (hphase result)
    | _ => rfl

/-- The start of the executor makes no request and does not end the run. -/
theorem begin_running {env : Env} {e e' : Execution V} (h : e.step env .begin = some e') :
    e'.phase.isOver = false ∧ e'.submitted = e.submitted := by
  simp only [Execution.step] at h
  split at h <;> cases h
  generalize e.clients = names
  cases names <;> exact ⟨rfl, rfl⟩

theorem runBegins_moves {r : Nat} {drift : ℚ}
    (h : (s.controls (.runBegins r)).bind (fun t => t.runBegins r drift) = some t) :
    Moves s (.runBegins r drift) t := by
  obtain ⟨u, hu, hrun⟩ := Option.bind_eq_some_iff.mp h
  obtain ⟨control, hstep, rfl⟩ := controls_eq hu
  obtain ⟨hcreated, huncancelled, rfl⟩ := ShowControl.step_runBegins hstep
  simp only [runBegins] at hrun
  split at hrun
  · rename_i timeline runId _ _
    obtain ⟨e, hbegin, hrun⟩ := Option.bind_eq_some_iff.mp hrun
    obtain ⟨hexecs, hsent, hcontrol⟩ := runStep_ends hrun
    obtain ⟨hover, hsubmitted⟩ := begin_running hbegin
    have hsame : t.control = s.control.setRun r .executing := by
      rcases hcontrol with ⟨hcontrol, -⟩ | ⟨-, hended⟩
      · exact hcontrol
      · rw [hover] at hended
        cases hended
    refine .begins timeline.val runId e hcreated huncancelled hbegin hsame hexecs ?_
    simpa [hsubmitted] using hsent
  · obtain ⟨control, hraised, rfl⟩ := controls_eq hrun
    have hends := ShowControl.step_runRaised hraised
    refine .drops r hcreated (.inr ⟨⟨drift, rfl⟩, huncancelled⟩) ⟨hends.started, ?_,
      hends.cancelRequested, hends.runTask, hends.live⟩ rfl rfl
    rw [hends.runs]
    exact Function.update_idem ..

theorem abort_moves {k : Nat}
    (h : s.step (.abort k) = some t) : Moves s (.abort k) t := by
  obtain ⟨u, hu, hrest⟩ := Option.bind_eq_some_iff.mp h
  obtain ⟨control, hstep, rfl⟩ := controls_eq hu
  rcases ShowControl.step_abort hstep with
    ⟨rfl, hnone⟩ | ⟨hstate, hstarted, hruns, htask, hpending⟩
  · -- refused
    simp only [hnone, Option.some.injEq] at hrest
    subst hrest
    exact .rests (.refl _) rfl (.of_eq rfl) fun _ => rfl
  · rcases hpending with ⟨hnone, hcall, hcancel⟩ | ⟨r, hr, hcall, hcancel⟩
    · simp only [hcall] at hrest
      have hcalls := stopClients_calls hrest
      have hstays := hcalls.stays
      refine .aborts hnone ?_ (hstays.started.trans hstarted) (hstays.runs.trans hruns)
        (hstays.cancelRequested.trans hcancel) (hstays.runTask.trans htask) hcalls.execs
        hcalls.sent
      cases hlive : t.state.isLive with
      | false => rfl
      | true =>
        have := hstays.live hlive
        rw [hstate] at this
        cases this
    · simp only [hcall, Option.some.injEq] at hrest
      subst hrest
      refine .cancels r (.inl ⟨⟨k, rfl⟩, hr, ?_⟩) hstarted hruns hcancel htask rfl rfl
      show control.controller.state.isLive = false
      rw [hstate]
      rfl

theorem callCancelled_moves {k : Nat} (h : s.step (.callCancelled k) = some t) :
    Moves s (.callCancelled k) t := by
  simp only [step] at h
  split at h
  · rename_i r hr
    obtain ⟨u, hu, rfl⟩ := Option.map_eq_some_iff.mp h
    obtain ⟨control, hstep, rfl⟩ := controls_eq hu
    rcases ShowControl.step_callCancelled hstep with ⟨hno, -⟩ | ⟨r', hr', rfl⟩
    · exact absurd hr (hno r)
    · obtain rfl : r = r' := by
        rw [hr'] at hr
        cases hr
        rfl
      exact .cancels r (.inr rfl) rfl rfl rfl rfl rfl rfl
  · rename_i hjoining
    obtain ⟨control, hstep, rfl⟩ := controls_eq h
    rcases ShowControl.step_callCancelled hstep with ⟨-, hstays⟩ | ⟨r, hr, -⟩
    · exact .rests hstays rfl (.of_eq rfl) nofun
    · exact absurd hr (hjoining r)

theorem step_moves {l : Label V} (h : s.step l = some t) : Moves s l t := by
  cases l with
  | advance dt =>
    simp only [step] at h
    split at h <;> cases h
    exact .of_same rfl rfl rfl
  | loadTimeline timeline =>
    simp only [step] at h
    split at h <;> cases h
    · exact .of_same rfl rfl rfl
    · exact .of_same rfl rfl rfl
  | arm k =>
    obtain ⟨u, hu, hrest⟩ := Option.bind_eq_some_iff.mp h
    obtain ⟨control, hstep, rfl⟩ := controls_eq hu
    have hstays := ShowControl.step_stays rfl hstep
    split at hrest
    · have hcalls := prepare_calls hrest
      exact .rests (hstays.trans hcalls.stays) hcalls.execs hcalls.sent nofun
    · cases hrest
      exact .rests hstays rfl (.of_eq rfl) nofun
  | informed k answer =>
    simp only [step] at h
    split at h
    · exact (informed_calls h).moves rfl
    · cases h
  | acquired k answer =>
    simp only [step] at h
    split at h
    · exact (acquired_calls h).moves rfl
    · cases h
  | start runId =>
    obtain ⟨control, hstep, rfl⟩ := controls_eq h
    rcases ShowControl.step_start hstep with rfl | ⟨harmed, hlive, hstarted, hruns, hcancel, htask⟩
    · exact .of_same rfl rfl rfl
    · exact .starts harmed hlive hstarted hruns hcancel htask rfl rfl
  | hold =>
    obtain ⟨control, hstep, rfl⟩ := controls_eq h
    exact .rests (ShowControl.step_stays rfl hstep) rfl (.of_eq rfl) nofun
  | abort k => exact abort_moves h
  | joined k =>
    obtain ⟨u, hu, hrest⟩ := Option.bind_eq_some_iff.mp h
    obtain ⟨control, hstep, rfl⟩ := controls_eq hu
    have hcalls := stopClients_calls hrest
    exact .rests ((ShowControl.step_stays rfl hstep).trans hcalls.stays) hcalls.execs hcalls.sent
      nofun
  | targets k answer requestId =>
    simp only [step] at h
    split at h
    · split at h
      · exact (stopClients_calls h).moves rfl
      · exact (stopTargets_calls h).moves rfl
    · cases h
  | stopAnswered k requestId =>
    simp only [step] at h
    split at h
    · exact (stopTargets_calls h).moves rfl
    · cases h
  | released k =>
    simp only [step] at h
    split at h
    · exact (releaseNext_calls h).moves rfl
    · cases h
  | callCancelled k => exact callCancelled_moves h
  | runBegins r drift =>
    simp only [step] at h
    split at h
    · exact runBegins_moves h
    · cases h
  | runDropped r =>
    simp only [step] at h
    split at h
    · rename_i hcreated
      obtain ⟨control, hstep, rfl⟩ := controls_eq h
      obtain ⟨rfl, -⟩ := ShowControl.step_runCancelled hstep
      exact .drops r hcreated (.inl ⟨rfl, rfl⟩) ⟨rfl, rfl, rfl, rfl, id⟩ rfl rfl
    · cases h
  | run r label drift =>
    obtain ⟨e, he, hrest⟩ := Option.bind_eq_some_iff.mp h
    split at hrest
    · rename_i hinternal
      obtain ⟨e', he', hrun⟩ := Option.bind_eq_some_iff.mp hrest
      obtain ⟨hexecs, hsent, hcontrol⟩ := runStep_ends hrun
      exact .runs e e' he hinternal.1 he' hcontrol hexecs hsent
    · cases hrest
  | stageConfig kind freshId =>
    simp only [step] at h
    split at h <;> cases h
    exact .of_same rfl rfl rfl
  | applyConfig i revisionId expected =>
    simp only [step] at h
    split at h
    · cases h
    · split at h <;> cases h
      · exact .of_same rfl rfl rfl
      · exact .of_same rfl rfl rfl
  | applyLocked i =>
    simp only [step] at h
    split at h
    · split at h <;> cases h
      obtain ⟨hcontrol, hexecs, hsent⟩ := applyLocked_frame s i _
      exact .of_same hcontrol hexecs hsent
    · cases h
  | applyCancelled i =>
    simp only [step] at h
    split at h <;> cases h
    exact .of_same rfl rfl rfl

/-! ## The controller under the Scheduler -/

/-- The controller of `t` is reached from that of `s` by its own steps. -/
def Simulates (s t : Scheduler V) : Prop :=
  Reachable ShowControl.step s.control t.control

/-- A stretch of a call or of a run task: the controller moves by its own
steps, and the configuration stays. -/
structure Stretch (s t : Scheduler V) : Prop where
  simulates : Simulates s t
  config : t.config = s.config

theorem Stretch.of_eq (hcontrol : t.control = s.control) (hconfig : t.config = s.config) :
    Stretch s t where
  simulates := by
    rw [Simulates, hcontrol]
    exact .refl
  config := hconfig

theorem Stretch.trans {u : Scheduler V} (h : Stretch s t) (h' : Stretch t u) : Stretch s u where
  simulates := Reachable.trans h.simulates h'.simulates
  config := h'.config.trans h.config

theorem stretch_controls {l : ShowControl.Label} (h : s.controls l = some t) : Stretch s t := by
  obtain ⟨control, hstep, rfl⟩ := controls_eq h
  exact ⟨Reachable.refl.tail hstep, rfl⟩

theorem Calls.stretch {k : Nat} (h : Calls k s t) : Stretch s t := by
  refine ⟨?_, h.config⟩
  rcases h.control with hsame | ⟨l, -, hstep⟩
  · rw [Simulates, hsame]
    exact .refl
  · exact Reachable.refl.tail hstep

theorem stretch_runEnded {r : Nat} {e : Execution V} {how : TaskEnd}
    (h : s.runEnded r e how = some t) : Stretch s t := by
  cases how with
  | returned =>
    have hsame : Stretch s { s with lastOutcomes := e.outcomes } := .of_eq rfl rfl
    simp only [runEnded] at h
    split at h
    · exact hsame.trans (stretch_controls h)
    · exact hsame.trans (stretch_controls h)
  | raised message => exact stretch_controls h
  | cancelled => exact stretch_controls h

theorem stretch_runStep {r : Nat} {e e' : Execution V} {drift : ℚ}
    (h : s.runStep r e e' drift = some t) : Stretch s t := by
  have hsame : Stretch s (s.setExec r e e' drift) := .of_eq rfl rfl
  unfold runStep at h
  split at h
  · cases h
    exact hsame
  · exact hsame.trans (stretch_runEnded h)
  · cases h
    exact hsame

theorem stretch_runBegins {r : Nat} {drift : ℚ} (h : s.runBegins r drift = some t) :
    Stretch s t := by
  unfold runBegins at h
  split at h
  · obtain ⟨e, -, hrun⟩ := Option.bind_eq_some_iff.mp h
    exact stretch_runStep hrun
  · exact stretch_controls h

/-- The labels that write the configuration. -/
def Label.configures : Label V → Bool
  | .stageConfig _ _ | .applyLocked _ => true
  | _ => false

/-- Every other step is a stretch of the Show. -/
theorem step_stretch {l : Label V} (hl : l.configures = false) (h : s.step l = some t) :
    Stretch s t := by
  cases l with
  | arm k =>
    obtain ⟨u, hu, hrest⟩ := Option.bind_eq_some_iff.mp h
    have hcall := stretch_controls hu
    split at hrest
    · exact hcall.trans (prepare_calls hrest).stretch
    · cases hrest
      exact hcall
  | abort k =>
    obtain ⟨u, hu, hrest⟩ := Option.bind_eq_some_iff.mp h
    have hcall := stretch_controls hu
    split at hrest
    · cases hrest
      exact hcall.trans (.of_eq rfl rfl)
    · exact hcall.trans (stopClients_calls hrest).stretch
    · cases hrest
      exact hcall
  | joined k =>
    obtain ⟨u, hu, hrest⟩ := Option.bind_eq_some_iff.mp h
    exact (stretch_controls hu).trans (stopClients_calls hrest).stretch
  | start runId => exact stretch_controls h
  | hold => exact stretch_controls h
  | informed k answer =>
    simp only [step] at h
    split at h
    · exact (informed_calls h).stretch
    · cases h
  | acquired k answer =>
    simp only [step] at h
    split at h
    · exact (acquired_calls h).stretch
    · cases h
  | targets k answer requestId =>
    simp only [step] at h
    split at h
    · split at h
      · exact (stopClients_calls h).stretch
      · exact (stopTargets_calls h).stretch
    · cases h
  | stopAnswered k requestId =>
    simp only [step] at h
    split at h
    · exact (stopTargets_calls h).stretch
    · cases h
  | released k =>
    simp only [step] at h
    split at h
    · exact (releaseNext_calls h).stretch
    · cases h
  | callCancelled k =>
    simp only [step] at h
    split at h
    · obtain ⟨u, hu, rfl⟩ := Option.map_eq_some_iff.mp h
      exact (stretch_controls hu).trans (.of_eq rfl rfl)
    · have hsame : Stretch s { s with bodies := Function.update s.bodies k none } :=
        .of_eq rfl rfl
      exact hsame.trans (stretch_controls h)
  | runBegins r drift =>
    simp only [step] at h
    split at h
    · obtain ⟨u, hu, hrun⟩ := Option.bind_eq_some_iff.mp h
      exact (stretch_controls hu).trans (stretch_runBegins hrun)
    · cases h
  | runDropped r =>
    simp only [step] at h
    split at h
    · exact stretch_controls h
    · cases h
  | run r label drift =>
    obtain ⟨e, -, hrest⟩ := Option.bind_eq_some_iff.mp h
    split at hrest
    · obtain ⟨e', -, hrun⟩ := Option.bind_eq_some_iff.mp hrest
      exact stretch_runStep hrun
    · cases hrest
  | advance dt | applyCancelled i =>
    simp only [step] at h
    split at h <;> cases h
    exact .of_eq rfl rfl
  | loadTimeline timeline =>
    simp only [step] at h
    split at h <;> cases h <;> exact .of_eq rfl rfl
  | applyConfig i revisionId expected =>
    simp only [step] at h
    split at h
    · cases h
    · split at h <;> cases h <;> exact .of_eq rfl rfl
  | stageConfig kind freshId | applyLocked i => cases hl

/-- **A step of the Scheduler is steps of the controller.** -/
theorem step_simulates {l : Label V} (h : s.step l = some t) : Simulates s t := by
  cases l with
  | stageConfig kind freshId =>
    simp only [step] at h
    split at h <;> cases h
    exact Reachable.refl
  | applyLocked i =>
    simp only [step] at h
    split at h
    · split at h <;> cases h
      rw [Simulates, (applyLocked_frame s i _).1]
      exact .refl
    · cases h
  | _ => exact (step_stretch rfl h).simulates

/-- **The Show of a Scheduler is a Show**: its controller and run tasks are in
a state that the controller reaches under some callers. -/
theorem reachable_control {now : ℚ} {clients : List String} {actor : String}
    (h : Reachable step (init (V := V) now clients actor) s) :
    Reachable ShowControl.step ShowControl.init s.control := by
  apply h.invariant (I := fun s => Reachable ShowControl.step ShowControl.init s.control)
  · exact Reachable.refl
  · intro s l t hs hstep
    exact Reachable.trans hs (step_simulates hstep)

end Scheduler

end Fusion
