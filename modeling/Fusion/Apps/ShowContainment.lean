import Fusion.Apps.SchedulerSteps

/-!
# ShowContainment — no Cue after its Show

A run is on stage while the Show is RUNNING or HOLDING and the run is the
last one started. When it leaves the stage its Cue tasks are still there;
it submits no more if they are all past their submission or cancelled
(`QuelledRun`), and that is for good. `abort` sees to it through the
gathering future, and the end of the run through the tasks that have
returned; neither does when one Cue task has raised and another is still
ahead of its submission (`Confines` excludes it).
-/

namespace Fusion

open Transition

variable {V : Type}

/-- The submission of a Cue of run `r`. -/
def Sent.ofRun (r : Nat) : Sent V → Bool
  | cue r' _ => r' = r
  | _ => false

theorem Sent.eq_of_ofRun {r : Nat} {q : Sent V} (h : q.ofRun r = true) :
    ∃ call, q = .cue r call := by
  cases q with
  | cue r' call => exact ⟨call, by rw [of_decide_eq_true h]⟩
  | _ => cases h

namespace Scheduler

variable {s t : Scheduler V}

/-- The run task of the last start. -/
def current (s : Scheduler V) : Option Nat := s.control.controller.runTask

/-- The Show of run `r` is RUNNING or HOLDING. -/
def onStage (s : Scheduler V) (r : Nat) : Bool := s.state.isLive && s.current = some r

/-- Run `r` will submit no Cue any more. -/
def QuelledRun (s : Scheduler V) (r : Nat) : Prop :=
  match s.execs r with
  | some e => e.Quelled
  | none => s.control.runs r = .created → s.control.cancelRequested r = true

/-- Run `r` may still submit a Cue. -/
def looseRun (s : Scheduler V) (r : Nat) : Bool :=
  match s.execs r with
  | some e => e.loose
  | none => s.control.runs r = .created && !s.control.cancelRequested r

/-- The run has ended with Cue tasks of it alive. -/
def orphanedRun (s : Scheduler V) (r : Nat) : Bool := (s.execs r).any Execution.orphaned

/-! ## What every step keeps -/

/-- The run tasks and their executors agree. -/
structure Linked (s : Scheduler V) : Prop where
  fresh : ∀ r, s.control.started ≤ r → s.control.runs r = .ended ∧ s.execs r = none
  begun : ∀ r e, s.execs r = some e → e.RunInv ∧ s.control.runs r ≠ .created
  finished : ∀ r e, s.execs r = some e → s.control.runs r = .ended → e.phase.isOver = true
  known : ∀ r, s.current = some r → r < s.control.started

theorem Linked.init (now : ℚ) (clients : List String) (actor : String) :
    Linked (init now clients actor : Scheduler V) := by
  have hnone : ∀ r, (Scheduler.init (V := V) now clients actor).execs r = none := fun _ => rfl
  refine ⟨fun _ _ => ⟨rfl, rfl⟩, fun r e h => ?_, fun r e h _ => ?_, nofun⟩ <;>
  · rw [hnone r] at h
    cases h

theorem Linked.of_same (hi : Linked s) (started : t.control.started = s.control.started)
    (runs : t.control.runs = s.control.runs) (execs : t.execs = s.execs)
    (current : t.current = s.current) : Linked t where
  fresh := by
    rw [started, runs, execs]
    exact hi.fresh
  begun := by
    rw [runs, execs]
    exact hi.begun
  finished := by
    rw [runs, execs]
    exact hi.finished
  known := by
    rw [current, started]
    exact hi.known

/-- Run `r` has an executor only if it was started. -/
theorem Linked.lt_of_exec (hi : Linked s) {r : Nat} {e : Execution V} (h : s.execs r = some e) :
    r < s.control.started := by
  by_contra hfresh
  rw [(hi.fresh r (Nat.le_of_not_lt hfresh)).2] at h
  cases h

theorem Linked.lt_of_created (hi : Linked s) {r : Nat} (h : s.control.runs r = .created) :
    r < s.control.started := by
  by_contra hfresh
  rw [(hi.fresh r (Nat.le_of_not_lt hfresh)).1] at h
  cases h

/-- The executor of run `r` is replaced, its run task created or ended. -/
theorem Linked.update (hi : Linked s) {r : Nat} (stage : RunStage) (exec : Option (Execution V))
    (hr : r < s.control.started) (started : t.control.started = s.control.started)
    (runs : t.control.runs = Function.update s.control.runs r stage)
    (execs : t.execs = Function.update s.execs r exec) (current : t.current = s.current)
    (begun : ∀ e, exec = some e → e.RunInv ∧ stage ≠ .created)
    (finished : ∀ e, exec = some e → stage = .ended → e.phase.isOver = true) : Linked t := by
  refine ⟨fun r' h => ?_, fun r' e h => ?_, fun r' e h hended => ?_, ?_⟩
  · rw [started] at h
    have hne : r' ≠ r := by omega
    rw [runs, execs, Function.update_of_ne hne, Function.update_of_ne hne]
    exact hi.fresh r' h
  · rw [execs] at h
    rw [runs]
    by_cases hne : r' = r
    · subst hne
      rw [Function.update_self] at h ⊢
      exact begun e h
    · rw [Function.update_of_ne hne] at h ⊢
      exact hi.begun r' e h
  · rw [execs] at h
    rw [runs] at hended
    by_cases hne : r' = r
    · subst hne
      rw [Function.update_self] at h hended
      exact finished e h hended
    · rw [Function.update_of_ne hne] at h hended
      exact hi.finished r' e h hended
  · rw [current, started]
    exact hi.known

theorem Linked.step {l : Label V} (hi : Linked s) (h : Moves s l t) : Linked t := by
  cases h with
  | rests stays execs _ _ => exact hi.of_same stays.started stays.runs execs stays.runTask
  | aborts _ _ started runs _ runTask execs _ => exact hi.of_same started runs execs runTask
  | cancels r _ started runs _ runTask execs _ =>
    have cancelled : ∀ e, (s.execs r).map Execution.cancelRun = some e →
        ∃ e₀, s.execs r = some e₀ ∧ e₀.cancelRun = e := by
      intro e h
      exact Option.map_eq_some_iff.mp h
    by_cases hr : r < s.control.started
    · refine hi.update (s.control.runs r) _ hr started ?_ execs runTask
        (fun e h => ?_) fun e h hended => ?_
      · rw [runs, Function.update_eq_self]
      · obtain ⟨e₀, he₀, rfl⟩ := cancelled e h
        obtain ⟨hinv, hbegun⟩ := hi.begun r e₀ he₀
        exact ⟨hinv.cancelRun, hbegun⟩
      · obtain ⟨e₀, he₀, rfl⟩ := cancelled e h
        rw [Execution.phase_cancelRun]
        exact hi.finished r e₀ he₀ hended
    · have hnone := (hi.fresh r (Nat.le_of_not_lt hr)).2
      refine hi.of_same started runs ?_ runTask
      rw [execs, hnone, Option.map_none, ← hnone, Function.update_eq_self]
  | starts _ _ started runs _ runTask execs _ =>
    refine ⟨fun r' h => ?_, fun r' e h => ?_, fun r' e h hended => ?_, fun r' h => ?_⟩
    · rw [started] at h
      have hne : r' ≠ s.control.started := by omega
      rw [runs, execs, Function.update_of_ne hne]
      exact hi.fresh r' (by omega)
    · rw [execs] at h
      have hne : r' ≠ s.control.started := Nat.ne_of_lt (hi.lt_of_exec h)
      rw [runs, Function.update_of_ne hne]
      exact hi.begun r' e h
    · rw [execs] at h
      have hne : r' ≠ s.control.started := Nat.ne_of_lt (hi.lt_of_exec h)
      rw [runs, Function.update_of_ne hne] at hended
      exact hi.finished r' e h hended
    · obtain rfl : s.control.started = r' := Option.some.inj (runTask.symm.trans h)
      omega
  | @begins r _ _ timeline runId e created _ step control execs _ =>
    refine hi.update .executing _ (hi.lt_of_created created) ?_ ?_ execs ?_
      (fun e' h => ?_) fun _ _ hended => by cases hended
    · rw [control]
      rfl
    · rw [control]
      rfl
    · rw [current, control]
      rfl
    · cases h
      exact ⟨(Execution.RunInv.init timeline s.clients runId).step step, nofun⟩
  | drops r created _ ends execs _ =>
    have hnone : s.execs r = none := by
      by_contra hsome
      obtain ⟨e, he⟩ := Option.ne_none_iff_exists'.mp hsome
      exact (hi.begun r e he).2 created
    refine hi.update .ended none (hi.lt_of_created created) ends.started ends.runs ?_
      ends.runTask (fun _ h => by cases h) fun _ h => by cases h
    rw [execs, ← hnone, Function.update_eq_self]
  | @runs r label drift _ e e' exec _ step control execs _ =>
    obtain ⟨hinv, hbegun⟩ := hi.begun r e exec
    obtain ⟨hstays, -⟩ := Execution.step_over step
    rcases control with ⟨control, hover⟩ | ⟨ends, hover⟩
    · refine hi.update (s.control.runs r) _ (hi.lt_of_exec exec) (by rw [control]) ?_ execs ?_
        (fun e₁ h => ?_) fun e₁ h hended => ?_
      · rw [control, Function.update_eq_self]
      · rw [current, control]
        rfl
      · cases h
        exact ⟨hinv.step step, hbegun⟩
      · cases h
        exact hstays (hi.finished r e exec hended)
    · refine hi.update .ended _ (hi.lt_of_exec exec) ends.started ends.runs execs ends.runTask
        (fun e₁ h => ?_) fun e₁ h _ => ?_
      · cases h
        exact ⟨hinv.step step, nofun⟩
      · cases h
        exact hover

/-! ## A quelled run stays quelled -/

theorem quelledRun_congr {r : Nat} (execs : t.execs r = s.execs r)
    (runs : t.control.runs r = s.control.runs r)
    (cancelRequested : t.control.cancelRequested r = s.control.cancelRequested r)
    (h : QuelledRun s r) : QuelledRun t r := by
  unfold QuelledRun at *
  rw [execs, runs, cancelRequested]
  exact h

theorem quelledRun_of_exec {r : Nat} {e : Execution V} (h : s.execs r = some e)
    (hq : e.Quelled) : QuelledRun s r := by
  unfold QuelledRun
  rw [h]
  exact hq

theorem quelledRun_of_ended {r : Nat} (hexec : s.execs r = none)
    (hended : s.control.runs r = .ended) : QuelledRun s r := by
  unfold QuelledRun
  rw [hexec, hended]
  nofun

theorem quelledRun_cancelled {r : Nat} (h : ∀ e, s.execs r = some e → e.cancelRun.Quelled)
    (hexecs : t.execs r = (s.execs r).map Execution.cancelRun)
    (hcancel : t.control.cancelRequested r = true) : QuelledRun t r := by
  unfold QuelledRun
  rw [hexecs]
  cases hexec : s.execs r with
  | none => exact fun _ => hcancel
  | some e => exact h e hexec

/-- A run task that has not begun has no executor. -/
theorem Linked.execs_of_created (hi : Linked s) {r : Nat}
    (created : s.control.runs r = .created) : s.execs r = none := by
  by_contra hsome
  obtain ⟨e, he⟩ := Option.ne_none_iff_exists'.mp hsome
  exact (hi.begun r e he).2 created

theorem quelledRun_step {l : Label V} (hi : Linked s) (h : Moves s l t) {r : Nat}
    (hr : r < s.control.started) (hq : QuelledRun s r) : QuelledRun t r := by
  have exec : ∀ {e}, s.execs r = some e → e.Quelled := by
    intro e he
    unfold QuelledRun at hq
    rwa [he] at hq
  cases h with
  | rests stays execs _ _ =>
    exact quelledRun_congr (by rw [execs]) (by rw [stays.runs]) (by rw [stays.cancelRequested]) hq
  | aborts _ _ _ runs cancelRequested _ execs _ =>
    exact quelledRun_congr (by rw [execs]) (by rw [runs]) (by rw [cancelRequested]) hq
  | cancels r' _ _ runs cancelRequested _ execs _ =>
    by_cases hne : r = r'
    · subst hne
      exact quelledRun_cancelled (fun e he => (exec he).cancelRun)
        (by rw [execs, Function.update_self]) (by rw [cancelRequested, Function.update_self])
    · exact quelledRun_congr (by rw [execs, Function.update_of_ne hne]) (by rw [runs])
        (by rw [cancelRequested, Function.update_of_ne hne]) hq
  | starts _ _ _ runs cancelRequested _ execs _ =>
    have hne : r ≠ s.control.started := Nat.ne_of_lt hr
    exact quelledRun_congr (by rw [execs]) (by rw [runs, Function.update_of_ne hne])
      (by rw [cancelRequested]) hq
  | @begins r' _ _ _ _ _ created uncancelled _ control execs _ =>
    by_cases hne : r = r'
    · -- a quelled run does not begin
      subst hne
      unfold QuelledRun at hq
      rw [hi.execs_of_created created] at hq
      rw [hq created] at uncancelled
      cases uncancelled
    · refine quelledRun_congr (by rw [execs, Function.update_of_ne hne]) ?_ ?_ hq
      · rw [control]
        exact Function.update_of_ne hne ..
      · rw [control]
        rfl
  | drops r' created _ ends execs _ =>
    by_cases hne : r = r'
    · subst hne
      exact quelledRun_of_ended (execs.symm ▸ hi.execs_of_created created)
        (by rw [ends.runs, Function.update_self])
    · exact quelledRun_congr (by rw [execs]) (by rw [ends.runs, Function.update_of_ne hne])
        (by rw [ends.cancelRequested]) hq
  | @runs r' _ _ _ e e' he _ step control execs _ =>
    by_cases hne : r = r'
    · subst hne
      exact quelledRun_of_exec (by rw [execs, Function.update_self])
        ((exec he).step (hi.begun r e he).1 step)
    · refine quelledRun_congr (by rw [execs, Function.update_of_ne hne]) ?_ ?_ hq
      · rcases control with ⟨control, -⟩ | ⟨ends, -⟩
        · rw [control]
        · rw [ends.runs, Function.update_of_ne hne]
      · rcases control with ⟨control, -⟩ | ⟨ends, -⟩
        · rw [control]
        · rw [ends.cancelRequested]

/-- A quelled run submits nothing. -/
theorem quelledRun_silent {l : Label V} (h : Moves s l t) {r : Nat} (hq : QuelledRun s r)
    (call : SubmitCall V) : Sent.cue r call ∉ t.sent.drop s.sent.length := by
  have silent : NoCue s t → Sent.cue r call ∉ t.sent.drop s.sent.length := by
    rintro ⟨rs, hsent, hrs⟩ hmem
    rw [hsent, List.drop_left] at hmem
    cases hrs _ hmem
  cases h with
  | rests _ _ noCue _ => exact silent noCue
  | aborts _ _ _ _ _ _ _ noCue => exact silent noCue
  | cancels _ _ _ _ _ _ _ sent | starts _ _ _ _ _ _ _ sent | begins _ _ _ _ _ _ _ _ sent
  | drops _ _ _ _ _ sent => exact silent (.of_eq sent)
  | @runs r' _ _ _ e e' he _ step _ _ sent =>
    intro hmem
    rw [sent, List.drop_left, List.mem_map] at hmem
    obtain ⟨call', hcall', heq⟩ := hmem
    cases heq
    unfold QuelledRun at hq
    rw [he] at hq
    rw [hq.submits_nothing step, List.drop_length] at hcall'
    cases hcall'

/-! ## Leaving the stage -/

/-- An `abort`, or a step of the run's own task. -/
def Label.ownExit (r : Nat) : Label V → Bool
  | .abort _ => true
  | .runBegins r' _ | .run r' _ _ => r' = r
  | _ => false

/-- When the Show leaves RUNNING and HOLDING by an `abort` or by the end of
its run, no Cue task of the run is orphaned; when something else ends it, the
run cannot submit any more. -/
def Confines (s : Scheduler V) (l : Label V) : Bool :=
  !(s.state.isLive && (s.step l).any fun t => !t.state.isLive) ||
    s.current.all fun r => if l.ownExit r then !s.orphanedRun r else !s.looseRun r

theorem Linked.quelledRun_of_loose (hi : Linked s) {r : Nat} (h : s.looseRun r = false) :
    QuelledRun s r := by
  unfold looseRun at h
  unfold QuelledRun
  split at h
  · rename_i e he
    exact (hi.begun r e he).1.quelled_of_loose h
  · intro hcreated
    simpa [hcreated] using h

theorem not_orphaned {r : Nat} {e : Execution V} (he : s.execs r = some e)
    (h : s.orphanedRun r = false) : e.orphaned = false := by
  simpa [orphanedRun, he] using h

/-- On stage before a step and off stage after it, with the same run: the
Show has left RUNNING and HOLDING. -/
theorem leaves_of_onStage {r : Nat} (hon : s.onStage r = true) (hoff : t.onStage r = false)
    (hcurrent : t.current = s.current) : s.state.isLive = true ∧ t.state.isLive = false := by
  simp only [onStage, Bool.and_eq_true, decide_eq_true_eq] at hon
  refine ⟨hon.1, ?_⟩
  simpa [onStage, hcurrent, hon.2] using hoff

/-- A run that leaves the stage in a step that meets the condition is
quelled. -/
theorem quelledRun_of_leaves {l : Label V} (hi : Linked s) (h : Moves s l t) {r : Nat}
    (hon : s.onStage r = true) (hoff : t.onStage r = false)
    (hown : l.ownExit r = true → s.orphanedRun r = false)
    (hother : l.ownExit r = false → s.looseRun r = false) : QuelledRun t r := by
  have hr : s.current = some r := by
    simp only [onStage, Bool.and_eq_true, decide_eq_true_eq] at hon
    exact hon.2
  have leaves (hcurrent : t.current = s.current) := leaves_of_onStage hon hoff hcurrent
  have kept (hl : l.ownExit r = false) (hlt : r < s.control.started) : QuelledRun t r :=
    quelledRun_step hi h hlt (hi.quelledRun_of_loose (hother hl))
  have hlt : r < s.control.started := hi.known r hr
  cases h with
  | rests stays execs noCue refused =>
    obtain ⟨hlive, hdead⟩ := leaves stays.runTask
    cases hl : l.ownExit r with
    | false => exact kept hl hlt
    | true =>
      have hdrives : l.drives = true := by
        cases l with
        | abort | runBegins | run => rfl
        | _ => cases hl
      have hsame : t.state = s.state := by rw [state, refused hdrives, state]
      rw [hsame, hlive] at hdead
      cases hdead
  | aborts pending _ _ runs _ _ execs _ =>
    have hended : s.control.runs r = .ended := by
      unfold ShowControl.pendingRun at pending
      rw [show s.control.controller.runTask = some r from hr] at pending
      simpa [Option.filter] using pending
    cases hexec : s.execs r with
    | none => exact quelledRun_of_ended (by rw [execs, hexec]) (by rw [runs, hended])
    | some e =>
      obtain ⟨hearly, hgathering⟩ := Execution.over_cases (hi.finished r e hexec hended)
      exact quelledRun_of_exec (by rw [execs, hexec])
        ((hi.begun r e hexec).1.quelled_of_late hearly hgathering
          (not_orphaned hexec (hown rfl)))
  | cancels r' whose _ runs cancelRequested runTask execs _ =>
    rcases whose with ⟨⟨k, rfl⟩, hpending, -⟩ | hsame
    · -- `abort` cancels the run that is on stage
      obtain rfl : r' = r := by
        have := (Option.filter_eq_some_iff.mp hpending).1
        exact Option.some.inj (this.symm.trans hr)
      exact quelledRun_cancelled
        (fun e he => (hi.begun r' e he).1.quelled_cancelRun (not_orphaned he (hown rfl)))
        (by rw [execs, Function.update_self]) (by rw [cancelRequested, Function.update_self])
    · obtain ⟨hlive, hdead⟩ := leaves runTask
      rw [hsame, hlive] at hdead
      cases hdead
  | starts armed _ _ _ _ _ _ _ =>
    rw [onStage, armed] at hon
    cases hon
  | begins _ _ _ _ _ _ control _ _ =>
    have hsame : t.control.controller = s.control.controller := by
      rw [control]
      rfl
    have : t.onStage r = s.onStage r := by rw [onStage, state, current, hsame]; rfl
    rw [this, hon] at hoff
    cases hoff
  | drops r' created label ends execs _ =>
    obtain ⟨hlive, hdead⟩ := leaves ends.runTask
    rcases label with ⟨-, hsame⟩ | ⟨⟨drift, rfl⟩, -⟩
    · rw [hsame, hlive] at hdead
      cases hdead
    · by_cases hne : r' = r
      · subst hne
        exact quelledRun_of_ended (execs.symm ▸ hi.execs_of_created created)
          (by rw [ends.runs, Function.update_self])
      · exact kept (by simp [Label.ownExit, hne]) hlt
  | @runs r' label drift _ e e' he _ step control execs _ =>
    rcases control with ⟨control, -⟩ | ⟨ends, hover⟩
    · have : t.onStage r = s.onStage r := by rw [onStage, state, current, control]; rfl
      rw [this, hon] at hoff
      cases hoff
    · by_cases hne : r' = r
      · subst hne
        have horphaned := not_orphaned he (hown (by simp [Label.ownExit]))
        have hinv := (hi.begun r' e he).1
        refine quelledRun_of_exec (by rw [execs, Function.update_self]) ?_
        cases hbefore : e.phase.isOver with
        | true =>
          obtain ⟨hearly, hgathering⟩ := Execution.over_cases hbefore
          exact (hinv.quelled_of_late hearly hgathering horphaned).step hinv step
        | false =>
          obtain ⟨hearly, hgathering⟩ := Execution.over_cases hover
          exact (hinv.step step).quelled_of_late hearly hgathering
            (((Execution.step_over step).2 hbefore hover).trans horphaned)
      · exact kept (by simp [Label.ownExit, hne]) hlt

/-! ## Runs -/

/-- **The invariant**: every run that has left the stage is quelled. -/
structure Contained (s : Scheduler V) : Prop where
  linked : Linked s
  quelled : ∀ r, r < s.control.started → s.onStage r = false → QuelledRun s r

theorem Moves.started_le {l : Label V} (h : Moves s l t) :
    s.control.started ≤ t.control.started := by
  cases h with
  | rests stays _ _ _ => rw [stays.started]
  | aborts _ _ started _ _ _ _ _ | cancels _ _ started _ _ _ _ _ => rw [started]
  | starts _ _ started _ _ _ _ _ =>
    rw [started]
    exact Nat.le_succ _
  | begins _ _ _ _ _ _ control _ _ =>
    rw [control]
    rfl
  | drops _ _ _ ends _ _ => rw [ends.started]
  | runs _ _ _ _ _ control _ _ =>
    rcases control with ⟨control, -⟩ | ⟨ends, -⟩
    · rw [control]
    · rw [ends.started]

/-- The run of a new Show is on stage. -/
theorem Moves.onStage_new {l : Label V} (h : Moves s l t) {r : Nat}
    (hlt : r < t.control.started) (hnew : s.control.started ≤ r) : t.onStage r = true := by
  have same (hstarted : t.control.started = s.control.started) : t.onStage r = true := by
    omega
  cases h with
  | rests stays _ _ _ => exact same stays.started
  | aborts _ _ started _ _ _ _ _ | cancels _ _ started _ _ _ _ _ => exact same started
  | starts _ live started _ _ runTask _ _ =>
    obtain rfl : r = s.control.started := by omega
    rw [onStage, live, current, runTask]
    simp
  | begins _ _ _ _ _ _ control _ _ => exact same (by rw [control]; rfl)
  | drops _ _ _ ends _ _ => exact same ends.started
  | runs _ _ _ _ _ control _ _ =>
    rcases control with ⟨control, -⟩ | ⟨ends, -⟩
    · exact same (by rw [control])
    · exact same ends.started

/-- A Show that is on keeps its run. -/
theorem Moves.current_eq {l : Label V} (h : Moves s l t) (hlive : s.state.isLive = true) :
    t.current = s.current := by
  cases h with
  | rests stays _ _ _ => exact stays.runTask
  | aborts _ _ _ _ _ runTask _ _ | cancels _ _ _ _ _ runTask _ _ => exact runTask
  | starts armed _ _ _ _ _ _ _ =>
    rw [armed] at hlive
    cases hlive
  | begins _ _ _ _ _ _ control _ _ =>
    rw [current, control]
    rfl
  | drops _ _ _ ends _ _ => exact ends.runTask
  | runs _ _ _ _ _ control _ _ =>
    rcases control with ⟨control, -⟩ | ⟨ends, -⟩
    · rw [current, control]
      rfl
    · exact ends.runTask

theorem Contained.step {l : Label V} (hi : Contained s) (h : s.step l = some t)
    (hok : Confines s l = true) : Contained t := by
  have hmoves := step_moves h
  refine ⟨hi.linked.step hmoves, fun r hlt hoff => ?_⟩
  have hold : r < s.control.started := by
    by_contra hnew
    rw [hmoves.onStage_new hlt (Nat.le_of_not_lt hnew)] at hoff
    cases hoff
  cases hon : s.onStage r with
  | false => exact quelledRun_step hi.linked hmoves hold (hi.quelled r hold hon)
  | true =>
    obtain ⟨hlive, hcurrent⟩ : s.state.isLive = true ∧ s.current = some r := by
      simpa [onStage] using hon
    obtain ⟨-, hdead⟩ := leaves_of_onStage hon hoff (hmoves.current_eq hlive)
    have hconf : (if l.ownExit r then !s.orphanedRun r else !s.looseRun r) = true := by
      simpa [Confines, hlive, h, hdead, hcurrent] using hok
    refine quelledRun_of_leaves hi.linked hmoves hon hoff (fun hl => ?_) fun hl => ?_
    · simpa [hl] using hconf
    · simpa [hl] using hconf

/-- **Once a Show has left RUNNING and HOLDING, no Cue of its run is
submitted**: after any run whose steps confine the Show, whatever follows. -/
theorem show_contained (now : ℚ) (clients : List String) (actor : String)
    {xs ys : List (Step (Scheduler.step (V := V)))}
    (before : Run Scheduler.step (init now clients actor) xs s)
    (hok : ∀ x ∈ xs, Confines x.src x.label = true) (after : Run Scheduler.step s ys t) {r : Nat}
    (hstarted : r < s.control.started) (hleft : s.onStage r = false) :
    ∀ y ∈ ys, ∀ call, Sent.cue r call ∉ y.dst.sent.drop y.src.sent.length := by
  have hcontained := (before.invariant_of (I := Contained)
    (fun x => Confines x.src x.label = true) ⟨.init now clients actor, nofun⟩
    (fun x hi hx => hi.step x.fired hx) hok).2
  have hquelled := after.invariant_of
    (I := fun s => Linked s ∧ r < s.control.started ∧ QuelledRun s r) (fun _ => True)
    ⟨hcontained.linked, hstarted, hcontained.quelled r hstarted hleft⟩
    (fun y hi _ => by
      obtain ⟨hlinked, hlt, hq⟩ := hi
      have hmoves := step_moves y.fired
      exact ⟨hlinked.step hmoves, Nat.lt_of_lt_of_le hlt hmoves.started_le,
        quelledRun_step hlinked hmoves hlt hq⟩)
    (fun _ _ => trivial)
  intro y hy call
  exact quelledRun_silent (step_moves y.fired) (hquelled.1 y hy).2.2 call

/-- Two Cues, a second apart. -/
private def twoCues : Timeline Int :=
  ⟨[⟨"a", 0, "motor", "motor01", "move", .empty, .acknowledged, [], .default⟩,
    ⟨"b", 1000, "motor", "motor01", "move", .empty, .acknowledged, [], .default⟩]⟩

/-- The Show is armed and started, and both Cue tasks have run once. -/
private def twoCuesStarted : List (Label Int) :=
  [.loadTimeline twoCues, .arm 0, .informed 0 (.ok ()), .acquired 0 (.ok "cs1"),
    .start "run-1", .runBegins 0 0, .run 0 (.snapshot (.ok 0)) 0, .run 0 (.cue 0) 0,
    .run 0 (.cue 1) 0]

/-- Both Cues succeed and the Show is over; then it is armed and started
again. -/
theorem show_contained_rerun :
    ∃ s ys t, Reachable Scheduler.step (init 0 ["motor"] "scheduler" : Scheduler Int) s ∧
      Run Scheduler.step s ys t ∧ s.state = .idle ∧ t.state = .running ∧
      ∀ y ∈ ys, ∀ call, Sent.cue 0 call ∉ y.dst.sent.drop y.src.sent.length := by
  let again : List (Label Int) :=
    [.arm 1, .informed 1 (.ok ()), .acquired 1 (.ok "cs2"), .start "run-2", .runBegins 1 0]
  obtain ⟨xs, s, run, hok, hs⟩ := execWhile_test Confines Scheduler.step
    (init 0 ["motor"] "scheduler" : Scheduler Int)
    (twoCuesStarted ++
      [.run 0 (.submitAnswered 0 (.ok ("c1", .terminal .succeeded))) 0, .run 0 (.notice 0) 0,
        .advance 1, .run 0 (.cue 1) 0,
        .run 0 (.submitAnswered 1 (.ok ("c2", .terminal .succeeded))) 0, .run 0 (.notice 1) 0,
        .run 0 .gathered 0, .run 0 (.streamEnds "motor") 0, .run 0 .closed 0])
    (fun s => s.state = .idle && s.control.started = 1 &&
      (exec Scheduler.step s again).any fun t => t.state = .running)
    (by decide +kernel)
  simp only [Bool.and_eq_true, decide_eq_true_eq] at hs
  obtain ⟨⟨hidle, hstarted⟩, hagain⟩ := hs
  obtain ⟨ys, t, after, -, ht⟩ := execWhile_test (fun _ _ => true) Scheduler.step s again
    (fun t => t.state = .running) hagain
  refine ⟨s, ys, t, run.reachable, after, hidle, by simpa using ht, ?_⟩
  exact show_contained 0 ["motor"] "scheduler" run hok after (r := 0) (by omega)
    (by simp [onStage, hidle, ShowState.isLive])

/-- The defect: the transport fails under the first Cue, so its task raises
and the Show is FAULTED; the task of the second Cue sleeps on, and submits
its Cue when that is due. -/
theorem show_contained_orphan :
    ¬ ∀ xs s ys t r, Run Scheduler.step (init 0 ["motor"] "scheduler" : Scheduler Int) xs s →
      Run Scheduler.step s ys t → r < s.control.started → s.onStage r = false →
      ∀ y ∈ ys, ∀ call, Sent.cue r call ∉ y.dst.sent.drop y.src.sent.length := by
  intro hall
  obtain ⟨xs, s, run, -, hs⟩ := execWhile_test (fun _ _ => true) Scheduler.step
    (init 0 ["motor"] "scheduler" : Scheduler Int)
    (twoCuesStarted ++
      [.run 0 (.submitAnswered 0 (.error (.other "connection refused"))) 0,
        .run 0 (.notice 0) 0, .run 0 .gathered 0, .run 0 (.streamEnds "motor") 0,
        .run 0 .closed 0, .advance 1])
    (fun s => s.state = .faulted && s.control.started = 1 &&
      (s.step (.run 0 (.cue 1) 0)).any fun t => (t.sent.drop s.sent.length).any (·.ofRun 0))
    (by decide +kernel)
  simp only [Bool.and_eq_true, decide_eq_true_eq] at hs
  obtain ⟨⟨hfaulted, hstarted⟩, hsubmits⟩ := hs
  obtain ⟨t, ht, hsent⟩ := (Option.any_eq_true _ _).mp hsubmits
  obtain ⟨q, hq, hrun⟩ := List.any_eq_true.mp hsent
  obtain ⟨call, rfl⟩ := Sent.eq_of_ofRun hrun
  refine hall xs s _ t 0 run (.single ⟨s, _, t, ht⟩) (by omega) ?_ _ (List.mem_singleton_self _)
    call hq
  simp [onStage, hfaulted, ShowState.isLive]

end Scheduler

end Fusion
