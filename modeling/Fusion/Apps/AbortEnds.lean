import Fusion.Apps.AbortReach
import Fusion.Apps.FailedArm
import Fusion.Core.RunCancel

/-!
# AbortEnds — one `abort` comes to its end

The call waits for the run task first, which it has cancelled and which can
always go on (`runLeft`), and is then in `_stop_all`, where each answer takes
it one step down (`ShowBody.rank`). So the plan is carried out.
-/

namespace Fusion

open Transition

variable {V : Type}

namespace ShowControl

variable {c d : ShowControl}

/-- The run task that a call waits for was asked to stop. -/
def JoinsAsked (c : ShowControl) : Prop :=
  ∀ k r, c.calls k = some (.joining r) → c.cancelRequested r = true

/-- A step after which call `k` is `call`, and the others are as they were. -/
theorem JoinsAsked.update (hi : JoinsAsked c) (k : Nat) (call : Option ShowCall)
    (hcalls : d.calls = Function.update c.calls k call)
    (hasked : ∀ r, c.cancelRequested r = true → d.cancelRequested r = true)
    (hcall : ∀ r, call = some (.joining r) → d.cancelRequested r = true) : JoinsAsked d := by
  intro j r hj
  rw [hcalls] at hj
  by_cases hjk : j = k
  · subst hjk
    rw [Function.update_self] at hj
    exact hcall r hj
  · rw [Function.update_of_ne hjk] at hj
    exact hasked r (hi j r hj)

theorem asked_cancelRun (c : ShowControl) (r r' : Nat) (h : c.cancelRequested r' = true) :
    (c.cancelRun r).cancelRequested r' = true := by
  by_cases hr : r' = r
  · exact hr ▸ Function.update_self ..
  · exact (Function.update_of_ne hr ..).trans h

theorem JoinsAsked.step {l : Label} (hi : JoinsAsked c) (h : c.step l = some d) :
    JoinsAsked d := by
  cases l with
  | arm k =>
    simp only [ShowControl.step] at h
    split at h <;> cases h
    · exact hi.update k (some .preparing) rfl (fun _ h => h) (by simp)
    · exact hi
  | abort k =>
    simp only [ShowControl.step] at h
    split at h
    · rename_i c' _ _
      split at h <;> cases h
      · rename_i r _
        -- the run task is asked as the wait for it begins
        apply hi.update k (some (.joining r)) rfl
        · exact fun r' h => asked_cancelRun c r r' h
        · intro r' heq
          cases heq
          exact Function.update_self ..
      · exact hi.update k (some .stopping) rfl (fun _ h => h) (by simp)
    · cases h
      exact hi
    · cases h
  | joined k =>
    simp only [ShowControl.step] at h
    split at h
    · split at h <;> cases h
      exact hi.update k (some .stopping) rfl (fun _ h => h) (by simp)
    · cases h
  | prepareReturned k | prepareRaised k message | stopReturned k | stopRaised k =>
    simp only [ShowControl.step] at h
    split at h <;> cases h
    exact hi.update k none rfl (fun _ h => h) (by simp)
  | callCancelled k =>
    simp only [ShowControl.step] at h
    split at h <;> cases h
    · rename_i r _
      intro j r' hj
      exact asked_cancelRun c r r' (hi j r' hj)
    · exact hi.update k none rfl (fun _ h => h) (by simp)
  | start runId | runBegins r | runReturned r | runRaised r message | runCancelled r | hold =>
    simp only [ShowControl.step] at h
    split at h <;> cases h <;> exact hi

end ShowControl

/-! ## What is left of a call -/

/-- What is left of `_stop_all`: the clients, each asked and then stopped, and
within a client its targets; then the sessions. -/
def ShowBody.rank : ShowBody → Nat × Nat
  | targets _ _ rest => (2 * rest.length + 2, 0)
  | stopping _ _ left rest => (2 * rest.length + 1, left.length)
  | releasing names => (0, names.length + 1)
  | _ => (0, 0)

/-- The answers that a coroutine of `_stop_all` waits for. -/
def ShowBody.awaits (k : Nat) : ShowBody → Scheduler.Label V → Bool
  | targets _ _ _, .targets j _ _ => j = k
  | stopping _ _ _ _, .stopAnswered j _ => j = k
  | releasing _, .released j => j = k
  | _, _ => false

namespace Scheduler

section
variable {s t w v : Scheduler V} {k : Nat} {as : List TargetsAnswer}

/-! ## The run task -/

/-- A run task that executes has its executor, and a cancelled one has
cancelled it. -/
structure Stoppable (s : Scheduler V) : Prop where
  formed : ∀ r e, s.execs r = some e → e.Formed
  asked : ∀ r e, s.execs r = some e → s.control.cancelRequested r = true → e.Asked
  executing : ∀ r, s.control.runs r = .executing →
    ∃ e, s.execs r = some e ∧ e.phase.isOver = false

theorem Stoppable.init (now : ℚ) (clients : List String) (actor : String) :
    Stoppable (init now clients actor : Scheduler V) := by
  refine ⟨?_, ?_, ?_⟩
  · intro _ _ he
    cases he
  · intro _ _ he
    cases he
  · intro _ hrun
    cases hrun

/-- The run tasks but `r` are as they were. -/
theorem Stoppable.update (hi : Stoppable s) (r : Nat)
    (hruns : ∀ r', r' ≠ r → t.control.runs r' = s.control.runs r')
    (hexecs : ∀ r', r' ≠ r → t.execs r' = s.execs r')
    (hcancel : ∀ r', r' ≠ r → t.control.cancelRequested r' = s.control.cancelRequested r')
    (hformed : ∀ e, t.execs r = some e → e.Formed)
    (hasked : ∀ e, t.execs r = some e → t.control.cancelRequested r = true → e.Asked)
    (hexecuting : t.control.runs r = .executing →
      ∃ e, t.execs r = some e ∧ e.phase.isOver = false) : Stoppable t where
  formed := by
    intro r' e he
    by_cases hr : r' = r
    · subst hr
      exact hformed e he
    · rw [hexecs r' hr] at he
      exact hi.formed r' e he
  asked := by
    intro r' e he hcancelled
    by_cases hr : r' = r
    · subst hr
      exact hasked e he hcancelled
    · rw [hexecs r' hr] at he
      rw [hcancel r' hr] at hcancelled
      exact hi.asked r' e he hcancelled
  executing := by
    intro r' hrun
    by_cases hr : r' = r
    · subst hr
      exact hexecuting hrun
    · rw [hruns r' hr] at hrun
      rw [hexecs r' hr]
      exact hi.executing r' hrun

theorem Stoppable.of_same (hi : Stoppable s) (runs : t.control.runs = s.control.runs)
    (execs : t.execs = s.execs)
    (cancelRequested : t.control.cancelRequested = s.control.cancelRequested) : Stoppable t := by
  refine ⟨?_, ?_, ?_⟩
  · rw [execs]
    exact hi.formed
  · rw [execs, cancelRequested]
    exact hi.asked
  · rw [runs, execs]
    exact hi.executing

theorem Stoppable.step {l : Label V} (hlinked : Linked s) (hi : Stoppable s)
    (h : Moves s l t) : Stoppable t := by
  cases h with
  | rests stays execs _ _ => exact hi.of_same stays.runs execs stays.cancelRequested
  | aborts _ _ _ runs cancelRequested _ execs _ => exact hi.of_same runs execs cancelRequested
  | cancels r _ _ runs cancelRequested _ execs _ =>
    have hexec : t.execs r = (s.execs r).map Execution.cancelRun := by
      rw [execs, Function.update_self]
    have hcancelled : ∀ e, t.execs r = some e → ∃ e₀, s.execs r = some e₀ ∧ e₀.cancelRun = e := by
      intro e he
      rw [hexec] at he
      exact Option.map_eq_some_iff.mp he
    refine hi.update r ?_ ?_ ?_ ?_ ?_ ?_
    · intro r' _
      rw [runs]
    · intro r' hr
      rw [execs, Function.update_of_ne hr]
    · intro r' hr
      rw [cancelRequested, Function.update_of_ne hr]
    · intro e he
      obtain ⟨e₀, he₀, rfl⟩ := hcancelled e he
      exact (hi.formed r e₀ he₀).cancelRun
    · intro e he _
      obtain ⟨e₀, -, rfl⟩ := hcancelled e he
      exact e₀.asked_cancelRun
    · rw [runs]
      intro hrun
      obtain ⟨e, he, hover⟩ := hi.executing r hrun
      exact ⟨e.cancelRun, by rw [hexec, he]; rfl, by rw [Execution.phase_cancelRun]; exact hover⟩
  | starts _ _ _ runs cancelRequested _ execs _ =>
    have hnone : t.execs s.control.started = none := by
      rw [execs]
      exact (hlinked.fresh _ (Nat.le_refl _)).2
    refine hi.update s.control.started ?_ ?_ ?_ ?_ ?_ ?_
    · intro r' hr
      rw [runs, Function.update_of_ne hr]
    · intro r' _
      rw [execs]
    · intro r' _
      rw [cancelRequested]
    · intro _ he
      rw [hnone] at he
      cases he
    · intro _ he
      rw [hnone] at he
      cases he
    · rw [runs, Function.update_self]
      nofun
  | @begins r _ _ timeline runId e _ uncancelled step control execs _ =>
    have hexec : t.execs r = some e := by rw [execs, Function.update_self]
    refine hi.update r ?_ ?_ ?_ ?_ ?_ ?_
    · intro r' hr
      rw [control]
      exact Function.update_of_ne hr ..
    · intro r' hr
      rw [execs, Function.update_of_ne hr]
    · intro r' _
      rw [control]
      rfl
    · intro e' he
      rw [hexec] at he
      cases he
      exact (Execution.Formed.init timeline s.clients runId).step
        (.init timeline s.clients runId) step
    · -- a cancelled run task does not begin
      intro _ _ hcancelled
      rw [control] at hcancelled
      exact absurd (uncancelled.symm.trans hcancelled) (by decide)
    · exact fun _ => ⟨e, hexec, (begin_running step).1⟩
  | drops r created _ ends execs _ =>
    have hnone : t.execs r = none := by
      rw [execs]
      exact hlinked.execs_of_created created
    refine hi.update r ?_ ?_ ?_ ?_ ?_ ?_
    · intro r' hr
      rw [ends.runs, Function.update_of_ne hr]
    · intro r' _
      rw [execs]
    · intro r' _
      rw [ends.cancelRequested]
    · intro _ he
      rw [hnone] at he
      cases he
    · intro _ he
      rw [hnone] at he
      cases he
    · rw [ends.runs, Function.update_self]
      nofun
  | @runs r _ _ _ e e' exec _ step control execs _ =>
    -- the run task ends with its executor
    have hexec : t.execs r = some e' := by rw [execs, Function.update_self]
    obtain ⟨hinv, -⟩ := hlinked.begun r e exec
    have hcancel : t.control.cancelRequested = s.control.cancelRequested := by
      rcases control with ⟨control, -⟩ | ⟨ends, -⟩
      · rw [control]
      · exact ends.cancelRequested
    refine hi.update r ?_ ?_ ?_ ?_ ?_ ?_
    · intro r' hr
      rcases control with ⟨control, -⟩ | ⟨ends, -⟩
      · rw [control]
      · rw [ends.runs, Function.update_of_ne hr]
    · intro r' hr
      rw [execs, Function.update_of_ne hr]
    · intro r' _
      rw [hcancel]
    · intro e₁ he
      rw [hexec] at he
      cases he
      exact (hi.formed r e exec).step hinv step
    · intro e₁ he hcancelled
      rw [hexec] at he
      cases he
      rw [hcancel] at hcancelled
      exact (hi.asked r e exec hcancelled).step hinv step
    · intro hrun
      rcases control with ⟨control, hover⟩ | ⟨ends, -⟩
      · rw [control] at hrun
        obtain ⟨e₀, he₀, hno⟩ := hi.executing r hrun
        rw [exec] at he₀
        cases he₀
        rcases hover with hover | hover
        · rw [hno] at hover
          cases hover
        · exact ⟨e', hexec, hover⟩
      · rw [ends.runs, Function.update_self] at hrun
        cases hrun

/-- What is left of run task `r`, once it is cancelled. -/
def runLeft (v : Scheduler V) (r : Nat) : Nat :=
  match v.control.runs r with
  | .ended => 0
  | .created => 1
  | .executing => 1 + (v.execs r).elim 0 Execution.remaining

theorem runLeft_ended {r : Nat} (h : v.control.runs r = .ended) : v.runLeft r = 0 := by
  rw [runLeft, h]

theorem runStep_running {r : Nat} {e e' : Execution V} {drift : ℚ}
    (hover : e'.phase.isOver = false) : v.runStep r e e' drift = some (v.setExec r e e' drift) := by
  unfold runStep
  split
  · rfl
  · rename_i hphase _
    rw [hphase] at hover
    cases hover
  · rfl

theorem runStep_ending {r : Nat} {e e' : Execution V} {drift : ℚ}
    (hgoing : e.phase.isOver = false) (hover : e'.phase.isOver = true) :
    ∃ result, v.runStep r e e' drift = (v.setExec r e e' drift).runEnded r e' result := by
  unfold runStep
  split
  · rename_i hphase
    rw [hphase] at hgoing
    cases hgoing
  · rename_i result _ _
    exact ⟨result, rfl⟩
  · rename_i hno
    cases hphase : e'.phase with
    | ended result => exact absurd hphase (hno result)
    | _ =>
      rw [hphase] at hover
      cases hover

theorem runEnded_some {r : Nat} (hrun : v.control.runs r = .executing) (e : Execution V)
    (how : TaskEnd) : ∃ u, v.runEnded r e how = some u := by
  cases how with
  | returned =>
    simp only [runEnded]
    split <;> simp [controls, ShowControl.step, hrun]
  | raised message => simp [runEnded, controls, ShowControl.step, hrun]
  | cancelled => simp [runEnded, controls, ShowControl.step, hrun]

/-- **A cancelled run task can always go on.** -/
theorem run_nears (hi : Stoppable v) {r : Nat} (hasked : v.control.cancelRequested r = true)
    (halive : v.control.runs r ≠ .ended) :
    ∃ (l : Label V) (u : Scheduler V), l.call? = none ∧ v.step l = some u ∧
      u.runLeft r < v.runLeft r := by
  cases hrun : v.control.runs r with
  | ended => exact absurd hrun halive
  | created =>
    refine ⟨.runDropped r, { v with control := v.control.setRun r .ended }, rfl, ?_, ?_⟩
    · simp [step, hrun, controls, ShowControl.step, hasked]
    · rw [runLeft_ended (by simp [ShowControl.setRun]), runLeft, hrun]
      show 0 < 1
      omega
  | executing =>
    obtain ⟨e, he, hover⟩ := hi.executing r hrun
    obtain ⟨l, hbegin, hcancel, hnears⟩ :=
      (hi.asked r e he hasked).nears (hi.formed r e he) hover
    obtain ⟨e', hstep, hless⟩ := hnears (v.env 0)
    have hinternal : internal l = true := by
      cases l with
      | begin => exact absurd rfl hbegin
      | cancelRun => exact absurd rfl hcancel
      | _ => rfl
    have hleft : v.runLeft r = 1 + e.remaining := by
      rw [runLeft, hrun, he]
      rfl
    have hnext : v.step (.run r l 0) = v.runStep r e e' 0 := by
      simp [step, he, hinternal, hstep]
    have hrun' : (v.setExec r e e' 0).control.runs r = .executing := hrun
    cases hended : e'.phase.isOver with
    | false =>
      refine ⟨.run r l 0, v.setExec r e e' 0, rfl, hnext.trans (runStep_running hended), ?_⟩
      have hexec : (v.setExec r e e' 0).execs r = some e' := Function.update_self ..
      rw [hleft, runLeft, hrun', hexec]
      show 1 + e'.remaining < 1 + e.remaining
      omega
    | true =>
      obtain ⟨result, hends⟩ : ∃ result,
          v.runStep r e e' 0 = (v.setExec r e e' 0).runEnded r e' result :=
        runStep_ending hover hended
      obtain ⟨u, hu⟩ := runEnded_some hrun' e' result
      refine ⟨.run r l 0, u, rfl, hnext.trans (hends.trans hu), ?_⟩
      have hover' : u.control.runs r = .ended := by
        rw [(runEnded_ends hu).1.runs, Function.update_self]
      rw [runLeft_ended hover', hleft]
      omega

/-! ## `_stop_all` -/

/-- A stretch of `_stop_all` is possible, and what is left after it is below
this bound. -/
def Descends (k : Nat) (bound : Nat × Nat) (next : Option (Scheduler V)) : Prop :=
  ∃ u, next = some u ∧
    ∀ body, u.bodies k = some body → Prod.Lex (· < ·) (· < ·) body.rank bound

theorem Descends.mono {bound bound' : Nat × Nat} {next : Option (Scheduler V)}
    (h : Descends k bound next)
    (hle : bound.1 < bound'.1 ∨ bound.1 = bound'.1 ∧ bound.2 ≤ bound'.2) :
    Descends k bound' next := by
  obtain ⟨u, hu, hbelow⟩ := h
  refine ⟨u, hu, ?_⟩
  intro body hbody
  have hlex := Prod.lex_def.mp (hbelow body hbody)
  rw [Prod.lex_def]
  omega

theorem descends_suspend (w : Scheduler V) (k : Nat) (body : ShowBody) {bound : Nat × Nat}
    (hbelow : body.rank.1 < bound.1 ∨ body.rank.1 = bound.1 ∧ body.rank.2 < bound.2) :
    Descends k bound (some (w.suspend k body)) := by
  refine ⟨_, rfl, ?_⟩
  intro body' hbody'
  have hown : (w.suspend k body).bodies k = some body := Function.update_self ..
  rw [hown] at hbody'
  cases hbody'
  exact Prod.lex_def.mpr hbelow

theorem descends_ended (hcall : w.control.calls k = some .stopping) {l : ShowControl.Label}
    (hl : l = .stopReturned k ∨ l = .stopRaised k) (bound : Nat × Nat) :
    Descends k bound (w.endCall k l) := by
  rcases hl with rfl | rfl <;>
  · refine ⟨_, by simp only [endCall, controls, ShowControl.step, hcall, if_true]; rfl, ?_⟩
    intro body hbody
    have hbody : Function.update w.bodies k none k = some body := hbody
    rw [Function.update_self] at hbody
    cases hbody

theorem releaseNext_descends (hcall : w.control.calls k = some .stopping) (names : List String) :
    Descends k (0, names.length + 1) (w.releaseNext k names) := by
  cases names with
  | nil => exact descends_ended hcall (.inl rfl) _
  | cons name rest =>
    simp only [releaseNext]
    split
    · exact descends_ended hcall (.inr rfl) _
    · split
      · exact descends_ended hcall (.inr rfl) _
      · apply descends_suspend
        simp [ShowBody.rank]

theorem stopClients_descends (hcall : w.control.calls k = some .stopping) (rest : List String) :
    Descends k (2 * rest.length + 1, 0) (w.stopClients k rest) := by
  induction rest with
  | nil =>
    apply (releaseNext_descends hcall _).mono
    simp
  | cons name rest ih =>
    simp only [stopClients]
    split
    · apply ih.mono
      simp only [List.length_cons]
      omega
    · apply descends_suspend
      simp only [ShowBody.rank, List.length_cons]
      omega

theorem stopTargets_descends (hcall : w.control.calls k = some .stopping)
    (name sessionId requestId : String) (rest : List String) (targets : List TargetManifest) :
    Descends k (2 * rest.length + 1, targets.length)
      (w.stopTargets k name sessionId rest requestId targets) := by
  induction targets with
  | nil => exact stopClients_descends hcall rest
  | cons target targets ih =>
    simp only [stopTargets]
    split
    · exact ih.mono (.inr ⟨rfl, Nat.le_succ _⟩)
    · exact descends_suspend _ _ _ (.inr ⟨rfl, Nat.lt_succ_self _⟩)

/-- The call of `abort` can go on, one step down: while it waits for the run
task this can, and then the call; from its wait for a client it goes on
whatever the client answers. -/
def GoesOn (k : Nat) (v : Scheduler V) : Prop :=
  (∃ r, v.control.calls k = some (.joining r) ∧
    (v.control.runs r = .ended → ∃ u, v.step (.joined k) = some u) ∧
    (v.control.runs r ≠ .ended → ∃ (l : Label V) (u : Scheduler V), l.call? = none ∧
      v.step l = some u ∧ u.runLeft r < v.runLeft r)) ∨
  ∃ body, v.bodies k = some body ∧
    ∀ l, body.awaits k l = true → Descends k body.rank (v.step l)

theorem goesOn_stopping (hcall : v.control.calls k = some .stopping) {body : ShowBody}
    (hbody : v.bodies k = some body) : GoesOn k v := by
  refine .inr ⟨body, hbody, ?_⟩
  intro l hl
  cases body with
  | targets name sessionId rest =>
    cases l with
    | targets j answer requestId =>
      obtain rfl : j = k := by simpa [ShowBody.awaits] using hl
      simp only [step, hbody]
      cases answer with
      | error message =>
        apply (stopClients_descends hcall rest).mono
        simp [ShowBody.rank]
      | ok left =>
        apply (stopTargets_descends hcall name sessionId requestId rest left).mono
        simp [ShowBody.rank]
    | _ => cases hl
  | stopping name sessionId left rest =>
    cases l with
    | stopAnswered j requestId =>
      obtain rfl : j = k := by simpa [ShowBody.awaits] using hl
      simp only [step, hbody]
      exact stopTargets_descends hcall name sessionId requestId rest left
    | _ => cases hl
  | releasing names =>
    cases l with
    | released j =>
      obtain rfl : j = k := by simpa [ShowBody.awaits] using hl
      simp only [step, hbody]
      exact releaseNext_descends hcall names
    | _ => cases hl
  | _ => cases hl

theorem joined_enabled {r : Nat} (hcall : v.control.calls k = some (.joining r))
    (hended : v.control.runs r = .ended) : ∃ u, v.step (.joined k) = some u := by
  have hjoined : v.controls (.joined k) =
      some { v with control := v.control.setCall k (some .stopping) } := by
    simp [controls, ShowControl.step, hcall, hended]
  have hstopping : ({ v with control := v.control.setCall k (some .stopping) } :
      Scheduler V).control.calls k = some .stopping := by simp [ShowControl.setCall]
  obtain ⟨u, hu, -⟩ := stopClients_descends hstopping v.clients
  exact ⟨u, by simp only [step, hjoined, Option.bind_some]; exact hu⟩

/-- What the wait for the run task rests on. -/
structure Joinable (v : Scheduler V) : Prop where
  linked : Linked v
  stoppable : Stoppable v
  asked : v.control.JoinsAsked

theorem Joinable.step {l : Label V} (hi : Joinable v) (h : v.step l = some t) : Joinable t where
  linked := hi.linked.step (step_moves h)
  stoppable := hi.stoppable.step hi.linked (step_moves h)
  asked := (step_simulates h).invariant hi.asked fun _ _ _ hi hstep => hi.step hstep

theorem joinable_reachable {now : ℚ} {clients : List String} {actor : String}
    (h : Reachable step (init (V := V) now clients actor) v) : Joinable v :=
  h.invariant ⟨.init now clients actor, .init now clients actor, fun _ _ h => by cases h⟩
    fun _ _ _ hi hstep => hi.step hstep

theorem goesOn_joining (hi : Joinable v) {r : Nat}
    (hcall : v.control.calls k = some (.joining r)) : GoesOn k v :=
  .inl ⟨r, hcall, joined_enabled hcall, run_nears hi.stoppable (hi.asked k r hcall)⟩

/-! ## The end of the call -/

/-- A step that a call may be continued with. -/
def Allowed (k : Nat) (x : Step (Scheduler.step (V := V))) : Bool :=
  (x.src.control.calls k).isSome && Lone k x

/-- What is left of the wait for the run task. -/
def joinLeft (k : Nat) (v : Scheduler V) : Nat :=
  match v.control.calls k with
  | some (.joining r) => v.runLeft r + 1
  | _ => 0

/-- The call is in `_stop_all`, or has ended. -/
def Stopping (k : Nat) (v : Scheduler V) : Prop :=
  v.control.calls k = none ∨ ∃ body, v.bodies k = some body

theorem joinLeft_stopping (hseated : Seated v) (h : Stopping k v) : joinLeft k v = 0 := by
  unfold joinLeft
  split
  · rename_i r hjoining
    rcases h with hnone | ⟨body, hbody⟩
    · rw [hnone] at hjoining
      cases hjoining
    · have hno := hseated.bodies_none (.inr ⟨r, hjoining⟩)
      rw [hbody] at hno
      cases hno
  · rfl

theorem Stint.stopping {call : ShowCall} (h : Stint k call w v) : Stopping k v := by
  rcases h.goes with ⟨body, -, -, hbodies, -⟩ | ⟨l, hl, -, hstep⟩
  · exact .inr ⟨body, by rw [hbodies, Function.update_self]⟩
  · exact .inl (by rw [hl.calls hstep, Function.update_self])

theorem joined_stopping (h : v.step (.joined k) = some t) : Stopping k t := by
  obtain ⟨u, -, hrest⟩ := Option.bind_eq_some_iff.mp h
  exact (stopClients_stint hrest).stopping

/-- The wait for the run task comes to its end. -/
theorem joining_ends (hi : ∃ as, Aborting k s as v) (hjoinable : Joinable v) :
    ∃ xs u, Run Scheduler.step v xs u ∧ (∀ x ∈ xs, Allowed k x = true) ∧
      ((∃ as, Aborting k s as u) ∧ Joinable u) ∧ Stopping k u := by
  apply exists_run (wellFounded_lt (α := Nat)) (joinLeft k) ?_ ⟨hi, hjoinable⟩
  rintro v ⟨⟨as, hi⟩, hjoinable⟩ hjoining
  rcases hi.phase with ⟨⟨r, hcall⟩, -⟩ | ⟨body, hbody, -⟩ | ⟨hnone, -⟩
  swap
  · exact absurd (.inr ⟨body, hbody⟩) hjoining
  swap
  · exact absurd (.inl hnone) hjoining
  -- the run task goes on until it has ended, then the call
  have hsome : (v.control.calls k).isSome = true := by rw [hcall]; rfl
  have hleft : joinLeft k v = v.runLeft r + 1 := by rw [joinLeft, hcall]
  have hnext {l : Label V} {u : Scheduler V} (h : v.step l = some u) : Joinable u :=
    hjoinable.step h
  by_cases hended : v.control.runs r = .ended
  · obtain ⟨u, hu⟩ := joined_enabled hcall hended
    refine ⟨⟨v, .joined k, u, hu⟩, rfl, by simp [Allowed, hsome, Lone],
      ⟨⟨as, hi.joined hu⟩, hnext hu⟩, ?_⟩
    rw [joinLeft_stopping (hi.joined hu).seated (joined_stopping hu), hleft]
    omega
  · obtain ⟨l, u, hl, hu, hless⟩ :=
      run_nears hjoinable.stoppable (hjoinable.asked k r hcall) hended
    have helsewhere := step_elsewhere hl hu
    refine ⟨⟨v, l, u, hu⟩, rfl, ?_, ⟨⟨as, hi.elsewhere hsome helsewhere⟩, hnext hu⟩, ?_⟩
    · cases l with
      | callCancelled j | abort j => cases hl
      | _ => simp [Allowed, hsome, Lone]
    · have hcall' : u.control.calls k = some (.joining r) := by
        rw [helsewhere.control.calls, hcall]
      rw [joinLeft, hcall', hleft]
      show u.runLeft r + 1 < v.runLeft r + 1
      omega

/-- What is left of `_stop_all`. -/
def stopLeft (k : Nat) (v : Scheduler V) : Nat × Nat :=
  (v.bodies k).elim (0, 0) ShowBody.rank

/-- An answer for each wait of `_stop_all`. -/
def someAnswer (k : Nat) : ShowBody → Label V
  | .targets _ _ _ => .targets k (.ok []) ""
  | .stopping _ _ _ _ => .stopAnswered k ""
  | _ => .released k

theorem someAnswer_awaited {body : ShowBody} (hcall : body.call = .stopping) :
    body.awaits k (someAnswer (V := V) k body) = true := by
  cases body with
  | info | acquiring => cases hcall
  | _ => simp [someAnswer, ShowBody.awaits]

theorem someAnswer_allowed {body : ShowBody} (hsome : (v.control.calls k).isSome = true)
    (h : v.step (someAnswer k body) = some t) :
    Allowed k ⟨v, someAnswer k body, t, h⟩ = true := by
  cases body <;> simp [Allowed, hsome, Lone, someAnswer]

/-- An answer leaves the call in `_stop_all`, or ends it. -/
theorem someAnswer_stopping {body : ShowBody} (hbody : v.bodies k = some body)
    (hcall : body.call = .stopping) (h : v.step (someAnswer k body) = some t) :
    Stopping k t := by
  cases body with
  | targets name sessionId rest =>
    simp only [someAnswer, step, hbody] at h
    exact (stopTargets_stint h).stopping
  | stopping name sessionId left rest =>
    simp only [someAnswer, step, hbody] at h
    exact (stopTargets_stint h).stopping
  | releasing names =>
    simp only [someAnswer, step, hbody] at h
    exact (releaseNext_stint h).stopping
  | _ => cases hcall

theorem rank_pos {body : ShowBody} (hcall : body.call = .stopping) :
    0 < body.rank.1 ∨ 0 = body.rank.1 ∧ 0 < body.rank.2 := by
  cases body with
  | info | acquiring => cases hcall
  | targets | stopping | releasing => simp [ShowBody.rank]

/-- `_stop_all` comes to its end. -/
theorem stopping_ends (hi : ∃ as, Aborting k s as v) (hstopping : Stopping k v) :
    ∃ xs u, Run Scheduler.step v xs u ∧ (∀ x ∈ xs, Allowed k x = true) ∧
      ((∃ as, Aborting k s as u) ∧ Stopping k u) ∧ u.control.calls k = none := by
  apply exists_run (WellFounded.prod_lex wellFounded_lt wellFounded_lt) (stopLeft k) ?_
    ⟨hi, hstopping⟩
  rintro v ⟨⟨as, hi⟩, hstopping⟩ hgoing
  obtain ⟨body, hbody⟩ := hstopping.resolve_left hgoing
  obtain ⟨hcall, hplanned, -⟩ := hi.planned hbody
  have hsome : (v.control.calls k).isSome = true := by rw [hcall]; rfl
  obtain ⟨r, hjoining, -⟩ | ⟨body', hbody', hgoes⟩ := goesOn_stopping hcall hbody
  · rw [hcall] at hjoining
    cases hjoining
  · rw [hbody] at hbody'
    cases hbody'
    -- any answer will do
    obtain ⟨u, hu, hlower⟩ := hgoes _ (someAnswer_awaited hplanned.belongs)
    have hallowed := someAnswer_allowed hsome hu
    have hlone := (Bool.and_eq_true_iff.mp hallowed).2
    refine ⟨⟨v, _, u, hu⟩, rfl, hallowed, ⟨⟨_, hi.step (x := ⟨v, _, u, hu⟩) hsome hlone⟩,
      someAnswer_stopping hbody hplanned.belongs hu⟩, ?_⟩
    show Prod.Lex _ _ (stopLeft k u) (stopLeft k v)
    rw [stopLeft, stopLeft, hbody]
    cases hbody' : u.bodies k with
    | none => exact Prod.lex_def.mpr (rank_pos hplanned.belongs)
    | some body' => exact hlower body' hbody'

theorem callsAbort_append {xs ys : List (Step (Scheduler.step (V := V)))}
    (hxs : callsAbort k xs = true) (hys : ∀ x ∈ ys, Allowed k x = true) :
    callsAbort k (xs ++ ys) = true := by
  cases xs with
  | nil => cases hxs
  | cons x xs =>
    simp only [callsAbort, List.head?_cons, List.tail_cons, List.cons_append, List.all_append,
      Bool.and_eq_true] at hxs ⊢
    exact ⟨hxs.1, hxs.2, List.all_eq_true.mpr hys⟩

/-- **The call comes to its end.** -/
theorem Aborting.ends (hi : Aborting k s as v) (hjoinable : Joinable v) :
    ∃ xs u, Run Scheduler.step v xs u ∧ (∀ x ∈ xs, Allowed k x = true) ∧
      u.control.calls k = none := by
  obtain ⟨xs, w, run, hxs, ⟨hso, -⟩, hstopping⟩ := joining_ends ⟨as, hi⟩ hjoinable
  obtain ⟨ys, u, run', hys, -, hended⟩ := stopping_ends hso hstopping
  refine ⟨xs ++ ys, u, run.append run', ?_, hended⟩
  intro x hx
  rcases List.mem_append.mp hx with hx | hx
  · exact hxs x hx
  · exact hys x hx

end

/-- **One `abort` reaches every target**: whatever the clients answer, and
whatever else happens meanwhile, a call that has ended has made the requests
of the plan and left the Show IDLE with no session; one that has not ended
can go on, one step down with every answer, and comes to its end. -/
theorem abort_reaches_all {s t : Scheduler V} (now : ℚ) (clients : List String) (actor : String)
    (hs : Reachable Scheduler.step (init now clients actor) s)
    (hcalls : ∀ j, s.control.calls j = none) (hable : abortable s.state = true) {k : Nat}
    {xs : List (Step (Scheduler.step (V := V)))} (run : Run Scheduler.step s xs t)
    (hcalled : callsAbort k xs = true) :
    (t.control.calls k = none → Complete s (answers k xs) t) ∧
      ((t.control.calls k).isSome = true → GoesOn k t ∧
        ∃ ys u, Run Scheduler.step t ys u ∧ callsAbort k (xs ++ ys) = true ∧
          u.control.calls k = none) := by
  have hi := callsAbort_run (seated_reachable hs) hcalls hable run hcalled
  have hjoinable := joinable_reachable (hs.trans run.reachable)
  constructor
  · intro hnone
    rcases hi.phase with ⟨⟨r, hjoining⟩, -⟩ | ⟨body, hbody, -⟩ | ⟨-, hcomplete⟩
    · rw [hjoining] at hnone
      cases hnone
    · have hcall := (hi.planned hbody).1
      rw [hnone] at hcall
      cases hcall
    · exact hcomplete
  · intro hsome
    constructor
    · rcases hi.phase with ⟨⟨r, hjoining⟩, -⟩ | ⟨body, hbody, -⟩ | ⟨hnone, -⟩
      · exact goesOn_joining hjoinable hjoining
      · exact goesOn_stopping (hi.planned hbody).1 hbody
      · rw [hnone] at hsome
        cases hsome
    · obtain ⟨ys, u, run', hys, hended⟩ := hi.ends hjoinable
      exact ⟨ys, u, run', callsAbort_append hcalled hys, hended⟩

/-- A lamp that can be stopped, and one that cannot. -/
private def lamps : List TargetManifest :=
  [⟨"lamp01", [⟨"fade", .observed, .normal⟩, ⟨"off", .acknowledged, .control⟩]⟩,
    ⟨"lamp02", [⟨"fade", .observed, .normal⟩]⟩]

/-- The motor cannot be asked; the lamp is stopped, and both sessions are
released. -/
theorem abort_reaches_all_lamp :
    ∃ (s : Scheduler Int) (xs : List (Step Scheduler.step)) (t : Scheduler Int),
      Run Scheduler.step s xs t ∧ s.state = .running ∧ callsAbort 1 xs = true ∧
        (attempts s t).length = 3 ∧ Complete s (answers 1 xs) t := by
  obtain ⟨before, s, starts, hs⟩ := execSteps_test Scheduler.step twoLoaded
    [.arm 0, .informed 0 (.ok ()), .acquired 0 (.ok "cs1"), .informed 0 (.ok ()),
      .acquired 0 (.ok "cs2"), .start "run1", .runBegins 0 0]
    (fun r => (r.1.all fun x => x.label.call? = none || x.label.call? = some 0) &&
      (r.2.control.calls 0).isNone && r.2.state = .running &&
      (execSteps Scheduler.step r.2 [.abort 1, .run 0 .runCancelled 0, .joined 1,
        .targets 1 (.error "unreachable") "a1", .targets 1 (.ok lamps) "a2",
        .stopAnswered 1 "a3", .released 1, .released 1]).any fun q =>
          callsAbort 1 q.1 && (q.2.control.calls 1).isNone && (attempts r.2 q.2).length = 3)
    (by decide +kernel)
  simp only [Bool.and_eq_true, List.all_eq_true, Bool.or_eq_true, decide_eq_true_eq,
    Option.isNone_iff_eq_none] at hs
  obtain ⟨⟨⟨hlabels, hzero⟩, hrunning⟩, hq⟩ := hs
  obtain ⟨xs, t, run, hxs⟩ := execSteps_test Scheduler.step s _ _ hq
  simp only [Bool.and_eq_true, decide_eq_true_eq, Option.isNone_iff_eq_none] at hxs
  obtain ⟨⟨hcalled, hended⟩, hthree⟩ := hxs
  have hcalls : ∀ j, s.control.calls j = none := by
    intro j
    by_cases hj : j = 0
    · exact hj ▸ hzero
    · have hno : ∀ x ∈ before, x.label.call? ≠ some j := by
        intro x hx hcall
        have := hlabels x hx
        rw [hcall] at this
        simp [hj] at this
      exact ((seated_reachable twoLoaded_reachable).untouched starts hno).1
  exact ⟨s, xs, t, run, hrunning, hcalled, hthree,
    (abort_reaches_all 0 ["motor", "lamp"] "scheduler" (twoLoaded_reachable.trans starts.reachable)
      hcalls (by rw [hrunning]; rfl) run hcalled).1 hended⟩

end Scheduler

end Fusion
