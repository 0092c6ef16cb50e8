import Fusion.Core.CueGating

/-!
# RunEnd — which Cue tasks a run leaves behind

The gathering future of a run is done when all Cue tasks have returned, when
they were cancelled, or when one of them has raised; in the last case the
others go on (`orphaned`). A run none of whose Cue tasks may still come to
its `submit_command` is quelled, and stays so.
-/

namespace Fusion

variable {V : Type}

/-- The run task has ended. -/
def RunPhase.isOver : RunPhase → Bool
  | ended _ => true
  | _ => false

/-- The task has its call of `submit_command` ahead of it. -/
def CuePc.ahead : CuePc → Bool
  | created | waiting _ _ | sleeping => true
  | _ => false

theorem CuePc.ahead_of_gate {cue : Cue V} {pc : CuePc} {deps : List String}
    (h : pc.gate cue = some deps) : pc.ahead = true := by
  cases pc with
  | created | waiting | sleeping => rfl
  | unborn | submitting | rechecking | awaiting | ended => cases h

theorem CuePc.not_ended_of_ahead {pc : CuePc} (h : pc.ahead = true) : pc.isEnded = false := by
  cases pc with
  | ended how => cases h
  | _ => rfl

namespace Execution

variable {env : Env} {s t : Execution V}

/-! ## The task of one Cue in one step -/

/-- What a step does to the task of position `i`. -/
inductive Advance (s t : Execution V) (i : Nat) : Prop
  | same (pc : (t.tasks i).pc = (s.tasks i).pc)
  | made (early : s.phase.early = true) (gathering : t.phase = .gathering)
      (pos : i < s.timeline.cues.length) (pc : (t.tasks i).pc = .created)
  /-- the task is on its way to the submission, or past it -/
  | goes (was : (s.tasks i).pc.live = true) (live : (t.tasks i).pc.live = true)
      (ahead : (t.tasks i).pc.ahead = true → (s.tasks i).pc.ahead = true)
  | ends (how : TaskEnd) (was : (s.tasks i).pc.live = true) (pc : (t.tasks i).pc = .ended how)
      (cancelled : how = .cancelled → (s.tasks i).cancelRequested = true)

theorem Gate.advance {i : Nat} {cue : Cue V} {deps : List String}
    (hpc : (s.tasks i).pc.gate cue = some deps)
    (h : Gate env s i cue deps t) : Advance s t i := by
  have hahead := CuePc.ahead_of_gate hpc
  obtain ⟨hlive, -, -⟩ := gate_live hpc
  cases h with
  | waits | sleeps | submits =>
    exact .goes hlive (congrArg CuePc.live (pc_setPc_self s i _)) fun _ => hahead
  | skips | aborts => exact .ends _ hlive (pc_setPc_self _ i _) nofun
  | breaks => exact .ends _ hlive (pc_setPc_self s i _) nofun

theorem submitAnswered_advance {i : Nat} {cue : Cue V} (hpc : (s.tasks i).pc = .submitting)
    (answer : Except ClientError (CommandId × CommandView)) :
    Advance s (s.submitAnswered i cue answer) i := by
  have hlive : (s.tasks i).pc.live = true := by rw [hpc]; rfl
  match answer with
  | .error (.command _) | .error (.other _) | .ok (_, .terminal _) =>
    exact .ends _ hlive (pc_setPc_self _ i _) nofun
  | .ok (c, .inProgress) =>
    have hto : ((s.submitAnswered i cue (.ok (c, .inProgress))).tasks i).pc = .rechecking c :=
      pc_setPc_self s i _
    exact .goes hlive (by rw [hto]; rfl) (by rw [hto]; nofun)

theorem Rechecked.advance {i : Nat} {cue : Cue V} {c : CommandId} (h : Rechecked s i cue c t)
    (hpc : (s.tasks i).pc = .rechecking c) : Advance s t i := by
  have hlive : (s.tasks i).pc.live = true := by rw [hpc]; rfl
  cases h with
  | breaks message => exact .ends _ hlive (pc_setPc_self s i _) nofun
  | records _ outcome => exact .ends _ hlive (pc_setPc_self _ i _) nofun
  | @awaits u _ =>
    have hto := pc_setPc_self u i (.awaiting c)
    exact .goes hlive (by rw [hto]; rfl) (by rw [hto]; nofun)

theorem Moves.advance {l : ExecLabel} (h : Moves env s l t) (i : Nat) : Advance s t i := by
  cases h with
  | rests h _ _ _ => exact .same (h.pc i)
  | delivers _ => exact .same ((Rests.deliver s _).pc i)
  | resyncs _ => exact .same ((Rests.resync s).pc i)
  | spawns early gathering h =>
    by_cases hi : i < s.timeline.cues.length
    · exact .made early gathering hi (by rw [h.tasks i, if_pos hi])
    · exact .same (by rw [h.tasks i, if_neg hi])
  | @gate j _ _ _ _ hpc h =>
    by_cases hij : i = j
    · subst hij
      exact h.advance hpc
    · exact .same (by rw [h.others.2 i hij])
  | @resumes j _ _ _ _ hpc _ =>
    by_cases hij : i = j
    · subst hij
      exact .ends _ (by rw [hpc]; rfl) (pc_setPc_self _ i _) nofun
    · exact .same (congrArg CueTask.pc (tasks_setPc_ne _ _ hij))
  | @submitted j _ _ _ hpc =>
    by_cases hij : i = j
    · subst hij
      exact submitAnswered_advance hpc _
    · exact .same (by rw [tasks_submitAnswered_ne s _ _ hij])
  | @rechecked j _ _ _ _ hpc =>
    by_cases hij : i = j
    · subst hij
      exact (rechecked_recheckAnswered ..).advance hpc
    · exact .same (by rw [(rechecked_recheckAnswered ..).tasks_ne hij])
  | @cancelled j requested live =>
    by_cases hij : i = j
    · subst hij
      exact .ends _ live (pc_setPc_self s i _) fun _ => requested
    · exact .same (by rw [endCue, tasks_setPc_ne s _ hij])

theorem Rechecked.submitted {i : Nat} {cue : Cue V} {c : CommandId} (h : Rechecked s i cue c t) :
    t.submitted = s.submitted := by
  cases h with
  | breaks _ => rfl
  | records hu _ | awaits hu => exact hu.rests.submitted

/-- Only a task that has its submission ahead of it and was not cancelled
submits. -/
theorem Moves.submits {l : ExecLabel} (h : Moves env s l t) :
    t.submitted = s.submitted ∨
      ∃ i, (s.tasks i).pc.ahead = true ∧ (s.tasks i).cancelRequested = false := by
  cases h with
  | rests h _ _ _ => exact .inl h.submitted
  | delivers _ => exact .inl (Rests.deliver s _).submitted
  | resyncs _ => exact .inl (Rests.resync s).submitted
  | spawns _ _ h => exact .inl h.submitted
  | gate hat hpc _ => exact .inr ⟨_, CuePc.ahead_of_gate hpc, (cueAt_some hat).2⟩
  | resumes _ _ _ => exact .inl rfl
  | @submitted i cue answer _ _ =>
    match answer with
    | .error (.command _) | .error (.other _) | .ok (_, .terminal _) | .ok (_, .inProgress) =>
      exact .inl rfl
  | rechecked _ _ => exact .inl (rechecked_recheckAnswered ..).submitted
  | cancelled _ _ => exact .inl rfl

/-! ## The run task and the gathering future -/

/-- The run task and the gathering future are as they were. -/
structure SameRun (s t : Execution V) : Prop where
  timeline : t.timeline = s.timeline
  phase : t.phase = s.phase
  cancelRequested : t.cancelRequested = s.cancelRequested
  gather : t.gather = s.gather
  gatherCancelled : t.gatherCancelled = s.gatherCancelled
  noticed : t.noticed = s.noticed

theorem Gate.sameRun {i : Nat} {cue : Cue V} {deps : List String}
    (h : Gate env s i cue deps t) : SameRun s t := by
  cases h <;> exact ⟨rfl, rfl, rfl, rfl, rfl, rfl⟩

theorem Resolves.sameRun (h : Resolves s t) : SameRun s t := by
  obtain ⟨_, rfl⟩ := h
  exact ⟨rfl, rfl, rfl, rfl, rfl, rfl⟩

theorem Rechecked.sameRun {i : Nat} {cue : Cue V} {c : CommandId} (h : Rechecked s i cue c t) :
    SameRun s t := by
  cases h with
  | breaks _ => exact ⟨rfl, rfl, rfl, rfl, rfl, rfl⟩
  | records hu _ | awaits hu =>
    obtain ⟨_, rfl⟩ := hu
    exact ⟨rfl, rfl, rfl, rfl, rfl, rfl⟩

/-- The labels of the Cue tasks and of the listeners. -/
def ExecLabel.inner : ExecLabel → Bool
  | .cue _ | .submitAnswered _ _ | .recheckAnswered _ _ | .cueCancelled _ | .deliver _ _
  | .resync _ | .streamEnds _ => true
  | _ => false

theorem step_sameRun {l : ExecLabel} (hl : l.inner = true) (h : s.step env l = some t) :
    SameRun s t := by
  cases l with
  | cue i =>
    obtain ⟨cue, -, hrun⟩ := Option.bind_eq_some_iff.mp h
    have waits (deps : List String) : Gate env s i cue deps (s.waitDeps env i cue deps) :=
      waitDeps_gate s i cue [] deps (by simp)
    unfold runCue at hrun
    split at hrun
    · cases hrun
      exact (waits _).sameRun
    · split at hrun <;> cases hrun
      exact (waits _).sameRun
    · cases hrun
      exact (waits []).sameRun
    · split at hrun <;> cases hrun
      exact ⟨rfl, rfl, rfl, rfl, rfl, rfl⟩
    · cases hrun
  | submitAnswered i answer =>
    obtain ⟨cue, -, hrun⟩ := Option.bind_eq_some_iff.mp h
    split at hrun <;> cases hrun
    rcases answer with (_ | _) | ⟨_, _ | _⟩ <;> exact ⟨rfl, rfl, rfl, rfl, rfl, rfl⟩
  | recheckAnswered i answer =>
    obtain ⟨cue, -, hrun⟩ := Option.bind_eq_some_iff.mp h
    split at hrun <;> cases hrun
    exact (rechecked_recheckAnswered ..).sameRun
  | cueCancelled i =>
    simp only [step] at h
    split at h <;> cases h
    exact ⟨rfl, rfl, rfl, rfl, rfl, rfl⟩
  | deliver client event =>
    simp only [step] at h
    split at h <;> cases h
    exact (resolves_deliver s event).sameRun
  | resync client =>
    simp only [step] at h
    split at h <;> cases h
    obtain ⟨_, hresync⟩ := resolves_resync s
    rw [hresync]
    exact ⟨rfl, rfl, rfl, rfl, rfl, rfl⟩
  | streamEnds client =>
    simp only [step] at h
    split at h <;> cases h <;> exact ⟨rfl, rfl, rfl, rfl, rfl, rfl⟩
  | _ => cases hl

/-- What a step of the run task, or a `cancel()` of it, can be. -/
inductive RunMoves (s : Execution V) : Execution V → Prop
  /-- it has a snapshot to ask for, or makes the Cue tasks -/
  | advances (start : ℚ) (afterSequences : Dict String Nat) (rest : List String)
      (early : s.phase.early = true) (uncancelled : s.cancelRequested = false) :
      RunMoves s ({ s with start, afterSequences }.nextSnapshot rest)
  /-- it ends without Cue tasks -/
  | stops (result : TaskEnd) (early : s.phase.early = true) :
      RunMoves s { s with phase := .ended result }
  | notices {i : Nat} {how : TaskEnd} (ended : (s.tasks i).pc = .ended how) :
      RunMoves s (s.notice i how)
  | gathered {how : TaskEnd} (result : TaskEnd) (phase : s.phase = .gathering)
      (done : s.gather = .done how) : RunMoves s (s.closeListeners result)
  | closed {result : TaskEnd} (result' : TaskEnd) (phase : s.phase = .closing result) :
      RunMoves s { s with phase := .ended result' }
  | cancels : RunMoves s s.cancelRun

theorem step_runMoves {l : ExecLabel} (hl : l.inner = false) (h : s.step env l = some t) :
    RunMoves s t := by
  cases l with
  | begin =>
    simp only [step] at h
    split at h <;> cases h
    rename_i hstart
    refine .advances env.now s.afterSequences s.clients ?_ (by simpa using hstart.2)
    rw [hstart.1]
    rfl
  | snapshot answer =>
    simp only [step] at h
    split at h
    · rename_i name rest hphase
      have hearly : s.phase.early = true := by rw [hphase]; rfl
      split at h
      · cases h
      · rename_i hno
        cases answer with
        | error message =>
          cases h
          exact .stops _ hearly
        | ok sequence =>
          cases h
          exact .advances s.start (s.afterSequences.set name sequence) rest hearly
            (by simpa using hno)
    · cases h
  | runCancelled =>
    simp only [step] at h
    split at h
    · rename_i hphase
      split at h <;> cases h
      exact .stops _ (by rw [hphase]; rfl)
    · rename_i hphase
      split at h <;> cases h
      exact .stops _ (by rw [hphase]; rfl)
    · cases h
  | notice i =>
    simp only [step] at h
    split at h
    · rename_i how hpc
      split at h <;> cases h
      exact .notices hpc
    · cases h
  | gathered =>
    simp only [step] at h
    split at h <;> cases h
    rename_i how hphase hdone
    exact .gathered _ hphase hdone
  | closed =>
    simp only [step] at h
    split at h
    · rename_i result hphase
      split at h <;> cases h
      exact .closed _ hphase
    · cases h
  | cancelRun =>
    cases h
    exact .cancels
  | _ => cases hl

/-- What the gathering future stands for: **the invariant of a run**. -/
structure RunInv (s : Execution V) : Prop where
  beyond : ∀ i, s.timeline.cues.length ≤ i → (s.tasks i).pc = .unborn
  early : s.phase.early = true → s.gatherCancelled = false ∧ ∀ i, (s.tasks i).pc = .unborn
  noticed : ∀ i, s.noticed i = true → (s.tasks i).pc.isEnded = true
  returned : s.gather = .done .returned →
    ∀ i < s.timeline.cues.length, (s.tasks i).pc.isEnded = true
  cancelled : s.gather = .done .cancelled → s.gatherCancelled = true
  reached : s.gatherCancelled = true → ∀ i < s.timeline.cues.length,
    (s.tasks i).pc.isEnded = true ∨ (s.tasks i).cancelRequested = true
  requested : ∀ i, (s.tasks i).cancelRequested = true → s.gatherCancelled = true
  stopped : ∀ i, (s.tasks i).pc = .ended .cancelled → (s.tasks i).cancelRequested = true
  late : s.phase.early = false → s.phase ≠ .gathering →
    (∃ how, s.gather = .done how) ∨ ∀ i, (s.tasks i).pc = .unborn

theorem RunInv.init (timeline : Timeline V) (clients : List String) (runId : String) :
    RunInv (init timeline clients runId) where
  beyond := fun _ _ => rfl
  early := fun _ => ⟨rfl, fun _ => rfl⟩
  noticed := nofun
  returned := nofun
  cancelled := nofun
  reached := nofun
  requested := nofun
  stopped := nofun
  late := nofun

/-- A step of the Cue tasks or of the listeners. -/
theorem RunInv.inner (hi : RunInv s) (hsame : SameRun s t) (hadvance : ∀ i, Advance s t i)
    (hflags : ∀ i, (t.tasks i).cancelRequested = (s.tasks i).cancelRequested) : RunInv t := by
  have unborn : ∀ {i}, (s.tasks i).pc = .unborn →
      (s.phase.early = true → t.phase ≠ .gathering) ∨ s.timeline.cues.length ≤ i →
      (t.tasks i).pc = .unborn := by
    intro i hpc hno
    cases hadvance i with
    | same pc => rw [pc, hpc]
    | made early gathering pos _ =>
      rcases hno with hno | hno
      · exact absurd gathering (hno early)
      · omega
    | goes was _ _ => rw [hpc] at was; cases was
    | ends _ was _ _ => rw [hpc] at was; cases was
  have ended : ∀ {i}, (s.tasks i).pc.isEnded = true → (t.tasks i).pc.isEnded = true := by
    intro i hended
    cases hadvance i with
    | same pc => rwa [pc]
    | made early _ _ _ =>
      rw [(hi.early early).2 i] at hended
      cases hended
    | goes was _ _ => rw [live_not_ended was] at hended; cases hended
    | ends _ _ pc _ => rw [pc]; rfl
  have gathers : s.phase.early = true → t.phase ≠ .gathering := by
    intro hearly hgathering
    rw [hsame.phase] at hgathering
    rw [hgathering] at hearly
    cases hearly
  refine ⟨fun i h => ?_, fun h => ?_, fun i h => ?_, fun h i hlt => ?_, fun h => ?_,
    fun h i hlt => ?_, fun i h => ?_, fun i h => ?_, fun h hno => ?_⟩
  · rw [hsame.timeline] at h
    exact unborn (hi.beyond i h) (.inr h)
  · rw [hsame.phase] at h
    rw [hsame.gatherCancelled]
    exact ⟨(hi.early h).1, fun i => unborn ((hi.early h).2 i) (.inl gathers)⟩
  · rw [hsame.noticed] at h
    exact ended (hi.noticed i h)
  · rw [hsame.gather] at h
    rw [hsame.timeline] at hlt
    exact ended (hi.returned h i hlt)
  · rw [hsame.gather] at h
    rw [hsame.gatherCancelled]
    exact hi.cancelled h
  · rw [hsame.gatherCancelled] at h
    rw [hsame.timeline] at hlt
    rw [hflags i]
    exact (hi.reached h i hlt).imp_left ended
  · rw [hflags i] at h
    rw [hsame.gatherCancelled]
    exact hi.requested i h
  · rw [hflags i]
    cases hadvance i with
    | same pc => exact hi.stopped i (pc ▸ h)
    | made _ _ _ pc => rw [pc] at h; cases h
    | goes _ live _ => rw [h] at live; cases live
    | ends how _ pc cancelled =>
      rw [pc] at h
      cases h
      exact cancelled rfl
  · rw [hsame.phase] at h hno
    rw [hsame.gather]
    exact (hi.late h hno).imp_right fun hall i => unborn (hall i) (.inl gathers)

/-- A step of the run task that leaves the Cue tasks and the gathering future
alone. -/
theorem RunInv.of_tasks (hi : RunInv s) (timeline : t.timeline = s.timeline)
    (tasks : t.tasks = s.tasks) (gather : t.gather = s.gather)
    (gatherCancelled : t.gatherCancelled = s.gatherCancelled) (noticed : t.noticed = s.noticed)
    (early : t.phase.early = true → s.phase.early = true)
    (late : t.phase.early = false → t.phase ≠ .gathering →
      (∃ how, s.gather = .done how) ∨ ∀ i, (s.tasks i).pc = .unborn) : RunInv t where
  beyond := by
    rw [timeline, tasks]
    exact hi.beyond
  early := by
    rw [gatherCancelled, tasks]
    exact fun h => hi.early (early h)
  noticed := by
    rw [noticed, tasks]
    exact hi.noticed
  returned := by
    rw [gather, timeline, tasks]
    exact hi.returned
  cancelled := by
    rw [gather, gatherCancelled]
    exact hi.cancelled
  reached := by
    rw [gatherCancelled, timeline, tasks]
    exact hi.reached
  requested := by
    rw [tasks, gatherCancelled]
    exact hi.requested
  stopped := by
    rw [tasks]
    exact hi.stopped
  late := by
    rw [gather, tasks]
    exact late

theorem RunInv.beginGather (hi : RunInv s) (hearly : s.phase.early = true) :
    RunInv s.beginGather := by
  obtain ⟨hgather, hunborn⟩ := hi.early hearly
  have task : ∀ i, s.beginGather.tasks i =
      if i < s.timeline.cues.length then ⟨.created, false⟩ else s.tasks i := fun _ => rfl
  have future : s.beginGather.gather =
      if s.timeline.cues = [] then .done .returned else .pending := rfl
  refine ⟨fun i h => ?_, nofun, fun i h => ?_, fun h i hlt => ?_, fun h => ?_, fun h => ?_,
    fun i h => ?_, fun i h => ?_, fun _ hno => absurd rfl hno⟩
  · have hbeyond : ¬i < s.timeline.cues.length := Nat.not_lt.mpr h
    rw [task, if_neg hbeyond]
    exact hunborn i
  · have hended := hi.noticed i h
    rw [hunborn i] at hended
    cases hended
  · rw [future] at h
    split at h
    · rename_i hnil
      have hzero : s.beginGather.timeline.cues.length = 0 := by
        show s.timeline.cues.length = 0
        rw [hnil]
        rfl
      omega
    · cases h
  · rw [future] at h
    split at h <;> cases h
  · exact absurd (hgather.symm.trans h) (by decide)
  · rw [task] at h
    split at h
    · cases h
    · exact hi.requested i h
  · rw [task] at h
    split at h
    · cases h
    · rw [hunborn i] at h
      cases h

theorem RunInv.nextSnapshot (hi : RunInv s) (hearly : s.phase.early = true)
    (rest : List String) : RunInv (s.nextSnapshot rest) := by
  cases rest with
  | nil => exact hi.beginGather hearly
  | cons _ _ => exact hi.of_tasks rfl rfl rfl rfl rfl (fun _ => hearly) nofun

theorem RunInv.cancelRun (hi : RunInv s) : RunInv s.cancelRun := by
  have asked : RunInv { s with cancelRequested := true } :=
    hi.of_tasks rfl rfl rfl rfl rfl id hi.late
  unfold Execution.cancelRun
  split
  · exact hi
  · rename_i hphase
    split
    · refine ⟨fun i h => ?_, fun h => ?_, fun i h => ?_, fun h i hlt => ?_, fun _ => rfl,
        fun _ i hlt => ?_, fun _ _ => rfl, fun i h => ?_, fun _ hno => absurd hphase hno⟩
      · have := hi.beyond i h
        dsimp only
        split <;> exact this
      · rw [show s.phase = .gathering from hphase] at h
        cases h
      · have := hi.noticed i h
        dsimp only
        split <;> exact this
      · have := hi.returned h i hlt
        dsimp only
        split <;> exact this
      · dsimp only
        split
        · exact .inr rfl
        · rename_i hended
          left
          by_contra hlive
          exact hended ⟨hlt, by simpa using hlive⟩
      · dsimp only at h ⊢
        split
        · rfl
        · rename_i hno
          rw [if_neg hno] at h
          exact hi.stopped i h
    · exact asked
  · exact asked

theorem RunInv.notice (hi : RunInv s) {i : Nat} {how : TaskEnd}
    (hpc : (s.tasks i).pc = .ended how) : RunInv (s.notice i how) := by
  have noticed : ∀ j, Function.update s.noticed i true j = true →
      (s.tasks j).pc.isEnded = true := by
    intro j hj
    by_cases hji : j = i
    · rw [hji, hpc]
      rfl
    · rw [Function.update_of_ne hji] at hj
      exact hi.noticed j hj
  -- what the future was done with, or is done with now
  have future : ∀ result, (s.notice i how).gather = .done result →
      s.gather = .done result ∨
        (∀ j < s.timeline.cues.length, (s.tasks j).pc.isEnded = true) ∧
          result = (if s.gatherCancelled then .cancelled else .returned) ∨
        result = how ∧ how ≠ .returned := by
    intro result h
    simp only [Execution.notice, gatherAfter] at h
    split at h
    · rename_i hdone
      exact .inl (hdone.trans h)
    · split at h
      · rename_i hall
        cases h
        refine .inr (.inl ⟨fun j hlt => noticed j ?_, rfl⟩)
        exact List.all_eq_true.mp hall j (List.mem_range.mpr hlt)
      · cases h
    · rename_i hno
      cases h
      exact .inr (.inr ⟨rfl, fun hreturned => hno hreturned⟩)
  refine ⟨hi.beyond, hi.early, noticed, fun h j hlt => ?_, fun h => ?_, hi.reached, hi.requested,
    hi.stopped, fun h hno => ?_⟩
  · rcases future _ h with h | ⟨hall, -⟩ | ⟨hhow, hno⟩
    · exact hi.returned h j hlt
    · exact hall j hlt
    · exact absurd hhow.symm hno
  · rcases future _ h with h | ⟨-, hcancelled⟩ | ⟨hhow, -⟩
    · exact hi.cancelled h
    · show s.gatherCancelled = true
      by_contra hno
      rw [if_neg hno] at hcancelled
      cases hcancelled
    · exact hi.requested i (hi.stopped i (hhow ▸ hpc))
  · rcases hi.late h hno with ⟨result, hdone⟩ | hunborn
    · refine .inl ⟨result, ?_⟩
      simp only [Execution.notice, gatherAfter, hdone]
    · exact .inr hunborn

/-- A step of the Cue tasks or of the listeners asks no task to stop. -/
theorem RunInv.flags_inner {l : ExecLabel} (hi : RunInv s) (hl : l.inner = true)
    (h : s.step env l = some t) (i : Nat) :
    (t.tasks i).cancelRequested = (s.tasks i).cancelRequested := by
  rcases (step_moves h).flags (by rintro rfl; cases hl) i with hsame | ⟨hearly, hfalse⟩
  · exact hsame
  · rw [hfalse]
    by_contra hasked
    have := hi.requested i (by simpa using Ne.symm hasked)
    rw [(hi.early hearly).1] at this
    cases this

theorem RunInv.step {l : ExecLabel} (hi : RunInv s) (h : s.step env l = some t) : RunInv t := by
  cases hl : l.inner with
  | true =>
    exact hi.inner (step_sameRun hl h) (step_moves h).advance (hi.flags_inner hl h)
  | false =>
    cases step_runMoves hl h with
    | advances start afterSequences rest hearly _ =>
      have hs : RunInv { s with start, afterSequences } :=
        hi.of_tasks rfl rfl rfl rfl rfl id hi.late
      exact hs.nextSnapshot hearly rest
    | stops result hearly =>
      exact hi.of_tasks rfl rfl rfl rfl rfl (by intro h; cases h) fun _ _ =>
        .inr (hi.early hearly).2
    | notices hpc => exact hi.notice hpc
    | @gathered how result hphase hdone =>
      exact hi.of_tasks rfl rfl rfl rfl rfl (by intro h; cases h) fun _ _ => .inl ⟨how, hdone⟩
    | closed result' hphase =>
      exact hi.of_tasks rfl rfl rfl rfl rfl (by intro h; cases h) fun _ _ =>
        hi.late (by rw [hphase]; rfl) (by rw [hphase]; intro h; cases h)
    | cancels => exact hi.cancelRun

/-! ## Quelled runs -/

/-- No Cue task of the run will ever come to its submission: the run task is
not going to make them, and those that have it ahead were cancelled. -/
structure Quelled (s : Execution V) : Prop where
  halted : s.phase.early = true → s.cancelRequested = true
  tasks : ∀ i, (s.tasks i).pc.ahead = true → (s.tasks i).cancelRequested = true

/-- Some Cue task that was not cancelled has its submission ahead of it. -/
def astray (s : Execution V) : Bool :=
  s.positions.any fun i => (s.tasks i).pc.ahead && !(s.tasks i).cancelRequested

/-- A Cue task has raised, and another one that goes on has its submission
ahead of it. -/
def orphaned (s : Execution V) : Bool :=
  match s.gather with
  | .done (.raised _) => s.astray
  | _ => false

/-- The run may still submit a Cue. -/
def loose (s : Execution V) : Bool := s.phase.early && !s.cancelRequested || s.astray

theorem RunInv.lt_of_ahead (hi : RunInv s) {i : Nat} (hahead : (s.tasks i).pc.ahead = true) :
    i < s.timeline.cues.length := by
  by_contra hbeyond
  rw [hi.beyond i (Nat.le_of_not_lt hbeyond)] at hahead
  cases hahead

theorem RunInv.tasks_of_astray (hi : RunInv s) (h : s.astray = false) (i : Nat)
    (hahead : (s.tasks i).pc.ahead = true) : (s.tasks i).cancelRequested = true := by
  simp only [astray, positions, List.any_eq_false, List.mem_range] at h
  simpa [hahead] using h i (hi.lt_of_ahead hahead)

theorem RunInv.quelled_of_loose (hi : RunInv s) (h : s.loose = false) : Quelled s := by
  simp only [loose, Bool.or_eq_false_iff] at h
  refine ⟨fun hearly => ?_, hi.tasks_of_astray h.2⟩
  simpa [hearly] using h.1

/-- When the gathering future is done and no task is orphaned, none has its
submission ahead. -/
theorem RunInv.tasks_of_done (hi : RunInv s) {how : TaskEnd} (hdone : s.gather = .done how)
    (horphaned : s.orphaned = false) (i : Nat) (hahead : (s.tasks i).pc.ahead = true) :
    (s.tasks i).cancelRequested = true := by
  have hlt := hi.lt_of_ahead hahead
  have hlive : (s.tasks i).pc.isEnded ≠ true := by
    rw [CuePc.not_ended_of_ahead hahead]
    nofun
  cases how with
  | returned => exact absurd (hi.returned hdone i hlt) hlive
  | raised message =>
    rw [orphaned, hdone] at horphaned
    exact hi.tasks_of_astray horphaned i hahead
  | cancelled => exact (hi.reached (hi.cancelled hdone) i hlt).resolve_left hlive

theorem RunInv.tasks_of_late (hi : RunInv s) (hearly : s.phase.early = false)
    (hgathering : s.phase ≠ .gathering) (horphaned : s.orphaned = false) (i : Nat)
    (hahead : (s.tasks i).pc.ahead = true) : (s.tasks i).cancelRequested = true := by
  rcases hi.late hearly hgathering with ⟨how, hdone⟩ | hunborn
  · exact hi.tasks_of_done hdone horphaned i hahead
  · rw [hunborn i] at hahead
    cases hahead

/-- A run task that has ended leaves a quelled run, unless a Cue task is
orphaned. -/
theorem RunInv.quelled_of_late (hi : RunInv s) (hearly : s.phase.early = false)
    (hgathering : s.phase ≠ .gathering) (horphaned : s.orphaned = false) : Quelled s :=
  ⟨fun h => absurd (hearly.symm.trans h) (by decide), hi.tasks_of_late hearly hgathering horphaned⟩

/-- `cancel()` of the run task quells the run, unless a Cue task is
orphaned. -/
theorem RunInv.quelled_cancelRun (hi : RunInv s) (horphaned : s.orphaned = false) :
    Quelled s.cancelRun := by
  unfold Execution.cancelRun
  split
  · rename_i hphase
    exact hi.quelled_of_late (by rw [hphase]; rfl) (by rw [hphase]; nofun) horphaned
  · rename_i hphase
    have hearly : s.phase.early = false := by rw [hphase]; rfl
    split
    · -- every task that has not ended is cancelled
      refine ⟨fun h => absurd (hearly.symm.trans h) (by decide), fun i hahead => ?_⟩
      dsimp only at hahead ⊢
      split
      · rfl
      · rename_i hno
        rw [if_neg hno] at hahead
        exact absurd ⟨hi.lt_of_ahead hahead, by rw [CuePc.not_ended_of_ahead hahead]; rfl⟩ hno
    · rename_i hpending
      refine ⟨fun _ => rfl, fun i hahead => ?_⟩
      cases hgather : s.gather with
      | done how => exact hi.tasks_of_done hgather horphaned i hahead
      | pending =>
        -- all the tasks have ended, and the future does not know it yet
        refine absurd ⟨hgather, List.any_eq_true.mpr ⟨i, ?_, ?_⟩⟩ hpending
        · exact List.mem_range.mpr (hi.lt_of_ahead hahead)
        · have := CuePc.not_ended_of_ahead hahead
          simpa using this
  · rename_i hgathering
    refine ⟨fun _ => rfl, fun i hahead => ?_⟩
    cases hearly : s.phase.early with
    | false => exact hi.tasks_of_late hearly hgathering horphaned i hahead
    | true =>
      have hunborn : (s.tasks i).pc = .unborn := (hi.early hearly).2 i
      have hno : (s.tasks i).pc.ahead = true := hahead
      rw [hunborn] at hno
      cases hno

/-! ## A quelled run stays quelled -/

theorem Quelled.cancelRun (hq : Quelled s) : Quelled s.cancelRun := by
  unfold Execution.cancelRun
  split
  · exact hq
  · rename_i hphase
    have hearly : s.phase.early = false := by rw [hphase]; rfl
    split
    · refine ⟨fun h => absurd (hearly.symm.trans h) (by decide), fun i hahead => ?_⟩
      dsimp only at hahead ⊢
      split
      · rfl
      · rename_i hno
        rw [if_neg hno] at hahead
        exact hq.tasks i hahead
    · exact ⟨fun _ => rfl, hq.tasks⟩
  · exact ⟨fun _ => rfl, hq.tasks⟩

/-- A step that leaves the Cue tasks alone, and does not take the run task
back. -/
theorem Quelled.of_tasks (hq : Quelled s) (tasks : t.tasks = s.tasks)
    (early : t.phase.early = false) : Quelled t := by
  refine ⟨fun h => absurd (early.symm.trans h) (by decide), ?_⟩
  rw [tasks]
  exact hq.tasks

theorem Quelled.step {l : ExecLabel} (hi : RunInv s) (hq : Quelled s)
    (h : s.step env l = some t) : Quelled t := by
  cases hl : l.inner with
  | true =>
    have hsame := step_sameRun hl h
    refine ⟨fun hearly => ?_, fun i hahead => ?_⟩
    · rw [hsame.cancelRequested]
      exact hq.halted (hsame.phase ▸ hearly)
    · rw [hi.flags_inner hl h i]
      cases (step_moves h).advance i with
      | same pc => exact hq.tasks i (pc ▸ hahead)
      | made early gathering _ _ =>
        rw [hsame.phase] at gathering
        rw [gathering] at early
        cases early
      | goes _ _ ahead => exact hq.tasks i (ahead hahead)
      | ends how _ pc _ =>
        rw [pc] at hahead
        cases hahead
  | false =>
    cases step_runMoves hl h with
    | advances start afterSequences rest hearly huncancelled =>
      -- a run task that was asked to stop makes no Cue tasks
      rw [hq.halted hearly] at huncancelled
      cases huncancelled
    | stops result hearly => exact hq.of_tasks rfl rfl
    | notices hpc => exact ⟨hq.halted, hq.tasks⟩
    | gathered result hphase hdone => exact hq.of_tasks rfl rfl
    | closed result' hphase => exact hq.of_tasks rfl rfl
    | cancels => exact hq.cancelRun

/-- A quelled run submits nothing. -/
theorem Quelled.submits_nothing {l : ExecLabel} (hq : Quelled s) (h : s.step env l = some t) :
    t.submitted = s.submitted := by
  rcases (step_moves h).submits with hsame | ⟨i, hahead, huncancelled⟩
  · exact hsame
  · rw [hq.tasks i hahead] at huncancelled
    cases huncancelled

/-! ## The end of the run task -/

theorem over_cases {p : RunPhase} (h : p.isOver = true) : p.early = false ∧ p ≠ .gathering := by
  cases p with
  | ended result => exact ⟨rfl, nofun⟩
  | _ => cases h

theorem phase_cancelRun (s : Execution V) : s.cancelRun.phase = s.phase := by
  unfold Execution.cancelRun
  split
  · rfl
  · split <;> rfl
  · rfl

/-- The step that ends the run task leaves the Cue tasks and the gathering
future alone, and a run task that has ended stays so. -/
theorem step_over {l : ExecLabel} (h : s.step env l = some t) :
    (s.phase.isOver = true → t.phase.isOver = true) ∧
      (s.phase.isOver = false → t.phase.isOver = true → t.orphaned = s.orphaned) := by
  cases hl : l.inner with
  | true =>
    have hphase := (step_sameRun hl h).phase
    refine ⟨fun hover => hphase ▸ hover, fun hno hover => ?_⟩
    rw [hphase, hno] at hover
    cases hover
  | false =>
    cases step_runMoves hl h with
    | advances start afterSequences rest hearly _ =>
      have hnext : ({ s with start, afterSequences }.nextSnapshot rest).phase.isOver = false := by
        cases rest <;> rfl
      refine ⟨fun hover => ?_, fun _ hover => ?_⟩
      · rw [(over_cases hover).1] at hearly
        cases hearly
      · rw [hnext] at hover
        cases hover
    | stops result hearly => exact ⟨fun _ => rfl, fun _ _ => rfl⟩
    | notices hpc =>
      exact ⟨id, fun hno hover => absurd (hno.symm.trans hover) (by decide)⟩
    | gathered result hphase hdone =>
      refine ⟨fun hover => ?_, fun _ hover => by cases hover⟩
      rw [hphase] at hover
      cases hover
    | closed result' hphase => exact ⟨fun _ => rfl, fun _ _ => rfl⟩
    | cancels =>
      refine ⟨fun hover => (phase_cancelRun s).symm ▸ hover, fun hno hover => ?_⟩
      rw [phase_cancelRun, hno] at hover
      cases hover

end Execution

end Fusion
