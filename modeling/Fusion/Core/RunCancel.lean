import Fusion.Core.RunEnd
import Fusion.Core.StuckCues

/-!
# RunCancel — a cancelled run comes to its end

`cancel()` reaches the run task itself, or the Cue tasks through the
gathering future (`Asked`). From then on some step is always open to the run
that takes it nearer to its end (`remaining`): a Cue task raises, the
gathering future learns of it, a stream ends, the run task goes on.
-/

namespace Fusion

variable {V : Type}

/-- How many times the run task has still to go on. -/
def RunPhase.left : RunPhase → Nat
  | created | snapshots _ => 1
  | gathering => 2
  | closing _ => 1
  | ended _ => 0

namespace Execution

variable {env : Env} {s t : Execution V}

/-! ## The tasks that a run waits for -/

/-- What the run task waits for is there: Cue tasks that exist and of which
the gathering future has still to learn, and listeners that were started. -/
structure Formed (s : Execution V) : Prop where
  made : s.phase = .gathering → ∀ i < s.timeline.cues.length, (s.tasks i).pc ≠ .unborn
  unnoticed : s.phase = .gathering → s.gather = .pending →
    ∃ i < s.timeline.cues.length, s.noticed i = false
  started : s.phase = .gathering → ∀ client ∈ s.clients, s.listeners client ≠ .unborn
  stopping : ∀ result, s.phase = .closing result →
    ∀ client ∈ s.clients, s.listeners client = .cancelling ∨ s.listeners client = .ended

theorem Formed.init (timeline : Timeline V) (clients : List String) (runId : String) :
    Formed (init timeline clients runId) :=
  ⟨nofun, nofun, nofun, nofun⟩

/-- Nothing is waited for before the Cue tasks are made, or after the end. -/
theorem Formed.of_phase (hgathering : s.phase ≠ .gathering)
    (hclosing : ∀ result, s.phase ≠ .closing result) : Formed s :=
  ⟨fun h => absurd h hgathering, fun h => absurd h hgathering, fun h => absurd h hgathering,
    fun result h => absurd h (hclosing result)⟩

/-- A step of the Cue tasks or of the listeners. -/
theorem Formed.inner {l : ExecLabel} (hi : Formed s) (hl : l.inner = true)
    (h : s.step env l = some t) : Formed t := by
  have hsame := step_sameRun hl h
  have hmoves := step_moves h
  -- a listener only ends, once the run task has started it
  have hlisteners : ∀ client, t.listeners client = s.listeners client ∨
      t.listeners client = .ended ∨ s.phase.early = true := by
    intro client
    cases l with
    | streamEnds name =>
      simp only [step] at h
      split at h <;> cases h
      · by_cases hname : client = name
        · exact .inr (.inl (hname ▸ Function.update_self ..))
        · exact .inl (Function.update_of_ne hname ..)
      · by_cases hname : client = name
        · exact .inr (.inl (hname ▸ Function.update_self ..))
        · exact .inl (Function.update_of_ne hname ..)
    | resync name =>
      simp only [step] at h
      split at h <;> cases h
      by_cases hname : client = name
      · exact .inr (.inl (hname ▸ Function.update_self ..))
      · left
        exact (Function.update_of_ne hname ..).trans (by rw [(resolves_resync _).listeners])
    | _ =>
      rcases hmoves.listener client with hsame | ⟨hearly, -⟩ | ⟨-, hlabel⟩
      · exact .inl hsame
      · exact .inr (.inr hearly)
      · rcases hlabel with hlabel | hlabel | hlabel <;> cases hlabel <;> cases hl
  refine ⟨?_, ?_, ?_, ?_⟩
  · rw [hsame.phase, hsame.timeline]
    intro hphase i hlt hunborn
    have hborn := hi.made hphase i hlt
    cases hmoves.advance i with
    | same pc => exact hborn (pc ▸ hunborn)
    | made _ _ _ pc =>
      rw [pc] at hunborn
      cases hunborn
    | goes _ live _ =>
      rw [hunborn] at live
      cases live
    | ends how _ pc _ =>
      rw [pc] at hunborn
      cases hunborn
  · rw [hsame.phase, hsame.gather, hsame.timeline, hsame.noticed]
    exact hi.unnoticed
  · rw [hsame.phase, hmoves.clients]
    intro hphase client hclient
    rcases hlisteners client with hsame | hended | hearly
    · rw [hsame]
      exact hi.started hphase client hclient
    · simp [hended]
    · rw [hphase] at hearly
      cases hearly
  · rw [hmoves.clients]
    intro result hphase client hclient
    rw [hsame.phase] at hphase
    rcases hlisteners client with hsame | hended | hearly
    · rw [hsame]
      exact hi.stopping result hphase client hclient
    · exact .inr hended
    · rw [hphase] at hearly
      cases hearly

theorem Formed.beginGather (hrun : RunInv s) (hearly : s.phase.early = true) :
    Formed s.beginGather where
  made := by
    intro _ i hlt
    have htask : s.beginGather.tasks i = ⟨.created, false⟩ := if_pos hlt
    rw [htask]
    nofun
  unnoticed := by
    intro _ hgather
    have hgather : (if s.timeline.cues = [] then .done .returned else .pending) =
        GatherState.pending := hgather
    refine ⟨0, ?_, ?_⟩
    · show 0 < s.timeline.cues.length
      split at hgather
      · cases hgather
      · rename_i hcues
        exact List.length_pos_of_ne_nil hcues
    · show s.noticed 0 = false
      by_contra hnoticed
      have hended := hrun.noticed 0 (by simpa using hnoticed)
      rw [(hrun.early hearly).2 0] at hended
      cases hended
  started := by
    intro _ client hclient
    have hlistener : s.beginGather.listeners client = .streaming := if_pos hclient
    rw [hlistener]
    nofun
  stopping := nofun

theorem Formed.notice (hi : Formed s) (j : Nat) (how : TaskEnd) : Formed (s.notice j how) where
  made := hi.made
  unnoticed := by
    intro _ hgather
    have hgather : ({ s with noticed := Function.update s.noticed j true } :
        Execution V).gatherAfter how = .pending := hgather
    simp only [gatherAfter] at hgather
    split at hgather
    · cases hgather
    · split at hgather
      · cases hgather
      · -- the future is done once it knows of all the tasks
        rename_i hall
        have hall : ∃ i < s.timeline.cues.length, Function.update s.noticed j true i = false := by
          simpa [positions] using hall
        exact hall
    · cases hgather
  started := hi.started
  stopping := hi.stopping

theorem Formed.closeListeners (hi : Formed s) (hphase : s.phase = .gathering) (result : TaskEnd) :
    Formed (s.closeListeners result) where
  made := nofun
  unnoticed := nofun
  started := nofun
  stopping := by
    intro _ _ client hclient
    have hborn := hi.started hphase client hclient
    have hlistener : (s.closeListeners result).listeners client =
        if s.listeners client = .streaming then .cancelling else s.listeners client := rfl
    rw [hlistener]
    cases hs : s.listeners client with
    | unborn => exact absurd hs hborn
    | _ => simp

theorem Formed.cancelRun (hi : Formed s) : Formed s.cancelRun := by
  have hasked : Formed { s with cancelRequested := true } :=
    ⟨hi.made, hi.unnoticed, hi.started, hi.stopping⟩
  unfold Execution.cancelRun
  split
  · exact hi
  · split
    · refine ⟨?_, hi.unnoticed, hi.started, hi.stopping⟩
      intro hphase i hlt
      have hborn := hi.made hphase i hlt
      dsimp only
      split <;> exact hborn
    · exact hasked
  · exact hasked

theorem Formed.step {l : ExecLabel} (hrun : RunInv s) (hi : Formed s)
    (h : s.step env l = some t) : Formed t := by
  cases hl : l.inner with
  | true => exact hi.inner hl h
  | false =>
    cases step_runMoves hl h with
    | advances start afterSequences rest hearly _ =>
      cases rest with
      | nil =>
        have hs : RunInv { s with start, afterSequences } :=
          hrun.of_tasks rfl rfl rfl rfl rfl id hrun.late
        exact .beginGather hs hearly
      | cons _ _ => exact .of_phase nofun nofun
    | stops result hearly => exact .of_phase nofun nofun
    | notices hpc => exact hi.notice _ _
    | gathered result hphase hdone => exact hi.closeListeners hphase result
    | closed result' hphase => exact .of_phase nofun nofun
    | cancels => exact hi.cancelRun

/-! ## The request to stop -/

/-- `cancel()` of the run task was called. -/
structure Asked (s : Execution V) : Prop where
  early : s.phase.early = true → s.cancelRequested = true
  tasks : s.phase = .gathering → s.gather = .pending → ∀ i < s.timeline.cues.length,
    (s.tasks i).pc.isEnded = true ∨ (s.tasks i).cancelRequested = true

theorem Asked.of_phase (hearly : s.phase.early = false) (hgathering : s.phase ≠ .gathering) :
    Asked s :=
  ⟨fun h => absurd (hearly.symm.trans h) (by decide), fun h => absurd h hgathering⟩

theorem asked_cancelRun (s : Execution V) : Asked s.cancelRun := by
  unfold Execution.cancelRun
  split
  · rename_i hphase
    exact .of_phase (by rw [hphase]; rfl) (by rw [hphase]; nofun)
  · rename_i hphase
    have hearly : s.phase.early = false := by rw [hphase]; rfl
    split
    · refine ⟨fun h => absurd (hearly.symm.trans h) (by decide), fun _ _ i hlt => ?_⟩
      have hlt : i < s.timeline.cues.length := hlt
      cases hended : (s.tasks i).pc.isEnded <;> simp [hlt, hended]
    · rename_i hno
      refine ⟨fun _ => rfl, fun _ hpending i hlt => .inl ?_⟩
      have hpending : s.gather = .pending := hpending
      simp only [hpending, positions, true_and, Bool.not_eq_true, List.any_eq_false,
        List.mem_range, Bool.not_eq_false'] at hno
      simpa using hno i hlt
  · rename_i hgathering
    exact ⟨fun _ => rfl, fun h => absurd h hgathering⟩

theorem Asked.step {l : ExecLabel} (hrun : RunInv s) (hi : Asked s)
    (h : s.step env l = some t) : Asked t := by
  cases hl : l.inner with
  | true =>
    have hsame := step_sameRun hl h
    refine ⟨?_, ?_⟩
    · rw [hsame.phase, hsame.cancelRequested]
      exact hi.early
    · rw [hsame.phase, hsame.gather, hsame.timeline]
      intro hphase hpending i hlt
      rw [hrun.flags_inner hl h i]
      rcases hi.tasks hphase hpending i hlt with hended | hasked
      · cases (step_moves h).advance i with
        | same pc => exact .inl (pc ▸ hended)
        | made early _ _ _ =>
          rw [hphase] at early
          cases early
        | goes was _ _ =>
          cases hpc : (s.tasks i).pc <;> rw [hpc] at was hended <;> cases was <;> cases hended
        | ends how _ pc _ => exact .inl (by rw [pc]; rfl)
      · exact .inr hasked
  | false =>
    cases step_runMoves hl h with
    | advances start afterSequences rest hearly huncancelled =>
      -- a run task that was asked asks for no further snapshot
      rw [hi.early hearly] at huncancelled
      cases huncancelled
    | stops result hearly => exact .of_phase rfl (by simp)
    | @notices i how hpc =>
      refine ⟨hi.early, ?_⟩
      intro hphase hpending
      apply hi.tasks hphase
      -- the future was pending before
      have hafter : ({ s with noticed := Function.update s.noticed i true } :
          Execution V).gatherAfter how = .pending := hpending
      cases hgather : s.gather with
      | pending => rfl
      | done result =>
        simp [gatherAfter, hgather] at hafter
    | gathered result hphase hdone => exact .of_phase rfl (by simp [closeListeners])
    | closed result' hphase => exact .of_phase rfl (by simp)
    | cancels => exact asked_cancelRun s

/-! ## How much is left -/

/-- What is left of a run that was asked to stop. -/
def remaining (s : Execution V) : Nat :=
  s.phase.left + s.positions.countP (fun i => !(s.tasks i).pc.isEnded) +
    s.positions.countP (fun i => !s.noticed i) +
    s.clients.countP fun client => s.listeners client ≠ .ended

/-- Less holds than before, and of one element it held. -/
theorem countP_lt {α : Type*} {p q : α → Bool} {xs : List α}
    (himp : ∀ x ∈ xs, q x = true → p x = true) {x : α} (hx : x ∈ xs) (hp : p x = true)
    (hq : q x = false) : xs.countP q < xs.countP p := by
  induction xs with
  | nil => cases hx
  | cons y ys ih =>
    have hle : ys.countP q ≤ ys.countP p :=
      List.countP_mono_left fun z hz => himp z (List.mem_cons_of_mem _ hz)
    rcases List.mem_cons.mp hx with rfl | hx
    · rw [List.countP_cons_of_neg (by simp [hq]), List.countP_cons_of_pos hp]
      omega
    · have hlt := ih (fun z hz => himp z (List.mem_cons_of_mem _ hz)) hx
      have hy := himp y List.mem_cons_self
      rw [List.countP_cons, List.countP_cons]
      split
      · rename_i hqy
        rw [if_pos (hy hqy)]
        omega
      · omega

/-- The label takes the run nearer to its end. -/
def Nears (s : Execution V) (l : ExecLabel) : Prop :=
  ∀ env, ∃ t, s.step env l = some t ∧ t.remaining < s.remaining

theorem nears_cueCancelled {i : Nat} (hlt : i < s.timeline.cues.length)
    (hasked : (s.tasks i).cancelRequested = true) (hlive : (s.tasks i).pc.live = true) :
    Nears s (.cueCancelled i) := by
  intro env
  refine ⟨s.endCue i .cancelled, by simp [step, hasked, hlive], ?_⟩
  have hself : ((s.endCue i .cancelled).tasks i).pc = .ended .cancelled := pc_setPc_self s i _
  have hless : s.positions.countP (fun j => !((s.endCue i .cancelled).tasks j).pc.isEnded) <
      s.positions.countP fun j => !(s.tasks j).pc.isEnded := by
    apply countP_lt (x := i)
    · intro j _ hj
      by_cases hij : j = i
      · subst hij
        rw [hself] at hj
        cases hj
      · rwa [endCue, tasks_setPc_ne s _ hij] at hj
    · exact List.mem_range.mpr hlt
    · cases hpc : (s.tasks i).pc <;> rw [hpc] at hlive <;> first | rfl | cases hlive
    · rw [hself]
      rfl
  have hsame : (s.endCue i .cancelled).positions = s.positions := rfl
  simp only [remaining, hsame]
  have hrest : (s.endCue i .cancelled).phase = s.phase ∧
      (s.endCue i .cancelled).noticed = s.noticed ∧
      (s.endCue i .cancelled).clients = s.clients ∧
      (s.endCue i .cancelled).listeners = s.listeners := ⟨rfl, rfl, rfl, rfl⟩
  rw [hrest.1, hrest.2.1, hrest.2.2.1, hrest.2.2.2]
  omega

theorem nears_notice {i : Nat} {how : TaskEnd} (hlt : i < s.timeline.cues.length)
    (hpc : (s.tasks i).pc = .ended how) (hnoticed : s.noticed i = false) :
    Nears s (.notice i) := by
  intro env
  refine ⟨s.notice i how, by simp [step, hpc, hlt, hnoticed], ?_⟩
  have hless : s.positions.countP (fun j => !Function.update s.noticed i true j) <
      s.positions.countP fun j => !s.noticed j := by
    apply countP_lt (x := i)
    · intro j _ hj
      by_cases hij : j = i
      · subst hij
        simp at hj
      · rwa [Function.update_of_ne hij] at hj
    · exact List.mem_range.mpr hlt
    · simp [hnoticed]
    · simp
  show s.phase.left + s.positions.countP (fun j => !(s.tasks j).pc.isEnded) +
    s.positions.countP (fun j => !Function.update s.noticed i true j) +
    s.clients.countP (fun client => s.listeners client ≠ .ended) < s.remaining
  rw [remaining]
  omega

theorem nears_streamEnds {client : String} (hclient : client ∈ s.clients)
    (hcancelling : s.listeners client = .cancelling) : Nears s (.streamEnds client) := by
  intro env
  refine ⟨s.setListener client .ended, by simp [step, hcancelling], ?_⟩
  have hless : s.clients.countP
        (fun other => Function.update s.listeners client .ended other ≠ ListenerState.ended) <
      s.clients.countP fun other => s.listeners other ≠ .ended := by
    apply countP_lt (x := client)
    · intro other _ hother
      by_cases hsame : other = client
      · subst hsame
        simp at hother
      · rwa [Function.update_of_ne hsame] at hother
    · exact hclient
    · simp [hcancelling]
    · simp
  show s.phase.left + s.positions.countP (fun j => !(s.tasks j).pc.isEnded) +
    s.positions.countP (fun j => !s.noticed j) +
    s.clients.countP (fun other =>
      Function.update s.listeners client .ended other ≠ ListenerState.ended) < s.remaining
  rw [remaining]
  omega

/-- The run task goes on to its next phase; a listener that had ended stays
so. -/
theorem remaining_phase {phase : RunPhase} {listeners : String → ListenerState}
    (hphase : phase.left < s.phase.left)
    (hlisteners : ∀ client, s.listeners client = .ended → listeners client = .ended) :
    remaining { s with phase := phase, listeners := listeners } < s.remaining := by
  have hle : s.clients.countP (fun client => listeners client ≠ .ended) ≤
      s.clients.countP fun client => s.listeners client ≠ .ended := by
    apply List.countP_mono_left
    intro client _ hopen
    simp only [ne_eq, decide_eq_true_eq] at hopen ⊢
    exact fun hended => hopen (hlisteners client hended)
  show phase.left + s.positions.countP (fun j => !(s.tasks j).pc.isEnded) +
    s.positions.countP (fun j => !s.noticed j) +
    s.clients.countP (fun client => listeners client ≠ .ended) < s.remaining
  rw [remaining]
  omega

theorem nears_runCancelled (hearly : s.phase.early = true) (hasked : s.cancelRequested = true) :
    Nears s .runCancelled := by
  intro env
  cases hphase : s.phase with
  | created | snapshots rest =>
    refine ⟨{ s with phase := .ended .cancelled }, by simp [step, hphase, hasked], ?_⟩
    apply remaining_phase
    · rw [hphase]
      show 0 < 1
      omega
    · exact fun _ h => h
  | _ =>
    rw [hphase] at hearly
    cases hearly

theorem nears_gathered {how : TaskEnd} (hphase : s.phase = .gathering)
    (hgather : s.gather = .done how) : Nears s .gathered := by
  intro env
  refine ⟨s.closeListeners (if s.cancelRequested then .cancelled else how),
    by simp [step, hphase, hgather], ?_⟩
  apply remaining_phase
  · rw [hphase]
    show 1 < 2
    omega
  · intro client hended
    simp [hended]

theorem nears_closed {result : TaskEnd} (hphase : s.phase = .closing result)
    (hall : s.clients.all (fun client => s.listeners client = .ended) = true) :
    Nears s .closed := by
  intro env
  refine ⟨{ s with phase := .ended (if s.cancelRequested then .cancelled else result) },
    by simp only [step, hphase, hall, if_true], ?_⟩
  apply remaining_phase
  · rw [hphase]
    show 0 < 1
    omega
  · exact fun _ h => h

/-- **A cancelled run can always go on.** -/
theorem Asked.nears (hformed : Formed s) (hi : Asked s)
    (hover : s.phase.isOver = false) : ∃ l, l ≠ .begin ∧ l ≠ .cancelRun ∧ Nears s l := by
  cases hphase : s.phase with
  | created | snapshots rest =>
    have hearly : s.phase.early = true := by rw [hphase]; rfl
    exact ⟨.runCancelled, nofun, nofun, nears_runCancelled hearly (hi.early hearly)⟩
  | gathering =>
    cases hgather : s.gather with
    | done how => exact ⟨.gathered, nofun, nofun, nears_gathered hphase hgather⟩
    | pending =>
      -- a task the future does not know of yet has ended or is about to raise
      obtain ⟨i, hlt, hnoticed⟩ := hformed.unnoticed hphase hgather
      rcases hi.tasks hphase hgather i hlt with hended | hasked
      · obtain ⟨how, hpc⟩ : ∃ how, (s.tasks i).pc = .ended how := by
          cases hpc : (s.tasks i).pc with
          | ended how => exact ⟨how, rfl⟩
          | _ =>
            rw [hpc] at hended
            cases hended
        exact ⟨.notice i, nofun, nofun, nears_notice hlt hpc hnoticed⟩
      · have hborn := hformed.made hphase i hlt
        cases hpc : (s.tasks i).pc with
        | unborn => exact absurd hpc hborn
        | ended how => exact ⟨.notice i, nofun, nofun, nears_notice hlt hpc hnoticed⟩
        | _ =>
          exact ⟨.cueCancelled i, nofun, nofun,
            nears_cueCancelled hlt hasked (by rw [hpc]; rfl)⟩
  | closing result =>
    by_cases hall : s.clients.all (fun client => s.listeners client = .ended) = true
    · exact ⟨.closed, nofun, nofun, nears_closed hphase hall⟩
    · -- some stream has still to end
      simp only [List.all_eq_true, decide_eq_true_eq, not_forall] at hall
      obtain ⟨client, hclient, hopen⟩ := hall
      have hcancelling := (hformed.stopping result hphase client hclient).resolve_right hopen
      exact ⟨.streamEnds client, nofun, nofun, nears_streamEnds hclient hcancelling⟩
  | ended result =>
    rw [hphase] at hover
    cases hover

end Execution

end Fusion
