import Fusion.Core.TimelineExecutor

/-!
# TimelineSteps — what one step of a run does

`Moves` says once what each step of `TimelineExecutor.run` can do to its
Cue tasks, so that no later proof unfolds the step function: a task on its
way to the submission passes its gates (`Gate`), a task past it follows the
answers it gets (`Rechecked`), the listeners resolve futures and nothing else
(`Resolves`), and the run task and the gathering future leave the Cue tasks
where they are (`Rests`).
-/

namespace Fusion

variable {V : Type}

/-- The run task has not made the Cue tasks yet. -/
def RunPhase.early : RunPhase → Bool
  | created | snapshots _ => true
  | _ => false

/-- The dependencies a task on its way to the submission still waits for. -/
def CuePc.gate (cue : Cue V) : CuePc → Option (List String)
  | created => some cue.dependsOn
  | waiting dep rest => some (dep :: rest)
  | sleeping => some []
  | _ => none

namespace Execution

variable {env : Env} {s t : Execution V}

/-! ## Projections -/

@[simp] theorem pc_setPc_self (s : Execution V) (i : Nat) (pc : CuePc) :
    ((s.setPc i pc).tasks i).pc = pc := by
  simp [setPc]

theorem tasks_setPc_ne (s : Execution V) {i j : Nat} (pc : CuePc) (h : j ≠ i) :
    (s.setPc i pc).tasks j = s.tasks j := by
  simp [setPc, h]

@[simp] theorem cancelRequested_setPc (s : Execution V) (i j : Nat) (pc : CuePc) :
    ((s.setPc i pc).tasks j).cancelRequested = (s.tasks j).cancelRequested := by
  by_cases h : j = i
  · subst h
    simp [setPc]
  · rw [tasks_setPc_ne s pc h]

theorem cueAt_some {i : Nat} {cue : Cue V} (h : s.cueAt i = some cue) :
    s.timeline.cues[i]? = some cue ∧ (s.tasks i).cancelRequested = false := by
  unfold cueAt at h
  split at h
  · cases h
  · rename_i hrun
    exact ⟨h, by simpa using hrun⟩

/-! ## The gates of a Cue -/

/-- What the stretch of Cue task `i` comes to that has the dependencies
`deps` to wait for. -/
inductive Gate (env : Env) (s : Execution V) (i : Nat) (cue : Cue V) (deps : List String) :
    Execution V → Prop
  | waits (pre : List String) (dep : String) (rest : List String)
      (split : deps = pre ++ dep :: rest) (passed : ∀ d ∈ pre, s.succeeded d) :
      Gate env s i cue deps (s.setPc i (.waiting dep rest))
  | sleeps (passed : ∀ d ∈ deps, s.succeeded d) :
      Gate env s i cue deps (s.setPc i .sleeping)
  | skips (detail : String) :
      Gate env s i cue deps ((s.finish cue "SKIPPED" (some detail)).endCue i .returned)
  | aborts (detail message : String) :
      Gate env s i cue deps ((s.finish cue "FAILED" (some detail)).endCue i (.raised message))
  | breaks (message : String) :
      Gate env s i cue deps (s.endCue i (.raised message))
  | submits (sessionId : String) (passed : ∀ d ∈ deps, s.succeeded d)
      (due : s.deadline cue ≤ env.now)
      (late : (env.later - s.deadline cue) * 1000 ≤ cue.latePolicy.maxLatenessMs)
      (hold : env.hold = false) (client : cue.runtime ∈ s.clients)
      (session : env.sessionIds.get cue.runtime = some sessionId) :
      Gate env s i cue deps
        { s.setPc i .submitting with
          submitted := s.submitted ++ [⟨i, cue.runtime, s.request cue sessionId⟩] }

theorem fire_gate (s : Execution V) (i : Nat) (cue : Cue V) {deps : List String}
    (passed : ∀ d ∈ deps, s.succeeded d) (due : s.deadline cue ≤ env.now) :
    Gate env s i cue deps (s.fire env i cue) := by
  simp only [fire]
  by_cases late : (cue.latePolicy.maxLatenessMs : ℚ) < (env.later - s.deadline cue) * 1000
  · rw [if_pos late]
    cases cue.latePolicy.mode with
    | skip => exact .skips _
    | abort => exact .aborts _ _
  · rw [if_neg late]
    cases hold : env.hold with
    | true => exact .skips _
    | false =>
      by_cases client : cue.runtime ∈ s.clients
      · cases session : env.sessionIds.get cue.runtime with
        | none => simpa [client] using Gate.breaks _
        | some sessionId =>
          simpa [client] using
            Gate.submits sessionId passed due (not_lt.mp late) hold client session
      · simpa [client] using Gate.breaks _

theorem schedule_gate (s : Execution V) (i : Nat) (cue : Cue V) {deps : List String}
    (passed : ∀ d ∈ deps, s.succeeded d) : Gate env s i cue deps (s.schedule env i cue) := by
  unfold schedule
  split
  · exact .sleeps passed
  · rename_i due
    exact fire_gate s i cue passed (not_lt.mp due)

/-- The dependency loop, by induction on what is left of it: the part before
has succeeded. -/
theorem waitDeps_gate (s : Execution V) (i : Nat) (cue : Cue V) (pre deps : List String)
    (passed : ∀ d ∈ pre, s.succeeded d) :
    Gate env s i cue (pre ++ deps) (s.waitDeps env i cue deps) := by
  induction deps generalizing pre with
  | nil => exact schedule_gate s i cue (by simpa using passed)
  | cons dep rest ih =>
    unfold waitDeps
    cases s.doneEvents.get dep with
    | none => exact .breaks _
    | some done =>
      cases done with
      | false => exact .waits pre dep rest rfl passed
      | true =>
        show Gate env s i cue _ (if _ then _ else _)
        split
        · rename_i hdep
          have hpre : ∀ d ∈ pre ++ [dep], s.succeeded d := by
            intro d hd
            rcases List.mem_append.mp hd with hd | hd
            · exact passed d hd
            · exact List.mem_singleton.mp hd ▸ hdep
          simpa using ih (pre ++ [dep]) hpre
        · exact .skips _

/-! ## What is told to the futures -/

/-- Futures may be resolved, and nothing else changes. -/
def Resolves (s t : Execution V) : Prop :=
  ∃ futures, t = { s with futures }

theorem Resolves.refl (s : Execution V) : Resolves s s :=
  ⟨s.futures, rfl⟩

theorem Resolves.trans {u : Execution V} (h : Resolves s t) (h' : Resolves t u) :
    Resolves s u := by
  obtain ⟨_, rfl⟩ := h
  obtain ⟨futures, rfl⟩ := h'
  exact ⟨futures, rfl⟩

theorem resolves_resolve (s : Execution V) (i : Nat) (outcome : String) :
    Resolves s (s.resolve i outcome) := by
  unfold resolve
  split
  · exact ⟨_, rfl⟩
  · exact .refl s

theorem resolves_resync (s : Execution V) : Resolves s s.resync := by
  unfold resync
  generalize s.pending.items.map Prod.snd = is
  induction is generalizing s with
  | nil => exact .refl s
  | cons i is ih => exact (resolves_resolve s i "UNKNOWN").trans (ih _)

theorem resolves_deliver (s : Execution V) (event : WireEvent) :
    Resolves s (s.deliver event) := by
  cases event with
  | other => exact .refl s
  | completed c outcome =>
    simp only [deliver]
    cases s.pending.get c with
    | none => exact .refl s
    | some i => exact resolves_resolve s i outcome.value

theorem Resolves.tasks (h : Resolves s t) : t.tasks = s.tasks := by
  obtain ⟨_, rfl⟩ := h
  rfl

theorem Resolves.listeners (h : Resolves s t) : t.listeners = s.listeners := by
  obtain ⟨_, rfl⟩ := h
  rfl

/-- What is left of a run once the record of a command is read: the view may
resolve the future before the task looks at it. -/
inductive Rechecked (s : Execution V) (i : Nat) (cue : Cue V) (c : CommandId) :
    Execution V → Prop
  | breaks (message : String) : Rechecked s i cue c (s.endCue i (.raised message))
  | records {u : Execution V} (resolves : Resolves s u) (outcome : String) :
      Rechecked s i cue c ((u.finish cue outcome none).endCue i .returned)
  | awaits {u : Execution V} (resolves : Resolves s u) :
      Rechecked s i cue c (u.setPc i (.awaiting c))

theorem rechecked_recheckAnswered (s : Execution V) (i : Nat) (cue : Cue V) (c : CommandId)
    (answer : Except String CommandView) :
    Rechecked s i cue c (s.recheckAnswered i cue c answer) := by
  match answer with
  | .error message => exact .breaks message
  | .ok .inProgress =>
    simp only [recheckAnswered]
    split
    · exact .records (.refl s) _
    · exact .awaits (.refl s)
  | .ok (.terminal outcome) =>
    simp only [recheckAnswered]
    split
    · exact .records (resolves_resolve s i outcome.value) _
    · exact .awaits (resolves_resolve s i outcome.value)

/-! ## The steps -/

/-- The Cue tasks, and what they left behind, are as they were. Their futures
and the requests to stop them are not in it. -/
structure Rests (s t : Execution V) : Prop where
  timeline : t.timeline = s.timeline
  clients : t.clients = s.clients
  runId : t.runId = s.runId
  early : t.phase.early = true → s.phase.early = true
  pc : ∀ i, (t.tasks i).pc = (s.tasks i).pc
  outcomes : t.outcomes = s.outcomes
  doneEvents : t.doneEvents = s.doneEvents
  pending : t.pending = s.pending
  submitted : t.submitted = s.submitted

theorem Rests.refl (s : Execution V) : Rests s s :=
  ⟨rfl, rfl, rfl, id, fun _ => rfl, rfl, rfl, rfl, rfl⟩

theorem Rests.trans {u : Execution V} (h : Rests s t) (h' : Rests t u) : Rests s u :=
  ⟨h'.timeline.trans h.timeline, h'.clients.trans h.clients, h'.runId.trans h.runId,
    fun he => h.early (h'.early he), fun i => (h'.pc i).trans (h.pc i),
    h'.outcomes.trans h.outcomes, h'.doneEvents.trans h.doneEvents, h'.pending.trans h.pending,
    h'.submitted.trans h.submitted⟩

theorem Resolves.rests (h : Resolves s t) : Rests s t := by
  obtain ⟨_, rfl⟩ := h
  exact ⟨rfl, rfl, rfl, id, fun _ => rfl, rfl, rfl, rfl, rfl⟩

theorem Rests.resolve (s : Execution V) (i : Nat) (outcome : String) :
    Rests s (s.resolve i outcome) :=
  (resolves_resolve s i outcome).rests

theorem Rests.resync (s : Execution V) : Rests s s.resync :=
  (resolves_resync s).rests

theorem Rests.deliver (s : Execution V) (e : WireEvent) : Rests s (s.deliver e) :=
  (resolves_deliver s e).rests

theorem Rests.setListener (s : Execution V) (client : String) (l : ListenerState) :
    Rests s (s.setListener client l) :=
  ⟨rfl, rfl, rfl, id, fun _ => rfl, rfl, rfl, rfl, rfl⟩

theorem Rests.notice (s : Execution V) (i : Nat) (how : TaskEnd) : Rests s (s.notice i how) :=
  ⟨rfl, rfl, rfl, id, fun _ => rfl, rfl, rfl, rfl, rfl⟩

theorem Rests.cancelRun (s : Execution V) : Rests s s.cancelRun := by
  unfold Execution.cancelRun
  split
  · exact .refl s
  · split
    · refine ⟨rfl, rfl, rfl, id, fun i => ?_, rfl, rfl, rfl, rfl⟩
      dsimp only
      split <;> rfl
    · exact ⟨rfl, rfl, rfl, id, fun _ => rfl, rfl, rfl, rfl, rfl⟩
  · exact ⟨rfl, rfl, rfl, id, fun _ => rfl, rfl, rfl, rfl, rfl⟩

theorem futures_cancelRun (s : Execution V) : s.cancelRun.futures = s.futures := by
  unfold Execution.cancelRun
  split
  · rfl
  · split <;> rfl
  · rfl

theorem listeners_cancelRun (s : Execution V) : s.cancelRun.listeners = s.listeners := by
  unfold Execution.cancelRun
  split
  · rfl
  · split <;> rfl
  · rfl

/-- The run task makes the Cue tasks. -/
structure Spawns (s t : Execution V) : Prop where
  timeline : t.timeline = s.timeline
  clients : t.clients = s.clients
  runId : t.runId = s.runId
  tasks : ∀ i, t.tasks i = if i < s.timeline.cues.length then ⟨.created, false⟩ else s.tasks i
  listeners : ∀ client, t.listeners client =
    if client ∈ s.clients then .streaming else s.listeners client
  outcomes : t.outcomes = s.outcomes
  doneEvents : t.doneEvents = s.doneEvents
  pending : t.pending = s.pending
  futures : t.futures = s.futures
  submitted : t.submitted = s.submitted

/-- **What a step can do**, by its label. -/
inductive Moves (env : Env) (s : Execution V) : ExecLabel → Execution V → Prop
  /-- the run task, the gathering future, the end of a stream -/
  | rests {l : ExecLabel} {t : Execution V} (rests : Rests s t) (futures : t.futures = s.futures)
      (tasks : l ≠ .cancelRun → t.tasks = s.tasks)
      (listeners : ∀ client, t.listeners client = s.listeners client ∨
        s.listeners client ≠ .unborn ∧ (l = .streamEnds client ∨ l = .gathered)) : Moves env s l t
  | delivers {client : String} {event : WireEvent} (streaming : s.listeners client = .streaming) :
      Moves env s (.deliver client event) (s.deliver event)
  | resyncs {client : String} (streaming : s.listeners client = .streaming) :
      Moves env s (.resync client) (s.resync.setListener client .ended)
  | spawns {l : ExecLabel} {t : Execution V}
      (early : s.phase.early = true) (gathering : t.phase = .gathering) (spawns : Spawns s t) :
      Moves env s l t
  | gate {i : Nat} {cue : Cue V} {deps : List String} {t : Execution V}
      (cueAt : s.cueAt i = some cue) (pc : (s.tasks i).pc.gate cue = some deps)
      (gate : Gate env s i cue deps t) : Moves env s (.cue i) t
  /-- the future of the task is resolved -/
  | resumes {i : Nat} {cue : Cue V} {c : CommandId} {outcome : String}
      (cueAt : s.cueAt i = some cue) (pc : (s.tasks i).pc = .awaiting c)
      (future : s.futures i = some (.resolved outcome)) :
      Moves env s (.cue i) ((s.finish cue outcome none).endCue i .returned)
  | submitted {i : Nat} {cue : Cue V} {answer : Except ClientError (CommandId × CommandView)}
      (cueAt : s.cueAt i = some cue) (pc : (s.tasks i).pc = .submitting) :
      Moves env s (.submitAnswered i answer) (s.submitAnswered i cue answer)
  | rechecked {i : Nat} {cue : Cue V} {c : CommandId} {answer : Except String CommandView}
      (cueAt : s.cueAt i = some cue) (pc : (s.tasks i).pc = .rechecking c) :
      Moves env s (.recheckAnswered i answer) (s.recheckAnswered i cue c answer)
  | cancelled {i : Nat} (requested : (s.tasks i).cancelRequested = true)
      (live : (s.tasks i).pc.live = true) :
      Moves env s (.cueCancelled i) (s.endCue i .cancelled)

theorem runCue_moves {i : Nat} {cue : Cue V} (hat : s.cueAt i = some cue)
    (h : s.runCue env i cue = some t) : Moves env s (.cue i) t := by
  unfold runCue at h
  split at h
  · rename_i hpc
    cases h
    exact .gate hat (by rw [hpc]; rfl) (waitDeps_gate s i cue [] _ (by simp))
  · rename_i dep rest hpc
    split at h <;> cases h
    exact .gate hat (by rw [hpc]; rfl) (waitDeps_gate s i cue [] _ (by simp))
  · rename_i hpc
    cases h
    exact .gate hat (by rw [hpc]; rfl) (schedule_gate s i cue (by simp))
  · rename_i hpc
    split at h <;> cases h
    rename_i hfuture
    exact .resumes hat hpc hfuture
  · cases h

/-- The next snapshot, or the Cue tasks. -/
theorem nextSnapshot_moves {l : ExecLabel} {u : Execution V} {rest : List String}
    (early : s.phase.early = true) (h : Rests s u) (htasks : u.tasks = s.tasks)
    (hfutures : u.futures = s.futures) (hlisteners : u.listeners = s.listeners) :
    Moves env s l (u.nextSnapshot rest) := by
  cases rest with
  | nil =>
    refine .spawns early rfl ⟨h.timeline, h.clients, h.runId, fun i => ?_, fun client => ?_,
      h.outcomes, h.doneEvents, h.pending, hfutures, h.submitted⟩
    · show (if i < u.timeline.cues.length then _ else u.tasks i) = _
      rw [h.timeline, htasks]
    · show (if client ∈ u.clients then _ else u.listeners client) = _
      rw [h.clients, hlisteners]
  | cons _ _ =>
    exact .rests { h with early := fun _ => early } hfutures (fun _ => htasks)
      fun client => .inl (congrFun hlisteners client)

theorem step_moves {l : ExecLabel} (h : s.step env l = some t) : Moves env s l t := by
  cases l with
  | begin =>
    simp only [step] at h
    split at h <;> cases h
    rename_i hstart
    exact nextSnapshot_moves (by rw [hstart.1]; rfl)
      ⟨rfl, rfl, rfl, id, fun _ => rfl, rfl, rfl, rfl, rfl⟩ rfl rfl rfl
  | snapshot answer =>
    simp only [step] at h
    split at h
    · rename_i name rest hphase
      split at h
      · cases h
      · cases answer with
        | error message =>
          cases h
          exact .rests ⟨rfl, rfl, rfl, nofun, fun _ => rfl, rfl, rfl, rfl, rfl⟩ rfl (fun _ => rfl)
            fun _ => .inl rfl
        | ok sequence =>
          cases h
          exact nextSnapshot_moves (by rw [hphase]; rfl)
            ⟨rfl, rfl, rfl, id, fun _ => rfl, rfl, rfl, rfl, rfl⟩ rfl rfl rfl
    · cases h
  | runCancelled =>
    have ended : Rests s { s with phase := .ended .cancelled } :=
      ⟨rfl, rfl, rfl, nofun, fun _ => rfl, rfl, rfl, rfl, rfl⟩
    simp only [step] at h
    split at h
    · split at h <;> cases h
      exact .rests ended rfl (fun _ => rfl) fun _ => .inl rfl
    · split at h <;> cases h
      exact .rests ended rfl (fun _ => rfl) fun _ => .inl rfl
    · cases h
  | cue i =>
    obtain ⟨cue, hat, hrun⟩ := Option.bind_eq_some_iff.mp h
    exact runCue_moves hat hrun
  | submitAnswered i answer =>
    obtain ⟨cue, hat, hrun⟩ := Option.bind_eq_some_iff.mp h
    split at hrun <;> cases hrun
    rename_i hpc
    exact .submitted hat hpc
  | recheckAnswered i answer =>
    obtain ⟨cue, hat, hrun⟩ := Option.bind_eq_some_iff.mp h
    split at hrun <;> cases hrun
    rename_i hpc
    exact .rechecked hat hpc
  | cueCancelled i =>
    simp only [step] at h
    split at h <;> cases h
    rename_i hcancel
    exact .cancelled hcancel.1 hcancel.2
  | notice i =>
    simp only [step] at h
    split at h
    · split at h <;> cases h
      exact .rests (.notice s _ _) rfl (fun _ => rfl) fun _ => .inl rfl
    · cases h
  | gathered =>
    simp only [step] at h
    split at h <;> cases h
    refine .rests ⟨rfl, rfl, rfl, nofun, fun _ => rfl, rfl, rfl, rfl, rfl⟩ rfl (fun _ => rfl)
      fun client => ?_
    by_cases hopen : s.listeners client = .streaming
    · exact .inr ⟨by rw [hopen]; nofun, .inr rfl⟩
    · exact .inl (if_neg hopen)
  | closed =>
    simp only [step] at h
    split at h
    · split at h <;> cases h
      exact .rests ⟨rfl, rfl, rfl, nofun, fun _ => rfl, rfl, rfl, rfl, rfl⟩ rfl (fun _ => rfl)
        fun _ => .inl rfl
    · cases h
  | deliver client event =>
    simp only [step] at h
    split at h <;> cases h
    rename_i hstreaming
    exact .delivers hstreaming
  | resync client =>
    simp only [step] at h
    split at h <;> cases h
    rename_i hstreaming
    exact .resyncs hstreaming
  | streamEnds client =>
    have ends (hopen : s.listeners client ≠ .unborn) :
        Moves env s (.streamEnds client) (s.setListener client .ended) := by
      refine .rests (.setListener s client .ended) rfl (fun _ => rfl) fun other => ?_
      by_cases hother : other = client
      · subst hother
        exact .inr ⟨hopen, .inl rfl⟩
      · exact .inl (Function.update_of_ne hother _ _)
    simp only [step] at h
    split at h <;> cases h <;> rename_i hopen <;> exact ends (by rw [hopen]; nofun)
  | cancelRun =>
    cases h
    exact .rests (.cancelRun s) (futures_cancelRun s) (fun h => absurd rfl h)
      fun client => .inl (by rw [listeners_cancelRun])

/-! ## Requests to stop -/

theorem Gate.flags {i : Nat} {cue : Cue V} {deps : List String} (h : Gate env s i cue deps t)
    (j : Nat) : (t.tasks j).cancelRequested = (s.tasks j).cancelRequested := by
  cases h with
  | waits | sleeps | breaks | submits => exact cancelRequested_setPc s i j _
  | skips | aborts => exact cancelRequested_setPc _ i j _

theorem flags_submitAnswered (s : Execution V) (i : Nat) (cue : Cue V)
    (answer : Except ClientError (CommandId × CommandView)) (j : Nat) :
    ((s.submitAnswered i cue answer).tasks j).cancelRequested
      = (s.tasks j).cancelRequested := by
  match answer with
  | .error (.command _) | .error (.other _) | .ok (_, .terminal _) | .ok (_, .inProgress) =>
    exact cancelRequested_setPc _ i j _

theorem Rechecked.flags {i : Nat} {cue : Cue V} {c : CommandId} (h : Rechecked s i cue c t)
    (j : Nat) : (t.tasks j).cancelRequested = (s.tasks j).cancelRequested := by
  cases h with
  | breaks _ => exact cancelRequested_setPc s i j _
  | records hu _ | awaits hu => rw [← hu.tasks]; exact cancelRequested_setPc _ i j _

/-- Only `cancel()` of the run asks tasks to stop, and what was asked stays
asked; the tasks that are made are not asked. -/
theorem Moves.flags {l : ExecLabel} (h : Moves env s l t) (hl : l ≠ .cancelRun) (j : Nat) :
    (t.tasks j).cancelRequested = (s.tasks j).cancelRequested ∨
      s.phase.early = true ∧ (t.tasks j).cancelRequested = false := by
  cases h with
  | rests _ _ htasks _ => exact .inl (by rw [htasks hl])
  | delivers _ => exact .inl (by rw [(resolves_deliver s _).tasks])
  | resyncs _ => exact .inl (by rw [← (resolves_resync s).tasks]; rfl)
  | spawns early _ h =>
    rw [h.tasks j]
    split
    · exact .inr ⟨early, rfl⟩
    · exact .inl rfl
  | gate _ _ h => exact .inl (h.flags j)
  | resumes _ _ _ => exact .inl (cancelRequested_setPc _ _ _ _)
  | submitted _ _ => exact .inl (flags_submitAnswered ..)
  | rechecked _ _ => exact .inl ((rechecked_recheckAnswered ..).flags j)
  | cancelled _ _ => exact .inl (cancelRequested_setPc ..)

end Execution

end Fusion
