import Fusion.Apps.SchedulerSteps

/-!
# SchedulerConfig — no configuration change during a Show

The active revision moves in one step of the Scheduler only: an `apply` that
has its lock, in the Show state IDLE. The guard reads the state and the write
follows in the same stretch of the call, so no move of the Show comes
between them.
-/

namespace Fusion

open Transition

variable {V : Type}

namespace Scheduler

variable {s t : Scheduler V}

/-! ## The decision of an apply -/

/-- A rejected apply is the newest entry of the journal, and moved nothing. -/
structure Rejects (s t : Scheduler V) (record : ApplyRecord) : Prop where
  outcome : record.outcome = .rejected
  active : t.config.activeRevisionId = s.config.activeRevisionId
  journal : t.config.journal = (s.config.journal ++ [record]).drop
    ((s.config.journal ++ [record]).length - s.config.journalLimit)

/-- In any other state than IDLE the guard rejects, if the expected revision
did not. -/
theorem applyLocked_rejects (i : Nat) (call : ApplyCall) (hbusy : s.state ≠ .idle) :
    Rejects s (s.applyLocked i call).2 (s.applyLocked i call).1 := by
  obtain ⟨e, hguard⟩ : ∃ e, s.applyGuard = .error (.fusion e) := ⟨_, if_pos hbusy⟩
  obtain ⟨revisionId, expected, guarding⟩ := call
  simp only [applyLocked, ConfigService.applyLocked, hguard]
  cases expected with
  | none => exact ⟨rfl, rfl, rfl⟩
  | some expected =>
    by_cases hmet : some expected = s.config.activeRevisionId
    · simp only [if_pos hmet]
      exact ⟨rfl, rfl, rfl⟩
    · simp only [if_neg hmet]
      exact ⟨rfl, rfl, rfl⟩

/-- A decision is about the revision asked for, and touches nothing that is
staged. -/
theorem applyLocked_kept (s : Scheduler V) (i : Nat) (call : ApplyCall) :
    (s.applyLocked i call).1.revisionId = call.revisionId ∧
      (s.applyLocked i call).2.config.staged = s.config.staged ∧
      (s.applyLocked i call).2.config.journalLimit = s.config.journalLimit := by
  have hguarded : ∀ (config : ConfigService) (answer : Except Fault Unit),
      (config.applyGuarded s.now call.revisionId answer).1.revisionId = call.revisionId ∧
        (config.applyGuarded s.now call.revisionId answer).2.staged = config.staged ∧
        (config.applyGuarded s.now call.revisionId answer).2.journalLimit =
          config.journalLimit := by
    intro config answer
    match answer with
    | .ok () | .error (.fusion _) | .error (.other _) => exact ⟨rfl, rfl, rfl⟩
  obtain ⟨revisionId, expected, guarding⟩ := call
  simp only [applyLocked, ConfigService.applyLocked]
  cases expected with
  | none => exact hguarded _ _
  | some expected =>
    by_cases hmet : some expected = s.config.activeRevisionId
    · simp only [if_pos hmet]
      exact hguarded _ _
    · simp only [if_neg hmet]
      exact ⟨rfl, rfl, rfl⟩

/-! ## Every step -/

/-- What is staged stays staged. -/
structure Keeps (s t : Scheduler V) : Prop where
  staged : ∀ id revision, s.config.staged.get id = some revision →
    t.config.staged.get id = some revision
  journalLimit : t.config.journalLimit = s.config.journalLimit

theorem keeps_step {l : Label V} (h : s.step l = some t) : Keeps s t := by
  cases l with
  | stageConfig kind freshId =>
    simp only [step] at h
    split at h <;> cases h
    rename_i hfresh
    refine ⟨fun id revision hget => ?_, rfl⟩
    have hne : freshId ≠ id := by
      rintro rfl
      simp [hget] at hfresh
    exact (Dict.get_set_ne _ _ hne).trans hget
  | applyLocked i =>
    simp only [step] at h
    split at h
    · rename_i call _
      split at h <;> cases h
      obtain ⟨-, hstaged, hlimit⟩ := applyLocked_kept s i call
      exact ⟨fun id revision hget => hstaged ▸ hget, hlimit⟩
    · cases h
  | _ =>
    have hconfig := (step_stretch rfl h).config
    exact ⟨fun id revision hget => hconfig ▸ hget, by rw [hconfig]⟩

/-- The step moves the active revision only in IDLE; an apply that it decides
in another state is rejected, and so recorded. -/
structure IdleOnly (x : Step (Scheduler.step (V := V))) : Prop where
  moves : x.dst.config.activeRevisionId ≠ x.src.config.activeRevisionId →
    x.src.state = .idle ∧ x.dst.state = .idle
  rejects : ∀ i call, x.label = .applyLocked i → x.src.applies i = some call →
    x.src.state ≠ .idle → ∃ record, record.revisionId = call.revisionId ∧
      record.outcome = .rejected ∧ x.dst.config.journal.getLast? = some record

theorem moves_idle {l : Label V} (h : s.step l = some t)
    (hmoved : t.config.activeRevisionId ≠ s.config.activeRevisionId) :
    s.state = .idle ∧ t.state = .idle := by
  cases l with
  | stageConfig kind freshId =>
    simp only [step] at h
    split at h <;> cases h
    exact absurd rfl hmoved
  | applyLocked i =>
    simp only [step] at h
    split at h
    · split at h <;> cases h
      rename_i call _ _
      have hidle : s.state = .idle := by
        by_contra hbusy
        exact hmoved (applyLocked_rejects i call hbusy).active
      obtain ⟨hcontrol, -, -⟩ := applyLocked_frame s i call
      refine ⟨hidle, ?_⟩
      rw [state, hcontrol]
      exact hidle
    · cases h
  | _ => exact absurd (by rw [(step_stretch rfl h).config]) hmoved

theorem idleOnly_step (x : Step (Scheduler.step (V := V)))
    (hlimit : 0 < x.src.config.journalLimit) : IdleOnly x := by
  refine ⟨moves_idle x.fired, fun i call hl hcall hbusy => ?_⟩
  have hfired := x.fired
  simp only [hl, step, hcall] at hfired
  split at hfired
  · have hdst := (Option.some.inj hfired).symm
    obtain ⟨hrevision, -, -⟩ := applyLocked_kept x.src i call
    have hrejects := applyLocked_rejects i call hbusy
    refine ⟨_, hrevision, hrejects.outcome, ?_⟩
    rw [hdst, hrejects.journal, List.getLast?_drop, if_neg, List.getLast?_append]
    · rfl
    · simp only [List.length_append, List.length_singleton]
      omega
  · cases hfired

/-- **No configuration change during a Show**, and no staged revision is
lost: in every run, each step moves the active revision in IDLE only and
records as REJECTED what it decides in another state, and what was staged
before it is staged at the end. -/
theorem no_config_change_during_show (now : ℚ) (clients : List String) (actor : String)
    {xs : List (Step (Scheduler.step (V := V)))}
    (run : Run Scheduler.step (init now clients actor) xs s) :
    (∀ x ∈ xs, IdleOnly x) ∧ ∀ x ∈ xs, ∀ id revision,
      x.src.config.staged.get id = some revision →
        s.config.staged.get id = some revision := by
  have hlimit : ∀ s l t, 0 < s.config.journalLimit →
      Scheduler.step (V := V) s l = some t → 0 < t.config.journalLimit := by
    intro s l t hpos h
    rw [(keeps_step h).journalLimit]
    exact hpos
  refine ⟨fun x hx => ?_, fun x hx id revision => ?_⟩
  · exact idleOnly_step x ((run.src_reachable hx).invariant
      (I := fun s => 0 < s.config.journalLimit) (Nat.zero_lt_succ 49) hlimit)
  · have htrans : ∀ s t u : Scheduler V, Keeps s t → Keeps t u → Keeps s u := by
      intro s t u h h'
      exact ⟨fun id revision hget => h'.staged id revision (h.staged id revision hget),
        h'.journalLimit.trans h.journalLimit⟩
    have hkeeps := run.relates (I := fun _ => True) htrans (fun _ _ _ _ _ => trivial)
      (fun _ _ _ _ h => keeps_step h) trivial x hx
    exact hkeeps.staged id revision

/-- An apply is rejected while the Show is ARMED, and succeeds after the
Show. -/
theorem no_config_change_while_armed :
    ∃ xs s, Run (Scheduler.step (V := Int)) (init 0 [] "scheduler") xs s ∧
      s.config.activeRevisionId = some "rev1" ∧
      s.config.journal.map (·.outcome) = [.rejected, .succeeded] ∧ ∀ x ∈ xs, IdleOnly x := by
  obtain ⟨xs, s, run, -, hs⟩ := execWhile_test (fun _ _ => true) (Scheduler.step (V := Int))
    (init 0 [] "scheduler")
    [.loadTimeline ⟨[]⟩, .stageConfig "show" "rev1", .arm 0, .applyConfig 0 "rev1" none,
      .applyLocked 0, .start "run-1", .runBegins 0 0, .run 0 .gathered 0, .run 0 .closed 0,
      .applyConfig 1 "rev1" none, .applyLocked 1]
    (fun s => s.config.activeRevisionId = some "rev1" &&
      s.config.journal.map (·.outcome) = [.rejected, .succeeded]) (by decide +kernel)
  simp only [Bool.and_eq_true, decide_eq_true_eq] at hs
  exact ⟨xs, s, run, hs.1, hs.2, (no_config_change_during_show 0 [] "scheduler" run).1⟩

end Scheduler

end Fusion
