import Fusion.Core.RunEnd
import Fusion.Contracts.CueOrder
import Mathlib.Data.List.Find
import Mathlib.Logic.Relation

/-!
# CueOutcomes — what a run records of its Cues

A Cue task that finds a dependency over and not SUCCEEDED records SKIPPED and
names that dependency. `OutcomeInv` keeps, of every recorded outcome, which
of the two it is: the Cue was cleared by all its dependencies, or the first
one that did not succeed is the one it names. Along the dependencies the
outcomes of the cleared Cues then settle all the others, in whatever order
the tasks ran.
-/

namespace Fusion

open Transition

variable {V : Type}

/-- The run task is returning, or has returned. -/
def RunPhase.returning : RunPhase → Bool
  | closing .returned | ended .returned => true
  | _ => false

namespace Execution

variable {env : Env} {s t : Execution V}

/-! ## What a step records -/

/-- The detail of a Cue that was skipped for a dependency. -/
def unmet (dep : String) : String := s!"dependency '{dep}' did not succeed"

/-- What the task of position `i` may record, by where it is suspended. -/
inductive Verdict (s : Execution V) (i : Nat) (cue : Cue V) : CueOutcome → Prop
  | called (called : (s.tasks i).pc.called = true) (outcome : String) (detail : Option String) :
      Verdict s i cue ⟨cue.cueId, outcome, detail⟩
  /-- the last gates are those of the schedule, the lateness and the hold -/
  | cleared (deps : List String) (gate : (s.tasks i).pc.gate cue = some deps)
      (passed : ∀ d ∈ deps, s.succeeded d) (outcome : String) (detail : Option String) :
      Verdict s i cue ⟨cue.cueId, outcome, detail⟩
  | blocked (pre : List String) (dep : String) (rest : List String)
      (gate : (s.tasks i).pc.gate cue = some (pre ++ dep :: rest))
      (passed : ∀ d ∈ pre, s.succeeded d) (known : s.doneEvents.get dep = some true)
      (failed : s.succeeded dep = false) :
      Verdict s i cue ⟨cue.cueId, "SKIPPED", some (unmet dep)⟩

/-- What a step does to the outcomes and the events. -/
inductive Ruling (s t : Execution V) : Prop
  | none (outcomes : t.outcomes = s.outcomes) (doneEvents : t.doneEvents = s.doneEvents)
  | rules (i : Nat) (cue : Cue V) (o : CueOutcome) (cueAt : s.timeline.cues[i]? = some cue)
      (verdict : Verdict s i cue o) (outcomes : t.outcomes = s.outcomes.set cue.cueId o)
      (doneEvents : t.doneEvents = s.doneEvents.set cue.cueId true)

/-- A task all of whose dependencies succeeded records on its own account. -/
theorem Gate.ruling {i : Nat} {cue : Cue V} {deps : List String}
    (hat : s.timeline.cues[i]? = some cue) (hgate : (s.tasks i).pc.gate cue = some deps)
    (passed : ∀ d ∈ deps, s.succeeded d) (h : Gate env s i cue deps t) : Ruling s t := by
  cases h with
  | waits | sleeps | breaks | submits => exact .none rfl rfl
  | skips detail => exact .rules i cue _ hat (.cleared deps hgate passed _ _) rfl rfl
  | aborts detail message => exact .rules i cue _ hat (.cleared deps hgate passed _ _) rfl rfl

theorem waitDeps_ruling {i : Nat} {cue : Cue V} (hat : s.timeline.cues[i]? = some cue)
    (pre deps : List String) (hgate : (s.tasks i).pc.gate cue = some (pre ++ deps))
    (passed : ∀ d ∈ pre, s.succeeded d) : Ruling s (s.waitDeps env i cue deps) := by
  induction deps generalizing pre with
  | nil =>
    rw [List.append_nil] at hgate
    exact (schedule_gate s i cue passed).ruling hat hgate passed
  | cons dep rest ih =>
    simp only [waitDeps]
    split
    · exact .none rfl rfl
    · exact .none rfl rfl
    · rename_i hover
      cases hdep : s.succeeded dep with
      | true =>
        refine ih (pre ++ [dep]) (by simpa using hgate) ?_
        intro d hd
        rcases List.mem_append.mp hd with hd | hd
        · exact passed d hd
        · rw [List.mem_singleton] at hd
          exact hd ▸ hdep
      | false => exact .rules i cue _ hat (.blocked pre dep rest hgate passed hover hdep) rfl rfl

theorem runCue_ruling {i : Nat} {cue : Cue V} (hat : s.timeline.cues[i]? = some cue)
    (h : s.runCue env i cue = some t) : Ruling s t := by
  unfold runCue at h
  split at h
  · rename_i hpc
    cases h
    exact waitDeps_ruling hat [] _ (by rw [hpc]; rfl) (by simp)
  · rename_i dep rest hpc
    split at h <;> cases h
    exact waitDeps_ruling hat [] _ (by rw [hpc]; rfl) (by simp)
  · rename_i hpc
    cases h
    have hnone : ∀ d ∈ ([] : List String), s.succeeded d := by simp
    exact (schedule_gate s i cue hnone).ruling hat (by rw [hpc]; rfl) hnone
  · rename_i hpc
    split at h <;> cases h
    exact .rules i cue _ hat (.called (by rw [hpc]; rfl) _ _) rfl rfl
  · cases h

theorem submitAnswered_ruling {i : Nat} {cue : Cue V} (hat : s.timeline.cues[i]? = some cue)
    (hpc : (s.tasks i).pc = .submitting)
    (answer : Except ClientError (CommandId × CommandView)) :
    Ruling s (s.submitAnswered i cue answer) := by
  have hcalled : (s.tasks i).pc.called = true := by rw [hpc]; rfl
  match answer with
  | .error (.command _) | .ok (_, .terminal _) =>
    exact .rules i cue _ hat (.called hcalled _ _) rfl rfl
  | .error (.other _) | .ok (_, .inProgress) => exact .none rfl rfl

theorem Rechecked.ruling {i : Nat} {cue : Cue V} {c : CommandId} (h : Rechecked s i cue c t)
    (hat : s.timeline.cues[i]? = some cue) (hpc : (s.tasks i).pc = .rechecking c) :
    Ruling s t := by
  have hcalled : (s.tasks i).pc.called = true := by rw [hpc]; rfl
  cases h with
  | breaks message => exact .none rfl rfl
  | records hu outcome =>
    obtain ⟨_, rfl⟩ := hu
    exact .rules i cue _ hat (.called hcalled _ _) rfl rfl
  | awaits hu =>
    obtain ⟨_, rfl⟩ := hu
    exact .none rfl rfl

theorem Rests.ruling (h : Rests s t) : Ruling s t := .none h.outcomes h.doneEvents

theorem cue_ruling {i : Nat} (h : s.step env (.cue i) = some t) : Ruling s t := by
  obtain ⟨cue, hat, hrun⟩ := Option.bind_eq_some_iff.mp h
  exact runCue_ruling (cueAt_some hat).1 hrun

theorem step_ruling {l : ExecLabel} (h : s.step env l = some t) : Ruling s t := by
  cases step_moves h with
  | rests h _ _ _ => exact h.ruling
  | delivers _ => exact (Rests.deliver s _).ruling
  | resyncs _ => exact ((Rests.resync s).trans (.setListener _ _ _)).ruling
  | spawns _ _ h => exact .none h.outcomes h.doneEvents
  | gate _ _ _ => exact cue_ruling h
  | resumes _ _ _ => exact cue_ruling h
  | submitted hat hpc => exact submitAnswered_ruling (cueAt_some hat).1 hpc _
  | rechecked hat hpc => exact (rechecked_recheckAnswered ..).ruling (cueAt_some hat).1 hpc
  | cancelled _ _ => exact .none rfl rfl

/-! ## The invariant -/

/-- What the recorded outcome of the Cue of position `i` comes from. -/
inductive Settled (s : Execution V) (i : Nat) (cue : Cue V) (o : CueOutcome) : Prop
  | cleared (passed : ∀ d ∈ cue.dependsOn, s.succeeded d)
  | blocked (pre : List String) (dep : String) (rest : List String) (o' : CueOutcome)
      (split : cue.dependsOn = pre ++ dep :: rest) (passed : ∀ d ∈ pre, s.succeeded d)
      (recorded : s.outcomes.get dep = some o') (failed : o'.outcome ≠ "SUCCEEDED")
      (uncalled : i ∉ s.calls) (skipped : o = ⟨cue.cueId, "SKIPPED", some (unmet dep)⟩)

/-- **The outcome invariant.** -/
structure OutcomeInv (s : Execution V) : Prop where
  events : ∀ id, s.doneEvents.get id = some true → ∃ o, s.outcomes.get id = some o
  known : ∀ id o, s.outcomes.get id = some o →
    o.cueId = id ∧ ∃ cue ∈ s.timeline.cues, cue.cueId = id
  called : ∀ i cue, s.timeline.cues[i]? = some cue → i ∈ s.calls →
    ∀ d ∈ cue.dependsOn, s.succeeded d
  settled : ∀ i cue o, s.timeline.cues[i]? = some cue → s.outcomes.get cue.cueId = some o →
    Settled s i cue o

theorem succeeded_iff {dep : String} {o : CueOutcome} (h : s.outcomes.get dep = some o) :
    s.succeeded dep = true ↔ o.outcome = "SUCCEEDED" := by
  simp [succeeded, h]

/-- A Cue whose outcome is recorded is not called any more. -/
theorem GateInv.calls_of_recorded (hi : GateInv t) (h : CueStep env s t) {i : Nat} {cue : Cue V}
    {o : CueOutcome} (hcue : t.timeline.cues[i]? = some cue)
    (ho : t.outcomes.get cue.cueId = some o) (hcall : i ∈ t.calls) : i ∈ s.calls := by
  rcases h.called_before hcall with hcall | hpc
  · exact hcall
  · have hnone := (hi.passed i).unrecorded cue hcue (by rw [hpc]; rfl)
    rw [hnone] at ho
    cases ho

theorem Settled.keeps {i : Nat} {cue : Cue V} {o : CueOutcome} (h : Settled s i cue o)
    (keeps : Keeps s t) (calls : i ∈ t.calls → i ∈ s.calls) : Settled t i cue o := by
  cases h with
  | cleared passed => exact .cleared fun d hd => keeps.succeeded (passed d hd)
  | blocked pre dep rest o' split passed recorded failed uncalled skipped =>
    exact .blocked pre dep rest o' split (fun d hd => keeps.succeeded (passed d hd))
      (keeps dep o' recorded) failed (fun hcall => uncalled (calls hcall)) skipped

/-- What a task may record settles its Cue. -/
theorem Verdict.settled {i : Nat} {cue : Cue V} {o : CueOutcome} (hgate : GateInv s)
    (hi : OutcomeInv s) (hat : s.timeline.cues[i]? = some cue) (h : Verdict s i cue o) :
    Settled s i cue o := by
  cases h with
  | called hcalled outcome detail =>
    have hlive : (s.tasks i).pc.isEnded = false := by
      cases hpc : (s.tasks i).pc with
      | ended how => rw [hpc] at hcalled; cases hcalled
      | _ => rfl
    exact .cleared (hi.called i cue hat (((hgate.passed i).called hlive).mpr hcalled))
  | cleared deps gate passed outcome detail =>
    obtain ⟨pre, hdeps, hpre⟩ := (hgate.passed i).gate cue deps hat gate
    refine .cleared fun d hd => ?_
    rw [hdeps] at hd
    rcases List.mem_append.mp hd with hd | hd
    · exact hpre d hd
    · exact passed d hd
  | blocked pre dep rest gate passed known failed =>
    obtain ⟨pre', hdeps, hpre'⟩ := (hgate.passed i).gate cue _ hat gate
    obtain ⟨o', ho'⟩ := hi.events dep known
    obtain ⟨-, hcalled, hlive⟩ := gate_live gate
    refine .blocked (pre' ++ pre) dep rest o' (by rw [hdeps, List.append_assoc]) ?_ ho' ?_ ?_ rfl
    · intro d hd
      rcases List.mem_append.mp hd with hd | hd
      · exact hpre' d hd
      · exact passed d hd
    · intro hsucceeded
      rw [(succeeded_iff ho').mpr hsucceeded] at failed
      cases failed
    · rw [(hgate.passed i).called hlive, hcalled]
      nofun

theorem OutcomeInv.called_step (hgate : GateInv s) (hi : OutcomeInv s) (h : CueStep env s t)
    {i : Nat} {cue : Cue V} (hat : s.timeline.cues[i]? = some cue) (hcall : i ∈ t.calls) :
    ∀ d ∈ cue.dependsOn, s.succeeded d := by
  cases h with
  | rests h => exact hi.called i cue hat (calls_congr h.submitted ▸ hcall)
  | spawns _ _ h => exact hi.called i cue hat (calls_congr h.submitted ▸ hcall)
  | moves _ _ _ _ _ _ _ _ _ _ submitted =>
    exact hi.called i cue hat (calls_congr submitted ▸ hcall)
  | stops _ _ _ _ _ _ submitted => exact hi.called i cue hat (calls_congr submitted ▸ hcall)
  | records _ _ _ _ _ _ _ _ _ submitted =>
    exact hi.called i cue hat (calls_congr submitted ▸ hcall)
  | calls k cue' deps sessionId hat' hpc goes passed due late hold outcomes submitted =>
    rw [Execution.calls, submitted, List.map_append, List.mem_append] at hcall
    rcases hcall with hcall | hcall
    · exact hi.called i cue hat hcall
    · -- the Cue that is submitted in this step
      obtain rfl : i = k := by simpa using hcall
      obtain rfl : cue' = cue := Option.some.inj (hat'.symm.trans hat)
      obtain ⟨pre, hdeps, hpre⟩ := (hgate.passed i).gate cue' deps hat hpc
      intro d hd
      rw [hdeps] at hd
      rcases List.mem_append.mp hd with hd | hd
      · exact hpre d hd
      · exact passed d hd

theorem OutcomeInv.step (hgate : GateInv s) (hi : OutcomeInv s) (h : CueStep env s t)
    (hruling : Ruling s t) : OutcomeInv t := by
  have keeps := h.keeps hgate
  have hgate' := hgate.step h
  have hline := h.timeline
  have hcalled : ∀ i cue, t.timeline.cues[i]? = some cue → i ∈ t.calls →
      ∀ d ∈ cue.dependsOn, t.succeeded d := by
    intro i cue hcue hcall d hd
    rw [hline] at hcue
    exact keeps.succeeded (hi.called_step hgate h hcue hcall d hd)
  have hkept : ∀ i cue o, t.timeline.cues[i]? = some cue → t.outcomes.get cue.cueId = some o →
      Settled s i cue o → Settled t i cue o := by
    intro i cue o hcue ho hsettled
    exact hsettled.keeps keeps (hgate'.calls_of_recorded h hcue ho)
  cases hruling with
  | none outcomes doneEvents =>
    refine ⟨?_, ?_, hcalled, ?_⟩
    · rw [outcomes, doneEvents]
      exact hi.events
    · rw [outcomes, hline]
      exact hi.known
    · intro i cue o hcue ho
      refine hkept i cue o hcue ho (hi.settled i cue o ?_ ?_)
      · rw [← hline]
        exact hcue
      · rw [← outcomes]
        exact ho
  | rules k cue o hat verdict outcomes doneEvents =>
    refine ⟨?_, ?_, hcalled, ?_⟩
    · intro id hid
      rw [outcomes]
      by_cases hsame : cue.cueId = id
      · exact ⟨o, hsame ▸ Dict.get_set_self ..⟩
      · rw [doneEvents, Dict.get_set_ne _ _ hsame] at hid
        rw [Dict.get_set_ne _ _ hsame]
        exact hi.events id hid
    · intro id o' ho'
      rw [hline]
      by_cases hsame : cue.cueId = id
      · subst hsame
        rw [outcomes, Dict.get_set_self] at ho'
        cases ho'
        exact ⟨by cases verdict <;> rfl, cue, List.mem_of_getElem? hat, rfl⟩
      · rw [outcomes, Dict.get_set_ne _ _ hsame] at ho'
        exact hi.known id o' ho'
    · intro i cue' o' hcue' ho'
      have hcue : s.timeline.cues[i]? = some cue' := by rw [← hline]; exact hcue'
      refine hkept i cue' o' hcue' ho' ?_
      by_cases hik : i = k
      · subst hik
        obtain rfl : cue' = cue := Option.some.inj (hcue.symm.trans hat)
        rw [outcomes, Dict.get_set_self] at ho'
        cases ho'
        exact verdict.settled hgate hi hat
      · rw [outcomes, Dict.get_set_ne _ _ (hgate.id_ne hat hcue hik)] at ho'
        exact hi.settled i cue' o' hcue ho'

theorem OutcomeInv.init (timeline : Timeline V) (clients : List String) (runId : String) :
    OutcomeInv (init timeline clients runId) where
  events := by
    have hunset : ∀ (cues : List (Cue V)) (d : Dict String Bool), (∀ id, d.get id ≠ some true) →
        ∀ id, (cues.foldl (fun d cue => d.set cue.cueId false) d).get id ≠ some true := by
      intro cues
      induction cues with
      | nil => exact fun d hd => hd
      | cons cue cues ih =>
        intro d hd
        refine ih _ fun id => ?_
        show (d.set cue.cueId false).get id ≠ some true
        by_cases hsame : cue.cueId = id
        · rw [hsame, Dict.get_set_self]
          simp
        · rw [Dict.get_set_ne _ _ hsame]
          exact hd id
    intro id hid
    exact absurd hid (hunset timeline.cues .empty (by simp) id)
  known := by
    intro id o ho
    cases ho
  called := by
    intro i cue _ hcall
    cases hcall
  settled := by
    intro i cue o _ ho
    cases ho

/-! ## The end of a run -/

/-- **The invariant of the gathering future**, as to returns: it takes no
other end than a return for one, and no run returns before it. -/
structure GatherInv (s : Execution V) : Prop where
  noticed : s.gather = .pending → ∀ i, s.noticed i = true → (s.tasks i).pc = .ended .returned
  returned : s.gather = .done .returned →
    ∀ i < s.timeline.cues.length, (s.tasks i).pc = .ended .returned
  returning : s.phase.returning = true → s.gather = .done .returned

theorem Advance.returned {i : Nat} (hrun : RunInv s) (h : Advance s t i)
    (hpc : (s.tasks i).pc = .ended .returned) : (t.tasks i).pc = .ended .returned := by
  cases h with
  | same pc => exact pc.trans hpc
  | made early _ _ _ =>
    rw [(hrun.early early).2 i] at hpc
    cases hpc
  | goes was _ _ =>
    rw [hpc] at was
    cases was
  | ends _ was _ _ =>
    rw [hpc] at was
    cases was

/-- A run is returning only once the gathering future has returned. -/
theorem step_returning {l : ExecLabel} (h : s.step env l = some t)
    (ht : t.phase.returning = true) :
    s.phase.returning = true ∨ s.phase = .gathering ∧ s.gather = .done .returned := by
  cases l with
  | begin =>
    simp only [step] at h
    split at h <;> cases h
    cases hclients : s.clients with
    | nil =>
      rw [hclients] at ht
      cases ht
    | cons name rest =>
      rw [hclients] at ht
      cases ht
  | snapshot answer =>
    simp only [step] at h
    split at h
    · rename_i name rest hphase
      split at h
      · cases h
      · cases answer with
        | error message =>
          cases h
          cases ht
        | ok sequence =>
          cases h
          cases rest with
          | nil => cases ht
          | cons _ _ => cases ht
    · cases h
  | runCancelled =>
    simp only [step] at h
    split at h
    · split at h <;> cases h
      cases ht
    · split at h <;> cases h
      cases ht
    · cases h
  | gathered =>
    simp only [step] at h
    split at h <;> cases h
    rename_i how hphase hdone
    simp only [closeListeners] at ht
    split at ht
    · cases ht
    · cases how with
      | returned => exact .inr ⟨hphase, hdone⟩
      | raised message => cases ht
      | cancelled => cases ht
  | closed =>
    simp only [step] at h
    split at h
    · rename_i result hphase
      split at h <;> cases h
      split at ht
      · cases ht
      · rw [hphase]
        cases result with
        | returned => exact .inl rfl
        | raised message => cases ht
        | cancelled => cases ht
    · cases h
  | notice i =>
    simp only [step] at h
    split at h
    · split at h <;> cases h
      exact .inl ht
    · cases h
  | cancelRun =>
    cases h
    rw [phase_cancelRun] at ht
    exact .inl ht
  | cue i | submitAnswered i answer | recheckAnswered i answer | cueCancelled i
  | deliver client event | resync client | streamEnds client =>
    rw [(step_sameRun rfl h).phase] at ht
    exact .inl ht

theorem GatherInv.init (timeline : Timeline V) (clients : List String) (runId : String) :
    GatherInv (init timeline clients runId) where
  noticed := by
    intro _ i h
    cases h
  returned := by
    intro h
    cases h
  returning := by
    intro h
    cases h

theorem gather_cancelRun (s : Execution V) :
    s.cancelRun.gather = s.gather ∧ s.cancelRun.noticed = s.noticed ∧
      s.cancelRun.timeline = s.timeline ∧ ∀ i, (s.cancelRun.tasks i).pc = (s.tasks i).pc := by
  have hpc := (Rests.cancelRun s).pc
  refine ⟨?_, ?_, (Rests.cancelRun s).timeline, hpc⟩
  · unfold Execution.cancelRun
    split
    · rfl
    · split <;> rfl
    · rfl
  · unfold Execution.cancelRun
    split
    · rfl
    · split <;> rfl
    · rfl

theorem gather_notice_done {i : Nat} {how result : TaskEnd} (hdone : s.gather = .done result) :
    (s.notice i how).gather = .done result := by
  simp only [Execution.notice, gatherAfter, hdone]

theorem GatherInv.notice (hi : GatherInv s) {i : Nat} {how : TaskEnd}
    (hpc : (s.tasks i).pc = .ended how) : GatherInv (s.notice i how) := by
  cases hgather : s.gather with
  | done result =>
    have hdone : (s.notice i how).gather = .done result := gather_notice_done hgather
    constructor
    · intro h
      rw [hdone] at h
      cases h
    · intro h
      rw [hdone] at h
      cases h
      exact hi.returned hgather
    · intro h
      rw [hdone, ← hgather]
      exact hi.returning h
  | pending =>
    have hlate : (s.notice i how).phase.returning ≠ true := by
      intro h
      have hdone := hi.returning h
      rw [hgather] at hdone
      cases hdone
    by_cases hhow : how = .returned
    · subst hhow
      have hnoticed : ∀ j, (s.notice i .returned).noticed j = true →
          (s.tasks j).pc = .ended .returned := by
        intro j hj
        by_cases hji : j = i
        · rw [hji, hpc]
        · refine hi.noticed hgather j ?_
          rw [← hj]
          exact (Function.update_of_ne hji _ _).symm
      refine ⟨fun _ => hnoticed, ?_, fun h => absurd h hlate⟩
      intro h j hj
      simp only [Execution.notice, gatherAfter, hgather] at h
      split at h
      · rename_i hall
        exact hnoticed j (List.all_eq_true.mp hall j (List.mem_range.mpr hj))
      · cases h
    · -- the task did not return: nor does the future
      have hdone : (s.notice i how).gather = .done how := by
        simp only [Execution.notice, gatherAfter, hgather]
      constructor
      · intro h
        rw [hdone] at h
        cases h
      · intro h
        rw [hdone] at h
        exact absurd (GatherState.done.inj h) hhow
      · exact fun h => absurd h hlate

theorem GatherInv.beginGather (hrun : RunInv s) (hearly : s.phase.early = true) :
    GatherInv s.beginGather := by
  constructor
  · intro _ i h
    have hended := hrun.noticed i h
    rw [(hrun.early hearly).2 i] at hended
    cases hended
  · intro h i hlt
    have hfuture : s.beginGather.gather =
        if s.timeline.cues = [] then .done .returned else .pending := rfl
    rw [hfuture] at h
    split at h
    · rename_i hnil
      have hzero : s.beginGather.timeline.cues.length = 0 := by
        show s.timeline.cues.length = 0
        rw [hnil]
        rfl
      omega
    · cases h
  · intro h
    cases h

theorem GatherInv.step {l : ExecLabel} (hrun : RunInv s) (hi : GatherInv s)
    (h : s.step env l = some t) : GatherInv t := by
  cases hl : l.inner with
  | true =>
    have hsame := step_sameRun hl h
    have hadvance := (step_moves h).advance
    constructor
    · intro hgather i hnoticed
      rw [hsame.gather] at hgather
      rw [hsame.noticed] at hnoticed
      exact (hadvance i).returned hrun (hi.noticed hgather i hnoticed)
    · intro hgather i hlt
      rw [hsame.gather] at hgather
      rw [hsame.timeline] at hlt
      exact (hadvance i).returned hrun (hi.returned hgather i hlt)
    · rw [hsame.phase, hsame.gather]
      exact hi.returning
  | false =>
    have hreturned : t.phase.returning = true → s.gather = .done .returned := by
      intro hend
      rcases step_returning h hend with hs | ⟨-, hdone⟩
      · exact hi.returning hs
      · exact hdone
    cases step_runMoves hl h with
    | advances start afterSequences rest hearly _ =>
      cases rest with
      | nil =>
        have hs : RunInv { s with start, afterSequences } :=
          hrun.of_tasks rfl rfl rfl rfl rfl id hrun.late
        exact .beginGather hs hearly
      | cons _ _ => exact ⟨hi.noticed, hi.returned, fun h => by cases h⟩
    | stops result hearly => exact ⟨hi.noticed, hi.returned, hreturned⟩
    | notices hpc => exact hi.notice hpc
    | gathered result hphase hdone => exact ⟨hi.noticed, hi.returned, hreturned⟩
    | closed result' hphase => exact ⟨hi.noticed, hi.returned, hreturned⟩
    | cancels =>
      obtain ⟨hgather, hnoticed, hline, hpc⟩ := gather_cancelRun s
      constructor
      · rw [hgather, hnoticed]
        intro h i hi'
        rw [hpc]
        exact hi.noticed h i hi'
      · rw [hgather, hline]
        intro h i hlt
        rw [hpc]
        exact hi.returned h i hlt
      · rw [hgather, phase_cancelRun]
        exact hi.returning

/-! ## Along the dependencies -/

/-- The first dependency of a Cue that did not succeed. -/
def firstUnmet (s : Execution V) (cue : Cue V) : Option String :=
  cue.dependsOn.find? fun dep => !s.succeeded dep

theorem firstUnmet_none {cue : Cue V} :
    s.firstUnmet cue = none ↔ ∀ d ∈ cue.dependsOn, s.succeeded d := by
  simp [firstUnmet]

/-- A Cue was skipped for its first dependency that did not succeed. -/
structure SkippedFor (s : Execution V) (cue : Cue V) (dep : String) (o : CueOutcome) : Prop where
  first : s.firstUnmet cue = some dep
  recorded : ∃ o', s.outcomes.get dep = some o' ∧ o'.outcome ≠ "SUCCEEDED"
  skipped : o = ⟨cue.cueId, "SKIPPED", some (unmet dep)⟩

theorem Settled.skippedFor {i : Nat} {cue : Cue V} {o : CueOutcome} (h : Settled s i cue o)
    {dep : String} (hdep : dep ∈ cue.dependsOn) (hunmet : s.succeeded dep = false) :
    i ∉ s.calls ∧ ∃ dep', SkippedFor s cue dep' o := by
  cases h with
  | cleared passed =>
    rw [passed dep hdep] at hunmet
    cases hunmet
  | blocked pre dep' rest o' split passed recorded failed uncalled skipped =>
    refine ⟨uncalled, dep', ?_, ⟨o', recorded, failed⟩, skipped⟩
    have hno : s.succeeded dep' = false := by
      rw [← Bool.not_eq_true, succeeded_iff recorded]
      exact failed
    rw [firstUnmet, split, List.find?_append, List.find?_eq_none.mpr (by simpa using passed)]
    simp [hno]

/-- `id` is a Cue that depends on `dep`. -/
def Awaits (timeline : Timeline V) (dep id : String) : Prop :=
  ∃ cue ∈ timeline.cues, cue.cueId = id ∧ dep ∈ cue.dependsOn

/-- What depends on a Cue that did not succeed does not succeed either. -/
theorem OutcomeInv.unsucceeded (hi : OutcomeInv s) {dep id : String}
    (hawaits : Awaits s.timeline dep id) (hdep : s.succeeded dep = false) :
    s.succeeded id = false := by
  obtain ⟨cue, hcue, rfl, hmem⟩ := hawaits
  obtain ⟨i, hat⟩ := List.mem_iff_getElem?.mp hcue
  cases ho : s.outcomes.get cue.cueId with
  | none => simp [succeeded, ho]
  | some o =>
    obtain ⟨-, dep', hskipped⟩ := (hi.settled i cue o hat ho).skippedFor hmem hdep
    simp [succeeded, ho, hskipped.skipped]

theorem OutcomeInv.downstream (hi : OutcomeInv s) {up id : String}
    (hdown : Relation.ReflTransGen (Awaits s.timeline) up id) (hup : s.succeeded up = false) :
    s.succeeded id = false := by
  induction hdown with
  | refl => exact hup
  | tail _ hawaits ih => exact hi.unsucceeded hawaits ih

end Execution

namespace ClockedRun

open Execution

variable {s t : ClockedRun V}

/-- All there is to know of a run of this timeline. -/
structure Account (timeline : Timeline V) (s : ClockedRun V) : Prop where
  gating : Inv timeline s
  run : s.exec.RunInv
  gather : s.exec.GatherInv
  outcomes : s.exec.OutcomeInv

theorem Account.init {timeline : Timeline V} (hvalid : validateTimeline timeline = []) (now : ℚ)
    (clients : List String) (runId : String) :
    Account timeline (init now timeline clients runId) where
  gating := ⟨.init hvalid clients runId, rfl⟩
  run := .init timeline clients runId
  gather := .init timeline clients runId
  outcomes := .init timeline clients runId

theorem Account.step {timeline : Timeline V} {l : ClockedLabel} (hi : Account timeline s)
    (h : s.step l = some t) : Account timeline t := by
  have hgating := hi.gating.step h
  cases l with
  | advance dt =>
    simp only [ClockedRun.step] at h
    split at h <;> cases h
    exact ⟨hgating, hi.run, hi.gather, hi.outcomes⟩
  | exec label drift hold sessionIds =>
    simp only [ClockedRun.step] at h
    split at h
    · obtain ⟨exec, hexec, rfl⟩ := Option.map_eq_some_iff.mp h
      exact ⟨hgating, hi.run.step hexec, hi.gather.step hi.run hexec,
        hi.outcomes.step hi.gating.1 (step_moves hexec).cueStep (step_ruling hexec)⟩
    · cases h

theorem Account.reachable {timeline : Timeline V} (hvalid : validateTimeline timeline = [])
    {now : ℚ} {clients : List String} {runId : String}
    (h : Reachable ClockedRun.step (ClockedRun.init now timeline clients runId) s) :
    Account timeline s :=
  h.invariant (.init hvalid now clients runId) fun _ _ _ hi hs => hi.step hs

/-- A run that has returned has an outcome of each Cue. -/
theorem Account.recorded {timeline : Timeline V} (hi : Account timeline s)
    (hend : s.exec.phase = .ended .returned) {i : Nat} {cue : Cue V}
    (hat : timeline.cues[i]? = some cue) : ∃ o, s.exec.outcomes.get cue.cueId = some o := by
  have hat' : s.exec.timeline.cues[i]? = some cue := hi.gating.2 ▸ hat
  have hdone := hi.gather.returning (by rw [hend]; rfl)
  obtain ⟨hlt, -⟩ := List.getElem?_eq_some_iff.mp hat'
  exact (hi.gating.1.passed i).returned cue hat' (hi.gather.returned hdone i hlt)

/-- **A failure stops all that depends on it**, in every run of a valid
timeline and at every moment of it: while a Cue has not SUCCEEDED, no Cue
that depends on it, directly or through others, has been submitted, and what
is recorded of one is that it was skipped for its first dependency that did
not succeed. A run that returns has recorded it of each of them. -/
theorem failure_propagates {timeline : Timeline V} (hvalid : validateTimeline timeline = [])
    (now : ℚ) (clients : List String) (runId : String)
    (hs : Reachable ClockedRun.step (ClockedRun.init now timeline clients runId) s)
    {up : String} (hup : s.exec.succeeded up = false) {i : Nat} {cue : Cue V}
    (hat : timeline.cues[i]? = some cue)
    (hdown : Relation.TransGen (Awaits timeline) up cue.cueId) :
    i ∉ s.exec.calls ∧
    (∀ o, s.exec.outcomes.get cue.cueId = some o → ∃ dep, SkippedFor s.exec cue dep o) ∧
    (s.exec.phase = .ended .returned →
      ∃ o, s.exec.outcomes.get cue.cueId = some o ∧ ∃ dep, SkippedFor s.exec cue dep o) := by
  have hi := Account.reachable hvalid hs
  have hline : s.exec.timeline = timeline := hi.gating.2
  have hat' : s.exec.timeline.cues[i]? = some cue := hline ▸ hat
  obtain ⟨dep, hto, cue', hcue', hid, hdep⟩ := Relation.TransGen.tail'_iff.mp hdown
  have hunmet : s.exec.succeeded dep = false := hi.outcomes.downstream (hline ▸ hto) hup
  -- the Cue of that id is this one
  obtain ⟨j, hat''⟩ := List.mem_iff_getElem?.mp hcue'
  have hsame : cue' = cue := by
    by_contra hne
    have hij : j ≠ i := by
      rintro rfl
      exact hne (Option.some.inj (hat''.symm.trans hat))
    exact hi.gating.1.id_ne hat' (hline ▸ hat'') hij hid.symm
  subst hsame
  have hskipped : ∀ o, s.exec.outcomes.get cue'.cueId = some o →
      ∃ dep, SkippedFor s.exec cue' dep o := fun o ho =>
    ((hi.outcomes.settled i cue' o hat' ho).skippedFor hdep hunmet).2
  refine ⟨?_, hskipped, ?_⟩
  · intro hcall
    rw [hi.outcomes.called i cue' hat' hcall dep hdep] at hunmet
    cases hunmet
  · intro hend
    obtain ⟨o, ho⟩ := hi.recorded hend hat
    exact ⟨o, ho, hskipped o ho⟩

/-- Three Cues in a row, each after the one before it. -/
def row : Timeline Int :=
  let cue (cueId : String) (dependsOn : List String) : Cue Int :=
    ⟨cueId, 0, "motor", "motor01", "move", .empty, .acknowledged, dependsOn, .default⟩
  ⟨[cue "a" [], cue "b" ["a"], cue "c" ["b"]]⟩

/-- The first Cue of the row is refused by its Runtime: these tasks run, in
this order, and the run returns. -/
def refusedRow (tasks : List Nat) : List ClockedLabel :=
  let run (label : ExecLabel) : ClockedLabel :=
    .exec label 0 false (Dict.empty.set "motor" "cs1")
  [run .begin, run (.snapshot (.ok 0))] ++ tasks.map (fun i => run (.cue i)) ++
    [run (.submitAnswered 0 (.error (.command "TARGET_FAULTED"))), run (.cue 1), run (.cue 2),
      run (.notice 0), run (.notice 1), run (.notice 2), run .gathered,
      run (.streamEnds "motor"), run .closed]

/-- The last Cue of the row is skipped for the one before it. -/
theorem failure_propagates_row :
    ∃ s, Reachable ClockedRun.step (ClockedRun.init 0 row ["motor"] "run-1") s ∧
      2 ∉ s.exec.calls ∧ ∃ cue o, row.cues[2]? = some cue ∧
        s.exec.outcomes.get cue.cueId = some o ∧ ∃ dep, SkippedFor s.exec cue dep o := by
  have hvalid : validateTimeline row = [] := by decide +kernel
  obtain ⟨s, hs, hp⟩ := exec_test ClockedRun.step (ClockedRun.init 0 row ["motor"] "run-1")
    (refusedRow [0]) (fun s => s.exec.phase = .ended .returned ∧ s.exec.succeeded "a" = false)
    (by decide +kernel)
  obtain ⟨hend, hup⟩ := of_decide_eq_true hp
  have hab : Awaits row "a" "b" := ⟨_, .tail _ (.head _), rfl, by simp⟩
  have hbc : Awaits row "b" "c" := ⟨_, .tail _ (.tail _ (.head _)), rfl, by simp⟩
  have hdown : Relation.TransGen (Awaits row) "a" "c" := (Relation.TransGen.single hab).tail hbc
  obtain ⟨hno, -, hrecorded⟩ :=
    failure_propagates hvalid 0 ["motor"] "run-1" hs hup (i := 2) rfl hdown
  obtain ⟨o, ho, hskipped⟩ := hrecorded hend
  exact ⟨s, hs, hno, _, o, rfl, ho, hskipped⟩

/-- **The order of the tasks does not matter**: two runs of a valid timeline
that returned, under any clocks, clients and interleavings, have the same
outcomes throughout if they have the same outcome of each Cue whose
dependencies all succeeded. -/
theorem outcomes_agree {timeline : Timeline V} (hvalid : validateTimeline timeline = [])
    (now now' : ℚ) (clients clients' : List String) (runId runId' : String)
    (hs : Reachable ClockedRun.step (ClockedRun.init now timeline clients runId) s)
    (ht : Reachable ClockedRun.step (ClockedRun.init now' timeline clients' runId') t)
    (hends : s.exec.phase = .ended .returned) (hendt : t.exec.phase = .ended .returned)
    (own : ∀ cue ∈ timeline.cues, s.exec.firstUnmet cue = none →
      s.exec.outcomes.get cue.cueId = t.exec.outcomes.get cue.cueId) (id : String) :
    s.exec.outcomes.get id = t.exec.outcomes.get id := by
  have his := Account.reachable hvalid hs
  have hit := Account.reachable hvalid ht
  obtain ⟨hnodup, hknown, order, hperm, horder⟩ := (validateTimeline_exact timeline).mp hvalid
  have hranks : ∃ rank, Precedence.Ranked Cue.cueId Cue.dependsOn rank timeline.cues :=
    Precedence.InOrder.exists_ranked hperm hnodup horder
  obtain ⟨rank, hranked⟩ := hranks
  have hcues : ∀ cue ∈ timeline.cues,
      s.exec.outcomes.get cue.cueId = t.exec.outcomes.get cue.cueId := by
    refine hranked.induction hknown
      (P := fun id => s.exec.outcomes.get id = t.exec.outcomes.get id) ?_
    intro cue hcue hdeps
    have hfirst : s.exec.firstUnmet cue = t.exec.firstUnmet cue := by
      refine List.find?_congr fun dep hdep => ?_
      rw [succeeded, succeeded, hdeps dep hdep]
    cases hunmet : s.exec.firstUnmet cue with
    | none => exact own cue hcue hunmet
    | some dep =>
      obtain ⟨i, hat⟩ := List.mem_iff_getElem?.mp hcue
      have hats : s.exec.timeline.cues[i]? = some cue := his.gating.2 ▸ hat
      have hatt : t.exec.timeline.cues[i]? = some cue := hit.gating.2 ▸ hat
      have hdep : dep ∈ cue.dependsOn := List.mem_of_find?_eq_some hunmet
      have hno : s.exec.succeeded dep = false := by simpa using List.find?_some hunmet
      have hno' : t.exec.succeeded dep = false := by
        rw [succeeded, ← hdeps dep hdep]
        exact hno
      obtain ⟨o, ho⟩ := his.recorded hends hat
      obtain ⟨o', ho'⟩ := hit.recorded hendt hat
      obtain ⟨-, d, hskips⟩ := (his.outcomes.settled i cue o hats ho).skippedFor hdep hno
      obtain ⟨-, d', hskipt⟩ := (hit.outcomes.settled i cue o' hatt ho').skippedFor hdep hno'
      obtain rfl : d = d' :=
        Option.some.inj (hskips.first.symm.trans (hfirst.trans hskipt.first))
      rw [ho, ho', hskips.skipped, hskipt.skipped]
  by_cases hid : ∃ cue ∈ timeline.cues, cue.cueId = id
  · obtain ⟨cue, hcue, rfl⟩ := hid
    exact hcues cue hcue
  · -- no outcome is recorded under another id
    have unknown : ∀ {u : ClockedRun V}, Account timeline u → u.exec.outcomes.get id = none := by
      intro u hi
      cases ho : u.exec.outcomes.get id with
      | none => rfl
      | some o => exact absurd (hi.gating.2 ▸ (hi.outcomes.known id o ho).2) hid
    rw [unknown his, unknown hit]

/-- The row comes to the same outcomes when its tasks start in the other
order. -/
theorem outcomes_agree_row :
    ∃ s t, Reachable ClockedRun.step (ClockedRun.init 0 row ["motor"] "run-1") s ∧
      Reachable ClockedRun.step (ClockedRun.init 0 row ["motor"] "run-1") t ∧
      ∀ id, s.exec.outcomes.get id = t.exec.outcomes.get id := by
  have hvalid : validateTimeline row = [] := by decide +kernel
  let p (s : ClockedRun Int) : Bool := s.exec.phase = .ended .returned ∧
    s.exec.outcomes.get "a" = some ⟨"a", "FAILED", some "TARGET_FAULTED"⟩ ∧
    s.exec.succeeded "b" = false
  obtain ⟨s, hs, hps⟩ := exec_test ClockedRun.step (ClockedRun.init 0 row ["motor"] "run-1")
    (refusedRow [0]) p (by decide +kernel)
  obtain ⟨t, ht, hpt⟩ := exec_test ClockedRun.step (ClockedRun.init 0 row ["motor"] "run-1")
    (refusedRow [2, 1, 0]) p (by decide +kernel)
  obtain ⟨hends, has, hbs⟩ := of_decide_eq_true hps
  obtain ⟨hendt, hat, -⟩ := of_decide_eq_true hpt
  refine ⟨s, t, hs, ht, outcomes_agree hvalid 0 0 _ _ _ _ hs ht hends hendt ?_⟩
  intro cue hcue hunmet
  rcases List.mem_cons.mp hcue with rfl | hcue
  · rw [has, hat]
  · -- the others have an unmet dependency
    have hdeps := firstUnmet_none.mp hunmet
    rcases List.mem_cons.mp hcue with rfl | hcue
    · have ha := hdeps "a" (by simp)
      rw [succeeded, has] at ha
      cases ha
    · obtain rfl := List.mem_singleton.mp hcue
      rw [hdeps "b" (by simp)] at hbs
      cases hbs

end ClockedRun

end Fusion
