import Fusion.Core.TimelineSteps
import Mathlib.Tactic.Linarith

/-!
# CueGating — when a Cue is submitted

A Cue passes its gates at different suspension points: each dependency, the
schedule, the lateness and the hold. `GateInv` carries what a task has
passed up to the moment of its call of `submit_command`, by where the task
is suspended; the other tasks can only add outcomes.
-/

namespace Fusion

open Transition

variable {V : Type}

/-- The task has called `submit_command` and has not ended. -/
def CuePc.called : CuePc → Bool
  | submitting | rechecking _ | awaiting _ => true
  | _ => false

namespace Execution

variable {env : Env} {s t : Execution V}

/-- The positions of the Cues submitted so far, in order. -/
def calls (s : Execution V) : List Nat := s.submitted.map SubmitCall.index

theorem calls_congr (h : t.submitted = s.submitted) : t.calls = s.calls := by
  rw [calls, h, calls]

/-! ## A step, as far as gating goes -/

/-- Only the task of position `i` moved, to `pc`. -/
structure Goes (s t : Execution V) (i : Nat) (pc : CuePc) : Prop where
  timeline : t.timeline = s.timeline
  phase : t.phase = s.phase
  own : (t.tasks i).pc = pc
  others : ∀ j, j ≠ i → (t.tasks j).pc = (s.tasks j).pc

/-- What a step does to the Cue tasks, the outcomes and the calls. -/
inductive CueStep (env : Env) (s t : Execution V) : Prop
  | rests (rests : Rests s t)
  | spawns (early : s.phase.early = true) (gathering : t.phase = .gathering)
      (spawns : Spawns s t)
  | moves (i : Nat) (cue : Cue V) (pc : CuePc) (cueAt : s.timeline.cues[i]? = some cue)
      (live : (s.tasks i).pc.live = true) (goes : Goes s t i pc) (stays : pc.live = true)
      (called : pc.called = (s.tasks i).pc.called)
      (gate : ∀ rest, pc.gate cue = some rest → ∃ pre,
        (s.tasks i).pc.gate cue = some (pre ++ rest) ∧ ∀ d ∈ pre, s.succeeded d)
      (outcomes : t.outcomes = s.outcomes) (submitted : t.submitted = s.submitted)
  | calls (i : Nat) (cue : Cue V) (deps : List String) (sessionId : String)
      (cueAt : s.timeline.cues[i]? = some cue) (pc : (s.tasks i).pc.gate cue = some deps)
      (goes : Goes s t i .submitting) (passed : ∀ d ∈ deps, s.succeeded d)
      (due : s.deadline cue ≤ env.now)
      (late : (env.later - s.deadline cue) * 1000 ≤ cue.latePolicy.maxLatenessMs)
      (hold : env.hold = false) (outcomes : t.outcomes = s.outcomes)
      (submitted : t.submitted = s.submitted ++ [⟨i, cue.runtime, s.request cue sessionId⟩])
  | stops (i : Nat) (how : TaskEnd) (live : (s.tasks i).pc.live = true)
      (goes : Goes s t i (.ended how)) (broken : how ≠ .returned)
      (outcomes : t.outcomes = s.outcomes) (submitted : t.submitted = s.submitted)
  | records (i : Nat) (cue : Cue V) (o : CueOutcome) (how : TaskEnd)
      (cueAt : s.timeline.cues[i]? = some cue) (live : (s.tasks i).pc.live = true)
      (goes : Goes s t i (.ended how))
      (uncalled : (s.tasks i).pc.called = false → o.outcome = "SKIPPED" ∨ o.outcome = "FAILED")
      (outcomes : t.outcomes = s.outcomes.set cue.cueId o)
      (submitted : t.submitted = s.submitted)

theorem CueStep.timeline (h : CueStep env s t) : t.timeline = s.timeline := by
  cases h with
  | rests h => exact h.timeline
  | spawns _ _ h => exact h.timeline
  | moves _ _ _ _ _ goes _ _ _ _ _ => exact goes.timeline
  | calls _ _ _ _ _ _ goes _ _ _ _ _ _ => exact goes.timeline
  | stops _ _ _ goes _ _ _ => exact goes.timeline
  | records _ _ _ _ _ _ goes _ _ _ => exact goes.timeline

theorem goes_setPc (s : Execution V) (i : Nat) (pc : CuePc) : Goes s (s.setPc i pc) i pc :=
  ⟨rfl, rfl, pc_setPc_self s i pc, fun _ h => by rw [tasks_setPc_ne s pc h]⟩

/-- A task that records its outcome and ends, after its future may have been
resolved. -/
theorem goes_finish {u : Execution V} (h : Rests s u) (hphase : u.phase = s.phase) (i : Nat)
    (cue : Cue V) (outcome : String) (detail : Option String) (how : TaskEnd) :
    Goes s ((u.finish cue outcome detail).endCue i how) i (.ended how) :=
  ⟨h.timeline, hphase, pc_setPc_self _ i _, fun j hj =>
    (congrArg CueTask.pc (tasks_setPc_ne _ _ hj)).trans (h.pc j)⟩

theorem gate_live {cue : Cue V} {pc : CuePc} {deps : List String} (h : pc.gate cue = some deps) :
    pc.live = true ∧ pc.called = false ∧ pc.isEnded = false := by
  cases pc with
  | unborn | submitting | rechecking | awaiting | ended => cases h
  | created | waiting | sleeping => exact ⟨rfl, rfl, rfl⟩

theorem Gate.cueStep {i : Nat} {cue : Cue V} {deps : List String}
    (hat : s.timeline.cues[i]? = some cue) (hpc : (s.tasks i).pc.gate cue = some deps)
    (h : Gate env s i cue deps t) : CueStep env s t := by
  obtain ⟨hlive, hcalled, -⟩ := gate_live hpc
  cases h with
  | waits pre dep rest split passed =>
    refine .moves i cue _ hat hlive (goes_setPc s i _) rfl hcalled.symm ?_ rfl rfl
    intro rest' hrest
    cases hrest
    exact ⟨pre, split ▸ hpc, passed⟩
  | sleeps passed =>
    refine .moves i cue _ hat hlive (goes_setPc s i _) rfl hcalled.symm ?_ rfl rfl
    intro rest' hrest
    cases hrest
    exact ⟨deps, by simpa using hpc, passed⟩
  | skips detail =>
    exact .records i cue _ _ hat hlive (goes_finish (.refl s) rfl i cue _ _ _)
      (fun _ => .inl rfl) rfl rfl
  | aborts detail message =>
    exact .records i cue _ _ hat hlive (goes_finish (.refl s) rfl i cue _ _ _)
      (fun _ => .inr rfl) rfl rfl
  | breaks message => exact .stops i _ hlive (goes_setPc s i _) nofun rfl rfl
  | submits sessionId passed due late hold _ _ =>
    exact .calls i cue deps sessionId hat hpc { goes_setPc s i .submitting with timeline := rfl }
      passed due late hold rfl rfl

/-- A Cue task past its submission records what it is told, and ends. -/
theorem cueStep_records {u : Execution V} {i : Nat} {cue : Cue V}
    (hat : s.timeline.cues[i]? = some cue) (hlive : (s.tasks i).pc.live = true)
    (hcalled : (s.tasks i).pc.called = true) (h : Rests s u) (hphase : u.phase = s.phase)
    (outcome : String) (detail : Option String) :
    CueStep env s ((u.finish cue outcome detail).endCue i .returned) := by
  refine .records i cue ⟨cue.cueId, outcome, detail⟩ _ hat hlive
    (goes_finish h hphase i cue _ _ _) ?_ ?_ h.submitted
  · intro hnot
    rw [hcalled] at hnot
    cases hnot
  · show u.outcomes.set _ _ = s.outcomes.set _ _
    rw [h.outcomes]

theorem Resolves.phase {u : Execution V} (h : Resolves s u) : u.phase = s.phase := by
  obtain ⟨_, rfl⟩ := h
  rfl

theorem cueStep_submitted {i : Nat} {cue : Cue V} (hat : s.timeline.cues[i]? = some cue)
    (hpc : (s.tasks i).pc = .submitting) (answer : Except ClientError (CommandId × CommandView)) :
    CueStep env s (s.submitAnswered i cue answer) := by
  have hlive : (s.tasks i).pc.live = true := by rw [hpc]; rfl
  have hcalled : (s.tasks i).pc.called = true := by rw [hpc]; rfl
  have records : ∀ outcome detail,
      CueStep env s ((s.finish cue outcome detail).endCue i .returned) :=
    cueStep_records hat hlive hcalled (.refl s) rfl
  match answer with
  | .error (.command message) => exact records _ _
  | .error (.other message) => exact .stops i _ hlive (goes_setPc s i _) nofun rfl rfl
  | .ok (_, .terminal outcome) => exact records _ _
  | .ok (c, .inProgress) =>
    exact .moves i cue (.rechecking c) hat hlive
      { goes_setPc s i (.rechecking c) with timeline := rfl } rfl hcalled.symm nofun rfl rfl

theorem Rechecked.cueStep {i : Nat} {cue : Cue V} {c : CommandId} (h : Rechecked s i cue c t)
    (hat : s.timeline.cues[i]? = some cue) (hpc : (s.tasks i).pc = .rechecking c) :
    CueStep env s t := by
  have hlive : (s.tasks i).pc.live = true := by rw [hpc]; rfl
  have hcalled : (s.tasks i).pc.called = true := by rw [hpc]; rfl
  cases h with
  | breaks message => exact .stops i _ hlive (goes_setPc s i _) nofun rfl rfl
  | records hu outcome => exact cueStep_records hat hlive hcalled hu.rests hu.phase outcome none
  | @awaits u hu =>
    exact .moves i cue (.awaiting c) hat hlive
      ⟨hu.rests.timeline, hu.phase, pc_setPc_self u i _, fun j hj =>
        ((goes_setPc u i _).others j hj).trans (hu.rests.pc j)⟩
      rfl hcalled.symm nofun hu.rests.outcomes hu.rests.submitted

theorem Moves.cueStep {l : ExecLabel} (h : Moves env s l t) : CueStep env s t := by
  cases h with
  | rests h _ _ _ => exact .rests h
  | delivers _ => exact .rests (.deliver s _)
  | resyncs _ => exact .rests ((Rests.resync s).trans (.setListener _ _ _))
  | spawns early gathering h => exact .spawns early gathering h
  | gate hat hpc h => exact h.cueStep (cueAt_some hat).1 hpc
  | resumes hat hpc _ =>
    exact cueStep_records (cueAt_some hat).1 (by rw [hpc]; rfl) (by rw [hpc]; rfl) (.refl s) rfl _ _
  | submitted hat hpc => exact cueStep_submitted (cueAt_some hat).1 hpc _
  | rechecked hat hpc =>
    exact (rechecked_recheckAnswered ..).cueStep (cueAt_some hat).1 hpc
  | cancelled _ live => exact .stops _ _ live (goes_setPc s _ _) nofun rfl rfl

/-! ## The invariant -/

/-- What the task of position `i` has passed, by where it is suspended. -/
structure Passed (s : Execution V) (i : Nat) : Prop where
  called : (s.tasks i).pc.isEnded = false → (i ∈ s.calls ↔ (s.tasks i).pc.called = true)
  gate : ∀ cue rest, s.timeline.cues[i]? = some cue → (s.tasks i).pc.gate cue = some rest →
    ∃ pre, cue.dependsOn = pre ++ rest ∧ ∀ d ∈ pre, s.succeeded d
  unrecorded : ∀ cue, s.timeline.cues[i]? = some cue → (s.tasks i).pc.isEnded = false →
    s.outcomes.get cue.cueId = none
  returned : ∀ cue, s.timeline.cues[i]? = some cue → (s.tasks i).pc = .ended .returned →
    ∃ o, s.outcomes.get cue.cueId = some o
  uncalled : ∀ cue o, s.timeline.cues[i]? = some cue → i ∉ s.calls →
    s.outcomes.get cue.cueId = some o → o.outcome = "SKIPPED" ∨ o.outcome = "FAILED"

/-- **The gating invariant.** -/
structure GateInv (s : Execution V) : Prop where
  ids : (s.timeline.cues.map (·.cueId)).Nodup
  early : s.phase.early = true → ∀ i, (s.tasks i).pc = .unborn
  nodup : s.calls.Nodup
  passed : ∀ i, Passed s i

/-- Every recorded outcome is still there. -/
def Keeps (s t : Execution V) : Prop :=
  ∀ id o, s.outcomes.get id = some o → t.outcomes.get id = some o

theorem Keeps.succeeded (h : Keeps s t) {dep : String} (hdep : s.succeeded dep = true) :
    t.succeeded dep = true := by
  obtain ⟨o, ho, hout⟩ := Option.any_eq_true _ _ |>.mp hdep
  exact Option.any_eq_true _ _ |>.mpr ⟨o, h dep o ho, hout⟩

theorem Keeps.of_outcomes (h : t.outcomes = s.outcomes) : Keeps s t := by
  intro id o ho
  rw [h]
  exact ho

theorem live_not_ended {pc : CuePc} (h : pc.live = true) : pc.isEnded = false := by
  cases pc <;> first | rfl | cases h

/-- A step never changes a recorded outcome: a task that records has not
ended, so its Cue had none. -/
theorem CueStep.keeps (hi : GateInv s) (h : CueStep env s t) : Keeps s t := by
  cases h with
  | rests h => exact .of_outcomes h.outcomes
  | spawns _ _ h => exact .of_outcomes h.outcomes
  | moves _ _ _ _ _ _ _ _ _ outcomes _ => exact .of_outcomes outcomes
  | calls _ _ _ _ _ _ _ _ _ _ _ outcomes _ => exact .of_outcomes outcomes
  | stops _ _ _ _ _ outcomes _ => exact .of_outcomes outcomes
  | records i cue o how hat live _ _ outcomes _ =>
    intro id o' ho'
    have hnone := (hi.passed i).unrecorded cue hat (live_not_ended live)
    have hne : cue.cueId ≠ id := by
      rintro rfl
      rw [hnone] at ho'
      cases ho'
    rw [outcomes, Dict.get_set_ne _ _ hne]
    exact ho'

/-- Two positions hold Cues of different ids. -/
theorem GateInv.id_ne (hi : GateInv s) {i j : Nat} {cue cue' : Cue V}
    (hcue : s.timeline.cues[i]? = some cue) (hcue' : s.timeline.cues[j]? = some cue')
    (hne : j ≠ i) : cue.cueId ≠ cue'.cueId := by
  intro heq
  obtain ⟨hi', rfl⟩ := List.getElem?_eq_some_iff.mp hcue
  obtain ⟨hj', rfl⟩ := List.getElem?_eq_some_iff.mp hcue'
  have hlt : i < (s.timeline.cues.map (·.cueId)).length := by simpa using hi'
  have hlt' : j < (s.timeline.cues.map (·.cueId)).length := by simpa using hj'
  have hids : (s.timeline.cues.map (·.cueId))[j] = (s.timeline.cues.map (·.cueId))[i] := by
    simpa using heq.symm
  exact hne (hi.ids.getElem_inj_iff.mp hids)

/-- The frame of a step: what is known of a task that did not move, when the
others only added outcomes of their own Cues. -/
theorem Passed.frame {i : Nat} (h : Passed s i) (timeline : t.timeline = s.timeline)
    (pc : (t.tasks i).pc = (s.tasks i).pc) (calls : i ∈ t.calls ↔ i ∈ s.calls)
    (keeps : Keeps s t) (own : ∀ cue, s.timeline.cues[i]? = some cue →
      t.outcomes.get cue.cueId = s.outcomes.get cue.cueId) : Passed t i := by
  constructor
  · rw [pc, calls]
    exact h.called
  · intro cue rest hcue hgate
    rw [timeline] at hcue
    rw [pc] at hgate
    obtain ⟨pre, hdeps, hpre⟩ := h.gate cue rest hcue hgate
    exact ⟨pre, hdeps, fun d hd => keeps.succeeded (hpre d hd)⟩
  · intro cue hcue hlive
    rw [timeline] at hcue
    rw [pc] at hlive
    rw [own cue hcue]
    exact h.unrecorded cue hcue hlive
  · intro cue hcue hret
    rw [timeline] at hcue
    rw [pc] at hret
    rw [own cue hcue]
    exact h.returned cue hcue hret
  · intro cue o hcue hnot ho
    rw [timeline] at hcue
    rw [calls] at hnot
    rw [own cue hcue] at ho
    exact h.uncalled cue o hcue hnot ho

theorem GateInv.rests (hi : GateInv s) (h : Rests s t) : GateInv t where
  ids := by rw [h.timeline]; exact hi.ids
  early := fun he i => (h.pc i).trans (hi.early (h.early he) i)
  nodup := by rw [calls, h.submitted]; exact hi.nodup
  passed := fun i => (hi.passed i).frame h.timeline (h.pc i)
    (by rw [calls, calls, h.submitted]) (.of_outcomes h.outcomes) (fun _ _ => by rw [h.outcomes])

theorem GateInv.spawns (hi : GateInv s) (early : s.phase.early = true)
    (gathering : t.phase = .gathering) (h : Spawns s t) : GateInv t where
  ids := by rw [h.timeline]; exact hi.ids
  early := by rw [gathering]; nofun
  nodup := by rw [calls, h.submitted]; exact hi.nodup
  passed := by
    intro i
    have hpc := hi.early early i
    have hcalls : t.calls = s.calls := calls_congr h.submitted
    have hold := hi.passed i
    have hno : i ∉ s.calls := by
      intro hmem
      have := (hold.called (by rw [hpc]; rfl)).mp hmem
      rw [hpc] at this
      cases this
    by_cases hlt : i < s.timeline.cues.length
    · -- the task is made: nothing is passed yet
      have hnew : (t.tasks i).pc = .created := by rw [h.tasks i, if_pos hlt]
      constructor
      · intro _
        rw [hnew, hcalls]
        exact ⟨fun hmem => absurd hmem hno, nofun⟩
      · intro cue rest _ hgate
        rw [hnew] at hgate
        cases hgate
        exact ⟨[], rfl, by simp⟩
      · intro cue hcue _
        rw [h.timeline] at hcue
        rw [h.outcomes]
        exact hold.unrecorded cue hcue (by rw [hpc]; rfl)
      · intro cue _ hret
        rw [hnew] at hret
        cases hret
      · intro cue o hcue hnot ho
        rw [h.timeline] at hcue
        rw [h.outcomes] at ho
        exact hold.uncalled cue o hcue (hcalls ▸ hnot) ho
    · refine hold.frame h.timeline ?_ (by rw [hcalls]) (.of_outcomes h.outcomes)
        (fun _ _ => by rw [h.outcomes])
      rw [h.tasks i, if_neg hlt]

/-- A live task moves on and nothing is recorded: the tasks to look at are
the mover and, through their dependencies, those behind it. -/
theorem GateInv.goes (hi : GateInv s) {i : Nat} {pc : CuePc} (live : (s.tasks i).pc.live = true)
    (h : Goes s t i pc) (keeps : Keeps s t) (nodup : t.calls.Nodup)
    (calls : ∀ j, j ≠ i → (j ∈ t.calls ↔ j ∈ s.calls))
    (others : ∀ j cue, j ≠ i → s.timeline.cues[j]? = some cue →
      t.outcomes.get cue.cueId = s.outcomes.get cue.cueId)
    (own : Passed t i) : GateInv t where
  ids := by rw [h.timeline]; exact hi.ids
  early := by
    rw [h.phase]
    intro he
    rw [hi.early he i] at live
    cases live
  nodup := nodup
  passed := by
    intro j
    by_cases hj : j = i
    · exact hj ▸ own
    · exact (hi.passed j).frame h.timeline (h.others j hj) (calls j hj) keeps
        (fun cue hcue => others j cue hj hcue)

/-- Of a task that has ended only its outcome counts. -/
theorem Passed.of_ended {i : Nat} {how : TaskEnd} (own : (t.tasks i).pc = .ended how)
    (returned : ∀ cue, t.timeline.cues[i]? = some cue → how = .returned →
      ∃ o, t.outcomes.get cue.cueId = some o)
    (uncalled : ∀ cue o, t.timeline.cues[i]? = some cue → i ∉ t.calls →
      t.outcomes.get cue.cueId = some o → o.outcome = "SKIPPED" ∨ o.outcome = "FAILED") :
    Passed t i where
  called := by
    rw [own]
    nofun
  gate := by
    intro cue rest _ hgate
    rw [own] at hgate
    cases hgate
  unrecorded := by
    rw [own]
    nofun
  returned := by
    intro cue hcue hret
    rw [own] at hret
    exact returned cue hcue (CuePc.ended.inj hret)
  uncalled := uncalled

theorem GateInv.step (hi : GateInv s) (h : CueStep env s t) : GateInv t := by
  have keeps := h.keeps hi
  cases h with
  | rests h => exact hi.rests h
  | spawns early gathering h => exact hi.spawns early gathering h
  | moves i cue pc hat live goes stays called gate outcomes submitted =>
    have hcalls : t.calls = s.calls := calls_congr submitted
    have hold := hi.passed i
    refine hi.goes live goes keeps (hcalls ▸ hi.nodup) (fun _ _ => by rw [hcalls])
      (fun _ _ _ _ => by rw [outcomes]) ?_
    constructor
    · intro _
      rw [goes.own, hcalls, called]
      exact hold.called (live_not_ended live)
    · intro cue' rest hcue hgate
      rw [goes.timeline, hat] at hcue
      cases hcue
      rw [goes.own] at hgate
      -- what was passed before, then what the step passed
      obtain ⟨mid, hmid, hpassed⟩ := gate rest hgate
      obtain ⟨pre, hdeps, hpre⟩ := hold.gate cue _ hat hmid
      refine ⟨pre ++ mid, by rw [hdeps, List.append_assoc], ?_⟩
      intro d hd
      rcases List.mem_append.mp hd with hd | hd
      · exact keeps.succeeded (hpre d hd)
      · exact keeps.succeeded (hpassed d hd)
    · intro cue' hcue _
      rw [goes.timeline] at hcue
      rw [outcomes]
      exact hold.unrecorded cue' hcue (live_not_ended live)
    · intro cue' _ hret
      rw [goes.own] at hret
      rw [hret] at stays
      cases stays
    · intro cue' o hcue hnot ho
      rw [goes.timeline] at hcue
      rw [outcomes] at ho
      exact hold.uncalled cue' o hcue (hcalls ▸ hnot) ho
  | calls i cue deps sessionId hat hpc goes passed due late hold outcomes submitted =>
    obtain ⟨live, hcalled, hlive⟩ := gate_live hpc
    have hprev := hi.passed i
    have hcalls : t.calls = s.calls ++ [i] := by
      rw [Execution.calls, submitted]
      simp [Execution.calls]
    have hno : i ∉ s.calls := by
      rw [hprev.called hlive, hcalled]
      nofun
    refine hi.goes live goes keeps ?_ ?_ (fun _ _ _ _ => by rw [outcomes]) ?_
    · rw [hcalls]
      exact List.Nodup.append hi.nodup (by simp) (by simpa using hno)
    · intro j hj
      rw [hcalls]
      simp [hj]
    · constructor
      · intro _
        rw [goes.own, hcalls]
        simp [CuePc.called]
      · intro cue' rest _ hgate
        rw [goes.own] at hgate
        cases hgate
      · intro cue' hcue _
        rw [goes.timeline] at hcue
        rw [outcomes]
        exact hprev.unrecorded cue' hcue hlive
      · intro cue' _ hret
        rw [goes.own] at hret
        cases hret
      · intro cue' o _ hnot _
        rw [hcalls] at hnot
        simp at hnot
  | stops i how live goes broken outcomes submitted =>
    have hcalls : t.calls = s.calls := calls_congr submitted
    refine hi.goes live goes keeps (hcalls ▸ hi.nodup) (fun _ _ => by rw [hcalls])
      (fun _ _ _ _ => by rw [outcomes]) (.of_ended goes.own ?_ ?_)
    · exact fun _ _ hret => absurd hret broken
    · intro cue' o hcue hnot ho
      rw [goes.timeline] at hcue
      rw [outcomes] at ho
      exact (hi.passed i).uncalled cue' o hcue (hcalls ▸ hnot) ho
  | records i cue o how hat live goes huncalled outcomes submitted =>
    have hcalls : t.calls = s.calls := calls_congr submitted
    have hown : ∀ cue', t.timeline.cues[i]? = some cue' → cue' = cue := by
      intro cue' hcue
      rw [goes.timeline, hat] at hcue
      exact (Option.some.inj hcue).symm
    refine hi.goes live goes keeps (hcalls ▸ hi.nodup) (fun _ _ => by rw [hcalls]) ?_
      (.of_ended goes.own ?_ ?_)
    · intro j cue' hj hcue
      rw [outcomes, Dict.get_set_ne _ _ (hi.id_ne hat hcue hj)]
    · intro cue' hcue _
      rw [hown cue' hcue]
      exact ⟨o, by rw [outcomes, Dict.get_set_self]⟩
    · intro cue' o' hcue hnot ho
      rw [hown cue' hcue, outcomes, Dict.get_set_self] at ho
      cases ho
      refine huncalled ?_
      rw [hcalls, (hi.passed i).called (live_not_ended live)] at hnot
      simpa using hnot

/-- The Cue whose task a step runs. -/
def ExecLabel.mover : ExecLabel → Option Nat
  | cue i | submitAnswered i _ | recheckAnswered i _ | cueCancelled i => some i
  | _ => none

theorem Gate.others {i : Nat} {cue : Cue V} {deps : List String} (h : Gate env s i cue deps t) :
    t.futures = s.futures ∧ ∀ j, j ≠ i → t.tasks j = s.tasks j := by
  cases h with
  | waits | sleeps | breaks | submits => exact ⟨rfl, fun j hj => tasks_setPc_ne s _ hj⟩
  | skips | aborts => exact ⟨rfl, fun j hj => tasks_setPc_ne _ _ hj⟩

theorem tasks_submitAnswered_ne (s : Execution V) {i j : Nat} (cue : Cue V)
    (answer : Except ClientError (CommandId × CommandView)) (h : j ≠ i) :
    (s.submitAnswered i cue answer).tasks j = s.tasks j := by
  match answer with
  | .error (.command _) | .error (.other _) | .ok (_, .terminal _) | .ok (_, .inProgress) =>
    exact tasks_setPc_ne _ _ h

theorem Rechecked.tasks_ne {i j : Nat} {cue : Cue V} {c : CommandId}
    (h : Rechecked s i cue c t) (hj : j ≠ i) : t.tasks j = s.tasks j := by
  cases h with
  | breaks _ => exact tasks_setPc_ne s _ hj
  | records hu _ | awaits hu => rw [← hu.tasks]; exact tasks_setPc_ne _ _ hj

theorem Rechecked.clients {i : Nat} {cue : Cue V} {c : CommandId} (h : Rechecked s i cue c t) :
    t.clients = s.clients := by
  cases h with
  | breaks _ => rfl
  | records hu _ | awaits hu => exact hu.rests.clients

theorem Gate.clients {i : Nat} {cue : Cue V} {deps : List String} (h : Gate env s i cue deps t) :
    t.clients = s.clients := by
  cases h <;> rfl

theorem Moves.clients {l : ExecLabel} (h : Moves env s l t) : t.clients = s.clients := by
  cases h with
  | rests h _ _ _ => exact h.clients
  | delivers _ => exact (Rests.deliver s _).clients
  | resyncs _ => exact (Rests.resync s).clients
  | spawns _ _ h => exact h.clients
  | gate _ _ h => exact h.clients
  | resumes _ _ _ => rfl
  | @submitted i cue answer _ _ =>
    match answer with
    | .error (.command _) | .error (.other _) | .ok (_, .terminal _) | .ok (_, .inProgress) => rfl
  | rechecked _ _ => exact (rechecked_recheckAnswered ..).clients
  | cancelled _ _ => rfl

/-- A task stays where it is when another one runs, unless it is made. -/
theorem Moves.stays {l : ExecLabel} (h : Moves env s l t) {i : Nat} (hne : l.mover ≠ some i) :
    (t.tasks i).pc = (s.tasks i).pc ∨ (t.tasks i).pc = .created := by
  have other : ∀ {k : Nat}, some k ≠ some i → i ≠ k := fun hk he => hk (congrArg some he.symm)
  cases h with
  | rests h _ _ _ => exact .inl (h.pc i)
  | delivers _ => exact .inl ((Rests.deliver s _).pc i)
  | resyncs _ => exact .inl ((Rests.resync s).pc i)
  | spawns early _ h =>
    rw [h.tasks i]
    split
    · exact .inr rfl
    · exact .inl rfl
  | gate _ _ h => exact .inl (by rw [h.others.2 i (other hne)])
  | resumes _ _ _ => exact .inl (congrArg CueTask.pc (tasks_setPc_ne _ _ (other hne)))
  | submitted _ _ => exact .inl (by rw [tasks_submitAnswered_ne s _ _ (other hne)])
  | rechecked _ _ => exact .inl (by rw [(rechecked_recheckAnswered ..).tasks_ne (other hne)])
  | cancelled _ _ => exact .inl (by rw [endCue, tasks_setPc_ne s _ (other hne)])

/-- A call that was not there before has just been made. -/
theorem CueStep.called_before (h : CueStep env s t) {i : Nat} (hi : i ∈ t.calls) :
    i ∈ s.calls ∨ (t.tasks i).pc = .submitting := by
  cases h with
  | rests h => exact .inl (calls_congr h.submitted ▸ hi)
  | spawns _ _ h => exact .inl (calls_congr h.submitted ▸ hi)
  | moves _ _ _ _ _ _ _ _ _ _ submitted => exact .inl (calls_congr submitted ▸ hi)
  | stops _ _ _ _ _ _ submitted => exact .inl (calls_congr submitted ▸ hi)
  | records _ _ _ _ _ _ _ _ _ submitted => exact .inl (calls_congr submitted ▸ hi)
  | calls k cue deps sessionId _ _ goes _ _ _ _ _ submitted =>
    rw [Execution.calls, submitted, List.map_append, List.mem_append] at hi
    rcases hi with hi | hi
    · exact .inl hi
    · obtain rfl : i = k := by simpa using hi
      exact .inr goes.own

/-- Before a run nothing is called and nothing is recorded. -/
theorem Passed.init (timeline : Timeline V) (clients : List String) (runId : String) (i : Nat) :
    Passed (init timeline clients runId) i where
  called := by
    intro _
    apply iff_of_false
    · exact List.not_mem_nil
    · exact Bool.false_ne_true
  gate := by
    intro cue rest _ hgate
    cases hgate
  unrecorded := fun _ _ _ => rfl
  returned := by
    intro cue _ hpc
    cases hpc
  uncalled := by
    intro cue o _ _ ho
    cases ho

theorem GateInv.init {timeline : Timeline V} (h : validateTimeline timeline = [])
    (clients : List String) (runId : String) : GateInv (init timeline clients runId) where
  ids := nodup_of_valid h
  early := fun _ _ => rfl
  nodup := List.nodup_nil
  passed := Passed.init timeline clients runId

end Execution

/-! ## A run under a clock -/

/-- A run and the clock it reads, which never goes back: it moves between
the steps, and within a step from one reading to the next. -/
structure ClockedRun (V : Type) where
  now : ℚ
  exec : Execution V

/-- Time passes, or a task of the run goes on. -/
inductive ClockedLabel
  | advance (dt : ℚ)
  | exec (label : Execution.ExecLabel) (drift : ℚ) (hold : Bool) (sessionIds : Dict String String)

namespace ClockedRun

variable {s t : ClockedRun V}

/-- A run at its start, at the time `now`. -/
def init (now : ℚ) (timeline : Timeline V) (clients : List String) (runId : String) :
    ClockedRun V :=
  ⟨now, .init timeline clients runId⟩

/-- One stretch of a task, from one reading of the clock to the next. -/
def step (s : ClockedRun V) : ClockedLabel → Option (ClockedRun V)
  | .advance dt => if 0 ≤ dt then some { s with now := s.now + dt } else none
  | .exec label drift hold sessionIds =>
      if 0 ≤ drift then
        (s.exec.step ⟨s.now, s.now + drift, hold, sessionIds⟩ label).map fun exec =>
          ⟨s.now + drift, exec⟩
      else none

/-- What holds when a step calls `submit_command` for a Cue of the timeline:
it is the first call, the dependencies succeeded, the clock is in the window
of the Cue, and the hold flag is down. -/
structure Gated (timeline : Timeline V) (x : Step (step (V := V))) (call : SubmitCall V) :
    Prop where
  first : call.index ∉ x.src.exec.calls
  cue : ∃ cue, timeline.cues[call.index]? = some cue ∧
    (∀ dep ∈ cue.dependsOn, x.src.exec.succeeded dep) ∧
    x.src.exec.start + cue.atMs / 1000 ≤ x.dst.now ∧
    x.dst.now ≤ x.src.exec.start + (cue.atMs + cue.latePolicy.maxLatenessMs) / 1000
  hold : ∀ label drift hold sessionIds, x.label = .exec label drift hold sessionIds → hold = false

/-- A step is one of the executor under some reading of the clock, or leaves
it as it is. -/
theorem step_cases {l : ClockedLabel} (h : s.step l = some t) :
    t.exec = s.exec ∨ ∃ label drift hold sessionIds,
      l = .exec label drift hold sessionIds ∧ 0 ≤ drift ∧ t.now = s.now + drift ∧
      Execution.CueStep ⟨s.now, s.now + drift, hold, sessionIds⟩ s.exec t.exec := by
  cases l with
  | advance dt =>
    simp only [step] at h
    split at h <;> cases h
    exact .inl rfl
  | exec label drift hold sessionIds =>
    simp only [step] at h
    split at h
    · rename_i hdrift
      obtain ⟨exec, hexec, rfl⟩ := Option.map_eq_some_iff.mp h
      exact .inr ⟨_, _, _, _, rfl, hdrift, rfl, (Execution.step_moves hexec).cueStep⟩
    · cases h

/-- The gating invariant, of a run of this timeline. -/
def Inv (timeline : Timeline V) (s : ClockedRun V) : Prop :=
  s.exec.GateInv ∧ s.exec.timeline = timeline

theorem Inv.step {timeline : Timeline V} {l : ClockedLabel} (hi : Inv timeline s)
    (h : s.step l = some t) : Inv timeline t := by
  rcases step_cases h with hsame | ⟨_, _, _, _, -, -, -, hstep⟩
  · rw [Inv, hsame]
    exact hi
  · exact ⟨hi.1.step hstep, hstep.timeline.trans hi.2⟩

theorem Inv.keeps {timeline : Timeline V} {l : ClockedLabel} (hi : Inv timeline s)
    (h : s.step l = some t) : Execution.Keeps s.exec t.exec := by
  rcases step_cases h with hsame | ⟨_, _, _, _, -, -, -, hstep⟩
  · exact .of_outcomes (by rw [hsame])
  · exact hstep.keeps hi.1

/-- **The step law**: a step calls nothing, or makes one gated call. -/
theorem submitted_or_gated {timeline : Timeline V} (x : Step (step (V := V)))
    (hi : Inv timeline x.src) :
    x.dst.exec.submitted = x.src.exec.submitted ∨
      ∃ call, x.dst.exec.submitted = x.src.exec.submitted ++ [call] ∧ Gated timeline x call := by
  rcases step_cases x.fired with hsame | ⟨label, drift, hold, sessionIds, hl, hdrift, hnow, hstep⟩
  · exact .inl (by rw [hsame])
  cases hstep with
  | rests h => exact .inl h.submitted
  | spawns _ _ h => exact .inl h.submitted
  | moves _ _ _ _ _ _ _ _ _ _ submitted => exact .inl submitted
  | stops _ _ _ _ _ _ submitted => exact .inl submitted
  | records _ _ _ _ _ _ _ _ _ submitted => exact .inl submitted
  | calls i cue deps sessionId hat hpc goes passed due late hhold outcomes submitted =>
    refine .inr ⟨_, submitted, ?_, ⟨cue, hi.2 ▸ hat, ?_, ?_, ?_⟩, ?_⟩
    · show i ∉ x.src.exec.calls
      obtain ⟨-, hcalled, hlive⟩ := Execution.gate_live hpc
      rw [(hi.1.passed i).called hlive, hcalled]
      nofun
    · -- what the task passed before this step, then what it passed in it
      obtain ⟨pre, hdeps, hpre⟩ := (hi.1.passed i).gate cue deps hat hpc
      intro dep hdep
      rw [hdeps] at hdep
      rcases List.mem_append.mp hdep with hdep | hdep
      · exact hpre dep hdep
      · exact passed dep hdep
    · rw [hnow]
      exact due.trans (le_add_of_nonneg_right hdrift)
    · rw [hnow]
      simp only [Execution.deadline] at late
      linarith
    · intro label' drift' hold' sessionIds' hl'
      rw [hl] at hl'
      cases hl'
      exact hhold

/-- **Cue gating**, for every run of a valid timeline: each Cue is submitted
at most once; each call is gated; recorded outcomes never change; a Cue that
finishes without a call has the outcome SKIPPED or FAILED. -/
theorem cue_gating {timeline : Timeline V} (hvalid : validateTimeline timeline = [])
    (now : ℚ) (clients : List String) (runId : String) {xs : List (Step step)}
    (run : Run step (init now timeline clients runId) xs s) :
    s.exec.calls.Nodup ∧
    (∀ x ∈ xs, x.dst.exec.submitted = x.src.exec.submitted ∨
      ∃ call, x.dst.exec.submitted = x.src.exec.submitted ++ [call] ∧ Gated timeline x call) ∧
    (∀ x ∈ xs, ∀ id o, x.src.exec.outcomes.get id = some o → s.exec.outcomes.get id = some o) ∧
    (∀ i cue, timeline.cues[i]? = some cue → i ∉ s.exec.calls →
      ((s.exec.tasks i).pc = .ended .returned → ∃ o, s.exec.outcomes.get cue.cueId = some o) ∧
      ∀ o, s.exec.outcomes.get cue.cueId = some o →
        o.outcome = "SKIPPED" ∨ o.outcome = "FAILED") := by
  have h₀ : Inv timeline (init now timeline clients runId) := ⟨.init hvalid clients runId, rfl⟩
  have hinv : ∀ s l t, Inv timeline s → step s l = some t → Inv timeline t :=
    fun _ _ _ hi hs => hi.step hs
  have hi : Inv timeline s := run.reachable.invariant h₀ hinv
  refine ⟨hi.1.nodup, ?_, ?_, ?_⟩
  · intro x hx
    exact submitted_or_gated x ((run.src_reachable hx).invariant h₀ hinv)
  · exact run.relates (R := fun s t => Execution.Keeps s.exec t.exec)
      (fun _ _ _ h h' id o ho => h' id o (h id o ho)) hinv (fun _ _ _ hi hs => hi.keeps hs) h₀
  · intro i cue hcue hnot
    have hcue' : s.exec.timeline.cues[i]? = some cue := hi.2 ▸ hcue
    exact ⟨(hi.1.passed i).returned cue hcue', fun o => (hi.1.passed i).uncalled cue o hcue' hnot⟩

/-- Two Cues, the second after the first. -/
def chain : Timeline Int :=
  let cue (cueId : String) (atMs : Int) (dependsOn : List String) : Cue Int :=
    ⟨cueId, atMs, "motor", "motor01", "move", .empty, .acknowledged, dependsOn, .default⟩
  ⟨[cue "a" 0 [], cue "b" 10 ["a"]]⟩

/-- The second Cue waits for its dependency, then for its time, and is
submitted. -/
theorem cue_gating_chain :
    ∃ xs s, Run step (init 0 chain ["motor"] "run-1") xs s ∧ s.exec.calls = [0, 1] ∧
      ∀ x ∈ xs, x.dst.exec.submitted = x.src.exec.submitted ∨
        ∃ call, x.dst.exec.submitted = x.src.exec.submitted ++ [call] ∧ Gated chain x call := by
  have hvalid : validateTimeline chain = [] := by decide +kernel
  let sessions : Dict String String := Dict.empty.set "motor" "cs1"
  let run (label : Execution.ExecLabel) : ClockedLabel := .exec label 0 false sessions
  obtain ⟨xs, s, hrun, -, hs⟩ := execWhile_test (fun _ _ => true) step
    (init 0 chain ["motor"] "run-1")
    [run .begin, run (.snapshot (.ok 0)), run (.cue 1), run (.cue 0),
      run (.submitAnswered 0 (.ok ("c1", .terminal .succeeded))), run (.cue 1),
      .advance (1 / 50), run (.cue 1)]
    (fun s => s.exec.calls = [0, 1]) (by decide +kernel)
  exact ⟨xs, s, hrun, by simpa using hs, (cue_gating hvalid 0 ["motor"] "run-1" hrun).2.1⟩

end ClockedRun

end Fusion
