import Fusion.Core.NetworkSteps

/-!
# OutcomeAgreement — a Cue's outcome is its command's outcome

Whatever resolves a Cue, the response of its submission, the re-check or an
event, it is told the outcome of the Cue's own command; and when the re-check
has returned, the completion is either told by then or still to be read.
-/

namespace Fusion

open Transition

variable {V : Type}

namespace Execution

variable {env : Env} {s t : Execution V}

theorem called_live {pc : CuePc} (h : pc.called = true) :
    pc.live = true ∧ pc.isEnded = false := by
  cases pc <;> first | exact ⟨rfl, rfl⟩ | cases h

/-- A recorded outcome was there before, or its task records it now. -/
theorem CueStep.recorded (hi : GateInv s) (h : CueStep env s t) {j : Nat} {cue : Cue V}
    {o : CueOutcome} (hcue : s.timeline.cues[j]? = some cue) (hcalled : j ∈ t.calls)
    (ho : t.outcomes.get cue.cueId = some o) :
    j ∈ s.calls ∧ s.outcomes.get cue.cueId = some o ∨
      (s.tasks j).pc.called = true ∧ (t.tasks j).pc.isEnded = true := by
  cases h with
  | rests h =>
    rw [calls_congr h.submitted] at hcalled
    rw [h.outcomes] at ho
    exact .inl ⟨hcalled, ho⟩
  | spawns _ _ h =>
    rw [calls_congr h.submitted] at hcalled
    rw [h.outcomes] at ho
    exact .inl ⟨hcalled, ho⟩
  | moves _ _ _ _ _ _ _ _ _ outcomes submitted =>
    rw [calls_congr submitted] at hcalled
    rw [outcomes] at ho
    exact .inl ⟨hcalled, ho⟩
  | stops _ _ _ _ _ outcomes submitted =>
    rw [calls_congr submitted] at hcalled
    rw [outcomes] at ho
    exact .inl ⟨hcalled, ho⟩
  | calls i cue' deps sessionId hat hpc _ _ _ _ _ outcomes submitted =>
    rw [outcomes] at ho
    rw [Execution.calls, submitted, List.map_append, List.mem_append] at hcalled
    rcases hcalled with hcalled | hcalled
    · exact .inl ⟨hcalled, ho⟩
    · -- the Cue that is submitted now has no outcome
      obtain rfl : j = i := by simpa using hcalled
      rw [(hi.passed j).unrecorded cue hcue (gate_live hpc).2.2] at ho
      cases ho
  | records i cue' o' how hat live goes _ outcomes submitted =>
    rw [calls_congr submitted] at hcalled
    by_cases hj : j = i
    · subst hj
      right
      refine ⟨?_, by rw [goes.own]; rfl⟩
      exact ((hi.passed j).called (live_not_ended live)).mp hcalled
    · rw [outcomes, Dict.get_set_ne _ _ (hi.id_ne hat hcue hj)] at ho
      exact .inl ⟨hcalled, ho⟩

/-- A task whose future is resolved records what it was told. -/
theorem step_resumes {i : Nat} {cue : Cue V} {c : CommandId} {v : String}
    (hat : s.cueAt i = some cue) (hpc : (s.tasks i).pc = .awaiting c)
    (hfuture : s.futures i = some (.resolved v)) :
    s.step env (.cue i) = some ((s.finish cue v none).endCue i .returned) := by
  simp only [step, hat, Option.bind_some, runCue, hpc, hfuture]

end Execution

namespace TimelineNetwork

open Execution

variable {s t : TimelineNetwork V}

/-- The outcome is that of the accepted command. -/
def Justified (r : Remote) (rpc : Rpc) (v : String) : Prop :=
  ∃ c outcome, rpc.served = .accepted c ∧ r.commands c = some (.terminal outcome) ∧
    v = outcome.value

/-- Whatever the Cue was told is justified. -/
structure Agrees (exec : Execution V) (r : Remote) (rpc : Rpc) (i : Nat) (cue : Cue V) :
    Prop where
  future : ∀ v, exec.futures i = some (.resolved v) → Justified r rpc v
  outcome : ∀ o, i ∈ exec.calls → exec.outcomes.get cue.cueId = some o →
    rpc.served = .refused ∨ Justified r rpc o.outcome

section
variable {exec exec' : Execution V} {r r' : Remote} {rpc rpc' : Rpc} {i : Nat} {cue : Cue V}

theorem Justified.later {v : String} (h : Justified r rpc v) (hl : r.Later r')
    (hserved : rpc'.served = rpc.served) : Justified r' rpc' v := by
  obtain ⟨c, outcome, hc, hdone, hv⟩ := h
  exact ⟨c, outcome, hserved.trans hc, hl.finished c outcome hdone, hv⟩

theorem Agrees.later (h : Agrees exec r rpc i cue) (hl : r.Later r')
    (hserved : rpc'.served = rpc.served) : Agrees exec r' rpc' i cue where
  future := fun v hv => (h.future v hv).later hl hserved
  outcome := fun o hcalled ho =>
    (h.outcome o hcalled ho).imp (hserved.trans ·) (·.later hl hserved)

/-- Before the Runtime has served the request, the Cue was told nothing. -/
theorem Agrees.of_waiting (h : Agrees exec r rpc i cue) (hserved : rpc.served = .waiting) :
    Agrees exec r' rpc' i cue where
  future := fun v hv => by
    obtain ⟨c, _, hc, -⟩ := h.future v hv
    rw [hserved] at hc
    cases hc
  outcome := fun o hcalled ho => by
    rcases h.outcome o hcalled ho with href | ⟨c, _, hc, -⟩
    · rw [hserved] at href
      cases href
    · rw [hserved] at hc
      cases hc

/-- The view of the record of the accepted command justifies its outcome. -/
theorem justified_of_shows {c : CommandId} {outcome : CommandOutcome}
    (hserved : rpc.served = .accepted c) (h : Shows r c (.terminal outcome)) :
    Justified r rpc outcome.value :=
  ⟨c, outcome, hserved, h outcome rfl, rfl⟩

end

/-- What the listeners are told justifies the futures they resolve: a command
has one Runtime, and its completion is logged there. -/
theorem deliver_justified (hi : NetInv s) {client : String} {event : WireEvent}
    (hevent : event ∈ (s.remote client).log) {i : Nat} {cue : Cue V}
    (hcue : s.exec.timeline.cues[i]? = some cue) {v : String}
    (hv : (s.exec.deliver event).futures i = some (.resolved v)) :
    s.exec.futures i = some (.resolved v) ∨ Justified (s.remote cue.runtime) (s.rpcs i) v := by
  cases event with
  | other => exact .inl hv
  | completed c outcome =>
    simp only [deliver] at hv
    cases hpending : s.exec.pending.get c with
    | none =>
      rw [hpending] at hv
      exact .inl hv
    | some k =>
      rw [hpending] at hv
      rcases futures_resolve s.exec k outcome.value i with heq | ⟨rfl, -, heq⟩
      · exact .inl (heq ▸ hv)
      · right
        obtain rfl : v = outcome.value := by
          rw [heq] at hv
          cases hv
          rfl
        have htracked := hi.tracked i cue hcue
        have hserved := htracked.pending c hpending
        have hdone := (hi.remotes _ c outcome).mp hevent
        -- the two Runtimes made the same command: they are one
        have hsame : s.host client = s.host cue.runtime := by
          have h₁ := hi.made (s.host client) c (by rw [hdone]; intro h; cases h)
          have h₂ := hi.made (s.host cue.runtime) c (htracked.known c hserved)
          exact Option.some.inj (h₁.symm.trans h₂)
        refine ⟨c, outcome, hserved, ?_, rfl⟩
        rw [remote, ← hsame]
        exact hdone

/-- A future that is resolved after a step was resolved before, or is
justified. -/
theorem future_justified (hi : NetInv s) {env : Env} {label : ExecLabel} {exec : Execution V}
    (hoffers : s.offers label = true) (h : s.exec.step env label = some exec)
    (hstream : ∀ client, label ≠ .resync client) {i : Nat} {cue : Cue V}
    (hcue : s.exec.timeline.cues[i]? = some cue) {v : String}
    (hv : exec.futures i = some (.resolved v)) :
    s.exec.futures i = some (.resolved v) ∨ Justified (s.remote cue.runtime) (s.rpcs i) v := by
  cases Execution.step_moves h with
  | rests _ hfutures _ _ => exact .inl (hfutures ▸ hv)
  | delivers _ =>
    simp only [offers, decide_eq_true_eq] at hoffers
    exact deliver_justified hi (List.mem_of_getElem? hoffers) hcue hv
  | resyncs _ => exact absurd rfl (hstream _)
  | spawns _ _ h => exact .inl (h.futures ▸ hv)
  | gate _ _ h => exact .inl (h.others.1 ▸ hv)
  | resumes _ _ _ => exact .inl hv
  | cancelled _ _ => exact .inl hv
  | @submitted k _ answer hat hpc =>
    cases answer with
    | error failure => cases failure <;> exact .inl hv
    | ok made =>
      obtain ⟨c, view⟩ := made
      cases view with
      | terminal outcome => exact .inl hv
      | inProgress =>
        have hv : Function.update s.exec.futures k (some .pending) i = some (.resolved v) := hv
        by_cases hk : i = k
        · subst hk
          rw [Function.update_self] at hv
          cases hv
        · exact .inl (by rwa [Function.update_of_ne hk] at hv)
  | @rechecked k cue' c answer hat hpc =>
    cases answer with
    | error _ => exact .inl hv
    | ok view =>
      rw [futures_rechecked] at hv
      cases view with
      | inProgress => exact .inl hv
      | terminal outcome =>
        rcases futures_resolve s.exec k outcome.value i with heq | ⟨rfl, -, heq⟩
        · exact .inl (heq ▸ hv)
        · right
          simp only [offers, decide_eq_true_eq] at hoffers
          obtain ⟨c', hserved, hshows⟩ := (hi.tracked i cue hcue).recorded _ hoffers
          obtain rfl : v = outcome.value := by
            simpa [heq, eq_comm] using hv
          exact justified_of_shows hserved hshows

/-- The outcome that a task past its submission records is the one it was
told. -/
theorem outcome_justified (hi : NetInv s) {env : Env} {label : ExecLabel} {exec : Execution V}
    (hoffers : s.offers label = true) (h : s.exec.step env label = some exec)
    {i : Nat} {cue : Cue V} (hcue : s.exec.timeline.cues[i]? = some cue)
    (hfuture : ∀ c v, (s.exec.tasks i).pc.waitsFor c → (s.exec.tasks i).cancelRequested = false →
      exec.futures i = some (.resolved v) → Justified (s.remote cue.runtime) (s.rpcs i) v)
    (hcalled : (s.exec.tasks i).pc.called = true) (hended : (exec.tasks i).pc.isEnded = true)
    {o : CueOutcome} (ho : exec.outcomes.get cue.cueId = some o) :
    (s.rpcs i).served = .refused ∧ o.outcome = "FAILED" ∨
      Justified (s.remote cue.runtime) (s.rpcs i) o.outcome := by
  have htracked := hi.tracked i cue hcue
  have hnone := (hi.gate.passed i).unrecorded cue hcue (called_live hcalled).2
  have hmoves := Execution.step_moves h
  -- only the task's own step can have ended it
  have hmover : label.mover = some i := by
    by_contra hne
    rcases hmoves.stays hne with hpc | hpc
    · rw [hpc, (called_live hcalled).2] at hended
      cases hended
    · rw [hpc] at hended
      cases hended
  have hcueAt : ∀ {cue'}, s.exec.cueAt i = some cue' → cue = cue' :=
    fun hat => Option.some.inj (hcue.symm.trans (cueAt_some hat).1)
  cases hmoves with
  | rests hr _ _ _ =>
    rw [hr.pc i, (called_live hcalled).2] at hended
    cases hended
  | delivers _ => cases hmover
  | resyncs _ => cases hmover
  | spawns early _ _ =>
    rw [hi.gate.early early i] at hcalled
    cases hcalled
  | gate hat hpc _ =>
    cases hmover
    rw [(gate_live hpc).2.1] at hcalled
    cases hcalled
  | cancelled _ _ =>
    have ho : s.exec.outcomes.get cue.cueId = some o := ho
    rw [hnone] at ho
    cases ho
  | resumes hat hpc hf =>
    cases hmover
    obtain rfl := hcueAt hat
    obtain rfl := Option.some.inj ((Dict.get_set_self _ _ _).symm.trans ho)
    exact .inr (hfuture _ _ (.inr hpc) (cueAt_some hat).2 hf)
  | @submitted k cue' answer hat hpc =>
    cases hmover
    obtain rfl := hcueAt hat
    simp only [offers, decide_eq_true_eq] at hoffers
    cases answer with
    | error failure =>
      cases failure with
      | command message =>
        obtain rfl := Option.some.inj ((Dict.get_set_self _ _ _).symm.trans ho)
        exact .inl ⟨htracked.refused message hoffers, rfl⟩
      | other message =>
        have ho : s.exec.outcomes.get cue.cueId = some o := ho
        rw [hnone] at ho
        cases ho
    | ok made =>
      obtain ⟨c, view⟩ := made
      cases view with
      | terminal outcome =>
        obtain ⟨hserved, hshows⟩ := htracked.answered c _ hoffers
        obtain rfl := Option.some.inj ((Dict.get_set_self _ _ _).symm.trans ho)
        exact .inr (justified_of_shows hserved hshows)
      | inProgress =>
        have ho : s.exec.outcomes.get cue.cueId = some o := ho
        rw [hnone] at ho
        cases ho
  | @rechecked k cue' c answer hat hpc =>
    cases hmover
    obtain rfl := hcueAt hat
    cases answer with
    | error message =>
      have ho : s.exec.outcomes.get cue.cueId = some o := ho
      rw [hnone] at ho
      cases ho
    | ok view =>
      obtain ⟨u, hu, -, -, -, -, hfutures, heq⟩ := recheckAnswered_ok s.exec i cue c view
      rw [hfutures] at hfuture
      rw [heq, lookAtFuture] at ho
      split at ho
      · rename_i outcome hf
        obtain rfl := Option.some.inj ((Dict.get_set_self _ _ _).symm.trans ho)
        exact .inr (hfuture _ _ (.inl hpc) (cueAt_some hat).2 hf)
      · have ho : u.outcomes.get cue.cueId = some o := ho
        rw [hu.outcomes, hnone] at ho
        cases ho

/-! ## The invariant -/

/-- **Agreement**, of every Cue. -/
def AgreeInv (s : TimelineNetwork V) : Prop :=
  NetInv s ∧ ∀ i cue, s.exec.timeline.cues[i]? = some cue →
    Agrees s.exec (s.remote cue.runtime) (s.rpcs i) i cue

/-- The requests of one Cue change: it agrees, or was told nothing. -/
theorem agrees_setRpc {i : Nat} {rpc : Rpc}
    (h : ∀ j cue, s.exec.timeline.cues[j]? = some cue →
      Agrees s.exec (s.remote cue.runtime) (s.rpcs j) j cue)
    (hserved : (s.rpcs i).served = .waiting ∨ rpc.served = (s.rpcs i).served) :
    ∀ j cue, (s.setRpc i rpc).exec.timeline.cues[j]? = some cue →
      Agrees (s.setRpc i rpc).exec ((s.setRpc i rpc).remote cue.runtime)
        ((s.setRpc i rpc).rpcs j) j cue := by
  intro j cue hcue
  show Agrees s.exec (s.remote cue.runtime) (Function.update s.rpcs i rpc j) j cue
  by_cases hj : j = i
  · subst hj
    rw [Function.update_self]
    rcases hserved with hwaiting | hsame
    · exact (h j cue hcue).of_waiting hwaiting
    · exact (h j cue hcue).later (.refl _) hsame
  · rw [Function.update_of_ne hj]
    exact h j cue hcue

theorem AgreeInv.step (hi : AgreeInv s) {l : NetLabel} (h : s.step l = some t)
    (hstream : ∀ env client, l ≠ .exec env (.resync client)) : AgreeInv t := by
  refine ⟨hi.1.step h, ?_⟩
  have hevolves : ∀ {u : TimelineNetwork V} {name l}, s.evolve name l = some u →
      ∀ j cue, u.exec.timeline.cues[j]? = some cue →
        Agrees u.exec (u.remote cue.runtime) (u.rpcs j) j cue := by
    intro u name l hu j cue hcue
    obtain ⟨r, made, hr, rfl, -, -⟩ := evolve_cases hu
    exact (hi.2 j cue hcue).later (later_evolve hr _) rfl
  cases step_netMoves h with
  | @exec env label exec hoffers hexec =>
    have hcueStep := (Execution.step_moves hexec).cueStep
    intro i cue hcue
    rw [hcueStep.timeline] at hcue
    have hold := hi.2 i cue hcue
    have hfuture : ∀ v, exec.futures i = some (.resolved v) →
        Justified (s.remote cue.runtime) (s.rpcs i) v := by
      intro v hv
      have hlabel : ∀ client, label ≠ .resync client := by
        rintro client rfl
        exact hstream env client rfl
      exact (future_justified hi.1 hoffers hexec hlabel hcue hv).elim (hold.future v) id
    refine ⟨hfuture, ?_⟩
    intro o hcalled ho
    rcases hcueStep.recorded hi.1.gate hcue hcalled ho with ⟨hbefore, ho'⟩ | ⟨hpc, hended⟩
    · exact hold.outcome o hbefore ho'
    · exact (outcome_justified hi.1 hoffers hexec hcue (fun _ v _ _ => hfuture v) hpc hended
        ho).imp_left And.left
  | accept hcue hcalled hserved hu =>
    refine agrees_setRpc (hevolves hu) (.inl ?_)
    obtain ⟨r, made, -, rfl, -, -⟩ := evolve_cases hu
    exact hserved
  | refuse hcalled hserved => exact agrees_setRpc hi.2 (.inl hserved)
  -- what the Runtime did about the Cue stays
  | respond => exact agrees_setRpc hi.2 (.inr rfl)
  | lose => exact agrees_setRpc hi.2 (.inr rfl)
  | readRecord => exact agrees_setRpc hi.2 (.inr rfl)
  | loseRecord => exact agrees_setRpc hi.2 (.inr rfl)
  | remote h => exact hevolves h

theorem AgreeInv.init {timeline : Timeline V} (h : validateTimeline timeline = [])
    (clients : List String) (runId : String) (host : String → String) :
    AgreeInv (init timeline clients runId host) :=
  ⟨.init h clients runId host, fun _ _ _ => ⟨nofun, nofun⟩⟩

/-- A parked task whose completion its listener has received has its future
resolved. -/
theorem resolved_of_delivered (hi : AgreeInv s) {i : Nat} {cue : Cue V} {c : CommandId}
    {outcome : CommandOutcome} (hcue : s.exec.timeline.cues[i]? = some cue)
    (hpc : (s.exec.tasks i).pc = .awaiting c)
    (hdone : (s.remote cue.runtime).commands c = some (.terminal outcome))
    (hdelivered : .completed c outcome ∈
      (s.remote cue.runtime).log.take (s.delivered cue.runtime)) :
    s.exec.futures i = some (.resolved outcome.value) := by
  obtain ⟨hserved, -, hfuture⟩ := (hi.1.tracked i cue hcue).registered c (.inr hpc)
  cases hf : s.exec.futures i with
  | none => exact absurd hf hfuture
  | some f =>
    cases f with
    | pending => exact absurd hdelivered (hi.1.unread i cue hcue c (.inl hpc) hf outcome)
    | resolved v =>
      obtain ⟨c', outcome', hserved', hdone', rfl⟩ := (hi.2 i cue hcue).future v hf
      rw [hserved] at hserved'
      cases hserved'
      rw [hdone] at hdone'
      cases hdone'
      rfl

/-- **Outcome agreement**, for every run in which no listener is told to
resync: the outcome of a Cue whose command `c` was accepted is the final
outcome of `c`, which is no other Cue's command; and once the re-check has
returned and the completion of `c` was received, the task has its outcome, or
takes it at its next step. -/
theorem outcome_agreement {timeline : Timeline V} (hvalid : validateTimeline timeline = [])
    (clients : List String) (runId : String) (host : String → String)
    {xs : List (Step TimelineNetwork.step)}
    (run : Run TimelineNetwork.step (TimelineNetwork.init timeline clients runId host) xs s)
    (hstream : ∀ x ∈ xs, ∀ env client, x.label ≠ .exec env (.resync client)) :
    ∀ i cue c, s.exec.timeline.cues[i]? = some cue → (s.rpcs i).served = .accepted c →
      (∀ o, s.exec.outcomes.get cue.cueId = some o → ∃ outcome,
        (s.remote cue.runtime).commands c = some (.terminal outcome) ∧
          o.outcome = outcome.value) ∧
      (∀ j cue', s.exec.timeline.cues[j]? = some cue' → (s.rpcs j).served = .accepted c →
        i = j) ∧
      ∀ outcome, (s.remote cue.runtime).commands c = some (.terminal outcome) →
        .completed c outcome ∈ (s.remote cue.runtime).log.take (s.delivered cue.runtime) →
        ((s.exec.tasks i).pc = .ended .returned →
          ∃ o, s.exec.outcomes.get cue.cueId = some o ∧ o.outcome = outcome.value) ∧
        ((s.exec.tasks i).pc = .awaiting c →
          s.exec.futures i = some (.resolved outcome.value) ∧
          ((s.exec.tasks i).cancelRequested = false → ∀ env, ∃ t,
            s.step (.exec env (.cue i)) = some t ∧
              t.exec.outcomes.get cue.cueId = some ⟨cue.cueId, outcome.value, none⟩)) := by
  have hi : AgreeInv s := (run.invariant_of
    (fun x => ∀ env client, x.label ≠ .exec env (.resync client))
    (AgreeInv.init hvalid clients runId host) (fun x hx hok => hx.step x.fired hok) hstream).2
  intro i cue c hcue hserved
  have hrecorded : ∀ o, s.exec.outcomes.get cue.cueId = some o → ∃ outcome,
      (s.remote cue.runtime).commands c = some (.terminal outcome) ∧
        o.outcome = outcome.value := by
    intro o ho
    have hcalled := (hi.1.tracked i cue hcue).called (by rw [hserved]; nofun)
    rcases (hi.2 i cue hcue).outcome o hcalled ho with href | ⟨c', outcome, hc', hdone, hv⟩
    · rw [hserved] at href
      cases href
    · rw [hserved] at hc'
      cases hc'
      exact ⟨outcome, hdone, hv⟩
  refine ⟨hrecorded, ?_, ?_⟩
  · intro j cue' hcue' hserved'
    exact hi.1.distinct i j cue cue' c hcue hcue' hserved hserved'
  · intro outcome hdone hdelivered
    refine ⟨?_, ?_⟩
    · intro hreturned
      obtain ⟨o, ho⟩ := (hi.1.gate.passed i).returned cue hcue hreturned
      obtain ⟨outcome', hdone', hv⟩ := hrecorded o ho
      rw [hdone] at hdone'
      cases hdone'
      exact ⟨o, ho, hv⟩
    · intro hpc
      have hfuture := resolved_of_delivered hi hcue hpc hdone hdelivered
      refine ⟨hfuture, ?_⟩
      intro hrun env
      have hat : s.exec.cueAt i = some cue := by
        simp [cueAt, hrun, hcue]
      refine ⟨{ s with exec := (s.exec.finish cue outcome.value none).endCue i .returned }, ?_,
        Dict.get_set_self _ _ _⟩
      have hoffers : s.offers (.cue i) = true := rfl
      simp only [TimelineNetwork.step, hoffers, if_true, step_resumes hat hpc hfuture,
        Option.map_some, deliveredAfter]

/-- The completion is published and received before the response of the
submission: nobody waits for it yet, and the re-check finds it. -/
theorem outcome_agreement_early_event :
    ∃ xs s, Run TimelineNetwork.step
        singleNetwork xs s ∧
      ∃ outcome, (s.remote "motor").commands "c1" = some (.terminal outcome) ∧
        (s.exec.outcomes.get "a").map (·.outcome) = some outcome.value := by
  let race : List NetLabel :=
    [.exec .atStart .begin, .exec .atStart (.snapshot (.ok 0)), .exec .atStart (.cue 0),
      .accept 0 "c1", .respond 0, .remote "motor" (.finishes "c1" .succeeded),
      .exec .atStart (.deliver "motor" (.completed "c1" .succeeded)),
      .exec .atStart (.submitAnswered 0 (.ok ("c1", .inProgress))), .readRecord 0,
      .exec .atStart (.recheckAnswered 0 (.ok (.terminal .succeeded)))]
  let streams (_ : TimelineNetwork Int) : NetLabel → Bool
    | .exec _ (.resync _) => false
    | _ => true
  obtain ⟨xs, s, run, hok, hs⟩ := execWhile_test streams TimelineNetwork.step
    singleNetwork race
    (fun s => (s.exec.outcomes.get "a").isSome && (s.rpcs 0).served = .accepted "c1" &&
      (s.exec.timeline.cues[0]?).any fun cue => cue.cueId = "a" && cue.runtime = "motor")
    (by decide +kernel)
  simp only [Bool.and_eq_true, decide_eq_true_eq, Option.any_eq_true] at hs
  obtain ⟨⟨ho, hserved⟩, cue, hcue, hid, hruntime⟩ := hs
  obtain ⟨o, ho⟩ := Option.isSome_iff_exists.mp ho
  have hstream : ∀ x ∈ xs, ∀ env client, x.label ≠ .exec env (.resync client) := by
    intro x hx env client hl
    have := hok x hx
    rw [hl] at this
    cases this
  obtain ⟨outcome, hdone, hv⟩ := (outcome_agreement (by decide +kernel) ["motor"] "run-1"
    (fun client => client) run hstream 0 cue "c1" hcue hserved).1 o (by rw [hid]; exact ho)
  refine ⟨xs, s, run, outcome, by rw [← hruntime]; exact hdone, ?_⟩
  rw [ho]
  exact congrArg some hv

end TimelineNetwork

end Fusion
