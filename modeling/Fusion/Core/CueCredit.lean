import Fusion.Core.ResyncScope

/-!
# CueCredit — what stands behind an outcome

A resync tells the pending Cues UNKNOWN, and a refusal makes a Cue FAILED; any
other outcome of a Cue that was submitted is what its own command came to,
whatever the streams do. So a command that has succeeded stands behind each
SUCCEEDED, and behind each dependency of a Cue that was submitted.
-/

namespace Fusion

open Transition

variable {V : Type}

namespace Execution

variable {env : Env} {s t : Execution V}

/-- A resync resolves futures with UNKNOWN alone. -/
theorem futures_resync (s : Execution V) (j : Nat) :
    s.resync.futures j = s.futures j ∨ s.resync.futures j = some (.resolved "UNKNOWN") := by
  unfold resync
  generalize s.pending.items.map Prod.snd = is
  induction is generalizing s with
  | nil => exact .inl rfl
  | cons i is ih =>
    rcases ih (s.resolve i "UNKNOWN") with heq | hv
    · rcases futures_resolve s i "UNKNOWN" j with hsame | ⟨-, -, hv⟩
      · exact .inl (heq.trans hsame)
      · exact .inr (heq.trans hv)
    · exact .inr hv

theorem Rechecked.runId {i : Nat} {cue : Cue V} {c : CommandId} (h : Rechecked s i cue c t) :
    t.runId = s.runId := by
  cases h with
  | breaks _ => rfl
  | records hu _ | awaits hu => exact hu.rests.runId

theorem Moves.runId {l : ExecLabel} (h : Moves env s l t) : t.runId = s.runId := by
  cases h with
  | rests h _ _ _ => exact h.runId
  | delivers _ => exact (Rests.deliver s _).runId
  | resyncs _ => exact (Rests.resync s).runId
  | spawns _ _ h => exact h.runId
  | gate _ _ h => cases h <;> rfl
  | resumes _ _ _ => rfl
  | @submitted i cue answer _ _ =>
    cases answer with
    | error failure => cases failure <;> rfl
    | ok made =>
      obtain ⟨c, view⟩ := made
      cases view <;> rfl
  | rechecked _ _ => exact (rechecked_recheckAnswered ..).runId
  | cancelled _ _ => rfl

/-! ## What was submitted -/

/-- Outcomes are those of Cues of the timeline, and so are the calls of
`submit_command`, after all of the Cue's dependencies have succeeded. -/
structure CallInv (s : Execution V) : Prop where
  recorded : ∀ id o, s.outcomes.get id = some o →
    ∃ (i : Nat) (cue : Cue V), s.timeline.cues[i]? = some cue ∧ cue.cueId = id
  request : ∀ call ∈ s.submitted, ∃ cue sessionId, s.timeline.cues[call.index]? = some cue ∧
    call.runtime = cue.runtime ∧ call.request = s.request cue sessionId
  passed : ∀ i cue, s.timeline.cues[i]? = some cue → i ∈ s.calls →
    ∀ d ∈ cue.dependsOn, s.succeeded d = true

theorem request_congr (h : t.runId = s.runId) (cue : Cue V) (sessionId : String) :
    t.request cue sessionId = s.request cue sessionId := by
  simp only [request, h]

theorem CallInv.init (timeline : Timeline V) (clients : List String) (runId : String) :
    CallInv (Execution.init timeline clients runId) where
  recorded := by
    intro id o ho
    cases ho
  request := by
    intro call hcall
    cases hcall
  passed := by
    intro i cue _ hcalled
    cases hcalled

theorem CallInv.step (hgate : GateInv s) (hi : CallInv s) {l : ExecLabel}
    (h : s.step env l = some t) : CallInv t := by
  have hstep := (step_moves h).cueStep
  have hkeeps := hstep.keeps hgate
  have hrun := (step_moves h).runId
  have hold : ∀ call ∈ s.submitted, ∃ cue sessionId,
      t.timeline.cues[call.index]? = some cue ∧ call.runtime = cue.runtime ∧
        call.request = t.request cue sessionId := by
    intro call hcall
    obtain ⟨cue, sessionId, hcue, hruntime, hreq⟩ := hi.request call hcall
    exact ⟨cue, sessionId, by rw [hstep.timeline, hcue], hruntime,
      hreq.trans (request_congr hrun cue sessionId).symm⟩
  have hpassed : ∀ i cue, t.timeline.cues[i]? = some cue → i ∈ s.calls →
      ∀ d ∈ cue.dependsOn, t.succeeded d = true := by
    intro i cue hcue hcalled d hd
    rw [hstep.timeline] at hcue
    exact hkeeps.succeeded (hi.passed i cue hcue hcalled d hd)
  have hknown : ∀ id o, s.outcomes.get id = some o →
      ∃ (i : Nat) (cue : Cue V), t.timeline.cues[i]? = some cue ∧ cue.cueId = id := by
    intro id o ho
    obtain ⟨i, cue, hcue, hid⟩ := hi.recorded id o ho
    exact ⟨i, cue, by rw [hstep.timeline, hcue], hid⟩
  have hsame : (∀ id o, t.outcomes.get id = some o →
      ∃ (i : Nat) (cue : Cue V), t.timeline.cues[i]? = some cue ∧ cue.cueId = id) →
      t.submitted = s.submitted → CallInv t := by
    intro hrecorded hsubmitted
    refine ⟨hrecorded, ?_, ?_⟩
    · rw [hsubmitted]
      exact hold
    · rw [calls_congr hsubmitted]
      exact hpassed
  cases hstep with
  | rests h => exact hsame (h.outcomes ▸ hknown) h.submitted
  | spawns _ _ h => exact hsame (h.outcomes ▸ hknown) h.submitted
  | moves _ _ _ _ _ _ _ _ _ outcomes submitted => exact hsame (outcomes ▸ hknown) submitted
  | stops _ _ _ _ _ outcomes submitted => exact hsame (outcomes ▸ hknown) submitted
  | records i cue o _ hat _ goes _ outcomes submitted =>
    refine hsame ?_ submitted
    intro id o' ho'
    by_cases hid : cue.cueId = id
    · exact ⟨i, cue, by rw [goes.timeline, hat], hid⟩
    · rw [outcomes, Dict.get_set_ne _ _ hid] at ho'
      exact hknown id o' ho'
  | calls i cue deps sessionId hat hpc goes passed _ _ _ outcomes submitted =>
    refine ⟨outcomes ▸ hknown, ?_, ?_⟩
    · intro call hcall
      rw [submitted] at hcall
      rcases List.mem_append.mp hcall with hcall | hcall
      · exact hold call hcall
      · obtain rfl := List.mem_singleton.mp hcall
        exact ⟨cue, sessionId, by rw [goes.timeline, hat], rfl,
          (request_congr hrun cue sessionId).symm⟩
    · intro j cue' hcue hcalled d hd
      rw [Execution.calls, submitted, List.map_append, List.mem_append] at hcalled
      rcases hcalled with hcalled | hcalled
      · exact hpassed j cue' hcue hcalled d hd
      · -- the task has passed its dependencies, before this step or in it
        obtain rfl : j = i := by simpa using hcalled
        rw [goes.timeline] at hcue
        obtain rfl : cue' = cue := Option.some.inj (hcue.symm.trans hat)
        obtain ⟨pre, hdeps, hpre⟩ := (hgate.passed j).gate cue' deps hat hpc
        rw [hdeps] at hd
        rcases List.mem_append.mp hd with hd | hd
        · exact hkeeps.succeeded (hpre d hd)
        · exact hkeeps.succeeded (passed d hd)

end Execution

namespace TimelineNetwork

open Execution

variable {s t : TimelineNetwork V}

/-! ## What was recorded -/

/-- Where the task of a called Cue records, it was told the outcome: by the
response, or through its future. -/
theorem told_of_recorded (hi : NetInv s) {env : Env} {label : ExecLabel} {exec : Execution V}
    (hoffers : s.offers label = true) (h : s.exec.step env label = some exec) {i : Nat}
    {cue : Cue V} (hcue : s.exec.timeline.cues[i]? = some cue)
    (hcalled : (s.exec.tasks i).pc.called = true) (hended : (exec.tasks i).pc.isEnded = true)
    {o : CueOutcome} (ho : exec.outcomes.get cue.cueId = some o) :
    (s.rpcs i).served = .refused ∧ o.outcome = "FAILED" ∨
      Justified (s.remote cue.runtime) (s.rpcs i) o.outcome ∨
      ∃ c, (s.rpcs i).served = .accepted c ∧ exec.futures i = some (.resolved o.outcome) := by
  have htracked := hi.tracked i cue hcue
  have hnone := (hi.gate.passed i).unrecorded cue hcue (called_live hcalled).2
  have hold : s.exec.outcomes.get cue.cueId ≠ some o := by
    rw [hnone]
    nofun
  have hmoves := Execution.step_moves h
  -- only the task's own step can have ended it
  have hmover : label.mover = some i := by
    by_contra hne
    rcases hmoves.stays hne with hpc | hpc
    · rw [hpc, (called_live hcalled).2] at hended
      cases hended
    · rw [hpc] at hended
      cases hended
  have hcueAt : ∀ {cue'}, s.exec.cueAt i = some cue' → cue = cue' :=
    fun hat => Option.some.inj (hcue.symm.trans (cueAt_some hat).1)
  have hset : ∀ {u : Execution V} {v : String} {detail : Option String},
      u.outcomes.set cue.cueId ⟨cue.cueId, v, detail⟩ = exec.outcomes → o.outcome = v := by
    intro u v detail heq
    rw [← heq, Dict.get_set_self] at ho
    cases ho
    rfl
  cases hmoves with
  | rests hr _ _ _ => exact absurd (hr.outcomes ▸ ho) hold
  | delivers _ => cases hmover
  | resyncs _ => cases hmover
  | spawns _ _ hs => exact absurd (hs.outcomes ▸ ho) hold
  | gate hat hpc _ =>
    cases hmover
    rw [(gate_live hpc).2.1] at hcalled
    cases hcalled
  | cancelled _ _ => exact absurd ho hold
  | resumes hat hpc hf =>
    cases hmover
    obtain rfl := hcueAt hat
    rw [hset rfl]
    exact .inr (.inr ⟨_, (htracked.registered _ (.inr hpc)).1, hf⟩)
  | @submitted k cue' answer hat hpc =>
    cases hmover
    obtain rfl := hcueAt hat
    simp only [offers, decide_eq_true_eq] at hoffers
    cases answer with
    | error failure =>
      cases failure with
      | command message => exact .inl ⟨htracked.refused message hoffers, hset rfl⟩
      | other message => exact absurd ho hold
    | ok made =>
      obtain ⟨c, view⟩ := made
      cases view with
      | terminal outcome =>
        obtain ⟨hserved, hshows⟩ := htracked.answered c _ hoffers
        rw [hset rfl]
        exact .inr (.inl (justified_of_shows hserved hshows))
      | inProgress => exact absurd ho hold
  | @rechecked k cue' c answer hat hpc =>
    cases hmover
    obtain rfl := hcueAt hat
    cases answer with
    | error message => exact absurd ho hold
    | ok view =>
      obtain ⟨u, hu, -, -, -, -, hfutures, heq⟩ := recheckAnswered_ok s.exec i cue c view
      rw [heq, lookAtFuture] at ho hset
      rw [hfutures]
      split at ho
      · rename_i outcome hf
        obtain rfl := Option.some.inj ((Dict.get_set_self _ _ _).symm.trans ho)
        exact .inr (.inr ⟨_, (htracked.registered _ (.inl hpc)).1, hf⟩)
      · have ho : u.outcomes.get cue.cueId = some o := ho
        rw [hu.outcomes] at ho
        exact absurd ho hold

/-- The outcome `v` of a Cue that was submitted: FAILED by a refusal, UNKNOWN,
or what its own command came to. -/
def Credited (r : Remote) (rpc : Rpc) (v : String) : Prop :=
  rpc.served = .refused ∧ v = "FAILED" ∨
    ∃ c, rpc.served = .accepted c ∧ (v = "UNKNOWN" ∨
      ∃ outcome, r.commands c = some (.terminal outcome) ∧ v = outcome.value)

theorem Credited.later {r r' : Remote} {rpc rpc' : Rpc} {v : String} (h : Credited r rpc v)
    (hl : r.Later r') (hserved : rpc'.served = rpc.served) : Credited r' rpc' v := by
  rcases h with ⟨href, hv⟩ | ⟨c, hc, hunknown | ⟨outcome, hdone, hv⟩⟩
  · exact .inl ⟨hserved.trans href, hv⟩
  · exact .inr ⟨c, hserved.trans hc, .inl hunknown⟩
  · exact .inr ⟨c, hserved.trans hc, .inr ⟨outcome, hl.finished c outcome hdone, hv⟩⟩

/-- What the future of a Cue says, and what is recorded of it. -/
structure Credits (s : TimelineNetwork V) (i : Nat) (cue : Cue V) : Prop where
  told : ∀ v, s.exec.futures i = some (.resolved v) →
    v = "UNKNOWN" ∨ Justified (s.remote cue.runtime) (s.rpcs i) v
  outcome : ∀ o, i ∈ s.exec.calls → s.exec.outcomes.get cue.cueId = some o →
    Credited (s.remote cue.runtime) (s.rpcs i) o.outcome

theorem Credits.exec (hi : NetInv s) {env : Env} {label : ExecLabel} {exec : Execution V}
    (hoffers : s.offers label = true) (h : s.exec.step env label = some exec) {i : Nat}
    {cue : Cue V} (hcue : s.exec.timeline.cues[i]? = some cue) (hold : Credits s i cue) :
    Credits { s with exec := exec, delivered := s.deliveredAfter label } i cue := by
  have htold : ∀ v, exec.futures i = some (.resolved v) →
      v = "UNKNOWN" ∨ Justified (s.remote cue.runtime) (s.rpcs i) v := by
    intro v hv
    by_cases hl : ∃ client, label = .resync client
    · obtain ⟨client, rfl⟩ := hl
      rw [(resync_eq h).2] at hv
      rcases futures_resync s.exec i with heq | hunknown
      · exact hold.told v (heq ▸ hv)
      · rw [hunknown] at hv
        cases hv
        exact .inl rfl
    · have hstream : ∀ client, label ≠ .resync client := fun client he => hl ⟨client, he⟩
      exact (future_justified hi hoffers h hstream hcue hv).elim (hold.told v) .inr
  have hjustified : ∀ v, Justified (s.remote cue.runtime) (s.rpcs i) v →
      Credited (s.remote cue.runtime) (s.rpcs i) v := by
    intro v hv
    obtain ⟨c, outcome, hc, hdone⟩ := hv
    exact .inr ⟨c, hc, .inr ⟨outcome, hdone⟩⟩
  refine ⟨htold, ?_⟩
  intro o hcalled ho
  have hcueStep := (Execution.step_moves h).cueStep
  rcases hcueStep.recorded hi.gate hcue hcalled ho with ⟨hbefore, ho'⟩ | ⟨hpc, hended⟩
  · exact hold.outcome o hbefore ho'
  · rcases told_of_recorded hi hoffers h hcue hpc hended ho with hrefused | hdone | ⟨c, hc, hv⟩
    · exact .inl hrefused
    · exact hjustified _ hdone
    · rcases htold _ hv with hunknown | hdone
      · exact .inr ⟨c, hc, .inl hunknown⟩
      · exact hjustified _ hdone

/-- The Runtimes go on, and what the Runtime did about the Cue stays. -/
theorem Credits.later {i : Nat} {cue : Cue V} (hold : Credits s i cue) (hexec : t.exec = s.exec)
    (hl : (s.remote cue.runtime).Later (t.remote cue.runtime))
    (hserved : (t.rpcs i).served = (s.rpcs i).served) : Credits t i cue where
  told := by
    intro v hv
    rw [hexec] at hv
    exact (hold.told v hv).imp_right (·.later hl hserved)
  outcome := by
    intro o hcalled ho
    rw [hexec] at hcalled ho
    exact (hold.outcome o hcalled ho).later hl hserved

/-- Before the Runtime has served the request, nothing is to the Cue's credit. -/
theorem Credits.of_waiting {i : Nat} {cue : Cue V} (hold : Credits s i cue)
    (hexec : t.exec = s.exec) (hserved : (s.rpcs i).served = .waiting) : Credits t i cue := by
  have hno : ∀ v, ¬ Justified (s.remote cue.runtime) (s.rpcs i) v := by
    intro v hv
    obtain ⟨c, _, hc, -⟩ := hv
    rw [hserved] at hc
    cases hc
  refine ⟨?_, ?_⟩
  · intro v hv
    rw [hexec] at hv
    exact .inl ((hold.told v hv).resolve_right (hno v))
  · intro o hcalled ho
    rw [hexec] at hcalled ho
    rcases hold.outcome o hcalled ho with ⟨href, -⟩ | ⟨c, hc, -⟩
    · rw [hserved] at href
      cases href
    · rw [hserved] at hc
      cases hc

/-- **Every step**, resyncs included. -/
theorem Credits.step (hi : NetInv s) {l : NetLabel} (h : s.step l = some t) {i : Nat}
    {cue : Cue V} (hcue : s.exec.timeline.cues[i]? = some cue) (hold : Credits s i cue) :
    Credits t i cue := by
  -- requests of one Cue change, and its Runtime's decision stays or is made
  have hrequests : ∀ (u : TimelineNetwork V) (k : Nat) (rpc : Rpc), Credits u i cue →
      (rpc.served = (u.rpcs k).served ∨ (u.rpcs k).served = .waiting) →
      Credits (u.setRpc k rpc) i cue := by
    intro u k rpc hu hserved
    by_cases hik : i = k
    · subst hik
      rcases hserved with hsame | hwaiting
      · refine hu.later rfl (.refl _) ?_
        show (Function.update u.rpcs i rpc i).served = _
        rw [Function.update_self, hsame]
      · exact hu.of_waiting rfl hwaiting
    · exact hu.later rfl (.refl _) (congrArg Rpc.served (Function.update_of_ne hik _ _))
  have hevolves : ∀ {u : TimelineNetwork V} {name l}, s.evolve name l = some u →
      Credits u i cue ∧ u.rpcs = s.rpcs := by
    intro u name l hu
    obtain ⟨r, made, hr, rfl, -, -⟩ := evolve_cases hu
    exact ⟨hold.later rfl (later_evolve hr _) rfl, rfl⟩
  cases step_netMoves h with
  | exec hoffers hexec => exact hold.exec hi hoffers hexec hcue
  | accept _ _ hserved hu =>
    obtain ⟨hcredits, hrpcs⟩ := hevolves hu
    exact hrequests _ _ _ hcredits (.inr (by rw [hrpcs]; exact hserved))
  | refuse _ hserved => exact hrequests _ _ _ hold (.inr hserved)
  | respond => exact hrequests _ _ _ hold (.inl rfl)
  | lose => exact hrequests _ _ _ hold (.inl rfl)
  | readRecord => exact hrequests _ _ _ hold (.inl rfl)
  | loseRecord => exact hrequests _ _ _ hold (.inl rfl)
  | remote h => exact (hevolves h).1

/-! ## Whole runs -/

/-- **The credit invariant.** -/
structure CreditInv (s : TimelineNetwork V) : Prop where
  net : NetInv s
  calls : s.exec.CallInv
  credits : ∀ i cue, s.exec.timeline.cues[i]? = some cue → Credits s i cue

theorem CreditInv.init {timeline : Timeline V} (h : validateTimeline timeline = [])
    (clients : List String) (runId : String) (host : String → String) :
    CreditInv (init timeline clients runId host) where
  net := .init h clients runId host
  calls := .init timeline clients runId
  credits := by
    intro i cue _
    refine ⟨?_, ?_⟩
    · intro v hv
      cases hv
    · intro o hcalled
      cases hcalled

theorem CreditInv.step (hi : CreditInv s) {l : NetLabel} (h : s.step l = some t) :
    CreditInv t where
  net := hi.net.step h
  calls := by
    rcases step_exec h with heq | ⟨env, label, hexec⟩
    · rw [heq]
      exact hi.calls
    · exact hi.calls.step hi.net.gate hexec
  credits := by
    intro i cue hcue
    rw [timeline_step h] at hcue
    exact (hi.credits i cue hcue).step hi.net h hcue

theorem CreditInv.reachable (hi : CreditInv s) (hs : Reachable TimelineNetwork.step s t) :
    CreditInv t :=
  hs.invariant hi fun _ _ _ hi hstep => hi.step hstep

/-- Behind a Cue that is recorded SUCCEEDED is its own command, and that has
succeeded. -/
theorem CreditInv.succeeded (hi : CreditInv s) {id : String} (h : s.exec.succeeded id = true) :
    ∃ (i : Nat) (cue : Cue V) (c : CommandId), s.exec.timeline.cues[i]? = some cue ∧
      cue.cueId = id ∧ i ∈ s.exec.calls ∧
      (s.rpcs i).served = .accepted c ∧
      (s.remote cue.runtime).commands c = some (.terminal .succeeded) := by
  obtain ⟨o, ho, hsucc⟩ := Option.any_eq_true _ _ |>.mp h
  rw [decide_eq_true_eq] at hsucc
  obtain ⟨i, cue, hcue, rfl⟩ := hi.calls.recorded id o ho
  have hcalled : i ∈ s.exec.calls := by
    by_contra hnot
    rcases (hi.net.gate.passed i).uncalled cue o hcue hnot ho with hskipped | hfailed
    · rw [hsucc] at hskipped
      exact absurd hskipped (by decide)
    · rw [hsucc] at hfailed
      exact absurd hfailed (by decide)
  have hcredited := (hi.credits i cue hcue).outcome o hcalled ho
  rw [hsucc] at hcredited
  rcases hcredited with ⟨-, hv⟩ | ⟨c, hserved, hv | ⟨outcome, hdone, hv⟩⟩
  · exact absurd hv (by decide)
  · exact absurd hv (by decide)
  · obtain rfl : outcome = .succeeded := by
      cases outcome <;> first | rfl | exact absurd hv (by decide)
    exact ⟨i, cue, c, hcue, rfl, hcalled, hserved, hdone⟩

end TimelineNetwork

end Fusion
