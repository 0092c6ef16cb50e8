import Fusion.Core.OutcomeAgreement
import Fusion.Core.StuckCues

/-!
# ResyncScope — whose Cues a resync gives up on

`_listen` answers `resync_required` for what is in flight "on this client",
and resolves every pending future of the run. A Cue of another client goes on
waiting exactly when it has no future yet; in the runs where no resync meets
such a future, an outcome is the command's own, unless the Cue's own stream
gave up on it.
-/

namespace Fusion

open Transition

variable {V : Type}

namespace Execution

variable {env : Env} {s t : Execution V}

/-- What was asked of a task stays asked, from when the Cue tasks exist. -/
theorem asked_stays {l : ExecLabel} (h : s.step env l = some t) (hborn : s.phase.early = false)
    {i : Nat} (ht : (t.tasks i).cancelRequested = false) :
    (s.tasks i).cancelRequested = false := by
  by_cases hl : l = .cancelRun
  · subst hl
    obtain rfl : s.cancelRun = t := Option.some.inj h
    unfold cancelRun at ht
    split at ht
    · exact ht
    · split at ht
      · dsimp only at ht
        split at ht
        · cases ht
        · exact ht
      · exact ht
    · exact ht
  · rcases (step_moves h).flags hl i with hsame | ⟨hearly, -⟩
    · exact hsame.symm.trans ht
    · rw [hborn] at hearly
      cases hearly

/-- A resync decides about futures alone. -/
theorem resync_eq {client : String} (h : s.step env (.resync client) = some t) :
    t.tasks = s.tasks ∧ t.futures = s.resync.futures := by
  simp only [step] at h
  split at h <;> cases h
  exact ⟨(resolves_resync s).tasks, rfl⟩

end Execution

namespace TimelineNetwork

open Execution

variable {s t : TimelineNetwork V}

/-! ## The property -/

/-- The Cue's task has submitted, was not told to stop, and has not been told
an outcome. -/
def inFlight (s : TimelineNetwork V) (i : Nat) : Bool :=
  (s.exec.tasks i).pc.called && !(s.exec.tasks i).cancelRequested &&
  match s.exec.futures i with
  | some (.resolved _) => false
  | _ => true

/-- In flight, with a future of its own. -/
def registered (s : TimelineNetwork V) (i : Nat) : Bool :=
  s.inFlight i && s.exec.futures i = some .pending

/-- The stream of this client is told to resync. -/
def resyncs (client : String) : NetLabel → Bool
  | .exec _ (.resync name) => name = client
  | _ => false

theorem resyncs_iff {client : String} {l : NetLabel} :
    resyncs client l = true ↔ ∃ env, l = .exec env (.resync client) := by
  constructor
  · intro h
    cases l with
    | exec env label =>
      cases label with
      | resync name =>
        obtain rfl : name = client := by simpa [resyncs] using h
        exact ⟨env, rfl⟩
      | _ => cases h
    | _ => cases h
  · intro h
    obtain ⟨env, rfl⟩ := h
    simp [resyncs]

/-- A resync of one client's stream leaves the Cues in flight on the others
in flight. -/
def Spares (x : Step (TimelineNetwork.step (V := V))) : Prop :=
  ∀ client, resyncs client x.label = true →
    ∀ i cue, x.src.exec.timeline.cues[i]? = some cue → cue.runtime ≠ client →
      x.src.inFlight i = true → x.dst.inFlight i = true

/-- The outcome that the Cue has recorded since its submission, if any, is
what its own submission or its own command came to. -/
def OwnOutcome (s : TimelineNetwork V) (i : Nat) (cue : Cue V) : Prop :=
  ∀ o, i ∈ s.exec.calls → s.exec.outcomes.get cue.cueId = some o →
    (s.rpcs i).served = .refused ∧ o.outcome = "FAILED" ∨
      Justified (s.remote cue.runtime) (s.rpcs i) o.outcome

/-- The step is a resync of the stream of this client, with the future of the
Cue pending. -/
def givesUp (client : String) (i : Nat) (x : Step (TimelineNetwork.step (V := V))) : Bool :=
  resyncs client x.label && x.src.registered i

/-! ## The condition -/

/-- When a stream is told to resync, the pending futures are those of its own
client's Cues. -/
def Apart (s : TimelineNetwork V) : NetLabel → Bool
  | .exec _ (.resync client) =>
      s.exec.positions.all fun i =>
        (s.exec.timeline.cues[i]?).all fun cue => cue.runtime = client || !s.registered i
  | _ => true

theorem apart_resync {env : Env} {client : String} :
    s.Apart (.exec env (.resync client)) = true ↔
      ∀ i cue, s.exec.timeline.cues[i]? = some cue → cue.runtime ≠ client →
        s.registered i = false := by
  simp only [Apart, List.all_eq_true, Option.all_eq_true, Bool.or_eq_true, decide_eq_true_eq,
    Bool.not_eq_true']
  constructor
  · intro h i cue hcue hne
    exact (h i (mem_positions hcue) cue hcue).resolve_left hne
  · intro h i _ cue hcue
    by_cases hruntime : cue.runtime = client
    · exact .inl hruntime
    · exact .inr (h i cue hcue hruntime)

/-! ## One Cue -/

/-- Before its submission is answered, a Cue has no future. -/
def Unasked (s : TimelineNetwork V) (i : Nat) : Prop :=
  (s.exec.tasks i).pc.unanswered = true → s.exec.futures i = none

/-- What a waiting task was told is justified, and so is what it recorded. -/
structure Tells (s : TimelineNetwork V) (i : Nat) (cue : Cue V) : Prop where
  unasked : s.Unasked i
  told : ∀ c v, (s.exec.tasks i).pc.waitsFor c → (s.exec.tasks i).cancelRequested = false →
    s.exec.futures i = some (.resolved v) → Justified (s.remote cue.runtime) (s.rpcs i) v
  outcome : s.OwnOutcome i cue

theorem Tells.init (timeline : Timeline V) (clients : List String) (runId : String)
    (host : String → String) (i : Nat) (cue : Cue V) :
    Tells (init timeline clients runId host) i cue where
  unasked := fun _ => rfl
  told := by
    intro c v hc
    rcases hc with hc | hc <;> cases hc
  outcome := by
    intro o hcalled
    cases hcalled

/-- A task that waits after a step waited for the same before it, or has just
made its future. -/
theorem waited_before (hi : NetInv s) {env : Env} {label : ExecLabel} {exec : Execution V}
    (h : s.exec.step env label = some exec) {i : Nat} {c : CommandId}
    (hc : (exec.tasks i).pc.waitsFor c) :
    (s.exec.tasks i).pc.waitsFor c ∨ exec.futures i = some .pending := by
  cases (Execution.step_moves h).netStep hi.gate hi.futures_of_rechecking with
  | follows _ hf =>
    rcases (hf i).pc with heq | hno
    · exact .inl (heq ▸ hc)
    · exact absurd hc (hno c)
  | @registers k cue' c' _ _ heq =>
    subst heq
    by_cases hk : i = k
    · subst hk
      exact .inr (Function.update_self ..)
    · left
      rwa [tasks_submitAnswered_ne s.exec cue' _ hk] at hc
  | @parks k _ c' _ hpc _ heq =>
    subst heq
    by_cases hk : i = k
    · subst hk
      rw [pc_setPc_self] at hc
      obtain rfl : c' = c := by rcases hc with hc | hc <;> cases hc; rfl
      exact .inl (.inl hpc)
    · left
      rwa [tasks_setPc_ne s.exec _ hk] at hc

/-- A task that waits exists. -/
theorem born_of_waits (hi : NetInv s) {i : Nat} {c : CommandId}
    (hc : (s.exec.tasks i).pc.waitsFor c) : s.exec.phase.early = false := by
  cases hearly : s.exec.phase.early with
  | false => rfl
  | true =>
    rw [hi.gate.early hearly i] at hc
    rcases hc with hc | hc <;> cases hc

theorem Unasked.exec (hi : NetInv s) {env : Env} {label : ExecLabel} {exec : Execution V}
    (h : s.exec.step env label = some exec) {i : Nat} (hun : s.Unasked i) :
    (exec.tasks i).pc.unanswered = true → exec.futures i = none := by
  have hfollowed : ∀ {u : Execution V}, Follows s.exec u i →
      (u.tasks i).pc.unanswered = true → u.futures i = none := by
    intro u hf hu
    have hnone := hun (hf.unanswered hu)
    rcases hf.future with heq | ⟨hpend, -⟩
    · rw [heq, hnone]
    · rw [hnone] at hpend
      cases hpend
  cases (Execution.step_moves h).netStep hi.gate hi.futures_of_rechecking with
  | follows _ hf => exact hfollowed (hf i)
  | @registers k cue' c _ _ heq =>
    subst heq
    intro hu
    by_cases hk : i = k
    · subst hk
      rw [show ((s.exec.submitAnswered i cue' (.ok (c, .inProgress))).tasks i).pc
        = .rechecking c from pc_setPc_self s.exec i _] at hu
      cases hu
    · rw [tasks_submitAnswered_ne s.exec cue' _ hk] at hu
      exact (Function.update_of_ne hk _ _).trans (hun hu)
  | @parks k _ c _ _ _ heq =>
    subst heq
    by_cases hk : i = k
    · subst hk
      intro hu
      rw [pc_setPc_self] at hu
      cases hu
    · exact hfollowed (follows_setPc_ne s.exec _ hk)

/-- A future that a resync resolves is that of a registered Cue, where the
task waits for it. -/
theorem resync_keeps {env : Env} {client : String} {exec : Execution V}
    (h : s.exec.step env (.resync client) = some exec) {i : Nat} {c : CommandId}
    (hc : (s.exec.tasks i).pc.waitsFor c) (hrun : (s.exec.tasks i).cancelRequested = false)
    (hfree : s.registered i = false) : exec.futures i = s.exec.futures i := by
  rw [(resync_eq h).2]
  rcases (follows_resync s.exec i).future with heq | ⟨hpend, -⟩
  · exact heq
  · simp [registered, inFlight, hc.called.1, hrun, hpend] at hfree

/-- **A step of the executor**, unless it gives up on the Cue. -/
theorem Tells.exec (hi : NetInv s) {env : Env} {label : ExecLabel} {exec : Execution V}
    (hoffers : s.offers label = true) (h : s.exec.step env label = some exec) {i : Nat}
    {cue : Cue V} (hcue : s.exec.timeline.cues[i]? = some cue) (hold : Tells s i cue)
    (hfree : ∀ client, label = .resync client → s.registered i = false) :
    Tells { s with exec := exec, delivered := s.deliveredAfter label } i cue := by
  have hcueStep := (Execution.step_moves h).cueStep
  -- what a waiting task is told by this step is justified
  have htold : ∀ c v, (s.exec.tasks i).pc.waitsFor c →
      (s.exec.tasks i).cancelRequested = false → exec.futures i = some (.resolved v) →
      Justified (s.remote cue.runtime) (s.rpcs i) v := by
    intro c v hc hrun hv
    by_cases hl : ∃ client, label = .resync client
    · obtain ⟨client, rfl⟩ := hl
      rw [resync_keeps h hc hrun (hfree client rfl)] at hv
      exact hold.told c v hc hrun hv
    · have hstream : ∀ client, label ≠ .resync client := fun client he => hl ⟨client, he⟩
      exact (future_justified hi hoffers h hstream hcue hv).elim (hold.told c v hc hrun) id
  refine ⟨Unasked.exec hi h hold.unasked, ?_, ?_⟩
  · intro c v hc hrun hv
    rcases waited_before hi h hc with hbefore | hpend
    · exact htold c v hbefore (asked_stays h (born_of_waits hi hbefore) hrun) hv
    · have hv : exec.futures i = some (.resolved v) := hv
      rw [hpend] at hv
      cases hv
  · intro o hcalled ho
    rcases hcueStep.recorded hi.gate hcue hcalled ho with ⟨hbefore, ho'⟩ | ⟨hpc, hended⟩
    · exact hold.outcome o hbefore ho'
    · exact outcome_justified hi hoffers h hcue htold hpc hended ho

/-- The Runtimes go on, and what the Runtime did about the Cue stays. -/
theorem Tells.later {i : Nat} {cue : Cue V} (hold : Tells s i cue) (hexec : t.exec = s.exec)
    (hl : (s.remote cue.runtime).Later (t.remote cue.runtime))
    (hserved : (t.rpcs i).served = (s.rpcs i).served) : Tells t i cue := by
  refine ⟨?_, ?_, ?_⟩
  · intro hun
    rw [hexec] at hun ⊢
    exact hold.unasked hun
  · intro c v hc hrun hv
    rw [hexec] at hc hrun hv
    exact (hold.told c v hc hrun hv).later hl hserved
  · intro o hcalled ho
    rw [hexec] at hcalled ho
    rcases hold.outcome o hcalled ho with ⟨href, hfailed⟩ | hdone
    · exact .inl ⟨hserved.trans href, hfailed⟩
    · exact .inr (hdone.later hl hserved)

/-- Before the Runtime has served the request, the Cue was told nothing. -/
theorem Tells.of_waiting {i : Nat} {cue : Cue V} (hold : Tells s i cue)
    (hexec : t.exec = s.exec) (hserved : (s.rpcs i).served = .waiting) : Tells t i cue := by
  have hno : ∀ v, ¬ Justified (s.remote cue.runtime) (s.rpcs i) v := by
    intro v hv
    obtain ⟨c, _, hc, -⟩ := hv
    rw [hserved] at hc
    cases hc
  refine ⟨?_, ?_, ?_⟩
  · intro hun
    rw [hexec] at hun ⊢
    exact hold.unasked hun
  · intro c v hc hrun hv
    rw [hexec] at hc hrun hv
    exact absurd (hold.told c v hc hrun hv) (hno v)
  · intro o hcalled ho
    rw [hexec] at hcalled ho
    rcases hold.outcome o hcalled ho with ⟨href, -⟩ | hdone
    · rw [hserved] at href
      cases href
    · exact absurd hdone (hno _)

/-- **Every step**, unless it gives up on the Cue. -/
theorem Tells.step (hi : NetInv s) {l : NetLabel} (h : s.step l = some t) {i : Nat} {cue : Cue V}
    (hcue : s.exec.timeline.cues[i]? = some cue) (hold : Tells s i cue)
    (hfree : ∀ env client, l = .exec env (.resync client) → s.registered i = false) :
    Tells t i cue := by
  -- requests of one Cue change, and its Runtime's decision stays
  have hsame : ∀ (k : Nat) (rpc : Rpc), rpc.served = (s.rpcs k).served →
      Tells (s.setRpc k rpc) i cue := by
    intro k rpc hserved
    refine hold.later rfl (.refl _) ?_
    show (Function.update s.rpcs k rpc i).served = _
    by_cases hik : i = k
    · subst hik
      rw [Function.update_self, hserved]
    · rw [Function.update_of_ne hik]
  -- the Runtime decides about a request
  have hdecides : ∀ (u : TimelineNetwork V) (k : Nat) (rpc : Rpc), Tells u i cue →
      u.exec = s.exec → (u.rpcs k).served = .waiting → Tells (u.setRpc k rpc) i cue := by
    intro u k rpc hu _ hserved
    by_cases hik : i = k
    · subst hik
      exact hu.of_waiting rfl hserved
    · exact hu.later rfl (.refl _) (congrArg Rpc.served (Function.update_of_ne hik _ _))
  have hevolves : ∀ {u : TimelineNetwork V} {name l}, s.evolve name l = some u →
      Tells u i cue ∧ u.exec = s.exec ∧ u.rpcs = s.rpcs := by
    intro u name l hu
    obtain ⟨r, made, hr, rfl, -, -⟩ := evolve_cases hu
    exact ⟨hold.later rfl (later_evolve hr _) rfl, rfl, rfl⟩
  cases step_netMoves h with
  | @exec env label _ hoffers hexec =>
    exact hold.exec hi hoffers hexec hcue fun client hl => hfree env client (hl ▸ rfl)
  | accept _ _ hserved hu =>
    obtain ⟨htells, hexec, hrpcs⟩ := hevolves hu
    exact hdecides _ _ _ htells hexec (by rw [hrpcs]; exact hserved)
  | refuse _ hserved => exact hdecides _ _ _ hold rfl hserved
  | respond => exact hsame _ _ rfl
  | lose => exact hsame _ _ rfl
  | readRecord => exact hsame _ _ rfl
  | loseRecord => exact hsame _ _ rfl
  | remote h => exact (hevolves h).1

/-! ## Whole runs -/

/-- The executor takes a step, or nothing of it changes. -/
theorem step_exec {l : NetLabel} (h : s.step l = some t) :
    t.exec = s.exec ∨ ∃ env label, s.exec.step env label = some t.exec := by
  have hevolves : ∀ {u : TimelineNetwork V} {name l}, s.evolve name l = some u →
      u.exec = s.exec := by
    intro u name l hu
    obtain ⟨r, made, -, rfl, -, -⟩ := evolve_cases hu
    rfl
  cases step_netMoves h with
  | exec _ hexec => exact .inr ⟨_, _, hexec⟩
  | accept _ _ _ hu =>
    have hsame := hevolves hu
    exact .inl hsame
  | remote hu => exact .inl (hevolves hu)
  | refuse | respond | lose | readRecord | loseRecord => exact .inl rfl

theorem timeline_step {l : NetLabel} (h : s.step l = some t) :
    t.exec.timeline = s.exec.timeline := by
  rcases step_exec h with heq | ⟨env, label, hexec⟩
  · rw [heq]
  · exact (Execution.step_moves hexec).cueStep.timeline

/-- A resync leaves the Cues of other clients in flight exactly when none of
them has a pending future. -/
theorem spares_iff (x : Step (TimelineNetwork.step (V := V))) (hi : NetInv x.src)
    (hun : ∀ i, x.src.Unasked i) : Spares x ↔ x.src.Apart x.label = true := by
  obtain ⟨s, l, t, hstep⟩ := x
  by_cases hl : ∃ client, resyncs client l = true
  swap
  · constructor
    · intro _
      cases l with
      | exec env label =>
        cases label with
        | resync client => exact absurd ⟨client, resyncs_iff.mpr ⟨env, rfl⟩⟩ hl
        | _ => rfl
      | _ => rfl
    · intro _ client he
      exact absurd ⟨client, he⟩ hl
  · obtain ⟨client, hclient⟩ := hl
    obtain ⟨env, rfl⟩ := resyncs_iff.mp hclient
    rw [apart_resync]
    obtain ⟨exec, hexec, ht⟩ : ∃ exec, s.exec.step env (.resync client) = some exec ∧
        t.exec = exec := by
      cases step_netMoves hstep with
      | exec _ hexec => exact ⟨_, hexec, rfl⟩
    obtain ⟨htasks, hfutures⟩ := resync_eq hexec
    constructor
    · -- the futures of the registered Cues are resolved, all of them
      intro hspares i cue hcue hne
      by_contra hreg
      simp only [Bool.not_eq_false, registered, Bool.and_eq_true, decide_eq_true_eq] at hreg
      have hafter := hspares client hclient i cue hcue hne hreg.1
      have hcalled : (s.exec.tasks i).pc.called = true := by
        have hflight := hreg.1
        simp only [inFlight, Bool.and_eq_true] at hflight
        exact hflight.1.1
      obtain ⟨c, hc⟩ : ∃ c, (s.exec.tasks i).pc.waitsFor c := by
        cases hpc : (s.exec.tasks i).pc with
        | rechecking c => exact ⟨c, .inl rfl⟩
        | awaiting c => exact ⟨c, .inr rfl⟩
        | submitting =>
          have hnone := hun i (by rw [hpc]; rfl)
          rw [hreg.2] at hnone
          cases hnone
        | _ => simp [hpc, CuePc.called] at hcalled
      have hpending := ((hi.tracked i cue hcue).registered c hc).2.1
      rcases (follows_resync s.exec i).future with heq | ⟨-, v, hv⟩
      · exact resync_resolves s.exec hpending (heq.trans hreg.2)
      · simp [inFlight, ht, hfutures, hv] at hafter
    · intro hapart client' hlabel i cue hcue hne hflight
      obtain rfl : client = client' := by simpa [resyncs] using hlabel
      have hfree := hapart i cue hcue hne
      have hkeeps : exec.futures i = s.exec.futures i := by
        rw [hfutures]
        rcases (follows_resync s.exec i).future with heq | ⟨hpend, -⟩
        · exact heq
        · simp [registered, hflight, hpend] at hfree
      simpa [inFlight, ht, htasks, hkeeps] using hflight

theorem unasked_reachable {timeline : Timeline V} (hvalid : validateTimeline timeline = [])
    {clients : List String} {runId : String} {host : String → String}
    (hs : Reachable TimelineNetwork.step (TimelineNetwork.init timeline clients runId host) s)
    (i : Nat) : s.Unasked i := by
  have hboth : NetInv s ∧ s.Unasked i := by
    refine hs.invariant (I := fun s => NetInv s ∧ s.Unasked i)
      ⟨.init hvalid clients runId host, fun _ => rfl⟩ ?_
    intro s l t hold hstep
    refine ⟨hold.1.step hstep, ?_⟩
    rcases step_exec hstep with heq | ⟨env, label, hexec⟩
    · rw [Unasked, heq]
      exact hold.2
    · exact Unasked.exec hold.1 hexec hold.2
  exact hboth.2

/-- What a Cue was told and recorded is its own, as long as no resync of the
run finds its future registered. -/
theorem tells_run {timeline : Timeline V} (hvalid : validateTimeline timeline = [])
    {clients : List String} {runId : String} {host : String → String}
    {xs : List (Step TimelineNetwork.step)}
    (run : Run TimelineNetwork.step (TimelineNetwork.init timeline clients runId host) xs s)
    {i : Nat} {cue : Cue V} (hcue : timeline.cues[i]? = some cue)
    (hfree : ∀ x ∈ xs, ∀ env client, x.label = .exec env (.resync client) →
      x.src.registered i = false) : Tells s i cue := by
  have hall := run.invariant_of
    (I := fun s => NetInv s ∧ s.exec.timeline = timeline ∧ Tells s i cue)
    (fun x => ∀ env client, x.label = .exec env (.resync client) → x.src.registered i = false)
    ⟨.init hvalid clients runId host, rfl, .init timeline clients runId host i cue⟩ ?_ hfree
  · exact hall.2.2.2
  · intro x hx hok
    obtain ⟨hnet, htimeline, htells⟩ := hx
    exact ⟨hnet.step x.fired, (timeline_step x.fired).trans htimeline,
      htells.step hnet x.fired (by rw [htimeline]; exact hcue) hok⟩

theorem timeline_reachable {timeline : Timeline V} {clients : List String} {runId : String}
    {host : String → String}
    (hs : Reachable TimelineNetwork.step (TimelineNetwork.init timeline clients runId host) s) :
    s.exec.timeline = timeline :=
  hs.invariant (I := fun s => s.exec.timeline = timeline) rfl
    fun _ _ _ hold hstep => (timeline_step hstep).trans hold

/-- **Resync stays on its own Runtime exactly when** no resync meets a
pending future of another client's Cue. Then every Cue in flight on another
client goes on, and the outcome of a Cue that its own stream did not give up
on is what its own submission or command came to. -/
theorem resync_scope_iff {timeline : Timeline V} (hvalid : validateTimeline timeline = [])
    (clients : List String) (runId : String) (host : String → String)
    {xs : List (Step TimelineNetwork.step)}
    (run : Run TimelineNetwork.step (TimelineNetwork.init timeline clients runId host) xs s) :
    ((∀ x ∈ xs, Spares x) ∧
      ∀ i cue, s.exec.timeline.cues[i]? = some cue →
        (∀ x ∈ xs, givesUp cue.runtime i x = false) → s.OwnOutcome i cue) ↔
    ∀ x ∈ xs, x.src.Apart x.label = true := by
  have hiff : (∀ x ∈ xs, Spares x) ↔ ∀ x ∈ xs, x.src.Apart x.label = true :=
    run.forall_iff fun x hx => spares_iff x (.reachable hvalid hx) (unasked_reachable hvalid hx)
  constructor
  · intro h
    exact hiff.mp h.1
  · intro hapart
    refine ⟨hiff.mpr hapart, ?_⟩
    intro i cue hcue hkept
    rw [timeline_reachable run.reachable] at hcue
    refine (tells_run hvalid run hcue ?_).outcome
    intro x hx env client hl
    by_cases hclient : cue.runtime = client
    · subst hclient
      have hlabel : resyncs cue.runtime x.label = true := resyncs_iff.mpr ⟨env, hl⟩
      simpa [givesUp, hlabel] using hkept x hx
    · have hsrc := timeline_reachable (run.src_reachable hx)
      exact apart_resync.mp (hl ▸ hapart x hx) i cue (by rw [hsrc]; exact hcue) hclient

/-- Two Cues, on two clients. -/
def duo : Timeline Int :=
  ⟨[⟨"a", 0, "motor", "motor01", "move", .empty, .observed, [], .default⟩,
    ⟨"b", 0, "lamp", "lamp01", "fade", .empty, .observed, [], .default⟩]⟩

/-- Two Cues on two clients, before the run. -/
def duoNetwork : TimelineNetwork Int := init duo ["motor", "lamp"] "run-1" fun client => client

/-- A reading at the start of the run, with a session on both clients. -/
def duoStart : Env := ⟨0, 0, false, (Dict.empty.set "motor" "cs1").set "lamp" "cs2"⟩

/-- Up to where Cue `i` waits for its command. -/
def parks (i : Nat) (c : CommandId) : List NetLabel :=
  [.exec duoStart (.cue i), .accept i c, .respond i,
    .exec duoStart (.submitAnswered i (.ok (c, .inProgress))), .readRecord i,
    .exec duoStart (.recheckAnswered i (.ok .inProgress))]

/-- The run begins, and both Cues wait for their commands. -/
def duoBegins : List NetLabel :=
  [.exec duoStart .begin, .exec duoStart (.snapshot (.ok 0)), .exec duoStart (.snapshot (.ok 0))]

/-- The lamp's stream gives up on the lamp's Cue; the motor's Cue comes after
it, and its outcome is its command's. -/
theorem resync_scope_iff_lamp :
    ∃ xs s, Run TimelineNetwork.step duoNetwork xs s ∧
      (∃ x ∈ xs, givesUp "lamp" 1 x = true) ∧ (∀ x ∈ xs, Spares x) ∧
      ∀ cue, s.exec.timeline.cues[0]? = some cue →
        (∀ x ∈ xs, givesUp cue.runtime 0 x = false) → s.OwnOutcome 0 cue := by
  obtain ⟨xs, s, run, hs⟩ := execSteps_test TimelineNetwork.step duoNetwork
    (duoBegins ++ parks 1 "c1" ++ [.exec duoStart (.resync "lamp")] ++ parks 0 "c2" ++
      [.remote "motor" (.finishes "c2" .succeeded),
        .exec duoStart (.deliver "motor" (.completed "c2" .succeeded)),
        .exec duoStart (.cue 0)])
    (fun r => r.1.all (fun x => x.src.Apart x.label) && r.1.any (givesUp "lamp" 1))
    (by decide +kernel)
  simp only [Bool.and_eq_true, List.all_eq_true, List.any_eq_true] at hs
  have hscope := (resync_scope_iff (by decide +kernel) ["motor", "lamp"] "run-1"
    (fun client => client) run).mpr hs.1
  exact ⟨xs, s, run, hs.2, hscope.1, hscope.2 0⟩

/-- The defect: the lamp's stream is told to resync, and the motor's Cue is
given the outcome UNKNOWN while its command is in progress. -/
theorem resync_reaches_motor :
    ¬ ∀ xs s, Run TimelineNetwork.step duoNetwork xs s → (∀ x ∈ xs, Spares x) ∧
      ∀ i cue, s.exec.timeline.cues[i]? = some cue →
        (∀ x ∈ xs, givesUp cue.runtime i x = false) → s.OwnOutcome i cue := by
  intro hall
  obtain ⟨xs, s, run, hs⟩ := execSteps_test TimelineNetwork.step duoNetwork
    (duoBegins ++ parks 0 "c1" ++ [.exec duoStart (.resync "lamp"), .exec duoStart (.cue 0)])
    (fun r => (r.2.exec.outcomes.get "a").any (fun o => o.outcome = "UNKNOWN") &&
      (r.2.remote "motor").commands "c1" = some .inProgress &&
      r.1.any fun x => resyncs "lamp" x.label && x.src.inFlight 0 && !x.dst.inFlight 0 &&
        (x.src.exec.timeline.cues[0]?).any fun cue => cue.runtime ≠ "lamp")
    (by decide +kernel)
  simp only [Bool.and_eq_true, List.any_eq_true, Option.any_eq_true, decide_eq_true_eq,
    Bool.not_eq_true'] at hs
  obtain ⟨-, x, hx, ⟨⟨hlabel, hbefore⟩, hafter⟩, cue, hcue, hruntime⟩ := hs
  have hkept := (hall xs s run).1 x hx "lamp" hlabel 0 cue hcue hruntime hbefore
  rw [hafter] at hkept
  cases hkept

end TimelineNetwork

end Fusion
