import Fusion.Core.NetworkSteps

/-!
# StuckCues — Cues that nobody will resolve

`_listen` resolves the pending futures when it is told to resync. It does not
when its stream just ends, and once it has ended nobody reads the events of
its client: a Cue that then finds its command in progress waits for ever.
`Heard` steps are the ways into this; without them no Cue is stuck.
-/

namespace Fusion

open Transition

variable {V : Type}

namespace Execution

variable {env : Env} {s t : Execution V}

theorem listeners_submitAnswered (s : Execution V) (i : Nat) (cue : Cue V)
    (answer : Except ClientError (CommandId × CommandView)) :
    (s.submitAnswered i cue answer).listeners = s.listeners := by
  match answer with
  | .error (.command _) | .error (.other _) | .ok (_, .terminal _) | .ok (_, .inProgress) => rfl

theorem Rechecked.listeners {i : Nat} {cue : Cue V} {c : CommandId}
    (h : Rechecked s i cue c t) : t.listeners = s.listeners := by
  cases h with
  | breaks _ => rfl
  | records hu _ | awaits hu => exact hu.listeners

/-- What ends a listener, or tells it to stop. -/
theorem Moves.listener {l : ExecLabel} (h : Moves env s l t) (client : String) :
    t.listeners client = s.listeners client ∨
      s.phase.early = true ∧ client ∈ s.clients ∧ t.listeners client = .streaming ∨
      s.listeners client ≠ .unborn ∧
        (l = .streamEnds client ∨ l = .gathered ∨ l = .resync client) := by
  cases h with
  | rests _ _ _ hl =>
    rcases hl client with heq | ⟨hborn, hl⟩
    · exact .inl heq
    · exact .inr (.inr ⟨hborn, hl.elim .inl fun h => .inr (.inl h)⟩)
  | delivers _ => exact .inl (by rw [(resolves_deliver s _).listeners])
  | @resyncs name hopen =>
    by_cases hc : client = name
    · subst hc
      exact .inr (.inr ⟨by rw [hopen]; nofun, .inr (.inr rfl)⟩)
    · left
      exact (Function.update_of_ne hc _ _).trans (by rw [(resolves_resync s).listeners])
  | spawns early _ h =>
    rw [h.listeners client]
    split
    · rename_i hmem
      exact .inr (.inl ⟨early, hmem, rfl⟩)
    · exact .inl rfl
  | gate _ _ h => cases h <;> exact .inl rfl
  | resumes _ _ _ => exact .inl rfl
  | submitted _ _ => exact .inl (by rw [listeners_submitAnswered])
  | rechecked _ _ => exact .inl (by rw [(rechecked_recheckAnswered ..).listeners])
  | cancelled _ _ => exact .inl rfl

/-- `resync` leaves no registered future pending. -/
theorem resync_resolves (s : Execution V) {c : CommandId} {i : Nat}
    (h : s.pending.get c = some i) : s.resync.futures i ≠ some .pending := by
  have hmem : i ∈ s.pending.items.map Prod.snd :=
    List.mem_map.mpr ⟨(c, i), Dict.get_eq_some_iff.mp h, rfl⟩
  unfold resync
  generalize s.pending.items.map Prod.snd = is at hmem
  clear h
  induction is generalizing s with
  | nil => cases hmem
  | cons k is ih =>
    rcases List.mem_cons.mp hmem with rfl | hmem
    · -- resolved here, and never pending again
      have hnow : (s.resolve i "UNKNOWN").futures i ≠ some .pending := by
        unfold resolve
        split
        · simp
        · rename_i hno
          exact fun h => hno h
      have hlater : ∀ (ks : List Nat) (u : Execution V), u.futures i ≠ some .pending →
          (ks.foldl (fun u k => u.resolve k "UNKNOWN") u).futures i ≠ some .pending := by
        intro ks
        induction ks with
        | nil => exact fun _ h => h
        | cons k ks ihk =>
          intro u hu
          exact ihk _ fun hp => hu ((follows_resolve u k "UNKNOWN" i).of_pending hp)
      exact hlater is _ hnow
    · exact ih _ hmem

end Execution

namespace TimelineNetwork

open Execution

variable {s t : TimelineNetwork V}

/-! ## The property -/

/-- For a Cue: no request is under way, and its accepted command is finished. -/
def atRest (s : TimelineNetwork V) (i : Nat) (cue : Cue V) : Bool :=
  (match (s.exec.tasks i).pc with
    | .submitting | .rechecking _ => false
    | _ => true) &&
  match (s.rpcs i).served with
  | .accepted c =>
      match (s.remote cue.runtime).commands c with
      | some (.terminal _) => true
      | _ => false
  | _ => true

/-- Every accepted command is finished, and no request, response or event is
under way: the open streams have delivered what was published. -/
def quiet (s : TimelineNetwork V) : Bool :=
  (s.exec.positions.all fun i => (s.exec.timeline.cues[i]?).all (s.atRest i)) &&
  s.exec.clients.all fun client => s.exec.listeners client ≠ .streaming ||
    s.delivered client = (s.remote client).log.length

/-- The Cue of this client waits on a future after a re-check that found its
command in progress. -/
def unresolved (s : TimelineNetwork V) (client : String) (i : Nat) : Bool :=
  ((s.exec.timeline.cues[i]?).any fun cue => cue.runtime = client) &&
  s.exec.futures i = some .pending &&
  match (s.exec.tasks i).pc, (s.rpcs i).record with
  | .awaiting _, _ => true
  | .rechecking _, some (.ok .inProgress) => true
  | _, _ => false

/-- A stream just ends while no Cue of its client waits unresolved; a
re-check after the end of the stream finds the command finished; `run` gets
to its `finally` when every Cue task has ended, and is not cancelled; no
request is lost. -/
def Heard (s : TimelineNetwork V) : NetLabel → Bool
  | .exec _ (.streamEnds client) =>
      s.exec.listeners client ≠ .streaming ||
        s.exec.positions.all fun i => !s.unresolved client i
  | .exec _ .gathered => s.exec.positions.all fun i => (s.exec.tasks i).pc.isEnded
  | .exec _ .cancelRun | .lose _ _ | .loseRecord _ _ => false
  | .readRecord i =>
      match s.exec.timeline.cues[i]?, (s.exec.tasks i).pc with
      | some cue, .rechecking c =>
          s.exec.listeners cue.runtime = .streaming ||
            (s.remote cue.runtime).commands c ≠ some .inProgress
      | _, _ => true
  | _ => true

theorem unresolved_of_parks {i : Nat} {cue : Cue V} {c : CommandId}
    (hcue : s.exec.timeline.cues[i]? = some cue)
    (hc : ParksOn (s.exec.tasks i).pc (s.rpcs i).record c)
    (hpend : s.exec.futures i = some .pending) : s.unresolved cue.runtime i = true := by
  rcases hc with hpc | ⟨hpc, hrecord⟩
  · simp [unresolved, hcue, hpend, hpc]
  · simp [unresolved, hcue, hpend, hpc, hrecord]

theorem mem_positions {i : Nat} {cue : Cue V} (hcue : s.exec.timeline.cues[i]? = some cue) :
    i ∈ s.exec.positions := by
  rw [positions, List.mem_range]
  exact (List.getElem?_eq_some_iff.mp hcue).1

/-! ## The invariant -/

/-- Whoever waits for a completion is listening for it. -/
structure HeardInv (s : TimelineNetwork V) : Prop where
  net : NetInv s
  /-- the stream of a parked Cue is open -/
  heard : ∀ i cue c, s.exec.timeline.cues[i]? = some cue →
    ParksOn (s.exec.tasks i).pc (s.rpcs i).record c → s.exec.futures i = some .pending →
    s.exec.listeners cue.runtime = .streaming
  listening : ∀ client, s.exec.listeners client ≠ .unborn → client ∈ s.exec.clients
  uncancelled : ∀ i, (s.exec.tasks i).cancelRequested = false
  answer : ∀ i message, (s.rpcs i).answer ≠ some (.error (.other message))
  record : ∀ i message, (s.rpcs i).record ≠ some (.error message)
  returned : ∀ i cue how, s.exec.timeline.cues[i]? = some cue → i ∈ s.exec.calls →
    (s.exec.tasks i).pc = .ended how → how = .returned

theorem HeardInv.init {timeline : Timeline V} (h : validateTimeline timeline = [])
    (clients : List String) (runId : String) (host : String → String) :
    HeardInv (init timeline clients runId host) where
  net := .init h clients runId host
  heard := by
    rintro i cue c - (hc | ⟨hc, -⟩) <;> cases hc
  listening := fun _ h => absurd rfl h
  uncancelled := fun _ => rfl
  answer := nofun
  record := nofun
  returned := nofun

/-- A task that ends after its submission was told how. -/
theorem returned_of_ended (hi : HeardInv s) {env : Env} {label : ExecLabel} {exec : Execution V}
    (hoffers : s.offers label = true) (h : s.exec.step env label = some exec) {i : Nat}
    {cue : Cue V} {how : TaskEnd} (hcue : s.exec.timeline.cues[i]? = some cue)
    (hcalled : i ∈ exec.calls) (hpc : (exec.tasks i).pc = .ended how) : how = .returned := by
  have hmoves := Execution.step_moves h
  have hbefore : i ∈ s.exec.calls := by
    rcases hmoves.cueStep.called_before hcalled with hbefore | hnow
    · exact hbefore
    · rw [hpc] at hnow
      cases hnow
  by_cases hmover : label.mover = some i
  swap
  · rcases hmoves.stays hmover with hsame | hcreated
    · exact hi.returned i cue how hcue hbefore (hsame ▸ hpc)
    · rw [hpc] at hcreated
      cases hcreated
  cases hmoves with
  | rests hr _ _ _ => exact hi.returned i cue how hcue hbefore ((hr.pc i).symm.trans hpc)
  | delivers _ => cases hmover
  | resyncs _ => cases hmover
  | spawns early _ _ =>
    -- there are no calls before there are tasks
    have hunborn := hi.net.gate.early early i
    have := ((hi.net.gate.passed i).called (by rw [hunborn]; rfl)).mp hbefore
    rw [hunborn] at this
    cases this
  | gate _ hgate _ =>
    cases hmover
    obtain ⟨-, hno, hlive⟩ := gate_live hgate
    have := ((hi.net.gate.passed i).called hlive).mp hbefore
    rw [hno] at this
    cases this
  | resumes _ _ _ =>
    cases hmover
    rw [endCue, pc_setPc_self] at hpc
    cases hpc
    rfl
  | cancelled hasked _ =>
    cases hmover
    rw [hi.uncancelled i] at hasked
    cases hasked
  | @submitted k cue' answer _ _ =>
    cases hmover
    simp only [offers, decide_eq_true_eq] at hoffers
    cases answer with
    | error failure =>
      cases failure with
      | other message => exact absurd hoffers (hi.answer i message)
      | command message =>
        have hpc := (pc_setPc_self _ i (.ended .returned)).symm.trans hpc
        cases hpc
        rfl
    | ok made =>
      obtain ⟨c, view⟩ := made
      cases view with
      | terminal outcome =>
        have hpc := (pc_setPc_self _ i (.ended .returned)).symm.trans hpc
        cases hpc
        rfl
      | inProgress =>
        have hpc := (pc_setPc_self _ i (.rechecking c)).symm.trans hpc
        cases hpc
  | @rechecked k cue' c answer _ _ =>
    cases hmover
    simp only [offers, decide_eq_true_eq] at hoffers
    cases answer with
    | error message => exact absurd hoffers (hi.record i message)
    | ok view =>
      obtain ⟨u, -, -, -, -, -, -, heq⟩ := recheckAnswered_ok s.exec i cue' c view
      rw [heq, lookAtFuture] at hpc
      split at hpc
      · rw [endCue, pc_setPc_self] at hpc
        cases hpc
        rfl
      · rw [pc_setPc_self] at hpc
        cases hpc

/-- A parked Cue's stream stays open through a heard step. -/
theorem heard_exec (hi : HeardInv s) {env : Env} {label : ExecLabel} {exec : Execution V}
    (hoffers : s.offers label = true) (h : s.exec.step env label = some exec)
    (hok : s.Heard (.exec env label) = true) {i : Nat} {cue : Cue V} {c : CommandId}
    (hcue : s.exec.timeline.cues[i]? = some cue)
    (hc : ParksOn (exec.tasks i).pc (s.rpcs i).record c)
    (hpend : exec.futures i = some .pending) : exec.listeners cue.runtime = .streaming := by
  obtain ⟨hparked, hbefore⟩ := parked_before hi.net hoffers h hcue hc hpend
  have hopen := hi.heard i cue c hcue hparked hbefore
  have hmoves := Execution.step_moves h
  rcases hmoves.listener cue.runtime with hsame | ⟨-, -, hstreaming⟩ | ⟨-, rfl | rfl | rfl⟩
  · exact hsame.trans hopen
  · exact hstreaming
  · -- the stream does not end while the Cue waits
    simp only [Heard, hopen, ne_eq, not_true_eq_false, decide_false, Bool.false_or,
      List.all_eq_true, Bool.not_eq_true'] at hok
    have := hok i (mem_positions hcue)
    rw [unresolved_of_parks hcue hparked hbefore] at this
    cases this
  · -- every task has ended
    simp only [Heard, List.all_eq_true] at hok
    have hended := hok i (mem_positions hcue)
    rcases hparked with hparked | ⟨hparked, -⟩ <;> rw [hparked] at hended <;> cases hended
  · -- its future is registered, so it is resolved
    have hpending := ((hi.net.tracked i cue hcue).registered c hparked.waitsFor).2.1
    have hexec : exec = s.exec.resync.setListener cue.runtime .ended := by
      simp only [Execution.step, hopen, if_true] at h
      exact (Option.some.inj h).symm
    rw [hexec] at hpend
    exact absurd hpend (resync_resolves s.exec hpending)

theorem HeardInv.exec (hi : HeardInv s) {env : Env} {label : ExecLabel} {exec : Execution V}
    (hoffers : s.offers label = true) (h : s.exec.step env label = some exec)
    (hok : s.Heard (.exec env label) = true) :
    HeardInv { s with exec := exec, delivered := s.deliveredAfter label } := by
  have hmoves := Execution.step_moves h
  have hlabel : label ≠ .cancelRun := by
    rintro rfl
    cases hok
  refine ⟨hi.net.exec hoffers h, ?_, ?_, ?_, hi.answer, hi.record, ?_⟩
  · intro i cue c hcue hc hpend
    rw [hmoves.cueStep.timeline] at hcue
    exact heard_exec hi hoffers h hok hcue hc hpend
  · intro client hborn
    show client ∈ exec.clients
    rw [hmoves.clients]
    rcases hmoves.listener client with hsame | ⟨-, hmem, -⟩ | ⟨hborn', -⟩
    · exact hi.listening client (hsame ▸ hborn)
    · exact hmem
    · exact hi.listening client hborn'
  · intro i
    rcases hmoves.flags hlabel i with hsame | ⟨-, hno⟩
    · exact hsame.trans (hi.uncancelled i)
    · exact hno
  · intro i cue how hcue hcalled hpc
    rw [hmoves.cueStep.timeline] at hcue
    exact returned_of_ended hi hoffers h hcue hcalled hpc

/-- Only the requests of one Cue change. -/
theorem HeardInv.setRpc (hi : HeardInv s) {i : Nat} {rpc : Rpc} (net : NetInv (s.setRpc i rpc))
    (heard : ∀ cue c, s.exec.timeline.cues[i]? = some cue →
      ParksOn (s.exec.tasks i).pc rpc.record c → s.exec.futures i = some .pending →
      s.exec.listeners cue.runtime = .streaming)
    (answer : ∀ message, rpc.answer ≠ some (.error (.other message)))
    (record : ∀ message, rpc.record ≠ some (.error message)) : HeardInv (s.setRpc i rpc) where
  net := net
  heard := by
    intro j cue c hcue hc
    have hc : ParksOn (s.exec.tasks j).pc (Function.update s.rpcs i rpc j).record c := hc
    by_cases hj : j = i
    · subst hj
      rw [Function.update_self] at hc
      exact heard cue c hcue hc
    · rw [Function.update_of_ne hj] at hc
      exact hi.heard j cue c hcue hc
  listening := hi.listening
  uncancelled := hi.uncancelled
  answer := by
    intro j message
    show (Function.update s.rpcs i rpc j).answer ≠ _
    by_cases hj : j = i
    · subst hj
      rw [Function.update_self]
      exact answer message
    · rw [Function.update_of_ne hj]
      exact hi.answer j message
  record := by
    intro j message
    show (Function.update s.rpcs i rpc j).record ≠ _
    by_cases hj : j = i
    · subst hj
      rw [Function.update_self]
      exact record message
    · rw [Function.update_of_ne hj]
      exact hi.record j message
  returned := hi.returned

theorem HeardInv.evolve (hi : HeardInv s) {name : String} {l : RemoteLabel}
    (h : s.evolve name l = some t) : HeardInv t := by
  have hnet := hi.net.evolve h
  obtain ⟨r, made, -, rfl, -, -⟩ := evolve_cases h
  exact ⟨hnet, hi.heard, hi.listening, hi.uncancelled, hi.answer, hi.record, hi.returned⟩

theorem HeardInv.step (hi : HeardInv s) {l : NetLabel} (h : s.step l = some t)
    (hok : s.Heard l = true) : HeardInv t := by
  have hnet := hi.net.step h
  cases step_netMoves h with
  | exec hoffers hexec => exact hi.exec hoffers hexec hok
  | @accept i c cue u hcue hcalled hserved hu =>
    have hiu := hi.evolve hu
    obtain ⟨r, made, -, rfl, -, -⟩ := evolve_cases hu
    exact hiu.setRpc hnet (fun cue c hcue hc => hi.heard i cue c hcue hc) (hi.answer i)
      (hi.record i)
  | @refuse i message hcalled hserved =>
    refine hi.setRpc hnet (fun cue c hcue hc => hi.heard i cue c hcue hc) ?_ (hi.record i)
    intro message' ha
    cases hans : (s.rpcs i).answer with
    | none =>
      rw [hans] at ha
      cases ha
    | some answer => exact hi.answer i message' (by simpa [hans] using ha)
  | @respond i =>
    refine hi.setRpc hnet (fun cue c hcue hc => hi.heard i cue c hcue hc) ?_ (hi.record i)
    intro message ha
    cases ha
  | lose => cases hok
  | loseRecord => cases hok
  | @readRecord i c cue view hcue hpc hview =>
    refine hi.setRpc hnet ?_ (hi.answer i) (by intro message ha; cases ha)
    intro cue' c' hcue' hc' _
    obtain rfl : cue = cue' := Option.some.inj (hcue.symm.trans hcue')
    -- the command was found in progress, so the stream is open
    rw [hpc] at hc'
    rcases hc' with hc' | ⟨hc', hv⟩
    · cases hc'
    · cases hc'
      cases hv
      simpa [Heard, hcue, hpc, hview] using hok
  | remote h => exact hi.evolve h

end TimelineNetwork

end Fusion
