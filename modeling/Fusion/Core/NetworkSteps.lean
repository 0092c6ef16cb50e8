import Fusion.Core.TimelineNetwork

/-!
# NetworkSteps — what is known of a Cue's command

The completion of a Cue may come with the response of `submit_command`, with
the re-check, or with an event before, during or after the registration of
its future. `NetInv` ties the three together: the command of a task that
waits is its own, what is under way is not ahead of the record, and the
completion of a command that a parked task waits for is still to be read.
-/

namespace Fusion

open Transition

variable {V : Type}

/-! ## The executor's part of a step, for one Cue -/

/-- The task of the Cue has an accepted command and no outcome yet. -/
def CuePc.waitsFor (pc : CuePc) (c : CommandId) : Prop := pc = .rechecking c ∨ pc = .awaiting c

/-- The response of `submit_command` has not got to the task. -/
def CuePc.unanswered : CuePc → Bool
  | unborn | created | waiting _ _ | sleeping | submitting => true
  | _ => false

theorem CuePc.waitsFor.called {pc : CuePc} {c : CommandId} (h : pc.waitsFor c) :
    pc.called = true ∧ pc.live = true ∧ pc.unanswered = false := by
  rcases h with rfl | rfl <;> exact ⟨rfl, rfl, rfl⟩

namespace Execution

variable {env : Env} {s t : Execution V}

/-- What Cue `j` waits for, if anything, it waited for before; its future can
only have been resolved. -/
structure Follows (s t : Execution V) (j : Nat) : Prop where
  calls : j ∈ s.calls → j ∈ t.calls
  pc : (t.tasks j).pc = (s.tasks j).pc ∨ ∀ c, ¬ (t.tasks j).pc.waitsFor c
  unanswered : (t.tasks j).pc.unanswered = true → (s.tasks j).pc.unanswered = true
  pending : ∀ c, t.pending.get c = some j ↔ s.pending.get c = some j
  future : t.futures j = s.futures j ∨
    s.futures j = some .pending ∧ ∃ v, t.futures j = some (.resolved v)

theorem Follows.futures_ne_none {j : Nat} (h : Follows s t j) (hs : s.futures j ≠ none) :
    t.futures j ≠ none := by
  rcases h.future with heq | ⟨-, v, heq⟩
  · rwa [heq]
  · rw [heq]
    nofun

theorem Follows.of_pending {j : Nat} (h : Follows s t j) (ht : t.futures j = some .pending) :
    s.futures j = some .pending := by
  rcases h.future with heq | ⟨-, v, heq⟩
  · rwa [← heq]
  · rw [heq] at ht
    cases ht

theorem Follows.refl (s : Execution V) (j : Nat) : Follows s s j :=
  ⟨id, .inl rfl, id, fun _ => .rfl, .inl rfl⟩

theorem Follows.trans {u : Execution V} {j : Nat} (h : Follows s t j) (h' : Follows t u j) :
    Follows s u j where
  calls := fun hj => h'.calls (h.calls hj)
  pc := by
    rcases h'.pc with heq | hno
    · rcases h.pc with heq' | hno'
      · exact .inl (heq.trans heq')
      · exact .inr (fun c => heq ▸ hno' c)
    · exact .inr hno
  unanswered := fun hu => h.unanswered (h'.unanswered hu)
  pending := fun c => (h'.pending c).trans (h.pending c)
  future := by
    rcases h'.future with heq | ⟨hpend, v, hv⟩
    · rw [heq]
      exact h.future
    · exact .inr ⟨h.of_pending hpend, v, hv⟩

theorem Rests.follows (h : Rests s t) (hfutures : ∀ j, t.futures j = s.futures j ∨
    s.futures j = some .pending ∧ ∃ v, t.futures j = some (.resolved v)) (j : Nat) :
    Follows s t j where
  calls := by
    rw [calls_congr h.submitted]
    exact id
  pc := .inl (h.pc j)
  unanswered := by
    rw [h.pc j]
    exact id
  pending := fun c => by rw [h.pending]
  future := hfutures j

/-- Resolving a future, for every Cue. -/
theorem futures_resolve (s : Execution V) (i : Nat) (outcome : String) (j : Nat) :
    (s.resolve i outcome).futures j = s.futures j ∨
      j = i ∧ s.futures j = some .pending ∧
        (s.resolve i outcome).futures j = some (.resolved outcome) := by
  unfold resolve
  split
  · rename_i hpend
    by_cases hj : j = i
    · subst hj
      exact .inr ⟨rfl, hpend, by simp⟩
    · left
      simp [hj]
  · exact .inl rfl

theorem follows_resolve (s : Execution V) (i : Nat) (outcome : String) (j : Nat) :
    Follows s (s.resolve i outcome) j :=
  (Rests.resolve s i outcome).follows
    (fun k => (futures_resolve s i outcome k).imp id (fun h => ⟨h.2.1, _, h.2.2⟩)) j

theorem follows_resync (s : Execution V) (j : Nat) : Follows s s.resync j := by
  unfold resync
  generalize s.pending.items.map Prod.snd = is
  induction is generalizing s with
  | nil => exact Follows.refl s j
  | cons i is ih => exact (follows_resolve s i "UNKNOWN" j).trans (ih _)

theorem follows_deliver (s : Execution V) (event : WireEvent) (j : Nat) :
    Follows s (s.deliver event) j := by
  cases event with
  | other => exact Follows.refl s j
  | completed c outcome =>
    simp only [deliver]
    cases s.pending.get c with
    | none => exact Follows.refl s j
    | some i => exact follows_resolve s i outcome.value j

/-- One task moves to where it waits for nothing. -/
theorem Goes.follows {i : Nat} {pc : CuePc} (h : Goes s t i pc) (hno : ∀ c, ¬ pc.waitsFor c)
    (hun : pc.unanswered = true → (s.tasks i).pc.unanswered = true)
    (hcalls : ∀ j, j ∈ s.calls → j ∈ t.calls) (hpending : t.pending = s.pending)
    (hfutures : ∀ j, t.futures j = s.futures j ∨
      s.futures j = some .pending ∧ ∃ v, t.futures j = some (.resolved v)) (j : Nat) :
    Follows s t j where
  calls := hcalls j
  pc := by
    by_cases hj : j = i
    · subst hj
      right
      rw [h.own]
      exact hno
    · exact .inl (h.others j hj)
  unanswered := by
    by_cases hj : j = i
    · subst hj
      rw [h.own]
      exact hun
    · rw [h.others j hj]
      exact id
  pending := fun c => by rw [hpending]
  future := hfutures j

theorem ended_waits_for_nothing (how : TaskEnd) (c : CommandId) :
    ¬ (CuePc.ended how).waitsFor c := by
  rintro (h | h) <;> cases h

/-- A task that ends, after futures may have been resolved. -/
theorem follows_ended {u : Execution V} {i : Nat} {how : TaskEnd}
    (h : Goes s t i (.ended how)) (hu : ∀ j, Follows s u j) (hsubmitted : t.submitted = s.submitted)
    (hpending : t.pending = s.pending) (hfutures : t.futures = u.futures) (j : Nat) :
    Follows s t j := by
  refine h.follows (ended_waits_for_nothing how) nofun ?_ hpending ?_ j
  · intro k hk
    rw [calls_congr hsubmitted]
    exact hk
  · intro k
    rw [hfutures]
    exact (hu k).future

theorem Gate.follows {i : Nat} {cue : Cue V} {deps : List String}
    (hpc : (s.tasks i).pc.gate cue = some deps) (h : Gate env s i cue deps t) (j : Nat) :
    Follows s t j := by
  have hun : (s.tasks i).pc.unanswered = true := by
    cases hs : (s.tasks i).pc <;> rw [hs] at hpc <;> first | rfl | cases hpc
  have hself : ∀ j, Follows s s j := Follows.refl s
  cases h with
  | waits pre dep rest _ _ =>
    exact (goes_setPc s i _).follows (by rintro c (h | h) <;> cases h) (fun _ => hun)
      (fun _ => id) rfl (fun _ => .inl rfl) j
  | sleeps _ =>
    exact (goes_setPc s i _).follows (by rintro c (h | h) <;> cases h) (fun _ => hun)
      (fun _ => id) rfl (fun _ => .inl rfl) j
  | skips detail =>
    exact follows_ended (goes_finish (.refl s) rfl i cue _ _ _) hself rfl rfl rfl j
  | aborts detail message =>
    exact follows_ended (goes_finish (.refl s) rfl i cue _ _ _) hself rfl rfl rfl j
  | breaks message => exact follows_ended (goes_setPc s i _) hself rfl rfl rfl j
  | submits sessionId _ _ _ _ _ _ =>
    have goes : Goes s
        { s.setPc i .submitting with
          submitted := s.submitted ++ [⟨i, cue.runtime, s.request cue sessionId⟩] } i .submitting :=
      { goes_setPc s i .submitting with timeline := rfl }
    refine goes.follows (by rintro c (h | h) <;> cases h) (fun _ => hun) ?_ rfl
      (fun _ => .inl rfl) j
    intro k hk
    simp only [calls, List.map_append, List.mem_append]
    exact .inl hk

theorem follows_setPc_ne (s : Execution V) {i j : Nat} (pc : CuePc) (h : j ≠ i) :
    Follows s (s.setPc i pc) j where
  calls := id
  pc := .inl (by rw [tasks_setPc_ne s pc h])
  unanswered := by
    rw [tasks_setPc_ne s pc h]
    exact id
  pending := fun _ => .rfl
  future := .inl rfl

theorem follows_registers (s : Execution V) {i j : Nat} (cue : Cue V) {c : CommandId}
    (h : j ≠ i) (hc : s.pending.get c ≠ some j) :
    Follows s (s.submitAnswered i cue (.ok (c, .inProgress))) j :=
  { follows_setPc_ne s (.rechecking c) h with
    pending := by
      intro c'
      show (s.pending.set c i).get c' = _ ↔ _
      rw [Dict.get_set]
      by_cases hcc : c = c'
      · subst hcc
        rw [if_pos rfl]
        exact ⟨fun he => absurd (Option.some.inj he).symm h, fun he => absurd he hc⟩
      · rw [if_neg hcc]
    future := .inl (Function.update_of_ne h _ _) }

/-- **A step of the executor, for the network**: a task registers its
future, or parks on it, or every Cue follows. -/
inductive NetStep (s t : Execution V) : ExecLabel → Prop
  | follows {l : ExecLabel} (timeline : t.timeline = s.timeline) (follows : ∀ j, Follows s t j) :
      NetStep s t l
  | registers {i : Nat} {cue : Cue V} {c : CommandId} (cueAt : s.timeline.cues[i]? = some cue)
      (pc : (s.tasks i).pc = .submitting)
      (eq : t = s.submitAnswered i cue (.ok (c, .inProgress))) :
      NetStep s t (.submitAnswered i (.ok (c, .inProgress)))
  | parks {i : Nat} {cue : Cue V} {c : CommandId} (cueAt : s.timeline.cues[i]? = some cue)
      (pc : (s.tasks i).pc = .rechecking c) (future : s.futures i = some .pending)
      (eq : t = s.setPc i (.awaiting c)) : NetStep s t (.recheckAnswered i (.ok .inProgress))

theorem netStep_submitted {i : Nat} {cue : Cue V} (hat : s.timeline.cues[i]? = some cue)
    (hpc : (s.tasks i).pc = .submitting) (answer : Except ClientError (CommandId × CommandView)) :
    NetStep s (s.submitAnswered i cue answer) (.submitAnswered i answer) := by
  have hself : ∀ j, Follows s s j := Follows.refl s
  match answer with
  | .error (.command message) =>
    exact .follows rfl (follows_ended (goes_finish (.refl s) rfl i cue _ _ _) hself rfl rfl rfl)
  | .error (.other message) =>
    exact .follows rfl (follows_ended (goes_setPc s i _) hself rfl rfl rfl)
  | .ok (_, .terminal outcome) =>
    exact .follows rfl (follows_ended (goes_finish (.refl s) rfl i cue _ _ _) hself rfl rfl rfl)
  | .ok (c, .inProgress) => exact .registers hat hpc rfl

/-- What a task does with its future once the record is read. -/
def lookAtFuture (s : Execution V) (i : Nat) (cue : Cue V) (c : CommandId) : Execution V :=
  match s.futures i with
  | some (.resolved outcome) => (s.finish cue outcome none).endCue i .returned
  | _ => s.setPc i (.awaiting c)

theorem recheckAnswered_ok (s : Execution V) (i : Nat) (cue : Cue V) (c : CommandId)
    (view : CommandView) : ∃ u, Rests s u ∧ u.phase = s.phase ∧ (∀ j, Follows s u j) ∧
      (view = .inProgress → u = s) ∧
      (∀ outcome, view = .terminal outcome → u = s.resolve i outcome.value) ∧
      (s.recheckAnswered i cue c (.ok view)).futures = u.futures ∧
      s.recheckAnswered i cue c (.ok view) = u.lookAtFuture i cue c := by
  cases view with
  | inProgress =>
    refine ⟨s, .refl s, rfl, Follows.refl s, fun _ => rfl, ?_, ?_, rfl⟩
    · intro outcome h
      cases h
    · simp only [recheckAnswered]
      split <;> rfl
  | terminal outcome =>
    refine ⟨_, .resolve s i outcome.value, (resolves_resolve s i _).phase,
      follows_resolve s i _, ?_, ?_, ?_, rfl⟩
    · intro h
      cases h
    · intro outcome' h
      cases h
      rfl
    · simp only [recheckAnswered]
      split <;> rfl

/-- The re-check resolves the future with the outcome it reads. -/
theorem futures_rechecked (s : Execution V) (i : Nat) (cue : Cue V) (c : CommandId)
    (view : CommandView) : (s.recheckAnswered i cue c (.ok view)).futures =
      match view with
      | .inProgress => s.futures
      | .terminal outcome => (s.resolve i outcome.value).futures := by
  obtain ⟨u, -, -, -, hsame, hresolved, hfutures, -⟩ := recheckAnswered_ok s i cue c view
  rw [hfutures]
  cases view with
  | inProgress => rw [hsame rfl]
  | terminal outcome => rw [hresolved outcome rfl]

/-- A re-check that does not end the task found a command in progress and an
unresolved future. -/
theorem netStep_rechecked {i : Nat} {cue : Cue V} {c : CommandId}
    (hat : s.timeline.cues[i]? = some cue) (hpc : (s.tasks i).pc = .rechecking c)
    (hfuture : s.futures i ≠ none) (answer : Except String CommandView) :
    NetStep s (s.recheckAnswered i cue c answer) (.recheckAnswered i answer) := by
  cases answer with
  | error message =>
    exact .follows rfl (follows_ended (goes_setPc s i _) (Follows.refl s) rfl rfl rfl)
  | ok view =>
    obtain ⟨u, hu, hphase, hfollows, hsame, hresolved, -, heq⟩ :=
      recheckAnswered_ok s i cue c view
    have hends : ∀ outcome, Goes s ((u.finish cue outcome none).endCue i .returned) i _ :=
      fun _ => goes_finish hu hphase i cue _ _ _
    cases hf : u.futures i with
    | none => exact absurd hf ((hfollows i).futures_ne_none hfuture)
    | some f =>
      cases f with
      | resolved outcome =>
        rw [heq, lookAtFuture, hf]
        exact .follows hu.timeline
          (follows_ended (hends outcome) hfollows hu.submitted hu.pending rfl)
      | pending =>
        have hpend : s.futures i = some .pending := (hfollows i).of_pending hf
        cases view with
        | inProgress =>
          rw [heq, lookAtFuture, hf, hsame rfl]
          exact .parks hat hpc hpend rfl
        | terminal outcome =>
          rw [hresolved outcome rfl, resolve, hpend] at hf
          simp at hf

theorem Moves.netStep {l : ExecLabel} (h : Moves env s l t) (hi : GateInv s)
    (hfuture : ∀ i cue c, s.timeline.cues[i]? = some cue → (s.tasks i).pc = .rechecking c →
      s.futures i ≠ none) : NetStep s t l := by
  have hself : ∀ j, Follows s s j := Follows.refl s
  cases h with
  | rests h hf _ _ => exact .follows h.timeline (h.follows fun j => .inl (by rw [hf]))
  | delivers _ => exact .follows (Rests.deliver s _).timeline (follows_deliver s _)
  | resyncs _ =>
    refine .follows (Rests.resync s).timeline fun j => (follows_resync s j).trans ?_
    exact (Rests.setListener _ _ _).follows (fun _ => .inl rfl) j
  | spawns early _ h =>
    refine .follows h.timeline fun j =>
      ⟨?_, ?_, ?_, fun c => by rw [h.pending], .inl (by rw [h.futures])⟩
    · rw [calls_congr h.submitted]
      exact id
    · rw [h.tasks j]
      split
      · exact .inr (by rintro c (h | h) <;> cases h)
      · exact .inl rfl
    · intro _
      rw [hi.early early j]
      rfl
  | gate hat hpc h => exact .follows (h.cueStep (cueAt_some hat).1 hpc).timeline (h.follows hpc)
  | resumes hat hpc _ =>
    exact .follows rfl (follows_ended (goes_finish (.refl s) rfl _ _ _ _ _) hself rfl rfl rfl)
  | submitted hat hpc => exact netStep_submitted (cueAt_some hat).1 hpc _
  | rechecked hat hpc =>
    have hcue := (cueAt_some hat).1
    exact netStep_rechecked hcue hpc (hfuture _ _ _ hcue hpc) _
  | cancelled _ _ => exact .follows rfl (follows_ended (goes_setPc s _ _) hself rfl rfl rfl)

end Execution

namespace TimelineNetwork

open Execution

variable {s t : TimelineNetwork V}

/-! ## One Cue and its Runtime -/

/-- A view of a record is not ahead of it. -/
def Shows (r : Remote) (c : CommandId) (view : CommandView) : Prop :=
  ∀ outcome, view = .terminal outcome → r.commands c = some (.terminal outcome)

theorem Shows.later {r r' : Remote} {c : CommandId} {view : CommandView} (h : Shows r c view)
    (hl : r.Later r') : Shows r' c view :=
  fun outcome ho => hl.finished c outcome (h outcome ho)

/-- What the executor, the Runtime and the requests of a Cue agree on. -/
structure Tracked (exec : Execution V) (r : Remote) (rpc : Rpc) (i : Nat) : Prop where
  called : rpc.served ≠ .waiting → i ∈ exec.calls
  known : ∀ c, rpc.served = .accepted c → r.commands c ≠ none
  answered : ∀ c view, rpc.answer = some (.ok (c, view)) → rpc.served = .accepted c ∧ Shows r c view
  refused : ∀ message, rpc.answer = some (.error (.command message)) → rpc.served = .refused
  recorded : ∀ view, rpc.record = some (.ok view) → ∃ c, rpc.served = .accepted c ∧ Shows r c view
  unrecorded : (exec.tasks i).pc.unanswered = true → rpc.record = none
  registered : ∀ c, (exec.tasks i).pc.waitsFor c →
    rpc.served = .accepted c ∧ exec.pending.get c = some i ∧ exec.futures i ≠ none
  pending : ∀ c, exec.pending.get c = some i → rpc.served = .accepted c

/-- The task has read that its command is in progress. -/
def ParksOn (pc : CuePc) (record : Option (Except String CommandView)) (c : CommandId) : Prop :=
  pc = .awaiting c ∨ pc = .rechecking c ∧ record = some (.ok .inProgress)

theorem ParksOn.waitsFor {pc : CuePc} {record : Option (Except String CommandView)}
    {c : CommandId} (h : ParksOn pc record c) : pc.waitsFor c :=
  h.elim .inr fun h => .inl h.1

/-- The completion a parked task waits for is among the events its listener
has yet to receive. -/
def Unread (exec : Execution V) (r : Remote) (delivered : Nat) (rpc : Rpc) (i : Nat) : Prop :=
  ∀ c, ParksOn (exec.tasks i).pc rpc.record c → exec.futures i = some .pending →
    ∀ outcome, .completed c outcome ∉ r.log.take delivered

section
variable {exec exec' : Execution V} {r r' : Remote} {rpc : Rpc} {i : Nat}

theorem Tracked.follows (h : Tracked exec r rpc i) (hf : Follows exec exec' i)
    (hl : r.Later r') : Tracked exec' r' rpc i where
  called := fun hs => hf.calls (h.called hs)
  known := fun c hc => hl.known c (h.known c hc)
  answered := fun c view ha => (h.answered c view ha).imp_right (·.later hl)
  refused := h.refused
  recorded := fun view hv => by
    obtain ⟨c, hc, hshows⟩ := h.recorded view hv
    exact ⟨c, hc, hshows.later hl⟩
  unrecorded := fun hu => h.unrecorded (hf.unanswered hu)
  registered := fun c hc => by
    rcases hf.pc with heq | hno
    · obtain ⟨hserved, hpending, hfuture⟩ := h.registered c (heq ▸ hc)
      exact ⟨hserved, (hf.pending c).mpr hpending, hf.futures_ne_none hfuture⟩
    · exact absurd hc (hno c)
  pending := fun c hc => h.pending c ((hf.pending c).mp hc)

/-- A request that has not reached its Runtime has left no trace: no response,
no record, and no future that waits for a command of its own. -/
structure Traceless (exec : Execution V) (rpc : Rpc) (i : Nat) : Prop where
  answered : ∀ c view, rpc.answer ≠ some (.ok (c, view))
  refused : ∀ message, rpc.answer ≠ some (.error (.command message))
  recorded : ∀ view, rpc.record ≠ some (.ok view)
  registered : ∀ c, ¬(exec.tasks i).pc.waitsFor c
  pending : ∀ c, exec.pending.get c ≠ some i

theorem Tracked.traceless (h : Tracked exec r rpc i) (hserved : rpc.served = .waiting) :
    Traceless exec rpc i := by
  -- each trace would name an answer that the Runtime has given
  have hno : ∀ c, rpc.served ≠ .accepted c := by simp [hserved]
  constructor
  · intro c view ha
    exact hno c (h.answered c view ha).1
  · intro message ha
    have hrefused := h.refused message ha
    rw [hserved] at hrefused
    cases hrefused
  · intro view hv
    obtain ⟨c, hc, -⟩ := h.recorded view hv
    exact hno c hc
  · intro c hc
    exact hno c (h.registered c hc).1
  · intro c hc
    exact hno c (h.pending c hc)

theorem Tracked.accept (h : Tracked exec r rpc i) (hserved : rpc.served = .waiting)
    (hcalled : i ∈ exec.calls) {c : CommandId} (hc : r.commands c ≠ none) :
    Tracked exec r { rpc with served := .accepted c } i :=
  have hnone := h.traceless hserved
  { called := fun _ => hcalled
    known := fun c' hc' => by
      cases hc'
      exact hc
    answered := fun c' view ha => absurd ha (hnone.answered c' view)
    refused := fun message ha => absurd ha (hnone.refused message)
    recorded := fun view hv => absurd hv (hnone.recorded view)
    unrecorded := h.unrecorded
    registered := fun c' hc' => absurd hc' (hnone.registered c')
    pending := fun c' hc' => absurd hc' (hnone.pending c') }

theorem Tracked.refuse (h : Tracked exec r rpc i) (hserved : rpc.served = .waiting)
    (hcalled : i ∈ exec.calls) (message : String) :
    Tracked exec r
      { rpc with served := .refused, answer := rpc.answer.or (some (.error (.command message))) }
      i :=
  have hnone := h.traceless hserved
  { called := fun _ => hcalled
    known := nofun
    answered := fun c view ha => by
      cases hans : rpc.answer with
      | none =>
        rw [hans] at ha
        cases ha
      | some answer => exact absurd (by simpa [hans] using ha) (hnone.answered c view)
    refused := fun _ _ => rfl
    recorded := fun view hv => absurd hv (hnone.recorded view)
    unrecorded := h.unrecorded
    registered := fun c hc => absurd hc (hnone.registered c)
    pending := fun c hc => absurd hc (hnone.pending c) }

/-- A response says what the record says now. -/
theorem Tracked.respond (h : Tracked exec r rpc i) {c : CommandId}
    (hserved : rpc.served = .accepted c) {view : CommandView} (hview : r.commands c = some view) :
    Tracked exec r { rpc with answer := some (.ok (c, view)) } i :=
  { h with
    answered := fun c' view' ha => by
      cases ha
      exact ⟨hserved, fun outcome ho => ho ▸ hview⟩
    refused := nofun }

theorem Tracked.lose (h : Tracked exec r rpc i) (message : String) :
    Tracked exec r { rpc with answer := some (.error (.other message)) } i :=
  { h with
    answered := nofun
    refused := nofun }

theorem Tracked.readRecord (h : Tracked exec r rpc i) {c : CommandId}
    (hpc : (exec.tasks i).pc = .rechecking c) {view : CommandView}
    (hview : r.commands c = some view) :
    Tracked exec r { rpc with record := some (.ok view) } i :=
  { h with
    recorded := fun view' hv => by
      cases hv
      exact ⟨c, (h.registered c (.inl hpc)).1, fun outcome ho => ho ▸ hview⟩
    unrecorded := fun hu => by
      rw [hpc] at hu
      cases hu }

theorem Tracked.loseRecord (h : Tracked exec r rpc i) {c : CommandId}
    (hpc : (exec.tasks i).pc = .rechecking c) (message : String) :
    Tracked exec r { rpc with record := some (.error message) } i :=
  { h with
    recorded := nofun
    unrecorded := fun hu => by
      rw [hpc] at hu
      cases hu }

/-- The task registers the future of the command it was told. -/
theorem Tracked.registers (h : Tracked exec r rpc i) {cue : Cue V} {c : CommandId}
    (hserved : rpc.served = .accepted c) :
    Tracked (exec.submitAnswered i cue (.ok (c, .inProgress))) r rpc i :=
  { h with
    unrecorded := fun hu => by
      have hpc : ((exec.submitAnswered i cue (.ok (c, .inProgress))).tasks i).pc
          = .rechecking c := pc_setPc_self exec i _
      rw [hpc] at hu
      cases hu
    registered := fun c' hc' => by
      have hpc : ((exec.submitAnswered i cue (.ok (c, .inProgress))).tasks i).pc
          = .rechecking c := pc_setPc_self exec i _
      rw [hpc] at hc'
      obtain rfl : c = c' := by rcases hc' with hc' | hc' <;> cases hc'; rfl
      refine ⟨hserved, Dict.get_set_self _ _ _, ?_⟩
      show Function.update exec.futures i _ i ≠ none
      simp
    pending := fun c' hc' => by
      have hc' : (exec.pending.set c i).get c' = some i := hc'
      rw [Dict.get_set] at hc'
      split at hc'
      · rename_i heq
        exact heq ▸ hserved
      · exact h.pending c' hc' }

theorem Tracked.parks (h : Tracked exec r rpc i) {c : CommandId}
    (hpc : (exec.tasks i).pc = .rechecking c) :
    Tracked (exec.setPc i (.awaiting c)) r rpc i :=
  { h with
    unrecorded := fun hu => by
      rw [pc_setPc_self] at hu
      cases hu
    registered := fun c' hc' => by
      rw [pc_setPc_self] at hc'
      obtain rfl : c = c' := by rcases hc' with hc' | hc' <;> cases hc'; rfl
      exact h.registered c (.inl hpc) }

theorem Unread.follows {n : Nat} (h : Unread exec r n rpc i) (hf : Follows exec exec' i)
    (hlog : r'.log.take n = r.log.take n) : Unread exec' r' n rpc i := by
  intro c hc hpend outcome
  rw [hlog]
  rcases hf.pc with heq | hno
  · exact h c (heq ▸ hc) (hf.of_pending hpend) outcome
  · exact absurd hc.waitsFor (hno c)

end

/-! ## The invariant -/

/-- **The network invariant.** -/
structure NetInv (s : TimelineNetwork V) : Prop where
  gate : s.exec.GateInv
  remotes : ∀ name, (s.remotes name).Inv
  made : ∀ name c, (s.remotes name).commands c ≠ none → s.made c = some name
  read : ∀ client, s.delivered client ≤ (s.remote client).log.length
  distinct : ∀ i j cue cue' c, s.exec.timeline.cues[i]? = some cue →
    s.exec.timeline.cues[j]? = some cue' → (s.rpcs i).served = .accepted c →
    (s.rpcs j).served = .accepted c → i = j
  tracked : ∀ i cue, s.exec.timeline.cues[i]? = some cue →
    Tracked s.exec (s.remote cue.runtime) (s.rpcs i) i
  unread : ∀ i cue, s.exec.timeline.cues[i]? = some cue →
    Unread s.exec (s.remote cue.runtime) (s.delivered cue.runtime) (s.rpcs i) i

theorem tracked_init (timeline : Timeline V) (clients : List String) (runId : String) (i : Nat) :
    Tracked (Execution.init timeline clients runId) .empty ⟨.waiting, none, none⟩ i where
  called := fun h => absurd rfl h
  known := nofun
  answered := nofun
  refused := nofun
  recorded := nofun
  unrecorded := fun _ => rfl
  registered := by
    rintro c (hc | hc) <;> cases hc
  pending := nofun

theorem NetInv.init {timeline : Timeline V} (h : validateTimeline timeline = [])
    (clients : List String) (runId : String) (host : String → String) :
    NetInv (init timeline clients runId host) where
  gate := .init h clients runId
  remotes := fun _ => Remote.inv_empty
  made := by simp [TimelineNetwork.init, Remote.empty]
  read := fun _ => Nat.le_refl 0
  distinct := by simp [TimelineNetwork.init]
  tracked := fun i _ _ => tracked_init timeline clients runId i
  unread := by
    intro i cue _ c hc
    rcases hc with hc | ⟨hc, -⟩ <;> cases hc

/-- Only the requests of one Cue change. -/
theorem NetInv.setRpc (hi : NetInv s) {i : Nat} {rpc : Rpc}
    (distinct : ∀ cue c, s.exec.timeline.cues[i]? = some cue → rpc.served = .accepted c →
      ∀ j cue', j ≠ i → s.exec.timeline.cues[j]? = some cue' → (s.rpcs j).served ≠ .accepted c)
    (tracked : ∀ cue, s.exec.timeline.cues[i]? = some cue →
      Tracked s.exec (s.remote cue.runtime) rpc i)
    (unread : ∀ cue, s.exec.timeline.cues[i]? = some cue →
      Unread s.exec (s.remote cue.runtime) (s.delivered cue.runtime) rpc i) :
    NetInv (s.setRpc i rpc) where
  gate := hi.gate
  remotes := hi.remotes
  made := hi.made
  read := hi.read
  distinct := by
    intro j k cue cue' c hj hk hcj hck
    simp only [TimelineNetwork.setRpc, Function.update_apply] at hcj hck
    by_cases hji : j = i
    · by_cases hki : k = i
      · exact hji.trans hki.symm
      · rw [if_pos hji] at hcj
        rw [if_neg hki] at hck
        exact absurd hck (distinct cue c (hji ▸ hj) hcj k cue' hki hk)
    · by_cases hki : k = i
      · rw [if_neg hji] at hcj
        rw [if_pos hki] at hck
        exact absurd hcj (distinct cue' c (hki ▸ hk) hck j cue hji hj)
      · rw [if_neg hji] at hcj
        rw [if_neg hki] at hck
        exact hi.distinct j k cue cue' c hj hk hcj hck
  tracked := by
    intro j cue hj
    show Tracked s.exec (s.remote cue.runtime) (Function.update s.rpcs i rpc j) j
    by_cases hji : j = i
    · subst hji
      rw [Function.update_self]
      exact tracked cue hj
    · rw [Function.update_of_ne hji]
      exact hi.tracked j cue hj
  unread := by
    intro j cue hj
    show Unread s.exec (s.remote cue.runtime) _ (Function.update s.rpcs i rpc j) j
    by_cases hji : j = i
    · subst hji
      rw [Function.update_self]
      exact unread cue hj
    · rw [Function.update_of_ne hji]
      exact hi.unread j cue hj

/-- The same, when the Runtime's decision stays. -/
theorem NetInv.setRpc_same (hi : NetInv s) {i : Nat} {rpc : Rpc}
    (hserved : rpc.served = (s.rpcs i).served)
    (tracked : ∀ cue, s.exec.timeline.cues[i]? = some cue →
      Tracked s.exec (s.remote cue.runtime) rpc i)
    (unread : ∀ cue, s.exec.timeline.cues[i]? = some cue →
      Unread s.exec (s.remote cue.runtime) (s.delivered cue.runtime) rpc i) :
    NetInv (s.setRpc i rpc) := by
  refine hi.setRpc ?_ tracked unread
  intro cue c hcue hc j cue' hj hcue' hcj
  exact hj (hi.distinct j i cue' cue c hcue' hcue hcj (hserved ▸ hc))

/-! ## The Runtimes go on -/

theorem evolve_cases {name : String} {l : RemoteLabel} (h : s.evolve name l = some t) :
    ∃ r made, (s.remotes name).step l = some r ∧
      t = { s with remotes := Function.update s.remotes name r, made := made } ∧
      (∀ c, s.made c ≠ none → made c = s.made c) ∧
      ∀ c, l = .begins c → s.made c = none ∧ made c = some name := by
  cases l with
  | begins c =>
    simp only [evolve] at h
    split at h
    · rename_i hnew
      obtain ⟨r, hr, rfl⟩ := Option.map_eq_some_iff.mp h
      refine ⟨r, _, hr, rfl, ?_, ?_⟩
      · intro c' hc'
        have hne : c' ≠ c := by
          rintro rfl
          exact hc' hnew
        exact Function.update_of_ne hne _ _
      · intro c' hc'
        cases hc'
        exact ⟨hnew, Function.update_self ..⟩
    · cases h
  | finishes c outcome =>
    simp only [evolve, Option.map_eq_some_iff] at h
    obtain ⟨r, hr, rfl⟩ := h
    exact ⟨r, _, hr, rfl, fun _ _ => rfl, nofun⟩
  | publishes =>
    simp only [evolve, Option.map_eq_some_iff] at h
    obtain ⟨r, hr, rfl⟩ := h
    exact ⟨r, _, hr, rfl, fun _ _ => rfl, nofun⟩

theorem prefix_take {α : Type} {xs ys : List α} (h : xs <+: ys) {n : Nat}
    (hn : n ≤ xs.length) : ys.take n = xs.take n := by
  obtain ⟨zs, rfl⟩ := h
  exact List.take_append_of_le_length hn

theorem later_evolve {name : String} {l : RemoteLabel} {r : Remote}
    (hr : (s.remotes name).step l = some r) (n : String) :
    (s.remotes n).Later (Function.update s.remotes name r n) := by
  by_cases hn : n = name
  · subst hn
    rw [Function.update_self]
    exact Remote.later_step hr
  · rw [Function.update_of_ne hn]
    exact .refl _

theorem NetInv.evolve (hi : NetInv s) {name : String} {l : RemoteLabel}
    (h : s.evolve name l = some t) : NetInv t := by
  obtain ⟨r, made, hr, rfl, hkept, hnew⟩ := evolve_cases h
  have hlater := later_evolve hr
  exact
    { gate := hi.gate
      remotes := by
        intro n
        show (Function.update s.remotes name r n).Inv
        by_cases hn : n = name
        · subst hn
          rw [Function.update_self]
          exact (hi.remotes n).step hr
        · rw [Function.update_of_ne hn]
          exact hi.remotes n
      made := by
        intro n c hc
        show made c = some n
        have hc : (Function.update s.remotes name r n).commands c ≠ none := hc
        by_cases hold : (s.remotes n).commands c = none
        · -- the command is new
          by_cases hn : n = name
          · subst hn
            rw [Function.update_self] at hc
            exact (hnew c (Remote.begins_of_new hr hold hc)).2
          · rw [Function.update_of_ne hn] at hc
            exact absurd hold hc
        · have hmade := hi.made n c hold
          rw [hkept c (by rw [hmade]; nofun), hmade]
      read := fun client => (hi.read client).trans (hlater _).log.length_le
      distinct := hi.distinct
      tracked := fun i cue hcue =>
        (hi.tracked i cue hcue).follows (Follows.refl s.exec i) (hlater _)
      unread := fun i cue hcue =>
        (hi.unread i cue hcue).follows (Follows.refl s.exec i)
          (prefix_take (hlater _).log (hi.read _)) }

/-! ## The executor goes on -/

theorem offers_snapshot {sequence : Nat} (h : s.offers (.snapshot (.ok sequence)) = true) :
    ∃ name rest, s.exec.phase = .snapshots (name :: rest) ∧
      sequence ≤ (s.remote name).log.length ∧
      s.deliveredAfter (.snapshot (.ok sequence)) = Function.update s.delivered name sequence := by
  simp only [offers] at h
  split at h
  · rename_i name rest hphase
    exact ⟨name, rest, hphase, by simpa using h, by simp only [deliveredAfter, hphase]⟩
  · cases h

/-- How far a listener has read after a step: it starts behind the snapshot,
before there are tasks, and goes on by one event. -/
theorem delivered_cases (s : TimelineNetwork V) {label : ExecLabel} (h : s.offers label = true)
    (client : String) :
    s.deliveredAfter label client = s.delivered client ∨
      s.exec.phase.early = true ∧ s.deliveredAfter label client ≤ (s.remote client).log.length ∨
      ∃ event, label = .deliver client event ∧
        s.deliveredAfter label client = s.delivered client + 1 ∧
        (s.remote client).log[s.delivered client]? = some event := by
  cases label with
  | snapshot answer =>
    cases answer with
    | error _ => exact .inl rfl
    | ok sequence =>
      obtain ⟨name, rest, hphase, hle, heq⟩ := offers_snapshot h
      rw [heq]
      by_cases hc : client = name
      · subst hc
        rw [Function.update_self]
        exact .inr (.inl ⟨by rw [hphase]; rfl, hle⟩)
      · exact .inl (Function.update_of_ne hc _ _)
  | deliver name event =>
    by_cases hc : client = name
    · subst hc
      exact .inr (.inr ⟨event, rfl, Function.update_self .., by simpa [offers] using h⟩)
    · exact .inl (Function.update_of_ne hc _ _)
  | _ => exact .inl rfl

theorem read_after (hi : NetInv s) {label : ExecLabel} (h : s.offers label = true)
    (client : String) : s.deliveredAfter label client ≤ (s.remote client).log.length := by
  rcases delivered_cases s h client with hsame | ⟨-, hle⟩ | ⟨event, -, hnext, hevent⟩
  · rw [hsame]
    exact hi.read client
  · exact hle
  · rw [hnext]
    exact (List.getElem?_eq_some_iff.mp hevent).1

theorem deliver_eq {exec exec' : Execution V} {env : Env} {client : String} {event : WireEvent}
    (h : exec.step env (.deliver client event) = some exec') : exec' = exec.deliver event := by
  simp only [Execution.step] at h
  split at h <;> cases h
  rfl

/-- An event that completes a registered command resolves its future. -/
theorem deliver_resolves {exec : Execution V} {i : Nat} {c : CommandId}
    (hpending : exec.pending.get c = some i) (outcome : CommandOutcome) :
    (exec.deliver (.completed c outcome)).futures i ≠ some .pending := by
  simp only [deliver, hpending, resolve]
  split
  · simp
  · rename_i hno
    exact fun h => hno h

theorem NetInv.futures_of_rechecking (hi : NetInv s) (i : Nat) (cue : Cue V) (c : CommandId)
    (hcue : s.exec.timeline.cues[i]? = some cue) (hpc : (s.exec.tasks i).pc = .rechecking c) :
    s.exec.futures i ≠ none :=
  ((hi.tracked i cue hcue).registered c (.inl hpc)).2.2

/-- A task that is parked after a step of the executor was parked before. -/
theorem parked_before (hi : NetInv s) {env : Env} {label : ExecLabel} {exec : Execution V}
    (hoffers : s.offers label = true) (h : s.exec.step env label = some exec) {i : Nat}
    {cue : Cue V} {c : CommandId} (hcue : s.exec.timeline.cues[i]? = some cue)
    (hc : ParksOn (exec.tasks i).pc (s.rpcs i).record c)
    (hpend : exec.futures i = some .pending) :
    ParksOn (s.exec.tasks i).pc (s.rpcs i).record c ∧ s.exec.futures i = some .pending := by
  have hfollowed : ∀ {u : Execution V}, Follows s.exec u i →
      ParksOn (u.tasks i).pc (s.rpcs i).record c → u.futures i = some .pending →
      ParksOn (s.exec.tasks i).pc (s.rpcs i).record c ∧ s.exec.futures i = some .pending := by
    intro u hf hc hpend
    rcases hf.pc with heq | hno
    · exact ⟨heq ▸ hc, hf.of_pending hpend⟩
    · exact absurd hc.waitsFor (hno c)
  cases (Execution.step_moves h).netStep hi.gate hi.futures_of_rechecking with
  | follows _ hf => exact hfollowed (hf i) hc hpend
  | @registers k cue' c' hcue' hpc heq =>
    subst heq
    by_cases hk : i = k
    · -- the re-check is not answered yet
      subst hk
      rw [show ((s.exec.submitAnswered i cue' (.ok (c', .inProgress))).tasks i).pc
        = .rechecking c' from pc_setPc_self s.exec i _] at hc
      rcases hc with hc | ⟨-, hrecord⟩
      · cases hc
      · rw [(hi.tracked i cue hcue).unrecorded (by rw [hpc]; rfl)] at hrecord
        cases hrecord
    · refine hfollowed (follows_registers s.exec cue' hk ?_) hc hpend
      intro hpending
      have hserved := (hi.tracked i cue hcue).pending c' hpending
      simp only [offers, decide_eq_true_eq] at hoffers
      have hserved' := ((hi.tracked k cue' hcue').answered c' _ hoffers).1
      exact hk (hi.distinct i k cue cue' c' hcue hcue' hserved hserved')
  | @parks k cue' c' hcue' hpc hfuture heq =>
    subst heq
    by_cases hk : i = k
    · subst hk
      simp only [offers, decide_eq_true_eq] at hoffers
      rw [pc_setPc_self] at hc
      obtain rfl : c' = c := by rcases hc with hc | ⟨hc, -⟩ <;> cases hc; rfl
      exact ⟨.inr ⟨hpc, hoffers⟩, hfuture⟩
    · exact hfollowed (follows_setPc_ne s.exec _ hk) hc hpend

/-- The completion a parked task waits for is not read without it. -/
theorem unread_exec (hi : NetInv s) {env : Env} {label : ExecLabel} {exec : Execution V}
    (hoffers : s.offers label = true) (h : s.exec.step env label = some exec) {i : Nat}
    {cue : Cue V} (hcue : s.exec.timeline.cues[i]? = some cue) :
    Unread exec (s.remote cue.runtime) (s.deliveredAfter label cue.runtime) (s.rpcs i) i := by
  intro c hc hpend outcome
  obtain ⟨hparked, hbefore⟩ := parked_before hi hoffers h hcue hc hpend
  have hold := hi.unread i cue hcue c hparked hbefore outcome
  rcases delivered_cases s hoffers cue.runtime with hsame | ⟨hearly, -⟩ |
    ⟨event, rfl, hnext, hevent⟩
  · rw [hsame]
    exact hold
  · -- the tasks do not exist yet
    rw [hi.gate.early hearly i] at hparked
    rcases hparked with hparked | ⟨hparked, -⟩ <;> cases hparked
  · -- the listener receives its next event: if it is the one, the future is resolved
    rw [hnext, List.take_add_one, hevent, List.mem_append]
    rintro (hmem | hmem)
    · exact hold hmem
    · obtain rfl : WireEvent.completed c outcome = event := by simpa using hmem
      have hpending := ((hi.tracked i cue hcue).registered c hparked.waitsFor).2.1
      rw [deliver_eq h] at hpend
      exact deliver_resolves hpending outcome hpend

/-- The agreement of each Cue is kept by a step of the executor. -/
theorem tracked_exec (hi : NetInv s) {env : Env} {label : ExecLabel} {exec : Execution V}
    (hoffers : s.offers label = true) (h : s.exec.step env label = some exec) {i : Nat}
    {cue : Cue V} (hcue : s.exec.timeline.cues[i]? = some cue) :
    Tracked exec (s.remote cue.runtime) (s.rpcs i) i := by
  have hown := hi.tracked i cue hcue
  cases (Execution.step_moves h).netStep hi.gate hi.futures_of_rechecking with
  | follows _ hf => exact hown.follows (hf i) (.refl _)
  | @registers k cue' c hcue' hpc heq =>
    subst heq
    simp only [offers, decide_eq_true_eq] at hoffers
    have hserved := ((hi.tracked k cue' hcue').answered c _ hoffers).1
    by_cases hk : i = k
    · subst hk
      exact hown.registers hserved
    · refine hown.follows (follows_registers s.exec cue' hk ?_) (.refl _)
      exact fun hpending =>
        hk (hi.distinct i k cue cue' c hcue hcue' (hown.pending c hpending) hserved)
  | @parks k cue' c hcue' hpc hfuture heq =>
    subst heq
    by_cases hk : i = k
    · subst hk
      exact hown.parks hpc
    · exact hown.follows (follows_setPc_ne s.exec _ hk) (.refl _)

/-- **A step of the executor** keeps the invariant. -/
theorem NetInv.exec (hi : NetInv s) {env : Env} {label : ExecLabel} {exec : Execution V}
    (hoffers : s.offers label = true) (h : s.exec.step env label = some exec) :
    NetInv { s with exec := exec, delivered := s.deliveredAfter label } := by
  have hcueStep := (Execution.step_moves h).cueStep
  refine ⟨hi.gate.step hcueStep, hi.remotes, hi.made, read_after hi hoffers, ?_, ?_, ?_⟩
  · intro i j cue cue' c hcue hcue'
    rw [hcueStep.timeline] at hcue hcue'
    exact hi.distinct i j cue cue' c hcue hcue'
  · intro i cue hcue
    rw [hcueStep.timeline] at hcue
    exact tracked_exec hi hoffers h hcue
  · intro i cue hcue
    rw [hcueStep.timeline] at hcue
    exact unread_exec hi hoffers h hcue

/-! ## Every step -/

/-- What a step of the network can be. -/
inductive NetMoves (s : TimelineNetwork V) : NetLabel → TimelineNetwork V → Prop
  | exec {env : Env} {label : ExecLabel} {exec : Execution V} (hoffers : s.offers label = true)
      (h : s.exec.step env label = some exec) :
      NetMoves s (.exec env label) { s with exec := exec, delivered := s.deliveredAfter label }
  | accept {i : Nat} {c : CommandId} {cue : Cue V} {u : TimelineNetwork V}
      (hcue : s.exec.timeline.cues[i]? = some cue) (hcalled : i ∈ s.exec.calls)
      (hserved : (s.rpcs i).served = .waiting)
      (h : s.evolve (s.host cue.runtime) (.begins c) = some u) :
      NetMoves s (.accept i c) (u.setRpc i { s.rpcs i with served := .accepted c })
  | refuse {i : Nat} {message : String} (hcalled : i ∈ s.exec.calls)
      (hserved : (s.rpcs i).served = .waiting) :
      NetMoves s (.refuse i message) (s.setRpc i
        { s.rpcs i with
          served := .refused
          answer := (s.rpcs i).answer.or (some (.error (.command message))) })
  | respond {i : Nat} {c : CommandId} {cue : Cue V} {view : CommandView}
      (hcue : s.exec.timeline.cues[i]? = some cue) (hserved : (s.rpcs i).served = .accepted c)
      (hview : (s.remote cue.runtime).commands c = some view) :
      NetMoves s (.respond i) (s.setRpc i { s.rpcs i with answer := some (.ok (c, view)) })
  | lose {i : Nat} {message : String} :
      NetMoves s (.lose i message)
        (s.setRpc i { s.rpcs i with answer := some (.error (.other message)) })
  | readRecord {i : Nat} {c : CommandId} {cue : Cue V} {view : CommandView}
      (hcue : s.exec.timeline.cues[i]? = some cue) (hpc : (s.exec.tasks i).pc = .rechecking c)
      (hview : (s.remote cue.runtime).commands c = some view) :
      NetMoves s (.readRecord i) (s.setRpc i { s.rpcs i with record := some (.ok view) })
  | loseRecord {i : Nat} {c : CommandId} {message : String}
      (hpc : (s.exec.tasks i).pc = .rechecking c) :
      NetMoves s (.loseRecord i message)
        (s.setRpc i { s.rpcs i with record := some (.error message) })
  | remote {name : String} {label : RemoteLabel} {t : TimelineNetwork V}
      (h : s.evolve name label = some t) : NetMoves s (.remote name label) t

theorem step_netMoves {l : NetLabel} (h : s.step l = some t) : NetMoves s l t := by
  cases l with
  | exec env label =>
    simp only [TimelineNetwork.step] at h
    split at h
    · rename_i hoffers
      obtain ⟨exec, hexec, rfl⟩ := Option.map_eq_some_iff.mp h
      exact .exec hoffers hexec
    · cases h
  | accept i c =>
    obtain ⟨cue, hcue, h⟩ := Option.bind_eq_some_iff.mp h
    split at h
    · rename_i hreq
      obtain ⟨u, hu, rfl⟩ := Option.map_eq_some_iff.mp h
      exact .accept hcue hreq.1 hreq.2 hu
    · cases h
  | refuse i message =>
    simp only [TimelineNetwork.step] at h
    split at h <;> cases h
    rename_i hreq
    exact .refuse hreq.1 hreq.2
  | respond i =>
    obtain ⟨cue, hcue, h⟩ := Option.bind_eq_some_iff.mp h
    split at h
    · rename_i c hserved _
      obtain ⟨view, hview, rfl⟩ := Option.map_eq_some_iff.mp h
      exact .respond hcue hserved hview
    · cases h
  | lose i message =>
    simp only [TimelineNetwork.step] at h
    split at h <;> cases h
    exact .lose
  | readRecord i =>
    obtain ⟨cue, hcue, h⟩ := Option.bind_eq_some_iff.mp h
    split at h
    · rename_i c hpc _
      obtain ⟨view, hview, rfl⟩ := Option.map_eq_some_iff.mp h
      exact .readRecord hcue hpc hview
    · cases h
  | loseRecord i message =>
    simp only [TimelineNetwork.step] at h
    split at h <;> cases h
    rename_i c hpc
    exact .loseRecord hpc
  | remote name label => exact .remote h

theorem NetInv.step (hi : NetInv s) {l : NetLabel} (h : s.step l = some t) : NetInv t := by
  cases step_netMoves h with
  | exec hoffers hexec => exact hi.exec hoffers hexec
  | @accept i c cue u hcue hcalled hserved hu =>
    have hiu := hi.evolve hu
    obtain ⟨r, made, hr, rfl, -, hnew⟩ := evolve_cases hu
    obtain ⟨hfresh, hmade⟩ := hnew c rfl
    refine hiu.setRpc ?_ ?_ ?_
    · -- the id is new, so no other Cue has it
      intro _ c' _ hc' j cue' hj hcue' hserved'
      cases hc'
      have hknown := (hi.tracked j cue' hcue').known c hserved'
      rw [hi.made _ c hknown] at hfresh
      cases hfresh
    · intro cue' hcue'
      obtain rfl : cue = cue' := Option.some.inj (hcue.symm.trans hcue')
      refine (hiu.tracked i cue hcue).accept hserved hcalled ?_
      show (Function.update s.remotes _ r (s.host cue.runtime)).commands c ≠ none
      rw [Function.update_self, Remote.commands_begins hr]
      nofun
    · intro cue' hcue' c' hc'
      exact hiu.unread i cue' hcue' c' hc'
  | @refuse i message hcalled hserved =>
    refine hi.setRpc nofun ?_ ?_
    · intro cue hcue
      exact (hi.tracked i cue hcue).refuse hserved hcalled message
    · intro cue hcue c hc
      exact hi.unread i cue hcue c hc
  | @respond i c cue view hcue hserved hview =>
    refine hi.setRpc_same rfl ?_ (fun cue hcue c hc => hi.unread i cue hcue c hc)
    intro cue' hcue'
    obtain rfl : cue = cue' := Option.some.inj (hcue.symm.trans hcue')
    exact (hi.tracked i cue hcue).respond hserved hview
  | @lose i message =>
    exact hi.setRpc_same rfl (fun cue hcue => (hi.tracked i cue hcue).lose message)
      (fun cue hcue c hc => hi.unread i cue hcue c hc)
  | @readRecord i c cue view hcue hpc hview =>
    refine hi.setRpc_same rfl ?_ ?_
    · intro cue' hcue'
      obtain rfl : cue = cue' := Option.some.inj (hcue.symm.trans hcue')
      exact (hi.tracked i cue hcue).readRecord hpc hview
    · -- if the command is in progress now, its completion is not logged yet
      intro cue' hcue' c' hc' _ outcome hmem
      obtain rfl : cue = cue' := Option.some.inj (hcue.symm.trans hcue')
      obtain ⟨rfl, rfl⟩ : c' = c ∧ view = .inProgress := by
        rw [hpc] at hc'
        rcases hc' with hc' | ⟨hc', hv⟩
        · cases hc'
        · cases hc'
          cases hv
          exact ⟨rfl, rfl⟩
      have hdone := (hi.remotes _ c' outcome).mp (List.mem_of_mem_take hmem)
      rw [show (s.remotes (s.host cue.runtime)).commands c' = some .inProgress from hview]
        at hdone
      cases hdone
  | @loseRecord i c message hpc =>
    refine hi.setRpc_same rfl (fun cue hcue => (hi.tracked i cue hcue).loseRecord hpc message) ?_
    intro cue hcue c' hc'
    refine hi.unread i cue hcue c' (hc'.imp_right ?_)
    rintro ⟨-, hv⟩
    cases hv
  | remote h => exact hi.evolve h

theorem NetInv.reachable {timeline : Timeline V} (h : validateTimeline timeline = [])
    {clients : List String} {runId : String} {host : String → String}
    (hs : Reachable TimelineNetwork.step (TimelineNetwork.init timeline clients runId host) s) :
    NetInv s :=
  hs.invariant (NetInv.init h clients runId host) fun _ _ _ hi hstep => hi.step hstep

end TimelineNetwork

end Fusion
