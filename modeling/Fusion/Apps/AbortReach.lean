import Fusion.Apps.ShowCalls

/-!
# AbortReach — what one `abort` attempts

`_stop_all` goes through the clients whose session is held: it asks each
Runtime for its targets, attempts a stop on every target that has one, and
then releases the sessions one after the other. Its requests are the plan
that the answers of `get_targets` make, in order; what a stop or a release
answers is not read.
-/

namespace Fusion

open Transition

variable {V : Type}

/-- A request without its request id, which is new each time. -/
def Sent.unnumbered : Sent V → Sent V
  | stop name request => .stop name { request with requestId := "" }
  | q => q

namespace Scheduler

variable {s t : Scheduler V}

/-! ## The plan -/

/-- What `get_targets` answered for a client whose session was held. -/
structure TargetsAnswer where
  name : String
  sessionId : String
  answer : Except String (List TargetManifest)

/-- The client that was asked, with its session. -/
def TargetsAnswer.client (a : TargetsAnswer) : String × String := (a.name, a.sessionId)

/-- The stops of these targets: for each the first control-priority action,
if it has one. -/
def stopsOf (name sessionId : String) (targets : List TargetManifest) : List (Sent V) :=
  targets.filterMap fun target =>
    (target.actions.find? (·.priority = .control)).map fun action =>
      .stop name (stopRequest sessionId target.targetId action.name "")

/-- A Runtime that could not be asked gets no stop. -/
def TargetsAnswer.stops (a : TargetsAnswer) : List (Sent V) :=
  match a.answer with
  | .error _ => []
  | .ok targets => stopsOf a.name a.sessionId targets

/-- The clients among these whose session is held, each with its session. -/
def heldBy (sessionIds : Dict String String) (names : List String) : List (String × String) :=
  names.filterMap fun name => (sessionIds.get name).map fun sessionId => (name, sessionId)

/-- The releases of all sessions that are held. -/
def releases (sessionIds : Dict String String) : List (Sent V) :=
  sessionIds.items.map fun x => .release x.1 x.2

/-! ## What is attempted -/

/-- The requests made since `s`, but for the Cues. -/
def attempts (s t : Scheduler V) : List (Sent V) :=
  ((t.sent.drop s.sent.length).filter fun q => !q.isCue).map Sent.unnumbered

/-- The answer of `get_targets` that call `k` takes in this step. -/
def targetsAnswer (k : Nat) (x : Step (Scheduler.step (V := V))) : Option TargetsAnswer :=
  match x.label, x.src.bodies k with
  | .targets j answer _, some (.targets name sessionId _) =>
      if j = k then some ⟨name, sessionId, answer⟩ else none
  | _, _ => none

/-- The answers of `get_targets` that call `k` has taken, in order. -/
def answers (k : Nat) (xs : List (Step (Scheduler.step (V := V)))) : List TargetsAnswer :=
  xs.filterMap (targetsAnswer k)

/-- The step is the call `k` of `abort`. -/
def Label.aborts (k : Nat) : Label V → Bool
  | .abort j => j = k
  | _ => false

/-- The call is not cancelled out of `_stop_all`, and no other `abort` is
accepted. -/
def Lone (k : Nat) (x : Step (Scheduler.step (V := V))) : Bool :=
  match x.label with
  | .callCancelled j =>
      j ≠ k || (x.src.control.calls k).any fun call => call ≠ .preparing && call ≠ .stopping
  | .abort j => j = k || !abortable x.src.state
  | _ => true

end Scheduler

/-! ## What is still to be attempted -/

/-- The clients that a coroutine has still to ask. -/
def ShowBody.toAsk (sessionIds : Dict String String) : ShowBody → List (String × String)
  | targets name sessionId rest => (name, sessionId) :: Scheduler.heldBy sessionIds rest
  | stopping _ _ _ rest => Scheduler.heldBy sessionIds rest
  | _ => []

/-- The targets it has still to stop, of those it knows. -/
def ShowBody.toStop : ShowBody → List (Sent V)
  | stopping name sessionId left _ => Scheduler.stopsOf name sessionId left
  | _ => []

namespace Scheduler

section
variable {s w v : Scheduler V} {k : Nat} {as : List TargetsAnswer}

/-- The plan, in the middle of `_stop_all`: what was asked and is to be asked
are the clients whose session was held; what was attempted and is to be
attempted are the stops of the answers and then the releases. -/
structure Planned (s : Scheduler V) (as : List TargetsAnswer) (v : Scheduler V)
    (body : ShowBody) : Prop where
  belongs : body.call = .stopping
  asked : as.map TargetsAnswer.client ++ body.toAsk s.sessionIds = heldBy s.sessionIds s.clients
  made : attempts s v ++ body.toStop ++ releases v.sessionIds =
    as.flatMap TargetsAnswer.stops ++ releases s.sessionIds
  held : body = .releasing v.sessionIds.keys ∨
    (∀ names, body ≠ .releasing names) ∧ v.sessionIds = s.sessionIds

/-- The plan, carried out. -/
structure Complete (s : Scheduler V) (as : List TargetsAnswer) (v : Scheduler V) : Prop where
  asked : as.map TargetsAnswer.client = heldBy s.sessionIds s.clients
  made : attempts s v = as.flatMap TargetsAnswer.stops ++ releases s.sessionIds
  idle : v.state = .idle
  released : v.sessionIds.items = []

theorem attempts_append (rs : List (Sent V)) (hgrown : s.sent.length ≤ w.sent.length)
    (hsent : v.sent = w.sent ++ rs) (hno : ∀ q ∈ rs, q.isCue = false) :
    attempts s v = attempts s w ++ rs.map Sent.unnumbered := by
  have hkept : rs.filter (fun q => !q.isCue) = rs := by
    rw [List.filter_eq_self]
    intro q hq
    simp [hno q hq]
  rw [attempts, hsent, List.drop_append_of_le_length hgrown, List.filter_append, List.map_append,
    hkept]
  rfl

theorem attempts_cues (hgrown : s.sent.length ≤ w.sent.length) {rs : List (Sent V)}
    (hsent : v.sent = w.sent ++ rs) (hcues : ∀ q ∈ rs, q.isCue = true) :
    attempts s v = attempts s w := by
  have hnone : rs.filter (fun q => !q.isCue) = [] := by
    rw [List.filter_eq_nil_iff]
    intro q hq
    simp [hcues q hq]
  rw [attempts, hsent, List.drop_append_of_le_length hgrown, List.filter_append, hnone,
    List.append_nil]
  rfl

/-- How a stretch of `_stop_all` ends: with the plan carried out, or at its
next wait. -/
structure Goes (k : Nat) (s : Scheduler V) (as : List TargetsAnswer) (w v : Scheduler V) :
    Prop where
  grown : s.sent.length ≤ v.sent.length
  plan : v.control.calls k = none ∧ Complete s as v ∨
    ∃ body, v.bodies k = some body ∧ v.control = w.control ∧ Planned s as v body

/-- The loop that releases the sessions, at its head. -/
theorem releaseNext_goes (hheld : ∀ name, w.sessionIds.get name ≠ none → name ∈ w.clients)
    (hgrown : s.sent.length ≤ w.sent.length)
    (hasked : as.map TargetsAnswer.client = heldBy s.sessionIds s.clients)
    (hmade : attempts s w ++ releases w.sessionIds =
      as.flatMap TargetsAnswer.stops ++ releases s.sessionIds)
    (h : w.releaseNext k w.sessionIds.keys = some v) : Goes k s as w v := by
  cases hkeys : w.sessionIds.keys with
  | nil =>
    rw [hkeys] at h
    have hnone : w.sessionIds.items = [] := List.map_eq_nil_iff.mp hkeys
    obtain ⟨control, hstep, rfl⟩ := controls_eq h
    simp only [ShowControl.step] at hstep
    split at hstep <;> cases hstep
    refine ⟨hgrown, .inl ⟨by simp [ShowControl.setCall], hasked, ?_, rfl, hnone⟩⟩
    rw [releases, hnone, List.map_nil, List.append_nil] at hmade
    exact hmade
  | cons name rest =>
    obtain ⟨sessionId, hget, hitems, herased⟩ := Dict.keys_eq_cons hkeys
    have hclient : name ∈ w.clients := hheld name (by simp [hget])
    rw [hkeys] at h
    simp only [releaseNext, hclient, not_true_eq_false, if_false, hget, Option.some.injEq] at h
    subst h
    refine ⟨?_, .inr ⟨.releasing rest, Function.update_self .., rfl, rfl, ?_, ?_, .inl ?_⟩⟩
    · show s.sent.length ≤ (w.sent ++ [_]).length
      rw [List.length_append]
      omega
    · simpa [ShowBody.toAsk] using hasked
    · rw [attempts_append [.release name sessionId] hgrown rfl (by simp [Sent.isCue])]
      rw [releases, hitems, List.map_cons] at hmade
      simpa [ShowBody.toStop, Sent.unnumbered, releases, suspend, send] using hmade
    · rw [← herased]
      rfl

/-- The loop over the clients, at its head. -/
theorem stopClients_goes (hheld : ∀ name, w.sessionIds.get name ≠ none → name ∈ w.clients)
    (hgrown : s.sent.length ≤ w.sent.length) {rest : List String}
    (hasked : as.map TargetsAnswer.client ++ heldBy s.sessionIds rest =
      heldBy s.sessionIds s.clients)
    (hmade : attempts s w = as.flatMap TargetsAnswer.stops)
    (hsessions : w.sessionIds = s.sessionIds) (h : w.stopClients k rest = some v) :
    Goes k s as w v := by
  induction rest with
  | nil =>
    -- all the stops are made, and the releases begin
    refine releaseNext_goes hheld hgrown ?_ (by rw [hmade, hsessions]) h
    simpa [heldBy] using hasked
  | cons name rest ih =>
    simp only [stopClients] at h
    split at h
    · -- a client whose session is not held is passed over
      rename_i hnone
      rw [hsessions] at hnone
      refine ih ?_ h
      simpa [heldBy, hnone] using hasked
    · rename_i sessionId hget
      rw [hsessions] at hget
      cases h
      refine ⟨hgrown, .inr ⟨.targets name sessionId rest, Function.update_self .., rfl, rfl, ?_, ?_,
        .inr ⟨by simp, hsessions⟩⟩⟩
      · simpa [heldBy, hget, ShowBody.toAsk] using hasked
      · have hkept : attempts s (w.suspend k (.targets name sessionId rest)) = attempts s w := rfl
        rw [hkept, hmade]
        simp [ShowBody.toStop, suspend, hsessions]

/-- The loop over the targets of a client, at its head. -/
theorem stopTargets_goes (hheld : ∀ name, w.sessionIds.get name ≠ none → name ∈ w.clients)
    (hgrown : s.sent.length ≤ w.sent.length) {name sessionId requestId : String}
    {rest : List String} {targets : List TargetManifest}
    (hasked : as.map TargetsAnswer.client ++ heldBy s.sessionIds rest =
      heldBy s.sessionIds s.clients)
    (hmade : attempts s w ++ stopsOf name sessionId targets =
      as.flatMap TargetsAnswer.stops)
    (hsessions : w.sessionIds = s.sessionIds)
    (h : w.stopTargets k name sessionId rest requestId targets = some v) : Goes k s as w v := by
  induction targets with
  | nil => exact stopClients_goes hheld hgrown hasked (by simpa [stopsOf] using hmade) hsessions h
  | cons target targets ih =>
    simp only [stopTargets] at h
    split at h
    · -- a target without a control-priority action is passed over
      rename_i hnone
      refine ih ?_ h
      simpa [stopsOf, hnone] using hmade
    · rename_i action haction
      cases h
      refine ⟨?_, .inr ⟨.stopping name sessionId targets rest, Function.update_self .., rfl, rfl,
        ?_, ?_, .inr ⟨by simp, hsessions⟩⟩⟩
      · show s.sent.length ≤ (w.sent ++ [_]).length
        rw [List.length_append]
        omega
      · simpa [ShowBody.toAsk] using hasked
      · rw [attempts_append [.stop name
          (stopRequest sessionId target.targetId action.name requestId)] hgrown rfl
          (by simp [Sent.isCue])]
        have hmade : attempts s w ++
            (.stop name (stopRequest sessionId target.targetId action.name "") ::
              stopsOf name sessionId targets) = as.flatMap TargetsAnswer.stops := by
          simpa [stopsOf, haction] using hmade
        rw [← hmade]
        simp [ShowBody.toStop, Sent.unnumbered, stopRequest, suspend, send, hsessions]

/-! ## The call, step by step -/

/-- **The invariant**: the call waits for the run task, or is in `_stop_all`
with the plan, or has carried it out. -/
structure Aborting (k : Nat) (s : Scheduler V) (as : List TargetsAnswer) (v : Scheduler V) :
    Prop where
  seated : Seated v
  clients : v.clients = s.clients
  others : ∀ j, j ≠ k → v.control.calls j = none
  grown : s.sent.length ≤ v.sent.length
  closed : (v.control.calls k).isSome = true → v.state = .stopping ∨ v.state = .faulted
  phase : (∃ r, v.control.calls k = some (.joining r)) ∧ as = [] ∧ attempts s v = [] ∧
      v.sessionIds = s.sessionIds ∨
    (∃ body, v.bodies k = some body ∧ Planned s as v body) ∨
    v.control.calls k = none ∧ Complete s as v

theorem Planned.congr {v' : Scheduler V} {body : ShowBody} (h : Planned s as v body)
    (hattempts : attempts s v' = attempts s v) (hsessions : v'.sessionIds = v.sessionIds) :
    Planned s as v' body where
  belongs := h.belongs
  asked := h.asked
  made := by
    rw [hattempts, hsessions]
    exact h.made
  held := by
    rw [hsessions]
    exact h.held

/-- After a stretch of `_stop_all`. -/
theorem Aborting.of_stretch (hstint : Stint k .stopping w v) (hgoes : Goes k s as w v)
    (hseated : Seated v) (hclients : w.clients = s.clients)
    (hothers : ∀ j, j ≠ k → w.control.calls j = none)
    (hclosed : w.state = .stopping ∨ w.state = .faulted) : Aborting k s as v where
  seated := hseated
  clients := hstint.clients.trans hclients
  others := by
    intro j hj
    rw [hstint.calls_ne hj]
    exact hothers j hj
  grown := hgoes.grown
  closed := by
    intro hsome
    rcases hgoes.plan with ⟨hnone, -⟩ | ⟨body, -, hcontrol, -⟩
    · rw [hnone] at hsome
      cases hsome
    · rw [state, hcontrol]
      exact hclosed
  phase := by
    rcases hgoes.plan with hdone | ⟨body, hbody, -, hplanned⟩
    · exact .inr (.inr hdone)
    · exact .inr (.inl ⟨body, hbody, hplanned⟩)

/-- Somebody else takes a step. -/
theorem Aborting.elsewhere (hi : Aborting k s as v) (hsome : (v.control.calls k).isSome = true)
    (h : Elsewhere v t) : Aborting k s as t := by
  obtain ⟨rs, hrs, hcues⟩ := h.sent
  have hattempts := attempts_cues hi.grown hrs hcues
  refine ⟨hi.seated.elsewhere h, h.clients.trans hi.clients, ?_, ?_, ?_, ?_⟩
  · rw [h.control.calls]
    exact hi.others
  · rw [hrs, List.length_append]
    have hgrown := hi.grown
    omega
  · intro _
    exact h.control.closed (hi.closed hsome)
  · rw [h.control.calls, h.bodies]
    rcases hi.phase with ⟨hjoining, has, hnone, hsessions⟩ | ⟨body, hbody, hplanned⟩ | ⟨hnone, -⟩
    · exact .inl ⟨hjoining, has, hattempts.trans hnone, h.sessionIds.trans hsessions⟩
    · exact .inr (.inl ⟨body, hbody, hplanned.congr hattempts h.sessionIds⟩)
    · rw [hnone] at hsome
      cases hsome

theorem targetsAnswer_none {x : Step (Scheduler.step (V := V))}
    (h : ∀ answer requestId, x.label ≠ .targets k answer requestId) : targetsAnswer k x = none := by
  unfold targetsAnswer
  split
  · rename_i j answer requestId _ _ _ hlabel _
    rw [if_neg]
    intro hj
    exact h answer requestId (hj ▸ hlabel)
  · rfl

/-- In a coroutine of `_stop_all`, with the plan. -/
theorem Aborting.planned (hi : Aborting k s as v) {body : ShowBody}
    (hbody : v.bodies k = some body) :
    v.control.calls k = some .stopping ∧ Planned s as v body ∧
      (v.state = .stopping ∨ v.state = .faulted) := by
  have hcall := hi.seated.body k body hbody
  rcases hi.phase with ⟨⟨r, hjoining⟩, -⟩ | ⟨body', hbody', hplanned⟩ | ⟨hnone, -⟩
  · rw [hjoining] at hcall
    cases body <;> cases hcall
  · rw [hbody] at hbody'
    cases hbody'
    rw [hplanned.belongs] at hcall
    exact ⟨hcall, hplanned, hi.closed (by rw [hcall]; rfl)⟩
  · rw [hnone] at hcall
    cases hcall

/-- The plan before the loop over the clients, or the targets of one. -/
theorem Planned.sessions {body : ShowBody} (h : Planned s as v body)
    (hbody : ∀ names, body ≠ .releasing names) :
    v.sessionIds = s.sessionIds ∧
      attempts s v ++ body.toStop = as.flatMap TargetsAnswer.stops := by
  have hsessions : v.sessionIds = s.sessionIds := by
    rcases h.held with hreleasing | ⟨-, hsame⟩
    · exact absurd hreleasing (hbody _)
    · exact hsame
  refine ⟨hsessions, ?_⟩
  have hmade := h.made
  rw [hsessions] at hmade
  exact List.append_cancel_right hmade

/-- `get_targets` answers. -/
theorem Aborting.targets (hi : Aborting k s as v) {answer : Except String (List TargetManifest)}
    {requestId : String} (h : v.step (.targets k answer requestId) = some t) :
    ∃ name sessionId rest, v.bodies k = some (.targets name sessionId rest) ∧
      Aborting k s (as ++ [TargetsAnswer.mk name sessionId answer]) t := by
  have hseated := hi.seated.step h
  simp only [Scheduler.step] at h
  split at h
  · rename_i name sessionId rest hbody
    refine ⟨name, sessionId, rest, hbody, ?_⟩
    obtain ⟨-, hplanned, hclosed⟩ := hi.planned hbody
    obtain ⟨hsessions, hmade⟩ := hplanned.sessions (by intro names h; cases h)
    simp only [ShowBody.toStop, List.append_nil] at hmade
    have hasked : (as ++ [TargetsAnswer.mk name sessionId answer]).map TargetsAnswer.client ++
        heldBy s.sessionIds rest = heldBy s.sessionIds s.clients := by
      rw [← hplanned.asked]
      simp [ShowBody.toAsk, TargetsAnswer.client]
    split at h
    · -- an unreachable Runtime is passed over
      refine .of_stretch (stopClients_stint h) ?_ hseated hi.clients hi.others hclosed
      exact stopClients_goes hi.seated.held hi.grown hasked (by simp [hmade, TargetsAnswer.stops])
        hsessions h
    · refine .of_stretch (stopTargets_stint h) ?_ hseated hi.clients hi.others hclosed
      exact stopTargets_goes hi.seated.held hi.grown hasked (by simp [hmade, TargetsAnswer.stops])
        hsessions h
  · cases h

/-- A stop is answered, whatever the answer. -/
theorem Aborting.stopAnswered (hi : Aborting k s as v) {requestId : String}
    (h : v.step (.stopAnswered k requestId) = some t) : Aborting k s as t := by
  have hseated := hi.seated.step h
  simp only [Scheduler.step] at h
  split at h
  · rename_i name sessionId left rest hbody
    obtain ⟨-, hplanned, hclosed⟩ := hi.planned hbody
    obtain ⟨hsessions, hmade⟩ := hplanned.sessions (by intro names h; cases h)
    refine .of_stretch (stopTargets_stint h) ?_ hseated hi.clients hi.others hclosed
    exact stopTargets_goes hi.seated.held hi.grown hplanned.asked hmade hsessions h
  · cases h

/-- A release is answered, whatever the answer. -/
theorem Aborting.released (hi : Aborting k s as v) (h : v.step (.released k) = some t) :
    Aborting k s as t := by
  have hseated := hi.seated.step h
  simp only [Scheduler.step] at h
  split at h
  · rename_i names hbody
    obtain ⟨-, hplanned, hclosed⟩ := hi.planned hbody
    have hnames : names = v.sessionIds.keys := by
      rcases hplanned.held with heq | ⟨hno, -⟩
      · cases heq
        rfl
      · exact absurd rfl (hno names)
    subst hnames
    refine .of_stretch (releaseNext_stint h) ?_ hseated hi.clients hi.others hclosed
    refine releaseNext_goes hi.seated.held hi.grown ?_ ?_ h
    · simpa [ShowBody.toAsk] using hplanned.asked
    · simpa [ShowBody.toStop] using hplanned.made
  · cases h

/-- In the wait for the run task. -/
theorem Aborting.joining (hi : Aborting k s as v) {r : Nat}
    (hcall : v.control.calls k = some (.joining r)) :
    as = [] ∧ attempts s v = [] ∧ v.sessionIds = s.sessionIds ∧
      (v.state = .stopping ∨ v.state = .faulted) := by
  have hclosed := hi.closed (by rw [hcall]; rfl)
  rcases hi.phase with ⟨-, has, hnone, hsessions⟩ | ⟨body, hbody, -⟩ | ⟨hnone, -⟩
  · exact ⟨has, hnone, hsessions, hclosed⟩
  · have hno := hi.seated.bodies_none (.inr ⟨r, hcall⟩)
    rw [hbody] at hno
    cases hno
  · rw [hnone] at hcall
    cases hcall

/-- The run task is over, and `_stop_all` begins. -/
theorem Aborting.joined (hi : Aborting k s as v) (h : v.step (.joined k) = some t) :
    Aborting k s as t := by
  have hseated := hi.seated.step h
  obtain ⟨u, hu, hrest⟩ := Option.bind_eq_some_iff.mp h
  obtain ⟨control, hstep, rfl⟩ := controls_eq hu
  simp only [ShowControl.step] at hstep
  split at hstep
  · rename_i r hcall
    obtain ⟨rfl, hnone, hsessions, hclosed⟩ := hi.joining hcall
    split at hstep <;> cases hstep
    refine .of_stretch (stopClients_stint hrest) ?_ hseated hi.clients ?_ hclosed
    · refine stopClients_goes hi.seated.held hi.grown ?_ ?_ hsessions hrest
      · show heldBy s.sessionIds v.clients = _
        rw [hi.clients]
      · exact hnone
    · intro j hj
      show Function.update v.control.calls k _ j = none
      rw [Function.update_of_ne hj]
      exact hi.others j hj
  · cases hstep

/-- The call is cancelled in the wait for the run task, which it goes on
with. -/
theorem Aborting.callCancelled (hi : Aborting k s as v) {r : Nat}
    (hcall : v.control.calls k = some (.joining r)) (h : v.step (.callCancelled k) = some t) :
    Aborting k s as t := by
  have hseated := hi.seated.step h
  obtain ⟨rfl, hnone, hsessions, hclosed⟩ := hi.joining hcall
  simp only [Scheduler.step, hcall] at h
  obtain ⟨u, hu, rfl⟩ := Option.map_eq_some_iff.mp h
  obtain ⟨control, hstep, rfl⟩ := controls_eq hu
  simp only [ShowControl.step, hcall, Option.some.injEq] at hstep
  subst hstep
  exact ⟨hseated, hi.clients, hi.others, hi.grown, fun _ => hclosed,
    .inl ⟨⟨r, hcall⟩, rfl, hnone, hsessions⟩⟩

/-- **A step during the call.** -/
theorem Aborting.step {x : Step (Scheduler.step (V := V))} (hi : Aborting k s as x.src)
    (hsome : (x.src.control.calls k).isSome = true) (hlone : Lone k x = true) :
    Aborting k s (as ++ (targetsAnswer k x).toList) x.dst := by
  obtain ⟨v, l, t, hfired⟩ := x
  dsimp only at hi hsome ⊢
  have hother : (∀ answer requestId, l ≠ .targets k answer requestId) → Aborting k s as t →
      Aborting k s (as ++ (targetsAnswer k ⟨v, l, t, hfired⟩).toList) t := by
    intro hno ht
    rw [targetsAnswer_none hno, Option.toList_none, List.append_nil]
    exact ht
  cases hcall : l.call? with
  | none =>
    refine hother ?_ (hi.elsewhere hsome (step_elsewhere hcall hfired))
    rintro answer requestId rfl
    cases hcall
  | some j =>
    by_cases hj : j = k
    swap
    · -- the calls of others are refused
      obtain rfl : t = v := by
        refine hi.seated.refused hcall (hi.others j hj) ?_ ?_ hfired
        · intro _ hidle
          have hclosed := hi.closed hsome
          rw [hidle] at hclosed
          rcases hclosed with h | h <;> cases h
        · rintro rfl
          simpa [Lone, hj] using hlone
      refine hother ?_ hi
      rintro answer requestId rfl
      exact hj (Option.some.inj hcall).symm
    · subst hj
      cases l with
      | targets i answer requestId =>
        cases hcall
        obtain ⟨name, sessionId, rest, hbody, ht⟩ := hi.targets hfired
        simpa [targetsAnswer, hbody] using ht
      | stopAnswered i requestId =>
        cases hcall
        exact hother (by intro _ _ h; cases h) (hi.stopAnswered hfired)
      | released i =>
        cases hcall
        exact hother (by intro _ _ h; cases h) (hi.released hfired)
      | joined i =>
        cases hcall
        exact hother (by intro _ _ h; cases h) (hi.joined hfired)
      | callCancelled i =>
        cases hcall
        obtain ⟨call, hcalls⟩ := Option.isSome_iff_exists.mp hsome
        have hjoining : ∃ r, call = .joining r := by
          simp only [Lone, hcalls, ne_eq, not_true_eq_false, decide_false, Bool.false_or,
            Option.any_some] at hlone
          cases call with
          | joining r => exact ⟨r, rfl⟩
          | _ => cases hlone
        obtain ⟨r, rfl⟩ := hjoining
        exact hother (by intro _ _ h; cases h) (hi.callCancelled hcalls hfired)
      | arm i =>
        cases hcall
        obtain ⟨u, hu, -⟩ := Option.bind_eq_some_iff.mp hfired
        rw [(arm_cases hu).1] at hsome
        cases hsome
      | abort i =>
        cases hcall
        obtain ⟨u, hu, -⟩ := Option.bind_eq_some_iff.mp hfired
        rw [(abort_cases hu).1] at hsome
        cases hsome
      | informed i answer =>
        cases hcall
        simp only [Scheduler.step] at hfired
        split at hfired
        · rename_i hbody
          have hbelongs := (hi.planned hbody).2.1.belongs
          cases hbelongs
        · cases hfired
      | acquired i answer =>
        cases hcall
        simp only [Scheduler.step] at hfired
        split at hfired
        · rename_i hbody
          have hbelongs := (hi.planned hbody).2.1.belongs
          cases hbelongs
        · cases hfired
      | _ => cases hcall

/-- Call `k` is accepted. -/
theorem Aborting.begins (hseated : Seated s) (hcalls : ∀ j, s.control.calls j = none)
    (hable : abortable s.state = true) (h : s.step (.abort k) = some t) : Aborting k s [] t := by
  have hafter := hseated.step h
  obtain ⟨u, hu, hrest⟩ := Option.bind_eq_some_iff.mp h
  obtain ⟨-, ⟨-, hno⟩ | ⟨call, hkind, -, hstate, heq, hown⟩⟩ := abort_cases hu
  · rw [hable] at hno
    cases hno
  · have hclients : u.clients = s.clients := by rw [heq]
    have hsessions : u.sessionIds = s.sessionIds := by rw [heq]
    have hsent : u.sent = s.sent := by rw [heq]
    have hnone : attempts s u = [] := by rw [attempts, hsent, List.drop_length]; rfl
    have hgrown : s.sent.length ≤ u.sent.length := by rw [hsent]
    have hcall : u.control.calls k = some call := by rw [hown, Function.update_self]
    have hothers : ∀ j, j ≠ k → u.control.calls j = none := by
      intro j hj
      rw [hown, Function.update_of_ne hj]
      exact hcalls j
    rcases hkind with rfl | ⟨r, rfl⟩
    · -- no run task to wait for
      simp only [hcall] at hrest
      refine .of_stretch (stopClients_stint hrest) ?_ hafter hclients hothers (.inl hstate)
      refine stopClients_goes ?_ hgrown ?_ hnone hsessions hrest
      · rw [hsessions, hclients]
        exact hseated.held
      · rw [hclients]
        rfl
    · -- the run task is cancelled and waited for
      simp only [hcall, Option.some.injEq] at hrest
      subst hrest
      exact ⟨hafter, hclients, hothers, hgrown, fun _ => .inl hstate,
        .inl ⟨⟨r, hcall⟩, rfl, hnone, hsessions⟩⟩

end

/-! ## A whole call -/

/-- Call `k` of `abort`, and whatever happens until it ends, or so far. -/
def callsAbort (k : Nat) (xs : List (Step (Scheduler.step (V := V)))) : Bool :=
  (xs.head?.any fun x => x.label.aborts k) &&
  xs.tail.all fun x => (x.src.control.calls k).isSome && Lone k x

theorem aborts_iff {k : Nat} {l : Label V} : l.aborts k = true ↔ l = .abort k := by
  cases l <;> simp [Label.aborts]

/-- **A run of the call.** -/
theorem callsAbort_run (hseated : Seated s) (hcalls : ∀ j, s.control.calls j = none)
    (hable : abortable s.state = true) {k : Nat} {xs : List (Step (Scheduler.step (V := V)))}
    (run : Run Scheduler.step s xs t) (hcalled : callsAbort k xs = true) :
    Aborting k s (answers k xs) t := by
  induction run with
  | nil => cases hcalled
  | @snoc xs x run ih =>
    cases xs with
    | nil =>
      -- the call itself
      obtain rfl := run.eq_of_nil
      have hlabel : x.label = .abort k := by
        simpa [callsAbort, aborts_iff] using hcalled
      have hfired := x.fired
      rw [hlabel] at hfired
      have hnone : answers k [x] = [] := by
        simp [answers, targetsAnswer, hlabel]
      show Aborting k x.src (answers k [x]) x.dst
      rw [hnone]
      exact .begins hseated hcalls hable hfired
    | cons y ys =>
      simp only [callsAbort, List.cons_append, List.head?_cons, List.tail_cons, List.all_append,
        Bool.and_eq_true, List.all_cons, List.all_nil] at hcalled
      obtain ⟨hhead, hinit, ⟨hsome, hlone⟩, -⟩ := hcalled
      have hso := ih (by
        simp only [callsAbort, List.head?_cons, List.tail_cons, hhead, hinit, Bool.and_self])
      have hmore : answers k (y :: ys ++ [x]) =
          answers k (y :: ys) ++ (targetsAnswer k x).toList := by
        rw [answers, List.filterMap_append]
        cases hanswer : targetsAnswer k x <;> simp [hanswer, answers]
      rw [hmore]
      exact hso.step hsome hlone

end Scheduler

end Fusion
