import Fusion.Apps.ShowCalls
import Fusion.Apps.ShowContainment

/-!
# FailedArm — what an `arm` that raises leaves behind

`_prepare` acquires one session after the other and has no handler: when it
raises, `arm` goes back to IDLE, and the sessions acquired so far stay with
their Runtimes and in `_session_ids`. It gives back what it took exactly
when it took nothing.
-/

namespace Fusion

open Transition

variable {V : Type}

/-- The request gives a session back. -/
def Sent.isRelease : Sent V → Bool
  | release _ _ => true
  | _ => false

namespace Scheduler

variable {s t : Scheduler V}

/-! ## The property -/

/-- Nobody is at work on the Show: it is IDLE, with no call in progress and
no run task alive. -/
structure AtRest (s : Scheduler V) : Prop where
  idle : s.state = .idle
  calls : ∀ k, s.control.calls k = none
  runs : ∀ r, s.control.runs r = .ended

/-- `_prepare` of call `k` raises: no timeline is loaded, or a client's
`get_info` or `acquire_session` raises. -/
def prepareRaises (k : Nat) (s : Scheduler V) : Label V → Bool
  | .arm j => j = k && s.timeline.isNone
  | .informed j (.error _) => j = k
  | .acquired j (.error _) => j = k
  | _ => false

/-- The step is the call `k` of `arm`. -/
def Label.calls (k : Nat) : Label V → Bool
  | .arm j => j = k
  | _ => false

/-- The steps from call `k` of `arm` to where it raises, and whatever happens
in between. -/
def failsArm (k : Nat) (xs : List (Step (Scheduler.step (V := V)))) : Bool :=
  (xs.head?.any fun x => x.label.calls k) &&
  (xs.tail.all fun x => (x.src.control.calls k).isSome) &&
  xs.getLast?.any fun x => prepareRaises k x.src x.label

/-- The client and the session that call `k` acquires in this step. -/
def acquisition (k : Nat) (x : Step (Scheduler.step (V := V))) : Option (String × String) :=
  match x.label, x.src.bodies k with
  | .acquired j (.ok sessionId), some (.acquiring _ name _) =>
      if j = k then some (name, sessionId) else none
  | _, _ => none

/-- No Cue can start before somebody arms the Show again: `start` is refused,
and a Cue that is submitted belongs to a run that was not over before. -/
def NoCueStarts (s t : Scheduler V) : Prop :=
  ∀ ys u, Run Scheduler.step t ys u → (∀ y ∈ ys, ∀ j, y.label ≠ .arm j) →
    u.state = .idle ∧ (∀ runId, u.step (.start runId) = some u) ∧
      ∀ r call, Sent.cue r call ∈ u.sent.drop t.sent.length → ¬QuelledRun s r

/-- The sessions that call `k` acquired are released, and the Show is as it
was. -/
structure GivesBack (k : Nat) (s : Scheduler V) (xs : List (Step (Scheduler.step (V := V))))
    (t : Scheduler V) : Prop where
  released : ∀ x ∈ xs, ∀ name sessionId, acquisition k x = some (name, sessionId) →
    Sent.release name sessionId ∈ t.sent.drop s.sent.length
  unheld : ∀ x ∈ xs, ∀ name sessionId, acquisition k x = some (name, sessionId) →
    t.sessionIds.get name ≠ some sessionId
  idle : t.state = .idle
  noCue : NoCueStarts s t

/-! ## What is requested, and what stays -/

/-- No session is released, and the earlier runs that were over are over. -/
structure Spends (s t : Scheduler V) : Prop where
  sent : ∃ rs, t.sent = s.sent ++ rs ∧ ∀ q ∈ rs, q.isRelease = false
  quelled : ∀ r, QuelledRun s r → QuelledRun t r

theorem Spends.refl (s : Scheduler V) : Spends s s := ⟨⟨[], by simp, by simp⟩, fun _ h => h⟩

theorem Spends.trans {u : Scheduler V} (h : Spends s t) (h' : Spends t u) : Spends s u where
  sent := by
    obtain ⟨rs, hrs, hno⟩ := h.sent
    obtain ⟨rs', hrs', hno'⟩ := h'.sent
    refine ⟨rs ++ rs', by rw [hrs', hrs, List.append_assoc], ?_⟩
    intro q hq
    rcases List.mem_append.mp hq with hq | hq
    · exact hno q hq
    · exact hno' q hq
  quelled := fun r hr => h'.quelled r (h.quelled r hr)

theorem Spends.no_release (h : Spends s t) (name sessionId : String) :
    Sent.release name sessionId ∉ t.sent.drop s.sent.length := by
  obtain ⟨rs, hrs, hno⟩ := h.sent
  rw [hrs, List.drop_left]
  intro hmem
  cases hno _ hmem

/-- A run that was over stays over, when no run is started. -/
theorem quelled_stays (hi : Linked s) {l : Label V} (h : s.step l = some t)
    (hstarted : t.control.started = s.control.started) (r : Nat) (hr : QuelledRun s r) :
    QuelledRun t r := by
  have hmoves := step_moves h
  by_cases hlt : r < s.control.started
  · exact quelledRun_step hi hmoves hlt hr
  · obtain ⟨hended, hexec⟩ := (hi.step hmoves).fresh r (by omega)
    exact quelledRun_of_ended hexec hended

/-! ## After the call -/

/-- At rest, in a state the Scheduler can reach. -/
structure Resting (s : Scheduler V) : Prop extends AtRest s where
  linked : Linked s
  seated : Seated s

/-- Nothing of the Show moves unless somebody arms it. -/
theorem Resting.still (hi : Resting s) {l : Label V} (hl : ∀ j, l ≠ .arm j)
    (h : s.step l = some t) : t.control = s.control ∧ t.bodies = s.bodies := by
  cases hcall : l.call? with
  | some j =>
    have hidle := hi.idle
    obtain rfl := hi.seated.refused hcall (hi.calls j) (fun he => absurd he (hl j))
      (fun _ => by rw [hidle]; rfl) h
    exact ⟨rfl, rfl⟩
  | none =>
    have helse := step_elsewhere hcall h
    refine ⟨?_, helse.bodies⟩
    have hidle : s.control.controller.state = .idle := hi.idle
    rcases helse.control.same with hsame | harmed | hrunning | ⟨r, hr⟩
    · exact hsame
    · rw [hidle] at harmed
      cases harmed
    · rw [hidle] at hrunning
      cases hrunning
    · exact absurd (hi.runs r) hr

theorem Resting.step (hi : Resting s) {l : Label V} (hl : ∀ j, l ≠ .arm j)
    (h : s.step l = some t) : Resting t := by
  obtain ⟨hcontrol, -⟩ := hi.still hl h
  refine ⟨⟨?_, ?_, ?_⟩, hi.linked.step (step_moves h), hi.seated.step h⟩
  · rw [state, hcontrol]
    exact hi.idle
  · rw [hcontrol]
    exact hi.calls
  · rw [hcontrol]
    exact hi.runs

/-- `start` is refused. -/
theorem Resting.start_refused (hi : Resting s) (runId : String) :
    s.step (.start runId) = some s := by
  have hidle : s.control.controller.state = .idle := hi.idle
  simp [Scheduler.step, controls, ShowControl.step, ShowController.start, hidle]

/-- A Cue that is submitted in a step is of a run that was not over. -/
theorem not_quelled_of_cue {l : Label V} {r : Nat} (call : SubmitCall V)
    (h : s.step l = some t) (hcue : Sent.cue r call ∈ t.sent.drop s.sent.length) :
    ¬QuelledRun s r :=
  fun hq => quelledRun_silent (step_moves h) hq call hcue

theorem sent_grows {l : Label V} (h : s.step l = some t) : ∃ rs, t.sent = s.sent ++ rs := by
  cases step_moves h with
  | rests _ _ noCue _ =>
    obtain ⟨rs, hrs, -⟩ := noCue
    exact ⟨rs, hrs⟩
  | aborts _ _ _ _ _ _ _ noCue =>
    obtain ⟨rs, hrs, -⟩ := noCue
    exact ⟨rs, hrs⟩
  | cancels _ _ _ _ _ _ _ sent | starts _ _ _ _ _ _ _ sent | begins _ _ _ _ _ _ _ _ sent
  | drops _ _ _ _ _ sent => exact ⟨[], by rw [sent, List.append_nil]⟩
  | runs _ _ _ _ _ _ _ sent => exact ⟨_, sent⟩

theorem Resting.noCueStarts {s₀ : Scheduler V} (hi : Resting s)
    (hquelled : ∀ r, QuelledRun s₀ r → QuelledRun s r) : NoCueStarts s₀ s := by
  intro ys u run hno
  have hall : Resting u ∧ (∀ r, QuelledRun s r → QuelledRun u r) ∧
      (∃ rs, u.sent = s.sent ++ rs) ∧
      ∀ r call, Sent.cue r call ∈ u.sent.drop s.sent.length → ¬QuelledRun s r := by
    induction run with
    | nil => exact ⟨hi, fun _ h => h, ⟨[], by simp⟩, by simp⟩
    | @snoc ys y run ih =>
      obtain ⟨hrest, hkept, ⟨rs, hrs⟩, hcues⟩ := ih fun x hx => hno x (by simp [hx])
      have hl := hno y (by simp)
      obtain ⟨hcontrol, -⟩ := hrest.still hl y.fired
      have hstarted : y.dst.control.started = y.src.control.started := by rw [hcontrol]
      obtain ⟨rs', hrs'⟩ := sent_grows y.fired
      refine ⟨hrest.step hl y.fired, ?_, ⟨rs ++ rs', by rw [hrs', hrs, List.append_assoc]⟩, ?_⟩
      · intro r hr
        exact quelled_stays hrest.linked y.fired hstarted r (hkept r hr)
      · intro r call hmem hq
        rw [hrs', hrs, List.append_assoc, List.drop_left] at hmem
        rcases List.mem_append.mp hmem with hmem | hmem
        · exact hcues r call (by rw [hrs, List.drop_left]; exact hmem) hq
        · refine not_quelled_of_cue (r := r) call y.fired ?_ (hkept r hq)
          rw [hrs', List.drop_left]
          exact hmem
  obtain ⟨hrest, -, -, hcues⟩ := hall
  exact ⟨hrest.idle, hrest.start_refused, fun r call hmem hq => hcues r call hmem (hquelled r hq)⟩

/-! ## During the call -/

/-- Call `k` of `arm` is the only work on the Show. -/
structure Arming (k : Nat) (s : Scheduler V) : Prop where
  linked : Linked s
  seated : Seated s
  preparing : s.state = .preparing
  own : s.control.calls k = some .preparing
  others : ∀ j, j ≠ k → s.control.calls j = none
  runs : ∀ r, s.control.runs r = .ended

theorem Arming.of_frame {k : Nat} (hi : Arming k s) {l : Label V} (h : s.step l = some t)
    (hcontrol : t.control = s.control) : Arming k t where
  linked := hi.linked.step (step_moves h)
  seated := hi.seated.step h
  preparing := by
    rw [state, hcontrol]
    exact hi.preparing
  own := by rw [hcontrol, hi.own]
  others := by
    rw [hcontrol]
    exact hi.others
  runs := by
    rw [hcontrol]
    exact hi.runs

/-- What `_prepare` does in one stretch: it sends no release, and ends or goes
on with the Show as it is. -/
structure Prepares (k : Nat) (s t : Scheduler V) : Prop where
  sent : ∃ rs, t.sent = s.sent ++ rs ∧ ∀ q ∈ rs, q.isRelease = false
  control : t.control = s.control ∨
    t.control.calls = Function.update s.control.calls k none ∧
      t.control.runs = s.control.runs ∧ t.control.started = s.control.started

theorem endCall_prepares {k : Nat} {l : ShowControl.Label} (hl : Ends k l)
    (h : s.endCall k l = some t) : Prepares k s t := by
  obtain ⟨control, hstep, rfl⟩ := controls_eq h
  have hstays := ShowControl.step_stays hl.sparing hstep
  exact ⟨⟨[], by simp, by simp⟩, .inr ⟨hl.calls hstep, hstays.runs, hstays.started⟩⟩

theorem prepareClients_prepares {k : Nat} {names : List String}
    (h : s.prepareClients k names = some t) : Prepares k s t := by
  cases names with
  | nil => exact endCall_prepares .prepareReturned h
  | cons name rest =>
    cases h
    exact ⟨⟨[], by simp [suspend], by simp⟩, .inl rfl⟩

theorem prepare_prepares {k : Nat} (h : s.prepare k = some t) : Prepares k s t := by
  unfold prepare at h
  split at h
  · exact endCall_prepares (.prepareRaised _) h
  · exact prepareClients_prepares h

theorem informed_prepares {k : Nat} {name : String} {rest : List String}
    {answer : Except String Unit} (h : s.informed k name rest answer = some t) :
    Prepares k s t := by
  cases answer with
  | error message => exact endCall_prepares (.prepareRaised message) h
  | ok _ =>
    cases h
    exact ⟨⟨[.acquire name s.actor], rfl, by simp [Sent.isRelease]⟩, .inl rfl⟩

theorem acquired_prepares {k : Nat} {name : String} {rest : List String}
    {answer : Except String String} (h : s.acquired k name rest answer = some t) :
    Prepares k s t := by
  cases answer with
  | error message => exact endCall_prepares (.prepareRaised message) h
  | ok sessionId =>
    have hset := prepareClients_prepares (s := { s with
      sessionIds := s.sessionIds.set name sessionId }) h
    exact ⟨hset.sent, hset.control⟩

/-- A step of call `k` itself. -/
theorem Arming.own_step {k : Nat} (hi : Arming k s) {l : Label V} (hl : l.call? = some k)
    (h : s.step l = some t) : Prepares k s t := by
  have hbody : ∀ body, s.bodies k = some body → body.call = .preparing := by
    intro body hb
    exact Option.some.inj ((hi.seated.body k body hb).symm.trans hi.own)
  have hown := hi.own
  cases l with
  | arm j =>
    cases hl
    obtain ⟨u, hu, -⟩ := Option.bind_eq_some_iff.mp h
    rw [(arm_cases hu).1] at hown
    cases hown
  | abort j =>
    cases hl
    obtain ⟨u, hu, -⟩ := Option.bind_eq_some_iff.mp h
    rw [(abort_cases hu).1] at hown
    cases hown
  | joined j =>
    cases hl
    obtain ⟨u, hu, -⟩ := Option.bind_eq_some_iff.mp h
    obtain ⟨control, hstep, -⟩ := controls_eq hu
    simp [ShowControl.step, hown] at hstep
  | informed j answer =>
    cases hl
    simp only [Scheduler.step] at h
    split at h
    · exact informed_prepares h
    · cases h
  | acquired j answer =>
    cases hl
    simp only [Scheduler.step] at h
    split at h
    · exact acquired_prepares h
    · cases h
  | targets j answer requestId =>
    cases hl
    simp only [Scheduler.step] at h
    split at h
    · rename_i hb
      cases hbody _ hb
    · cases h
  | stopAnswered j requestId =>
    cases hl
    simp only [Scheduler.step] at h
    split at h
    · rename_i hb
      cases hbody _ hb
    · cases h
  | released j =>
    cases hl
    simp only [Scheduler.step] at h
    split at h
    · rename_i hb
      cases hbody _ hb
    · cases h
  | callCancelled j =>
    cases hl
    simp only [Scheduler.step, hown] at h
    obtain ⟨control, hstep, rfl⟩ := controls_eq h
    have hown' : s.control.calls k = some .preparing := hown
    simp only [ShowControl.step, hown', Option.some.injEq] at hstep
    subst hstep
    exact ⟨⟨[], by simp, by simp⟩, .inr ⟨rfl, rfl, rfl⟩⟩
  | _ => cases hl

/-- What is the case after a step of the call, or of somebody else. -/
structure Underway (k : Nat) (s₀ s : Scheduler V) : Prop where
  spends : Spends s₀ s
  linked : Linked s
  seated : Seated s
  others : ∀ j, j ≠ k → s.control.calls j = none
  runs : ∀ r, s.control.runs r = .ended
  arming : (s.control.calls k).isSome = true → Arming k s

/-- The Show has come to rest when the call has ended in IDLE. -/
theorem Underway.resting {k : Nat} {s₀ : Scheduler V} (h : Underway k s₀ s)
    (hidle : s.state = .idle) (hended : s.control.calls k = none) : Resting s := by
  refine ⟨⟨hidle, ?_, h.runs⟩, h.linked, h.seated⟩
  intro j
  by_cases hj : j = k
  · rw [hj, hended]
  · exact h.others j hj

/-- **A step during the call**: it releases nothing, and the call goes on with
the Show as it is, or ends. -/
theorem Arming.step {k : Nat} (hi : Arming k s) {l : Label V} (h : s.step l = some t) :
    Underway k s t := by
  have hpreparing : s.control.controller.state = .preparing := hi.preparing
  have hlinked := hi.linked.step (step_moves h)
  have hseated := hi.seated.step h
  have hquelled := quelled_stays hi.linked h
  have hsame : (∃ rs, t.sent = s.sent ++ rs ∧ ∀ q ∈ rs, q.isRelease = false) →
      t.control = s.control → Underway k s t := by
    intro hsent hcontrol
    have hnext := hi.of_frame h hcontrol
    exact ⟨⟨hsent, hquelled (by rw [hcontrol])⟩, hlinked, hseated, hnext.others, hnext.runs,
      fun _ => hnext⟩
  cases hcall : l.call? with
  | none =>
    have helse := step_elsewhere hcall h
    obtain ⟨rs, hrs, hcues⟩ := helse.sent
    have hcontrol : t.control = s.control := by
      rcases helse.control.same with hcontrol | harmed | hrunning | ⟨r, hr⟩
      · exact hcontrol
      · rw [hpreparing] at harmed
        cases harmed
      · rw [hpreparing] at hrunning
        cases hrunning
      · exact absurd (hi.runs r) hr
    refine hsame ⟨rs, hrs, ?_⟩ hcontrol
    intro q hq
    have hcue := hcues q hq
    cases q <;> first | rfl | cases hcue
  | some j =>
    by_cases hj : j = k
    · subst hj
      have hown := hi.own_step hcall h
      rcases hown.control with hcontrol | ⟨hcalls, hruns, hstarted⟩
      · exact hsame hown.sent hcontrol
      · refine ⟨⟨hown.sent, hquelled hstarted⟩, hlinked, hseated, ?_, ?_, ?_⟩
        · intro i hi'
          rw [hcalls, Function.update_of_ne hi']
          exact hi.others i hi'
        · rw [hruns]
          exact hi.runs
        · intro hsome
          rw [hcalls, Function.update_self] at hsome
          cases hsome
    · obtain rfl := hi.seated.refused hcall (hi.others j hj)
        (fun _ => by rw [hi.preparing]; nofun) (fun _ => by rw [hi.preparing]; rfl) h
      exact hsame ⟨[], by simp, by simp⟩ rfl

/-- Call `k` is accepted, and `_prepare` goes on to its first wait. -/
theorem Resting.arms (hi : Resting s) {k : Nat} (h : s.step (.arm k) = some t) :
    Underway k s t := by
  obtain ⟨u, hu, hrest⟩ := Option.bind_eq_some_iff.mp h
  obtain ⟨-, ⟨-, hbusy⟩ | ⟨-, hstate, heq, hcalls, hruns, hstarted⟩⟩ := arm_cases hu
  · exact absurd hi.idle hbusy
  have hcall : u.control.calls k = some .preparing := by rw [hcalls, Function.update_self]
  simp only [hcall] at hrest
  have hprepares := prepare_prepares hrest
  have hlinked := hi.linked.step (step_moves h)
  have hseated := hi.seated.step h
  have hothers : ∀ j, j ≠ k → u.control.calls j = none := by
    intro j hj
    rw [hcalls, Function.update_of_ne hj]
    exact hi.calls j
  have hended : ∀ r, u.control.runs r = .ended := by
    rw [hruns]
    exact hi.runs
  have hsent : u.sent = s.sent := by rw [heq]
  have hspends : t.control.started = u.control.started → Spends s t := by
    intro ht
    exact ⟨hsent ▸ hprepares.sent, quelled_stays hi.linked h (ht.trans hstarted)⟩
  rcases hprepares.control with hcontrol | ⟨hcalls', hruns', hstarted'⟩
  · have harming : Arming k t := by
      refine ⟨hlinked, hseated, ?_, ?_, ?_, ?_⟩
      · rw [state, hcontrol]
        exact hstate
      · rw [hcontrol, hcall]
      · rw [hcontrol]
        exact hothers
      · rw [hcontrol]
        exact hended
    exact ⟨hspends (by rw [hcontrol]), hlinked, hseated, harming.others, harming.runs,
      fun _ => harming⟩
  · refine ⟨hspends hstarted', hlinked, hseated, ?_, ?_, ?_⟩
    · intro j hj
      rw [hcalls', Function.update_of_ne hj]
      exact hothers j hj
    · rw [hruns']
      exact hended
    · intro hsome
      rw [hcalls', Function.update_self] at hsome
      cases hsome

/-! ## Where it raises -/

theorem endCall_raised {k : Nat} {message : String}
    (h : s.endCall k (.prepareRaised k message) = some t) :
    t.state = .idle ∧ t.control.calls k = none := by
  obtain ⟨control, hstep, rfl⟩ := controls_eq h
  simp only [ShowControl.step] at hstep
  split at hstep <;> cases hstep
  exact ⟨rfl, by simp [ShowControl.setCall]⟩

/-- `_prepare` raises, so the Show is IDLE. -/
theorem step_raised {k : Nat} {l : Label V} (hraises : prepareRaises k s l = true)
    (hcalls : l.calls k = true → s.state = .idle) (h : s.step l = some t) :
    t.state = .idle ∧ t.control.calls k = none := by
  cases l with
  | arm j =>
    simp only [prepareRaises, Bool.and_eq_true, decide_eq_true_eq, Option.isNone_iff_eq_none]
      at hraises
    obtain ⟨rfl, hnone⟩ := hraises
    obtain ⟨u, hu, hrest⟩ := Option.bind_eq_some_iff.mp h
    obtain ⟨-, ⟨-, hbusy⟩ | ⟨-, -, heq, hcalls', -⟩⟩ := arm_cases hu
    · exact absurd (hcalls (by simp [Label.calls])) hbusy
    · have hcall : u.control.calls j = some .preparing := by rw [hcalls', Function.update_self]
      have htimeline : u.timeline = none := by rw [heq]; exact hnone
      simp only [hcall, prepare, htimeline] at hrest
      exact endCall_raised hrest
  | informed j answer =>
    cases answer with
    | ok _ => cases hraises
    | error message =>
      obtain rfl : j = k := by simpa [prepareRaises] using hraises
      simp only [Scheduler.step] at h
      split at h
      · exact endCall_raised h
      · cases h
  | acquired j answer =>
    cases answer with
    | ok _ => cases hraises
    | error message =>
      obtain rfl : j = k := by simpa [prepareRaises] using hraises
      simp only [Scheduler.step] at h
      split at h
      · exact endCall_raised h
      · cases h
  | _ => cases hraises

/-! ## The whole call -/

theorem Underway.trans {k : Nat} {s₀ : Scheduler V} (h : Spends s₀ s) (h' : Underway k s t) :
    Underway k s₀ t :=
  ⟨h.trans h'.spends, h'.linked, h'.seated, h'.others, h'.runs, h'.arming⟩

/-- Steps with the call in progress before each of them. -/
theorem Underway.run {k : Nat} {s₀ : Scheduler V} (hi : Underway k s₀ s)
    {ys : List (Step Scheduler.step)} (run : Run Scheduler.step s ys t)
    (hunder : ∀ y ∈ ys, (y.src.control.calls k).isSome = true) : Underway k s₀ t := by
  induction run with
  | nil => exact hi
  | @snoc ys y run ih =>
    have hbefore := ih fun x hx => hunder x (by simp [hx])
    exact .trans hbefore.spends ((hbefore.arming (hunder y (by simp))).step y.fired)

theorem calls_iff {k : Nat} {l : Label V} : l.calls k = true ↔ l = .arm k := by
  constructor
  · intro h
    cases l with
    | arm j =>
      obtain rfl : j = k := by simpa [Label.calls] using h
      rfl
    | _ => cases h
  · intro h
    subst h
    simp [Label.calls]

/-- A call that raises leaves the Show at rest, and has released nothing. -/
theorem failed_rests (hi : Resting s) {k : Nat} {xs : List (Step Scheduler.step)}
    (run : Run Scheduler.step s xs t) (hfails : failsArm k xs = true) :
    Resting t ∧ Spends s t := by
  simp only [failsArm, Bool.and_eq_true, List.all_eq_true] at hfails
  obtain ⟨⟨hfirst, hunder⟩, hlast⟩ := hfails
  cases xs with
  | nil => cases hfirst
  | cons x rest =>
    have hlabel : x.label = .arm k := calls_iff.mp (by simpa using hfirst)
    obtain ⟨u, hone, hmore⟩ := @Run.split _ _ _ _ _ [x] rest run
    obtain ⟨hsrc, hdst⟩ := hone.of_singleton
    have hu : Underway k s u := by
      rw [hsrc] at hi ⊢
      rw [hdst]
      exact hi.arms (hlabel ▸ x.fired)
    have ht : Underway k s t := hu.run hmore hunder
    suffices hraised : t.state = .idle ∧ t.control.calls k = none from
      ⟨ht.resting hraised.1 hraised.2, ht.spends⟩
    rcases List.eq_nil_or_concat rest with rfl | ⟨ys, y, rfl⟩
    · -- no timeline is loaded: it raises at once
      obtain rfl := hmore.eq_of_nil
      rw [hdst]
      refine step_raised (by simpa using hlast) (fun _ => ?_) x.fired
      rw [← hsrc]
      exact hi.idle
    · rw [List.concat_eq_append] at hmore hunder hlast
      obtain ⟨v, hbefore, hstep⟩ := hmore.split
      obtain ⟨-, rfl⟩ := hstep.of_singleton
      have hraises : prepareRaises k y.src y.label = true := by
        simpa [List.getLast?_cons, List.getLast?_append] using hlast
      refine step_raised hraises (fun harm => ?_) y.fired
      -- `arm` with this call in progress does not happen
      have hfired := y.fired
      rw [calls_iff.mp harm] at hfired
      obtain ⟨w, hw, -⟩ := Option.bind_eq_some_iff.mp hfired
      have hcall := hunder y (by simp)
      rw [(arm_cases hw).1] at hcall
      cases hcall

/-- **A failed `arm` gives back what it took exactly when it took nothing**:
from a Show at rest, whatever happens during the call. -/
theorem failed_arm_iff (now : ℚ) (clients : List String) (actor : String)
    (hs : Reachable Scheduler.step (init now clients actor) s) (hrest : AtRest s) {k : Nat}
    {xs : List (Step (Scheduler.step (V := V)))} (run : Run Scheduler.step s xs t)
    (hfails : failsArm k xs = true) :
    GivesBack k s xs t ↔ ∀ x ∈ xs, ∀ sessionId, x.label ≠ .acquired k (.ok sessionId) := by
  have hlinked : Linked s := hs.invariant (Linked.init now clients actor)
    fun _ _ _ hi hstep => hi.step (step_moves hstep)
  have hresting : Resting s := ⟨hrest, hlinked, seated_reachable hs⟩
  obtain ⟨hafter, hspends⟩ := failed_rests hresting run hfails
  constructor
  · intro hgives x hx sessionId hlabel
    have hfired := x.fired
    rw [hlabel] at hfired
    simp only [Scheduler.step] at hfired
    split at hfired
    · rename_i q name rest hbody
      have hacquired : acquisition k x = some (name, sessionId) := by
        simp [acquisition, hlabel, hbody]
      exact hspends.no_release name sessionId (hgives.released x hx name sessionId hacquired)
    · cases hfired
  · intro hnone
    have hno : ∀ x ∈ xs, ∀ name sessionId, acquisition k x ≠ some (name, sessionId) := by
      intro x hx name sessionId hacquired
      unfold acquisition at hacquired
      split at hacquired
      · rename_i j sessionId' _ _ _ hlabel _
        split at hacquired
        · rename_i hj
          subst hj
          exact hnone x hx sessionId' hlabel
        · cases hacquired
      · cases hacquired
    exact ⟨fun x hx name sessionId h => absurd h (hno x hx name sessionId),
      fun x hx name sessionId h => absurd h (hno x hx name sessionId), hafter.idle,
      hafter.noCueStarts hspends.quelled⟩

/-- One Cue, for a Show on two clients. -/
private def motorCue : Timeline Int :=
  ⟨[⟨"a", 0, "motor", "motor01", "move", .empty, .acknowledged, [], .default⟩]⟩

private theorem motorCue_valid : validateTimeline motorCue = [] := by decide +kernel

/-- The timeline is loaded, and nothing has happened yet. -/
def twoLoaded : Scheduler Int :=
  { init 0 ["motor", "lamp"] "scheduler" with timeline := some ⟨motorCue, motorCue_valid⟩ }

theorem twoLoaded_reachable :
    Reachable Scheduler.step (init 0 ["motor", "lamp"] "scheduler") twoLoaded := by
  refine Reachable.refl.tail (l := .loadTimeline motorCue) ?_
  simp [Scheduler.step, motorCue_valid, twoLoaded]

theorem twoLoaded_atRest : AtRest twoLoaded := ⟨rfl, fun _ => rfl, fun _ => rfl⟩

/-- The first client refuses, so there is nothing to give back. -/
theorem failed_arm_iff_first :
    ∃ xs t, Run Scheduler.step twoLoaded xs t ∧ failsArm 0 xs = true ∧
      GivesBack 0 twoLoaded xs t := by
  obtain ⟨xs, t, run, hs⟩ := execSteps_test Scheduler.step twoLoaded
    [.arm 0, .informed 0 (.ok ()), .advance 1, .acquired 0 (.error "connection refused")]
    (fun r => failsArm 0 r.1 && r.1.all fun x => (acquisition 0 x).isNone) (by decide +kernel)
  simp only [Bool.and_eq_true, List.all_eq_true, Option.isNone_iff_eq_none] at hs
  refine ⟨xs, t, run, hs.1, (failed_arm_iff 0 ["motor", "lamp"] "scheduler" twoLoaded_reachable
    twoLoaded_atRest run hs.1).mpr ?_⟩
  intro x hx sessionId hlabel
  have hnone := hs.2 x hx
  have hfired := x.fired
  rw [hlabel] at hfired
  simp only [Scheduler.step] at hfired
  split at hfired
  · rename_i hbody
    simp [acquisition, hlabel, hbody] at hnone
  · cases hfired

/-- The defect: the motor has handed over its session, the lamp cannot be
reached, and `arm` raises; the session is not released, and still held. -/
theorem failed_arm_keeps_session :
    ¬ ∀ xs t, Run Scheduler.step twoLoaded xs t → failsArm 0 xs = true →
      GivesBack 0 twoLoaded xs t := by
  intro hall
  obtain ⟨xs, t, run, hs⟩ := execSteps_test Scheduler.step twoLoaded
    [.arm 0, .informed 0 (.ok ()), .acquired 0 (.ok "cs1"), .informed 0 (.error "unreachable")]
    (fun r => failsArm 0 r.1 && (r.1.any fun x => acquisition 0 x = some ("motor", "cs1")) &&
      r.2.sessionIds.get "motor" = some "cs1") (by decide +kernel)
  simp only [Bool.and_eq_true, List.any_eq_true, decide_eq_true_eq] at hs
  obtain ⟨⟨hfails, x, hx, hacquired⟩, hheld⟩ := hs
  exact (hall xs t run hfails).unheld x hx "motor" "cs1" hacquired hheld

end Scheduler

end Fusion
