import Fusion.Apps.SchedulerSteps
import Fusion.Core.OneShow

/-!
# ShowCalls — the calls of `arm` and `abort`, one at a time

A call that waits for a client has a coroutine where it is suspended
(`Seated`), and the sessions that are held are those of clients. While one
call is the only one in progress, the steps of everybody else leave its
coroutine, the sessions and its requests alone (`Elsewhere`).
-/

namespace Fusion

open Transition

namespace ShowControl

variable {c d : ShowControl}

/-- The labels that no call of `arm` or `abort` is behind. -/
def Label.ofRuns : Label → Bool
  | .start _ | .hold | .runBegins _ | .runReturned _ | .runRaised _ _ | .runCancelled _ => true
  | _ => false

/-- Nothing is entered or left by a call. -/
structure Apart (c d : ShowControl) : Prop where
  calls : d.calls = c.calls
  /-- something moves only in ARMED or RUNNING, or under a run task -/
  same : d = c ∨ c.controller.state = .armed ∨ c.controller.state = .running ∨
    ∃ r, c.runs r ≠ .ended
  /-- STOPPING and FAULTED are left by calls alone -/
  closed : c.controller.state = .stopping ∨ c.controller.state = .faulted →
    d.controller.state = .stopping ∨ d.controller.state = .faulted

theorem Apart.refl (c : ShowControl) : Apart c c := ⟨rfl, .inl rfl, id⟩

theorem Apart.trans {e : ShowControl} (h : Apart c d) (h' : Apart d e) : Apart c e where
  calls := h'.calls.trans h.calls
  same := by
    rcases h.same with rfl | hmoves
    · exact h'.same
    · exact .inr hmoves
  closed := fun hc => h'.closed (h.closed hc)

theorem step_apart {l : Label} (hl : l.ofRuns = true) (h : c.step l = some d) : Apart c d := by
  cases l with
  | start runId =>
    simp only [step] at h
    split at h <;> cases h
    · rename_i c' hstart
      obtain ⟨harmed, -, -⟩ := ShowController.start_ok hstart
      refine ⟨rfl, .inr (.inl harmed), ?_⟩
      rw [harmed]
      rintro (h | h) <;> cases h
    · exact .refl c
  | hold =>
    simp only [step] at h
    split at h <;> cases h
    · rename_i c' hhold
      obtain ⟨hrunning, -, -⟩ := ShowController.hold_ok hhold
      refine ⟨rfl, .inr (.inr (.inl hrunning)), ?_⟩
      rw [hrunning]
      rintro (h | h) <;> cases h
    · exact .refl c
  | runBegins r =>
    obtain ⟨hcreated, -, rfl⟩ := step_runBegins h
    exact ⟨rfl, .inr (.inr (.inr ⟨r, by simp [hcreated]⟩)), id⟩
  | runReturned r =>
    simp only [step] at h
    split at h <;> cases h
    rename_i hexecuting
    refine ⟨rfl, .inr (.inr (.inr ⟨r, by simp [hexecuting]⟩)), ?_⟩
    intro hclosed
    -- `_drive` writes IDLE over RUNNING and HOLDING only
    have hsame : c.controller.runReturned = c.controller := by
      unfold ShowController.runReturned
      rcases hclosed with hstate | hstate <;> simp [hstate]
    show c.controller.runReturned.state = _ ∨ c.controller.runReturned.state = _
    rw [hsame]
    exact hclosed
  | runRaised r message =>
    simp only [step] at h
    split at h <;> cases h
    rename_i hexecuting
    exact ⟨rfl, .inr (.inr (.inr ⟨r, by simp [hexecuting]⟩)), fun _ => .inr rfl⟩
  | runCancelled r =>
    simp only [step] at h
    split at h <;> cases h
    rename_i halive
    refine ⟨rfl, .inr (.inr (.inr ⟨r, ?_⟩)), id⟩
    rcases halive with h | ⟨h, -⟩ <;> simp [h]
  | _ => cases hl

end ShowControl

/-! ## Where the calls are -/

/-- The call that the coroutine belongs to. -/
def ShowBody.call : ShowBody → ShowCall
  | info _ _ | acquiring _ _ _ => .preparing
  | targets _ _ _ | stopping _ _ _ _ | releasing _ => .stopping

/-- The clients `_prepare` has still to go through. -/
def ShowBody.toPrepare : ShowBody → List String
  | info name rest | acquiring _ name rest => name :: rest
  | _ => []

namespace Scheduler

variable {V : Type} {s t : Scheduler V}

/-- A call that waits for a client is suspended in its coroutine; the sessions
held, and those being acquired, are those of clients. -/
structure Seated (s : Scheduler V) : Prop where
  body : ∀ k body, s.bodies k = some body → s.control.calls k = some body.call
  call : ∀ k call, s.control.calls k = some call → (∀ r, call ≠ .joining r) →
    ∃ body, s.bodies k = some body
  prepared : ∀ k body, s.bodies k = some body → ∀ name ∈ body.toPrepare, name ∈ s.clients
  held : ∀ name, s.sessionIds.get name ≠ none → name ∈ s.clients

/-- What a stretch of the coroutine of call `k` does to the call, and to the
sessions that are held: it acquires none. -/
structure Stint (k : Nat) (call : ShowCall) (s t : Scheduler V) : Prop where
  clients : t.clients = s.clients
  held : ∀ name, t.sessionIds.get name ≠ none → s.sessionIds.get name ≠ none
  goes : (∃ body : ShowBody, body.call = call ∧ (∀ name ∈ body.toPrepare, name ∈ s.clients) ∧
      t.bodies = Function.update s.bodies k (some body) ∧ t.control = s.control) ∨
    ∃ l, Ends k l ∧ t.bodies = Function.update s.bodies k none ∧
      s.control.step l = some t.control

theorem suspend_stint (s : Scheduler V) (k : Nat) (body : ShowBody)
    (names : ∀ name ∈ body.toPrepare, name ∈ s.clients) :
    Stint k body.call s (s.suspend k body) :=
  ⟨rfl, fun _ h => h, .inl ⟨body, rfl, names, rfl, rfl⟩⟩

theorem endCall_stint {k : Nat} {call : ShowCall} {l : ShowControl.Label} (hl : Ends k l)
    (h : s.endCall k l = some t) : Stint k call s t := by
  obtain ⟨control, hstep, rfl⟩ := controls_eq h
  exact ⟨rfl, fun _ h => h, .inr ⟨l, hl, rfl, hstep⟩⟩

theorem prepareClients_stint {k : Nat} {names : List String}
    (hnames : ∀ name ∈ names, name ∈ s.clients) (h : s.prepareClients k names = some t) :
    Stint k .preparing s t := by
  cases names with
  | nil => exact endCall_stint .prepareReturned h
  | cons name rest =>
    cases h
    exact suspend_stint s k (.info name rest) hnames

theorem prepare_stint {k : Nat} (h : s.prepare k = some t) : Stint k .preparing s t := by
  unfold prepare at h
  split at h
  · exact endCall_stint (.prepareRaised _) h
  · exact prepareClients_stint (fun _ hname => hname) h

theorem informed_stint {k : Nat} {name : String} {rest : List String}
    {answer : Except String Unit} (hnames : ∀ n ∈ name :: rest, n ∈ s.clients)
    (h : s.informed k name rest answer = some t) : Stint k .preparing s t := by
  cases answer with
  | error message => exact endCall_stint (.prepareRaised message) h
  | ok _ =>
    cases h
    exact ⟨rfl, fun _ h => h, .inl ⟨.acquiring s.sent.length name rest, rfl, hnames, rfl, rfl⟩⟩

theorem releaseNext_stint {k : Nat} {names : List String}
    (h : s.releaseNext k names = some t) : Stint k .stopping s t := by
  cases names with
  | nil => exact endCall_stint .stopReturned h
  | cons name rest =>
    simp only [releaseNext] at h
    split at h
    · exact endCall_stint .stopRaised h
    · split at h
      · exact endCall_stint .stopRaised h
      · cases h
        refine ⟨rfl, ?_, .inl ⟨.releasing rest, rfl, by simp [ShowBody.toPrepare], rfl, rfl⟩⟩
        intro other hheld hnone
        have hheld : (s.sessionIds.erase name).get other ≠ none := hheld
        rw [Dict.get_erase, hnone, ite_self] at hheld
        exact hheld rfl

theorem stopClients_stint {k : Nat} {names : List String}
    (h : s.stopClients k names = some t) : Stint k .stopping s t := by
  induction names with
  | nil => exact releaseNext_stint h
  | cons name rest ih =>
    simp only [stopClients] at h
    split at h
    · exact ih h
    · rename_i sessionId _
      cases h
      exact suspend_stint s k (.targets name sessionId rest) (by simp [ShowBody.toPrepare])

theorem stopTargets_stint {k : Nat} {name sessionId requestId : String} {rest : List String}
    {targets : List TargetManifest}
    (h : s.stopTargets k name sessionId rest requestId targets = some t) :
    Stint k .stopping s t := by
  induction targets with
  | nil => exact stopClients_stint h
  | cons target targets ih =>
    simp only [stopTargets] at h
    split at h
    · exact ih h
    · cases h
      exact ⟨rfl, fun _ h => h,
        .inl ⟨.stopping name sessionId targets rest, rfl, by simp [ShowBody.toPrepare], rfl, rfl⟩⟩

theorem Ends.calls {k : Nat} {l : ShowControl.Label} (hl : Ends k l) {c d : ShowControl}
    (h : c.step l = some d) : d.calls = Function.update c.calls k none := by
  cases hl <;> (simp only [ShowControl.step] at h; split at h <;> cases h; rfl)

/-- The other calls stay. -/
theorem Stint.calls_ne {k : Nat} {call : ShowCall} (h : Stint k call s t) {j : Nat} (hj : j ≠ k) :
    t.control.calls j = s.control.calls j := by
  rcases h.goes with ⟨_, _, _, _, hcontrol⟩ | ⟨l, hl, -, hstep⟩
  · rw [hcontrol]
  · rw [hl.calls hstep, Function.update_of_ne hj]

/-- Every call but `k` is where it should be. -/
structure SeatedBut (k : Nat) (s : Scheduler V) : Prop where
  body : ∀ j body, j ≠ k → s.bodies j = some body → s.control.calls j = some body.call
  call : ∀ j call, j ≠ k → s.control.calls j = some call → (∀ r, call ≠ .joining r) →
    ∃ body, s.bodies j = some body
  prepared : ∀ j body, j ≠ k → s.bodies j = some body → ∀ name ∈ body.toPrepare, name ∈ s.clients
  held : ∀ name, s.sessionIds.get name ≠ none → name ∈ s.clients

theorem Seated.but (hi : Seated s) (k : Nat) : SeatedBut k s :=
  ⟨fun j body _ => hi.body j body, fun j call _ => hi.call j call,
    fun j body _ => hi.prepared j body, hi.held⟩

/-- The calls of the others stay. -/
theorem SeatedBut.of_others {k : Nat} (hi : SeatedBut k s)
    (hcalls : ∀ j, j ≠ k → t.control.calls j = s.control.calls j)
    (hbodies : ∀ j, j ≠ k → t.bodies j = s.bodies j) (hclients : t.clients = s.clients)
    (hheld : ∀ name, t.sessionIds.get name ≠ none → name ∈ s.clients) : SeatedBut k t where
  body := by
    intro j body hj hb
    rw [hbodies j hj] at hb
    rw [hcalls j hj]
    exact hi.body j body hj hb
  call := by
    intro j call hj hc hno
    rw [hcalls j hj] at hc
    rw [hbodies j hj]
    exact hi.call j call hj hc hno
  prepared := by
    intro j body hj hb
    rw [hbodies j hj] at hb
    rw [hclients]
    exact hi.prepared j body hj hb
  held := by
    rw [hclients]
    exact hheld

/-- And call `k` itself has no coroutine, or the one it waits in. -/
theorem SeatedBut.seated {k : Nat} (hi : SeatedBut k s)
    (hown : (s.bodies k = none ∧ ∀ call, s.control.calls k = some call → ∃ r, call = .joining r) ∨
      ∃ body : ShowBody, s.bodies k = some body ∧ s.control.calls k = some body.call ∧
        ∀ name ∈ body.toPrepare, name ∈ s.clients) : Seated s where
  body := by
    intro j body hb
    by_cases hj : j = k
    · subst hj
      rcases hown with ⟨hnone, -⟩ | ⟨own, hsome, hcall, -⟩
      · rw [hnone] at hb
        cases hb
      · rw [hsome] at hb
        cases hb
        exact hcall
    · exact hi.body j body hj hb
  call := by
    intro j call hc hno
    by_cases hj : j = k
    · subst hj
      rcases hown with ⟨-, hjoining⟩ | ⟨own, hsome, -, -⟩
      · obtain ⟨r, rfl⟩ := hjoining call hc
        exact absurd rfl (hno r)
      · exact ⟨own, hsome⟩
    · exact hi.call j call hj hc hno
  prepared := by
    intro j body hb
    by_cases hj : j = k
    · subst hj
      rcases hown with ⟨hnone, -⟩ | ⟨own, hsome, -, hnames⟩
      · rw [hnone] at hb
        cases hb
      · rw [hsome] at hb
        cases hb
        exact hnames
    · exact hi.prepared j body hj hb
  held := hi.held

theorem SeatedBut.stint {k : Nat} {call : ShowCall} (hi : SeatedBut k s)
    (hcall : s.control.calls k = some call) (h : Stint k call s t) : Seated t := by
  have hheld : ∀ name, t.sessionIds.get name ≠ none → name ∈ s.clients :=
    fun name hname => hi.held name (h.held name hname)
  rcases h.goes with ⟨body, rfl, hnames, hbodies, hcontrol⟩ | ⟨l, hl, hbodies, hstep⟩
  · refine (hi.of_others (fun j _ => by rw [hcontrol]) ?_ h.clients hheld).seated
      (.inr ⟨body, ?_, ?_, ?_⟩)
    · intro j hj
      rw [hbodies, Function.update_of_ne hj]
    · rw [hbodies, Function.update_self]
    · rw [hcontrol]
      exact hcall
    · rw [h.clients]
      exact hnames
  · have hcalls := hl.calls hstep
    refine (hi.of_others ?_ ?_ h.clients hheld).seated (.inl ⟨?_, ?_⟩)
    · intro j hj
      rw [hcalls, Function.update_of_ne hj]
    · intro j hj
      rw [hbodies, Function.update_of_ne hj]
    · rw [hbodies, Function.update_self]
    · intro call' hcall'
      rw [hcalls, Function.update_self] at hcall'
      cases hcall'

/-! ## Everybody else -/

/-- The call whose step a label is. -/
def Label.call? : Label V → Option Nat
  | .arm k | .informed k _ | .acquired k _ | .abort k | .joined k | .targets k _ _
  | .stopAnswered k _ | .released k | .callCancelled k => some k
  | _ => none

/-- A step that is no call's: it leaves the coroutines and the sessions alone,
and requests nothing but Cues. -/
structure Elsewhere (s t : Scheduler V) : Prop where
  control : ShowControl.Apart s.control t.control
  bodies : t.bodies = s.bodies
  sessionIds : t.sessionIds = s.sessionIds
  clients : t.clients = s.clients
  sent : ∃ rs, t.sent = s.sent ++ rs ∧ ∀ q ∈ rs, q.isCue = true

theorem Elsewhere.refl (s : Scheduler V) : Elsewhere s s :=
  ⟨.refl _, rfl, rfl, rfl, [], by simp, by simp⟩

theorem Elsewhere.of_controls {l : ShowControl.Label} (hl : l.ofRuns = true)
    (h : s.controls l = some t) : Elsewhere s t := by
  obtain ⟨control, hstep, rfl⟩ := controls_eq h
  exact ⟨ShowControl.step_apart hl hstep, rfl, rfl, rfl, [], by simp, by simp⟩

theorem Elsewhere.trans {u : Scheduler V} (h : Elsewhere s t) (h' : Elsewhere t u) :
    Elsewhere s u where
  control := h.control.trans h'.control
  bodies := h'.bodies.trans h.bodies
  sessionIds := h'.sessionIds.trans h.sessionIds
  clients := h'.clients.trans h.clients
  sent := by
    obtain ⟨rs, hrs, hcues⟩ := h.sent
    obtain ⟨rs', hrs', hcues'⟩ := h'.sent
    refine ⟨rs ++ rs', by rw [hrs', hrs, List.append_assoc], ?_⟩
    intro q hq
    rcases List.mem_append.mp hq with hq | hq
    · exact hcues q hq
    · exact hcues' q hq

theorem runEnded_elsewhere {r : Nat} {e : Execution V} {how : TaskEnd}
    (h : s.runEnded r e how = some t) : Elsewhere s t := by
  cases how with
  | returned =>
    have hsame : Elsewhere s { s with lastOutcomes := e.outcomes } :=
      ⟨.refl _, rfl, rfl, rfl, [], by simp, by simp⟩
    simp only [runEnded] at h
    split at h
    · exact hsame.trans (.of_controls rfl h)
    · exact hsame.trans (.of_controls rfl h)
  | raised message => exact .of_controls rfl h
  | cancelled => exact .of_controls rfl h

theorem runStep_elsewhere {r : Nat} {e e' : Execution V} {drift : ℚ}
    (h : s.runStep r e e' drift = some t) : Elsewhere s t := by
  have hset : Elsewhere s (s.setExec r e e' drift) := by
    refine ⟨.refl _, rfl, rfl, rfl, _, rfl, ?_⟩
    intro q hq
    obtain ⟨call, -, rfl⟩ := List.mem_map.mp hq
    rfl
  unfold runStep at h
  split at h
  · cases h
    exact hset
  · exact hset.trans (runEnded_elsewhere h)
  · cases h
    exact hset

/-- A step that is no call's. -/
theorem step_elsewhere {l : Label V} (hl : l.call? = none) (h : s.step l = some t) :
    Elsewhere s t := by
  have same : ∀ {u : Scheduler V}, u.control = s.control → u.bodies = s.bodies →
      u.sessionIds = s.sessionIds → u.clients = s.clients → u.sent = s.sent → Elsewhere s u := by
    intro u hcontrol hbodies hsessions hclients hsent
    refine ⟨?_, hbodies, hsessions, hclients, [], by simp [hsent], by simp⟩
    rw [hcontrol]
    exact .refl _
  cases l with
  | start runId => exact .of_controls rfl h
  | hold => exact .of_controls rfl h
  | runBegins r drift =>
    simp only [step] at h
    split at h
    · obtain ⟨u, hu, hrun⟩ := Option.bind_eq_some_iff.mp h
      have hbegins : Elsewhere s u := .of_controls rfl hu
      refine hbegins.trans ?_
      unfold runBegins at hrun
      split at hrun
      · obtain ⟨e, -, hrun⟩ := Option.bind_eq_some_iff.mp hrun
        exact runStep_elsewhere hrun
      · exact .of_controls rfl hrun
    · cases h
  | runDropped r =>
    simp only [step] at h
    split at h
    · exact .of_controls rfl h
    · cases h
  | run r label drift =>
    obtain ⟨e, -, hrest⟩ := Option.bind_eq_some_iff.mp h
    split at hrest
    · obtain ⟨e', -, hrun⟩ := Option.bind_eq_some_iff.mp hrest
      exact runStep_elsewhere hrun
    · cases hrest
  | advance dt | stageConfig kind freshId | applyCancelled i =>
    simp only [step] at h
    split at h <;> cases h
    exact same rfl rfl rfl rfl rfl
  | loadTimeline timeline =>
    simp only [step] at h
    split at h <;> cases h <;> exact same rfl rfl rfl rfl rfl
  | applyConfig i revisionId expected =>
    simp only [step] at h
    split at h
    · cases h
    · split at h <;> cases h <;> exact same rfl rfl rfl rfl rfl
  | applyLocked i =>
    simp only [step] at h
    split at h
    · split at h <;> cases h
      unfold applyLocked
      split <;> exact same rfl rfl rfl rfl rfl
    · cases h
  | _ => cases hl

/-! ## Every step -/

theorem Seated.init (now : ℚ) (clients : List String) (actor : String) :
    Seated (init now clients actor : Scheduler V) :=
  ⟨nofun, nofun, nofun, fun _ h => absurd rfl h⟩

theorem Seated.elsewhere (hi : Seated s) (h : Elsewhere s t) : Seated t := by
  refine ⟨?_, ?_, ?_, ?_⟩
  · rw [h.bodies, h.control.calls]
    exact hi.body
  · rw [h.bodies, h.control.calls]
    exact hi.call
  · rw [h.bodies, h.clients]
    exact hi.prepared
  · rw [h.sessionIds, h.clients]
    exact hi.held

/-- `arm` is refused, or call `k` enters PREPARING. -/
theorem arm_cases {k : Nat} {u : Scheduler V} (h : s.controls (.arm k) = some u) :
    s.control.calls k = none ∧ (u = s ∧ s.state ≠ .idle ∨
      s.state = .idle ∧ u.state = .preparing ∧ u = { s with control := u.control } ∧
        u.control.calls = Function.update s.control.calls k (some .preparing) ∧
        u.control.runs = s.control.runs ∧ u.control.started = s.control.started) := by
  obtain ⟨control, hstep, rfl⟩ := controls_eq h
  simp only [ShowControl.step] at hstep
  split at hstep <;> cases hstep
  · rename_i hnone harm
    obtain ⟨hidle, rfl⟩ := ShowController.arm_ok harm
    exact ⟨hnone, .inr ⟨hidle, rfl, rfl, rfl, rfl, rfl⟩⟩
  · rename_i hnone harm
    refine ⟨hnone, .inl ⟨rfl, ?_⟩⟩
    intro hidle
    simp only [state] at hidle
    simp [ShowController.arm, hidle] at harm

/-- The states in which `abort` is accepted. -/
def abortable : ShowState → Bool
  | .running | .holding | .faulted => true
  | _ => false

/-- `abort` is refused, or call `k` enters STOPPING. -/
theorem abort_cases {k : Nat} {u : Scheduler V} (h : s.controls (.abort k) = some u) :
    s.control.calls k = none ∧ (u = s ∧ abortable s.state = false ∨
      ∃ call, (call = .stopping ∨ ∃ r, call = .joining r) ∧ abortable s.state = true ∧
        u.state = .stopping ∧ u = { s with control := u.control } ∧
        u.control.calls = Function.update s.control.calls k (some call)) := by
  obtain ⟨control, hstep, rfl⟩ := controls_eq h
  simp only [ShowControl.step] at hstep
  split at hstep
  · rename_i c hnone habort
    have hable : abortable s.state = true := by
      unfold ShowController.abort at habort
      split at habort
      · cases habort
      · rename_i hstate
        simp only [state]
        revert hstate
        cases s.control.controller.state <;> simp [abortable]
    obtain rfl := ShowController.abort_ok habort
    split at hstep <;> cases hstep
    · exact ⟨hnone, .inr ⟨_, .inr ⟨_, rfl⟩, hable, rfl, rfl, rfl⟩⟩
    · exact ⟨hnone, .inr ⟨_, .inl rfl, hable, rfl, rfl, rfl⟩⟩
  · rename_i hnone habort
    cases hstep
    refine ⟨hnone, .inl ⟨rfl, ?_⟩⟩
    unfold ShowController.abort at habort
    split at habort
    · rename_i hstate
      simp only [state]
      revert hstate
      cases s.control.controller.state <;> simp [abortable]
    · cases habort
  · cases hstep

/-- Call `k` is accepted. -/
theorem Seated.accepts (hi : Seated s) {k : Nat} {call : ShowCall} {u : Scheduler V}
    (heq : u = { s with control := u.control })
    (hcalls : u.control.calls = Function.update s.control.calls k (some call)) :
    SeatedBut k u := by
  refine (hi.but k).of_others ?_ ?_ (by rw [heq]) (by rw [heq]; exact hi.held)
  · intro j hj
    rw [hcalls, Function.update_of_ne hj]
  · intro j _
    rw [heq]

/-- A call that waits for no client has no coroutine. -/
theorem Seated.bodies_none (hi : Seated s) {k : Nat}
    (h : s.control.calls k = none ∨ ∃ r, s.control.calls k = some (.joining r)) :
    s.bodies k = none := by
  cases hb : s.bodies k with
  | none => rfl
  | some body =>
    have hcall := hi.body k body hb
    rcases h with hnone | ⟨r, hjoining⟩
    · rw [hnone] at hcall
      cases hcall
    · rw [hjoining] at hcall
      cases body <;> cases hcall

/-- What a step of call `k` does. -/
inductive CallStep (k : Nat) (s t : Scheduler V) : Prop
  | refused (same : t = s)
  /-- a stretch of the coroutine, from where the answer is in -/
  | goes (u : Scheduler V) (call : ShowCall) (but : SeatedBut k u)
      (own : u.control.calls k = some call)
      (others : ∀ j, j ≠ k → u.control.calls j = s.control.calls j) (stint : Stint k call u t)
  /-- the call waits for the run task, or was cancelled -/
  | rests (but : SeatedBut k t) (none : t.bodies k = none)
      (own : ∀ call, t.control.calls k = some call → ∃ r, call = .joining r)
      (others : ∀ j, j ≠ k → t.control.calls j = s.control.calls j)

/-- The coroutine goes on from its wait. -/
theorem Seated.goes (hi : Seated s) {k : Nat} {body : ShowBody} (hb : s.bodies k = some body)
    (h : Stint k body.call s t) : CallStep k s t :=
  .goes s body.call (hi.but k) (hi.body k body hb) (fun _ _ => rfl) h

/-- Call `k` is accepted, and goes on to its first wait. -/
theorem Seated.accepted_goes (hi : Seated s) {k : Nat} {call : ShowCall} {u : Scheduler V}
    (heq : u = { s with control := u.control })
    (hcalls : u.control.calls = Function.update s.control.calls k (some call))
    (h : Stint k call u t) : CallStep k s t := by
  refine .goes u call (hi.accepts heq hcalls) ?_ ?_ h
  · rw [hcalls, Function.update_self]
  · intro j hj
    rw [hcalls, Function.update_of_ne hj]

/-- **A step of call `k`.** -/
theorem Seated.call_step (hi : Seated s) {l : Label V} {k : Nat} (hl : l.call? = some k)
    (h : s.step l = some t) : CallStep k s t := by
  cases l with
  | arm i =>
    cases hl
    obtain ⟨u, hu, hrest⟩ := Option.bind_eq_some_iff.mp h
    obtain ⟨hnone, ⟨rfl, -⟩ | ⟨-, -, heq, hcalls, -⟩⟩ := arm_cases hu
    · simp only [hnone, Option.some.injEq] at hrest
      exact .refused hrest.symm
    · have hcall : u.control.calls k = some .preparing := by rw [hcalls, Function.update_self]
      simp only [hcall] at hrest
      exact hi.accepted_goes heq hcalls (prepare_stint hrest)
  | abort i =>
    cases hl
    obtain ⟨u, hu, hrest⟩ := Option.bind_eq_some_iff.mp h
    obtain ⟨hnone, ⟨rfl, -⟩ | ⟨call, hkind, -, -, heq, hcalls⟩⟩ := abort_cases hu
    · simp only [hnone, Option.some.injEq] at hrest
      exact .refused hrest.symm
    · have hcall : u.control.calls k = some call := by rw [hcalls, Function.update_self]
      rcases hkind with rfl | ⟨r, rfl⟩
      · simp only [hcall] at hrest
        exact hi.accepted_goes heq hcalls (stopClients_stint hrest)
      · -- the coroutine comes after the wait for the run task
        have hbut := hi.accepts heq hcalls
        simp only [hcall, Option.some.injEq] at hrest
        subst hrest
        refine .rests ?_ ?_ ?_ ?_
        · exact hbut.of_others (fun _ _ => rfl) (fun _ _ => rfl) rfl hbut.held
        · show u.bodies k = none
          rw [heq]
          exact hi.bodies_none (.inl hnone)
        · intro call' hcall'
          exact ⟨r, Option.some.inj (hcall'.symm.trans hcall)⟩
        · intro j hj
          show u.control.calls j = _
          rw [hcalls, Function.update_of_ne hj]
  | informed i answer =>
    cases hl
    simp only [Scheduler.step] at h
    split at h
    · rename_i name rest hb
      exact hi.goes hb (informed_stint (hi.prepared k _ hb) h)
    · cases h
  | acquired i answer =>
    cases hl
    simp only [Scheduler.step] at h
    split at h
    · rename_i q name rest hb
      have hnames := hi.prepared k _ hb
      cases answer with
      | error message => exact hi.goes hb (endCall_stint (.prepareRaised message) h)
      | ok sessionId =>
        -- the session of a client
        have hbut : SeatedBut k { s with sessionIds := s.sessionIds.set name sessionId } := by
          refine (hi.but k).of_others (fun _ _ => rfl) (fun _ _ => rfl) rfl ?_
          intro other hother
          by_cases hne : name = other
          · exact hnames other (hne ▸ List.mem_cons_self)
          · have hother : (s.sessionIds.set name sessionId).get other ≠ none := hother
            rw [Dict.get_set_ne _ _ hne] at hother
            exact hi.held other hother
        exact .goes _ .preparing hbut (hi.body k _ hb) (fun _ _ => rfl) (prepareClients_stint
          (fun n hn => hnames n (List.mem_cons_of_mem _ hn)) h)
    · cases h
  | joined i =>
    cases hl
    obtain ⟨u, hu, hrest⟩ := Option.bind_eq_some_iff.mp h
    obtain ⟨control, hstep, rfl⟩ := controls_eq hu
    simp only [ShowControl.step] at hstep
    split at hstep
    · split at hstep <;> cases hstep
      exact hi.accepted_goes rfl rfl (stopClients_stint hrest)
    · cases hstep
  | targets i answer requestId =>
    cases hl
    simp only [Scheduler.step] at h
    split at h
    · rename_i name sessionId rest hb
      split at h
      · exact hi.goes hb (stopClients_stint h)
      · exact hi.goes hb (stopTargets_stint h)
    · cases h
  | stopAnswered i requestId =>
    cases hl
    simp only [Scheduler.step] at h
    split at h
    · rename_i hb
      exact hi.goes hb (stopTargets_stint h)
    · cases h
  | released i =>
    cases hl
    simp only [Scheduler.step] at h
    split at h
    · rename_i hb
      exact hi.goes hb (releaseNext_stint h)
    · cases h
  | callCancelled i =>
    cases hl
    simp only [Scheduler.step] at h
    split at h
    · rename_i r hr
      obtain ⟨u, hu, rfl⟩ := Option.map_eq_some_iff.mp h
      obtain ⟨control, hstep, rfl⟩ := controls_eq hu
      simp only [ShowControl.step, hr, Option.some.injEq] at hstep
      subst hstep
      refine .rests ?_ (hi.bodies_none (.inr ⟨r, hr⟩)) ?_ fun _ _ => rfl
      · exact (hi.but k).of_others (fun _ _ => rfl) (fun _ _ => rfl) rfl hi.held
      · intro call hcall
        exact ⟨r, Option.some.inj (hcall.symm.trans hr)⟩
    · rename_i hjoining
      obtain ⟨control, hstep, rfl⟩ := controls_eq h
      have hcalls : control.calls = Function.update s.control.calls k none := by
        simp only [ShowControl.step] at hstep
        split at hstep <;> cases hstep
        · rename_i r hr
          exact absurd hr (hjoining r)
        · rfl
      have hothers : ∀ j, j ≠ k → control.calls j = s.control.calls j := by
        intro j hj
        rw [hcalls, Function.update_of_ne hj]
      refine .rests ?_ (Function.update_self ..) ?_ hothers
      · refine (hi.but k).of_others hothers ?_ rfl hi.held
        intro j hj
        exact Function.update_of_ne hj ..
      · intro call hcall
        rw [hcalls, Function.update_self] at hcall
        cases hcall
  | _ => cases hl

theorem Seated.step {l : Label V} (hi : Seated s) (h : s.step l = some t) : Seated t := by
  cases hl : l.call? with
  | none => exact hi.elsewhere (step_elsewhere hl h)
  | some k =>
    cases hi.call_step hl h with
    | refused same => exact same ▸ hi
    | goes u call but own _ stint => exact but.stint own stint
    | rests but none own _ => exact but.seated (.inl ⟨none, own⟩)

/-- A step of a call that is not in progress is a refused `arm` or `abort`. -/
theorem Seated.refused (hi : Seated s) {l : Label V} {j : Nat} (hl : l.call? = some j)
    (hnone : s.control.calls j = none) (harm : l = .arm j → s.state ≠ .idle)
    (habort : l = .abort j → abortable s.state = false) (h : s.step l = some t) : t = s := by
  have hbody : s.bodies j = none := hi.bodies_none (.inl hnone)
  cases l with
  | arm k =>
    cases hl
    obtain ⟨u, hu, hrest⟩ := Option.bind_eq_some_iff.mp h
    obtain ⟨-, ⟨rfl, -⟩ | ⟨hidle, -⟩⟩ := arm_cases hu
    · simp only [hnone, Option.some.injEq] at hrest
      exact hrest.symm
    · exact absurd hidle (harm rfl)
  | abort k =>
    cases hl
    obtain ⟨u, hu, hrest⟩ := Option.bind_eq_some_iff.mp h
    obtain ⟨-, ⟨rfl, -⟩ | ⟨call, -, hable, -⟩⟩ := abort_cases hu
    · simp only [hnone, Option.some.injEq] at hrest
      exact hrest.symm
    · rw [habort rfl] at hable
      cases hable
  | joined k =>
    cases hl
    obtain ⟨u, hu, -⟩ := Option.bind_eq_some_iff.mp h
    obtain ⟨control, hstep, -⟩ := controls_eq hu
    simp [ShowControl.step, hnone] at hstep
  | callCancelled k =>
    cases hl
    simp only [Scheduler.step, hnone] at h
    obtain ⟨control, hstep, -⟩ := controls_eq h
    have hnone' : s.control.calls j = none := hnone
    simp [ShowControl.step, hnone'] at hstep
  | informed k answer | acquired k answer | targets k answer requestId
  | stopAnswered k requestId | released k =>
    cases hl
    simp [Scheduler.step, hbody] at h
  | _ => cases hl

/-- A step of call `k` leaves the other calls where they are. -/
theorem Seated.calls_ne (hi : Seated s) {l : Label V} {k j : Nat} (hl : l.call? = some k)
    (hj : j ≠ k) (h : s.step l = some t) : t.control.calls j = s.control.calls j := by
  cases hi.call_step hl h with
  | refused same => rw [same]
  | goes u call but own others stint => rw [stint.calls_ne hj, others j hj]
  | rests but none own others => exact others j hj

/-- A call that takes no step in a run stays as it is. -/
theorem Seated.untouched (hi : Seated s) {xs : List (Step (Scheduler.step (V := V)))}
    (run : Run Scheduler.step s xs t) {j : Nat} (hno : ∀ x ∈ xs, x.label.call? ≠ some j) :
    t.control.calls j = s.control.calls j ∧ Seated t := by
  induction run with
  | nil => exact ⟨rfl, hi⟩
  | @snoc xs x run ih =>
    obtain ⟨hsame, hseated⟩ := ih fun y hy => hno y (List.mem_append_left _ hy)
    refine ⟨?_, hseated.step x.fired⟩
    rw [← hsame]
    cases hcall : x.label.call? with
    | none => rw [(step_elsewhere hcall x.fired).control.calls]
    | some i =>
      have hother : j ≠ i := by
        rintro rfl
        exact hno x (by simp) hcall
      exact hseated.calls_ne hcall hother x.fired

theorem seated_reachable {now : ℚ} {clients : List String} {actor : String}
    (h : Reachable step (init (V := V) now clients actor) s) : Seated s :=
  h.invariant (Seated.init now clients actor) fun _ _ _ hi hstep => hi.step hstep

end Scheduler

end Fusion
