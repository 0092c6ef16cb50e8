import Fusion.Apps.Scheduler
import Fusion.Core.Leases

/-!
# ShowLease — the Scheduler's sessions and the Runtimes' clocks

The Scheduler, its requests on their way, and the Runtimes behind its
clients. Each Runtime has its own clock. Requests may be lost or overtake
one another; other parties may do on the Runtimes whatever does not acquire
or release a control session, and a session id that `acquire_session` hands
out is the Runtime's own. A session is good for `defaultTtl` from its grant,
and the Scheduler asks for one only when the Show is armed.
-/

namespace Fusion

open Transition

variable {V : Type}

namespace ControlSessionManager

/-- The active session runs out `defaultTtl` after `grantedAt`. -/
structure Leases (m : ControlSessionManager) (grantedAt : ℚ) : Prop where
  ttl : m.defaultTtlS = defaultTtl
  expires : ∀ session, m.active = some session → session.expiresAt = grantedAt + defaultTtl

variable {m : ControlSessionManager} {grantedAt : ℚ}

theorem Leases.dropped (h : m.Leases grantedAt) : Leases { m with active := none } grantedAt :=
  ⟨h.ttl, nofun⟩

theorem Leases.acquire (h : m.Leases grantedAt) (now : ℚ) (actor : String) (mode : RuntimeMode)
    (freshId : String) : (m.acquire now actor mode none freshId).2.Leases now := by
  refine ⟨h.ttl, fun session hsession => ?_⟩
  obtain rfl := Option.some.inj hsession
  show now + m.defaultTtlS = now + defaultTtl
  rw [h.ttl]

theorem Leases.release (h : m.Leases grantedAt) (sessionId : String) :
    (m.release sessionId).Leases grantedAt := by
  unfold ControlSessionManager.release
  split
  · exact h
  · split
    · exact h.dropped
    · exact h

end ControlSessionManager

namespace DeviceRuntime

variable {s t : DeviceRuntime V}

variable [BEq V]

omit [BEq V] in
/-- What the runner refuses it does not refuse for the session. -/
theorem runnerSubmit_code {runner : TargetRunner} {r : CommandRecord V}
    {manifest : TargetManifest} {fault : Fault}
    (h : (s.runnerSubmit runner r (.ok manifest)).1 = .error fault) :
    ∃ e, fault = .fusion e ∧ e.code ≠ .controlSessionExpired := by
  unfold runnerSubmit at h
  dsimp only at h
  split at h
  · cases h
    exact ⟨_, rfl, nofun⟩
  · split at h <;> cases h
    exact ⟨_, rfl, nofun⟩

/-- A submission is answered `CONTROL_SESSION_EXPIRED` exactly when it is for
a target of the Runtime and names the active session, and that has run
out. -/
theorem submitCommand_expired_iff (s : DeviceRuntime V) (req : CommandSubmitRequest V)
    (freshId : CommandId) (manifest : TargetManifest) :
    (∃ e, (s.submitCommand req freshId (.ok manifest)).1 = .error (.fusion e) ∧
        e.code = .controlSessionExpired) ↔
      (s.runners.get req.targetId).isSome = true ∧ ∃ session,
        s.sessions.active = some session ∧ req.controlSessionId = some session.sessionId ∧
          session.expiresAt ≤ s.now := by
  rw [← ControlSessionManager.validate_expired_iff]
  unfold submitCommand
  cases hrunner : s.runners.get req.targetId with
  | none => simp
  | some runner =>
    simp only [Option.isSome_some, true_and]
    split
    · rename_i e sessions hval
      simp [hval]
    · rename_i session sessions hval
      simp only [hval, reduceCtorEq, false_and, exists_false, iff_false]
      rintro ⟨e, he, hcode⟩
      split at he
      · rename_i e' _ hbegin
        cases he
        rcases CommandLedger.begin_cases s.ledger req s.runtimeId s.runtimeBootId
            runner.executionGeneration freshId with
          ⟨entry, -, -, hb⟩ | ⟨entry, -, -, hb⟩ | ⟨-, hb⟩ <;> rw [hb] at hbegin <;> cases hbegin
        cases hcode
      · cases he
      · rename_i r ledger _
        split at he
        · cases he
        · rename_i e' u hsub
          cases he
          obtain ⟨e'', heq, hno⟩ := runnerSubmit_code (congrArg Prod.fst hsub)
          cases heq
          exact hno hcode
        · cases he

end DeviceRuntime

/-! ## The network -/

/-- The client and the command, if the request submits one. -/
def Sent.command : Sent V → Option (String × CommandSubmitRequest V)
  | cue _ call => some (call.runtime, call.request)
  | stop name request => some (name, request)
  | _ => none

/-- A Scheduler, the Runtimes of its clients, and the requests between them. -/
structure ShowNetwork (V : Type) where
  scheduler : Scheduler V
  /-- the Runtime behind a client's name -/
  host : String → String
  runtimes : String → DeviceRuntime V
  /-- the requests that have arrived, by their place among those sent -/
  arrived : Nat → Bool
  /-- the session that was granted to a request -/
  granted : Nat → Option String
  /-- history: the Runtime's clock at the last grant of its session -/
  grantedAt : String → ℚ

namespace ShowNetwork

/-- A Scheduler and Runtimes at start. -/
def init (now : ℚ) (clients : List String) (actor : String) (host : String → String)
    (runtimes : String → String × ℚ × List String) : ShowNetwork V where
  scheduler := .init now clients actor
  host := host
  runtimes := fun name =>
    .init name (runtimes name).1 (runtimes name).2.1 (runtimes name).2.2 false
  arrived := fun _ => false
  granted := fun _ => none
  grantedAt := fun _ => 0

/-- A move of the Scheduler, of a request or of a Runtime. -/
inductive Label (V : Type)
  | scheduler (l : Scheduler.Label V)
  /-- a request arrives, and is served -/
  | arrive (q : Nat) (freshId : String) (manifest : TargetManifest)
  /-- a Runtime goes on, or serves somebody else -/
  | runtime (name : String) (l : DeviceRuntime.RuntimeLabel V)

/-- A Runtime has moved. -/
def setRuntime (s : ShowNetwork V) (name : String) (r : DeviceRuntime V) : ShowNetwork V :=
  { s with runtimes := Function.update s.runtimes name r }

/-- The Runtime behind a client. -/
def remote (s : ShowNetwork V) (client : String) : DeviceRuntime V := s.runtimes (s.host client)

/-- The Scheduler is told of the session its request was granted. -/
def offers (s : ShowNetwork V) : Scheduler.Label V → Bool
  | .acquired k (.ok sessionId) =>
      match s.scheduler.bodies k with
      | some (.acquiring q _ _) => s.granted q = some sessionId
      | _ => false
  | _ => true

/-- A Runtime grants or renews its session, at its own time. -/
def grant (s : ShowNetwork V) (name : String) (now : ℚ) : ShowNetwork V :=
  { s with grantedAt := Function.update s.grantedAt name now }

section
variable [BEq V]

/-- A request is served. -/
def serve (s : ShowNetwork V) (q : Nat) (freshId : String) (manifest : TargetManifest) :
    Sent V → Option (ShowNetwork V)
  | .acquire name actor =>
      let r := s.remote name
      some { (s.setRuntime (s.host name)
          (r.acquireControlSession actor .show none freshId).2).grant (s.host name) r.now with
        granted := Function.update s.granted q (some freshId) }
  | .cue _ call =>
      ((s.remote call.runtime).step (.submitCommand call.request freshId (.ok manifest))).map
        (s.setRuntime (s.host call.runtime))
  | .stop name request =>
      ((s.remote name).step (.submitCommand request freshId (.ok manifest))).map
        (s.setRuntime (s.host name))
  | .release name sessionId =>
      some (s.setRuntime (s.host name) ((s.remote name).releaseControlSession sessionId))

/-- Somebody else renews a session. -/
def renew (s : ShowNetwork V) (name sessionId : String) : ShowNetwork V :=
  match (s.runtimes name).renewControlSession sessionId with
  | (.ok _, r) => (s.setRuntime name r).grant name (s.runtimes name).now
  | (.error _, r) => s.setRuntime name r

/-- One move; a request arrives once, at some moment after it was sent. -/
def step (s : ShowNetwork V) : Label V → Option (ShowNetwork V)
  | .scheduler l =>
      if s.offers l then
        (s.scheduler.step l).map fun scheduler => { s with scheduler := scheduler }
      else none
  | .arrive q freshId manifest =>
      if s.arrived q then none
      else
        s.scheduler.sent[q]?.bind fun request =>
          (s.serve q freshId manifest request).map fun t =>
            { t with arrived := Function.update s.arrived q true }
  | .runtime name (.renewControlSession sessionId) => some (s.renew name sessionId)
  | .runtime name l =>
      if l.ofSessions then none else ((s.runtimes name).step l).map (s.setRuntime name)

variable {s t : ShowNetwork V}

/-! ## The leases -/

/-- The session of every Runtime runs out `defaultTtl` after its grant. -/
def Leased (s : ShowNetwork V) : Prop :=
  ∀ name, (s.runtimes name).sessions.Leases (s.grantedAt name)

omit [BEq V] in
theorem Leased.init (now : ℚ) (clients : List String) (actor : String) (host : String → String)
    (runtimes : String → String × ℚ × List String) :
    Leased (init now clients actor host runtimes : ShowNetwork V) :=
  fun _ => ⟨rfl, nofun⟩

omit [BEq V] in
/-- One Runtime takes a step, and its session was granted when its lease
says. -/
theorem Leased.update (hi : Leased s) {name : String} {r : DeviceRuntime V} {grantedAt : ℚ}
    (hr : r.sessions.Leases grantedAt) (runtimes : t.runtimes = Function.update s.runtimes name r)
    (grants : t.grantedAt = Function.update s.grantedAt name grantedAt) : Leased t := by
  intro other
  rw [runtimes, grants]
  by_cases hne : other = name
  · subst hne
    rw [Function.update_self, Function.update_self]
    exact hr
  · rw [Function.update_of_ne hne, Function.update_of_ne hne]
    exact hi other

omit [BEq V] in
theorem Leased.setRuntime (hi : Leased s) {name : String} {r : DeviceRuntime V}
    (hr : (s.runtimes name).sessions.Checked (s.runtimes name).now r.sessions) :
    Leased (s.setRuntime name r) := by
  have hlease : r.sessions.Leases (s.grantedAt name) := by
    rcases hr with hr | ⟨hr, -⟩ <;> rw [hr]
    · exact hi name
    · exact (hi name).dropped
  exact hi.update hlease rfl (by simp [ShowNetwork.setRuntime])

/-- A submission that is served. -/
theorem Leased.submits (hi : Leased s) {client freshId : String}
    {request : CommandSubmitRequest V} {manifest : TargetManifest}
    (h : ((s.remote client).step (.submitCommand request freshId (.ok manifest))).map
      (s.setRuntime (s.host client)) = some t) : Leased t := by
  obtain ⟨r, hr, rfl⟩ := Option.map_eq_some_iff.mp h
  exact hi.setRuntime (DeviceRuntime.sessions_step rfl hr)

theorem Leased.serve (hi : Leased s) {q : Nat} {freshId : String} {manifest : TargetManifest}
    {request : Sent V} (h : s.serve q freshId manifest request = some t) : Leased t := by
  cases request with
  | acquire name actor =>
    cases h
    exact hi.update ((hi (s.host name)).acquire (s.remote name).now actor .show freshId) rfl rfl
  | cue r call => exact hi.submits h
  | stop name request => exact hi.submits h
  | release name sessionId =>
    cases h
    refine hi.update ((hi (s.host name)).release sessionId) rfl ?_
    simp [ShowNetwork.setRuntime]

omit [BEq V] in
theorem Leased.renew (hi : Leased s) (name sessionId : String) :
    Leased (s.renew name sessionId) := by
  have hlease := hi name
  have hkept := (s.runtimes name).sessions.checked_requireActive (s.runtimes name).now sessionId
  unfold ShowNetwork.renew DeviceRuntime.renewControlSession ControlSessionManager.renew
  cases hreq : (s.runtimes name).sessions.requireActive (s.runtimes name).now sessionId with
  | mk answer sessions =>
    rw [hreq] at hkept
    cases answer with
    | error e => exact hi.setRuntime hkept
    | ok session =>
      -- the new lease is as long as the first one
      obtain ⟨rfl, -⟩ := ControlSessionManager.requireActive_ok_iff.mp hreq
      dsimp only
      refine hi.update ?_ rfl rfl
      refine ⟨hlease.ttl, fun session' h => ?_⟩
      obtain rfl := Option.some.inj h
      show (s.runtimes name).now + (s.runtimes name).sessions.defaultTtlS = _
      rw [hlease.ttl]

theorem Leased.step {l : Label V} (hi : Leased s) (h : ShowNetwork.step s l = some t) :
    Leased t := by
  cases l with
  | scheduler l =>
    simp only [ShowNetwork.step] at h
    split at h
    · obtain ⟨scheduler, -, rfl⟩ := Option.map_eq_some_iff.mp h
      exact hi
    · cases h
  | arrive q freshId manifest =>
    simp only [ShowNetwork.step] at h
    split at h
    · cases h
    · obtain ⟨request, -, hserve⟩ := Option.bind_eq_some_iff.mp h
      obtain ⟨u, hu, rfl⟩ := Option.map_eq_some_iff.mp hserve
      have hserved := hi.serve hu
      exact hserved
  | runtime name l =>
    unfold ShowNetwork.step at h
    split at h
    · rename_i hl
      cases hl
    · rename_i hl
      cases hl
    · rename_i hl
      cases hl
      cases h
      exact hi.renew name _
    · rename_i hl
      cases hl
      split at h
      · cases h
      · rename_i hno
        obtain ⟨r, hr, rfl⟩ := Option.map_eq_some_iff.mp h
        exact hi.setRuntime (DeviceRuntime.sessions_step (by simpa using hno) hr)

/-! ## The commands of a Show -/

/-- A command of the Scheduler that arrives in the step is not told
`CONTROL_SESSION_EXPIRED`. -/
def NotExpired (x : Step (ShowNetwork.step (V := V))) : Prop :=
  ∀ q freshId manifest client request, x.label = .arrive q freshId manifest →
    x.src.scheduler.sent[q]?.bind Sent.command = some (client, request) →
    ¬∃ e, ((x.src.remote client).submitCommand request freshId (.ok manifest)).1 =
        .error (.fusion e) ∧ e.code = .controlSessionExpired

/-- A command of the Scheduler that names the Runtime's active session, for
one of its targets, arrives before `defaultTtl` has passed since the session
was granted. -/
def InTime (s : ShowNetwork V) : Label V → Bool
  | .arrive q _ _ =>
      (s.scheduler.sent[q]?.bind Sent.command).all fun x =>
        let r := s.remote x.1
        (r.runners.get x.2.targetId).isNone ||
          r.sessions.active.all fun session =>
            x.2.controlSessionId ≠ some session.sessionId ||
              r.now < s.grantedAt (s.host x.1) + ControlSessionManager.defaultTtl
  | _ => true

theorem notExpired_iff (x : Step (ShowNetwork.step (V := V))) (hi : Leased x.src) :
    NotExpired x ↔ InTime x.src x.label = true := by
  obtain ⟨s, l, t, fired⟩ := x
  cases l with
  | arrive q freshId manifest =>
    constructor
    · intro h
      simp only [InTime, Option.all_eq_true]
      rintro ⟨client, request⟩ hcommand
      have hno := h q freshId manifest client request rfl hcommand
      rw [DeviceRuntime.submitCommand_expired_iff] at hno
      cases hrunner : (s.remote client).runners.get request.targetId with
      | none => rfl
      | some runner =>
        simp only [Option.isNone_some, Bool.false_or, Option.all_eq_true, Bool.or_eq_true,
          decide_eq_true_eq]
        intro session hactive
        by_contra hlate
        obtain ⟨hnamed, hover⟩ := not_or.mp hlate
        rw [← (hi (s.host client)).expires session hactive] at hover
        exact hno ⟨by rw [hrunner]; rfl, session, hactive, not_not.mp hnamed, not_lt.mp hover⟩
    · rintro h q' freshId' manifest' client request heq hcommand hexpired
      cases heq
      obtain ⟨hrunner, session, hactive, hnamed, hover⟩ :=
        (DeviceRuntime.submitCommand_expired_iff ..).mp hexpired
      simp only [InTime, hcommand, Option.all_some, hactive, hnamed, ne_eq, not_true_eq_false,
        decide_false, Bool.false_or, Bool.or_eq_true, decide_eq_true_eq,
        Option.isNone_iff_eq_none] at h
      rcases h with hnone | htime
      · rw [hnone] at hrunner
        cases hrunner
      · rw [← (hi (s.host client)).expires session hactive] at htime
        exact not_lt.mpr hover htime
  | _ => simp [NotExpired, InTime]

/-- **No command of a Show is told `CONTROL_SESSION_EXPIRED`** in exactly the
runs in which every one that names the active session of its Runtime arrives
before `defaultTtl` has passed since that was granted. -/
theorem not_expired_iff (now : ℚ) (clients : List String) (actor : String)
    (host : String → String) (runtimes : String → String × ℚ × List String)
    {xs : List (Step (ShowNetwork.step (V := V)))}
    (run : Run ShowNetwork.step (init now clients actor host runtimes) xs s) :
    (∀ x ∈ xs, NotExpired x) ↔ ∀ x ∈ xs, InTime x.src x.label = true :=
  run.forall_iff fun x hx => notExpired_iff x
    (hx.invariant (Leased.init now clients actor host runtimes) fun _ _ _ hi h => hi.step h)

end

/-- The Scheduler has one client, and one Cue to submit there. -/
private def oneMotor : ShowNetwork Int :=
  .init 0 ["motor"] "scheduler" (fun name => name) fun _ => ("boot1", 0, ["motor01"])

private def oneCue : Timeline Int :=
  ⟨[⟨"a", 0, "motor", "motor01", "move", .empty, .acknowledged, [], .default⟩]⟩

/-- The Show is armed, with the session "cs1". -/
private def oneMotorArmed : List (Label Int) :=
  [.scheduler (.loadTimeline oneCue), .scheduler (.arm 0),
    .scheduler (.informed 0 (.ok ())), .arrive 0 "cs1" (fakeMotor "motor01"),
    .scheduler (.acquired 0 (.ok "cs1"))]

/-- The Show starts and submits its Cue. -/
private def oneMotorStarted : List (Label Int) :=
  [.scheduler (.start "run-1"), .scheduler (.runBegins 0 0),
    .scheduler (.run 0 (.snapshot (.ok 0)) 0), .scheduler (.run 0 (.cue 0) 0)]

/-- The Cue of a Show started after 20 seconds is accepted. -/
theorem not_expired_in_time :
    ∃ xs s, Run (ShowNetwork.step (V := Int)) oneMotor xs s ∧
      ((s.runtimes "motor").getCommand "c1").isSome = true ∧ ∀ x ∈ xs, NotExpired x := by
  obtain ⟨xs, s, run, hok, hs⟩ := execWhile_test InTime (ShowNetwork.step (V := Int)) oneMotor
    (oneMotorArmed ++ [.scheduler (.advance 20), .runtime "motor" (.advance 20)] ++
      oneMotorStarted ++ [.arrive 1 "c1" (fakeMotor "motor01")])
    (fun s => ((s.runtimes "motor").getCommand "c1").isSome) (by decide +kernel)
  exact ⟨xs, s, run, hs, (not_expired_iff _ _ _ _ _ run).mpr hok⟩

/-- The defect: the Show is started 31 seconds after it was armed. -/
theorem expired_while_armed :
    ¬ ∀ xs s, Run (ShowNetwork.step (V := Int)) oneMotor xs s → ∀ x ∈ xs, NotExpired x := by
  intro hall
  obtain ⟨xs, s, run, -, hs⟩ := execWhile_test (fun _ _ => true) (ShowNetwork.step (V := Int))
    oneMotor
    (oneMotorArmed ++ [.scheduler (.advance 31), .runtime "motor" (.advance 31)] ++
      oneMotorStarted)
    (fun s => (s.step (.arrive 1 "c1" (fakeMotor "motor01"))).isSome &&
      !InTime s (.arrive 1 "c1" (fakeMotor "motor01"))) (by decide +kernel)
  obtain ⟨hfires, hlate⟩ := Bool.and_eq_true_iff.mp hs
  obtain ⟨t, ht⟩ := Option.isSome_iff_exists.mp hfires
  have hleased := run.reachable.invariant (Leased.init 0 ["motor"] "scheduler" _ _)
    fun _ _ _ hi h => hi.step h
  have hin := (notExpired_iff _ hleased).mp
    (hall _ _ (run.snoc ⟨s, _, t, ht⟩) ⟨s, _, t, ht⟩ (by simp))
  simp [hin] at hlate

end ShowNetwork

end Fusion
