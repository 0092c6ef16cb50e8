import Fusion.Core.RuntimeSteps

/-!
# Leases — the time a control session was granted for

A session is acquired for `ttl_s` seconds and renewed without naming any. The
history here keeps, beside a Runtime, the grant of the last session that was
acquired with a `ttl_s` of its own, until another one is acquired or it is
released.
-/

namespace Fusion

open Transition

variable {V : Type}

namespace ControlSessionManager

/-- What a check leaves: the manager as it was, or without its expired
session. -/
def Checked (m : ControlSessionManager) (now : ℚ) (m' : ControlSessionManager) : Prop :=
  m' = m ∨ m' = { m with active := none } ∧
    ∃ session, m.active = some session ∧ session.expiresAt ≤ now

variable {m m' : ControlSessionManager} {now : ℚ}

theorem checked_requireActive (m : ControlSessionManager) (now : ℚ) (sessionId : String) :
    m.Checked now (m.requireActive now sessionId).2 := by
  unfold requireActive
  cases hactive : m.active with
  | none => exact .inl rfl
  | some session =>
    simp only
    split
    · exact .inl rfl
    · split
      · rename_i hexpired
        exact .inr ⟨rfl, session, hactive, hexpired⟩
      · exact .inl rfl

theorem checked_validate (m : ControlSessionManager) (now : ℚ) (sessionId : Option String) :
    m.Checked now (m.validate now sessionId).2 := by
  cases sessionId with
  | none => exact .inl rfl
  | some sessionId => exact checked_requireActive m now sessionId

theorem ttl_zero (m : ControlSessionManager) : m.ttl (some 0) = m.defaultTtlS := by
  rw [ttl, if_pos rfl]

theorem ttl_of_ne {ttlS : ℚ} (m : ControlSessionManager) (h : ttlS ≠ 0) :
    m.ttl (some ttlS) = ttlS := by
  rw [ttl, if_neg h]

theorem defaultTtl_pos : 0 < defaultTtl := by decide +kernel

/-- A renewal is refused as a check is, or gives the live session the default
time from now. -/
theorem renew_cases (m : ControlSessionManager) (now : ℚ) (sessionId : String) :
    (∃ e, (m.renew now sessionId none).1 = .error e ∧
        m.Checked now (m.renew now sessionId none).2) ∨
      ∃ session, m.active = some session ∧ session.sessionId = sessionId ∧
        now < session.expiresAt ∧
        m.renew now sessionId none =
          (.ok { session with expiresAt := now + m.defaultTtlS },
            { m with active := some { session with expiresAt := now + m.defaultTtlS } }) := by
  have hchecked := checked_requireActive m now sessionId
  unfold renew
  cases hreq : m.requireActive now sessionId with
  | mk answer m' =>
    cases answer with
    | error e =>
      left
      rw [hreq] at hchecked
      exact ⟨e, rfl, hchecked⟩
    | ok session =>
      right
      obtain ⟨rfl, hactive, hid, hlt⟩ := requireActive_ok_iff.mp hreq
      exact ⟨session, hactive, hid, hlt, rfl⟩

end ControlSessionManager

/-! ## The sessions over the steps of a Runtime -/

namespace DeviceRuntime

variable {s t : DeviceRuntime V}

/-- A call of the session API. -/
def RuntimeLabel.ofSessions : RuntimeLabel V → Bool
  | .acquireControlSession _ _ _ _ | .renewControlSession _ | .releaseControlSession _ => true
  | _ => false

variable [BEq V]

theorem sessions_submitCommand (s : DeviceRuntime V) (req : CommandSubmitRequest V)
    (freshId : CommandId) (manifest : Except Fault TargetManifest) :
    s.sessions.Checked s.now (s.submitCommand req freshId manifest).2.sessions := by
  unfold submitCommand
  cases hrunner : s.runners.get req.targetId with
  | none => exact .inl rfl
  | some runner =>
    simp only
    split
    · rename_i e sessions hval
      have hchecked := s.sessions.checked_validate s.now req.controlSessionId
      rw [hval] at hchecked
      exact hchecked
    · rename_i session sessions hval
      obtain ⟨rfl, -, -⟩ := ControlSessionManager.validate_ok hval
      left
      split
      · rfl
      · rfl
      · rename_i r ledger hbegin
        rcases runnerSubmit_cases { s with ledger := ledger } runner r manifest with
          ⟨fault, hsub⟩ | ⟨generation, -, hsub⟩
        · simp only [hsub]
          cases fault <;> rfl
        · simp only [hsub]
          rfl

/-- Without a call of the session API the active session stays, or is dropped
once it has run out. -/
theorem sessions_step {l : RuntimeLabel V} (hl : l.ofSessions = false) (h : s.step l = some t) :
    s.sessions.Checked s.now t.sessions := by
  cases l with
  | submitCommand req freshId manifest =>
    simp only [step] at h
    split at h <;> cases h
    exact sessions_submitCommand s req freshId manifest
  | advance dt =>
    simp only [step] at h
    split at h <;> cases h
    exact .inl rfl
  | executeReturned c | executeRaised c message | observe c complete | cancel c =>
    exact .inl (step_sparesControl rfl h).sessions
  | applyConfig i revisionId expected =>
    simp only [step] at h
    split at h <;> cases h
    left
    unfold applyConfig
    split <;> rfl
  | applyLocked i =>
    simp only [step] at h
    split at h
    · split at h <;> cases h
      left
      unfold applyLocked
      split <;> rfl
    · cases h
  | applyGuarded i answer =>
    simp only [step] at h
    split at h
    · split at h <;> cases h
      left
      unfold applyGuarded
      dsimp only
      split <;> rfl
    · cases h
  | applyCancelled i =>
    simp only [step] at h
    split at h <;> cases h
    exact .inl rfl
  | publishEvent name targetId | stageConfig kind freshId | subscribeEvents
  | unsubscribeEvents subId =>
    cases h
    exact .inl rfl
  | eventGet subId =>
    obtain ⟨r, -, rfl⟩ := Option.map_eq_some_iff.mp h
    exact .inl rfl
  | _ => cases hl

omit [BEq V] in
theorem now_executeReturned (s : DeviceRuntime V) (task : CommandTask) (r : CommandRecord V) :
    (s.executeReturned task r).now = s.now := by
  simp only [executeReturned]
  split
  · rfl
  · split
    · rfl
    · rfl

omit [BEq V] in
theorem now_observeLoop (s : DeviceRuntime V) (task : CommandTask) (r : CommandRecord V)
    (deadline : ℚ) (generation : Nat) (complete : Except String Bool) :
    (s.observeLoop task r deadline generation complete).now = s.now := by
  unfold observeLoop
  split
  · split
    · rfl
    · split
      · rfl
      · rfl
      · rfl
  · rfl

theorem now_submitCommand (s : DeviceRuntime V) (req : CommandSubmitRequest V)
    (freshId : CommandId) (manifest : Except Fault TargetManifest) :
    (s.submitCommand req freshId manifest).2.now = s.now := by
  have hcases := submitCommand_cases s req freshId manifest
  generalize s.submitCommand req freshId manifest = answer at hcases
  cases hcases with
  | refused e sessions => rfl
  | existing entry hentry hsame => rfl
  | faulted message r made hreq => rfl
  | rejected e r made hreq => rfl
  | accepted runner generation r made hrunner hgeneration hreq => rfl

/-- The clock of a Runtime never goes back. -/
theorem now_step {l : RuntimeLabel V} (h : s.step l = some t) : s.now ≤ t.now := by
  cases l with
  | advance dt =>
    simp only [step] at h
    split at h
    · rename_i hdt
      cases h
      exact le_add_of_nonneg_right hdt
    · cases h
  | submitCommand req freshId manifest =>
    simp only [step] at h
    split at h <;> cases h
    exact (now_submitCommand s req freshId manifest).ge
  | executeReturned c =>
    simp only [step] at h
    split at h
    · split at h <;> cases h
      exact (now_executeReturned ..).ge
    · cases h
  | executeRaised c message =>
    simp only [step] at h
    split at h
    · split at h <;> cases h
      exact le_refl s.now
    · cases h
  | observe c complete =>
    simp only [step] at h
    split at h
    · obtain ⟨-, deadline, rfl, -⟩ := observe_eq h
      exact (now_observeLoop ..).ge
    · cases h
  | cancel c =>
    simp only [step] at h
    split at h <;> cases h
    unfold cancel
    split
    · exact le_refl s.now
    · exact le_refl s.now
    · exact le_refl s.now
  | applyConfig i revisionId expected =>
    simp only [step] at h
    split at h <;> cases h
    unfold applyConfig
    split
    · exact le_refl s.now
    · exact le_refl s.now
  | applyLocked i =>
    simp only [step] at h
    split at h
    · split at h <;> cases h
      unfold applyLocked
      split
      · exact le_refl s.now
      · exact le_refl s.now
    · cases h
  | applyGuarded i answer =>
    simp only [step] at h
    split at h
    · split at h <;> cases h
      unfold applyGuarded
      dsimp only
      split
      · exact le_refl s.now
      · exact le_refl s.now
    · cases h
  | applyCancelled i =>
    simp only [step] at h
    split at h <;> cases h
    exact le_refl s.now
  | publishEvent name targetId | stageConfig kind freshId | subscribeEvents
  | unsubscribeEvents subId | acquireControlSession actor mode ttlS freshId
  | renewControlSession sessionId | releaseControlSession sessionId =>
    cases h
    exact le_refl s.now
  | eventGet subId =>
    obtain ⟨r, -, rfl⟩ := Option.map_eq_some_iff.mp h
    exact le_refl s.now

end DeviceRuntime

/-! ## The grant of the active session -/

/-- A session that was acquired for `ttlS` seconds at `grantedAt`. -/
structure Lease where
  sessionId : String
  grantedAt : ℚ
  ttlS : ℚ
  /-- it was renewed since -/
  renewed : Bool

/-- A Runtime beside the promise it made with its last session. -/
structure LeasedRuntime (V : Type) where
  runtime : DeviceRuntime V
  /-- history: the grant of the last session, if it was acquired with a
  `ttl_s` that is not negative and neither superseded nor released since -/
  lease : Option Lease

namespace LeasedRuntime

open DeviceRuntime

/-- A Runtime at start, without a session. -/
def init (runtimeId bootId : String) (now : ℚ) (targets : List String) (customGuard : Bool) :
    LeasedRuntime V where
  runtime := .init runtimeId bootId now targets customGuard
  lease := none

/-- What is left of the lease after a step, by what was asked for. -/
def leaseAfter (s : LeasedRuntime V) : RuntimeLabel V → Option Lease
  | .acquireControlSession _ _ ttlS freshId =>
      ttlS.bind fun ttl =>
        if 0 ≤ ttl then some ⟨freshId, s.runtime.now, ttl, false⟩ else none
  | .renewControlSession sessionId =>
      match (s.runtime.renewControlSession sessionId).1 with
      | .ok _ => s.lease.map fun lease =>
          { lease with renewed := lease.renewed || lease.sessionId = sessionId }
      | .error _ => s.lease
  | .releaseControlSession sessionId =>
      s.lease.filter fun lease => lease.sessionId ≠ sessionId
  | _ => s.lease

/-- One step of the Runtime. -/
def step [BEq V] (s : LeasedRuntime V) (l : RuntimeLabel V) : Option (LeasedRuntime V) :=
  (s.runtime.step l).map fun runtime => ⟨runtime, s.leaseAfter l⟩

/-- The Runtime would accept the session id now. -/
def Accepts (s : LeasedRuntime V) (id : String) : Prop :=
  ∃ session, (s.runtime.sessions.validate s.runtime.now (some id)).1 = .ok session

/-- The step leaves the lease as it was granted: accepted to its end, then
refused unless it was renewed; and a renewal that it accepts takes no time
off the session. -/
structure Kept [BEq V] (x : Step (LeasedRuntime.step (V := V))) : Prop where
  accepted : ∀ lease, x.dst.lease = some lease →
    x.dst.runtime.now < lease.grantedAt + lease.ttlS → x.dst.Accepts lease.sessionId
  refused : ∀ lease, x.dst.lease = some lease → lease.renewed = false →
    lease.grantedAt + lease.ttlS ≤ x.dst.runtime.now → ¬ x.dst.Accepts lease.sessionId
  renewal : ∀ sessionId renewed, x.label = .renewControlSession sessionId →
    (x.src.runtime.renewControlSession sessionId).1 = .ok renewed →
    ∀ session, x.src.runtime.sessions.active = some session →
      session.expiresAt ≤ renewed.expiresAt

/-- The call grants no time at all, or renews the session while more than
the default time is left of it. -/
def Shortens (s : LeasedRuntime V) : RuntimeLabel V → Prop
  | .acquireControlSession _ _ ttlS _ => ttlS = some 0
  | .renewControlSession sessionId =>
      ∃ session, s.runtime.sessions.active = some session ∧ session.sessionId = sessionId ∧
        s.runtime.now + ControlSessionManager.defaultTtl < session.expiresAt
  | _ => False

instance (s : LeasedRuntime V) (l : RuntimeLabel V) : Decidable (s.Shortens l) :=
  match l with
  | .acquireControlSession _ _ ttlS _ => inferInstanceAs (Decidable (ttlS = some 0))
  | .renewControlSession sessionId =>
      decidable_of_iff ((s.runtime.sessions.active.any fun session =>
        session.sessionId = sessionId ∧
          s.runtime.now + ControlSessionManager.defaultTtl < session.expiresAt) = true) (by
        simp [Shortens, Option.any_eq_true])
  | .advance _ | .submitCommand _ _ _ | .executeReturned _ | .executeRaised _ _ | .observe _ _
  | .cancel _ | .publishEvent _ _ | .releaseControlSession _ | .stageConfig _ _
  | .applyConfig _ _ _ | .applyLocked _ | .applyGuarded _ _ | .applyCancelled _
  | .subscribeEvents | .unsubscribeEvents _ | .eventGet _ => inferInstanceAs (Decidable False)

end LeasedRuntime

/-! ## What keeps a lease -/

namespace Lease

variable {lease : Lease} {m m' : ControlSessionManager} {now now' : ℚ}

/-- The session of the lease is the active one and lasts as long as it was
granted for, or it has run out and was dropped. -/
def Honoured (lease : Lease) (m : ControlSessionManager) (now : ℚ) : Prop :=
  (∃ session, m.active = some session ∧ session.sessionId = lease.sessionId ∧
    lease.grantedAt + lease.ttlS ≤ session.expiresAt ∧
    (lease.renewed = false → session.expiresAt = lease.grantedAt + lease.ttlS)) ∨
  m.active = none ∧ lease.grantedAt + lease.ttlS ≤ now

theorem Honoured.mono (h : lease.Honoured m now) (hnow : now ≤ now') : lease.Honoured m now' := by
  rcases h with hactive | ⟨hnone, hout⟩
  · exact .inl hactive
  · exact .inr ⟨hnone, hout.trans hnow⟩

theorem Honoured.checked (h : lease.Honoured m now) (hc : m.Checked now m') :
    lease.Honoured m' now := by
  rcases hc with rfl | ⟨rfl, session, hsession, hexpired⟩
  · exact h
  · right
    refine ⟨rfl, ?_⟩
    rcases h with ⟨session', hactive, -, hlong, -⟩ | ⟨hnone, hout⟩
    · obtain rfl : session = session' := Option.some.inj (hsession.symm.trans hactive)
      exact hlong.trans hexpired
    · exact hout

theorem Honoured.release (h : lease.Honoured m now) {sessionId : String}
    (hne : lease.sessionId ≠ sessionId) : lease.Honoured (m.release sessionId) now := by
  rcases h with ⟨session, hactive, hid, hlong⟩ | ⟨hnone, hout⟩
  · have hkept : m.release sessionId = m := by
      unfold ControlSessionManager.release
      rw [hactive]
      exact if_neg (hid ▸ hne)
    rw [hkept]
    exact .inl ⟨session, hactive, hid, hlong⟩
  · have hkept : m.release sessionId = m := by
      unfold ControlSessionManager.release
      rw [hnone]
    rw [hkept]
    exact .inr ⟨hnone, hout⟩

/-- A session that is renewed with no more than the new time left of it. -/
theorem Honoured.renewed (h : lease.Honoured m now) {session : ControlSession}
    (hactive : m.active = some session) {later : ℚ} (hleft : session.expiresAt ≤ later) :
    session.sessionId = lease.sessionId ∧
      Honoured { lease with renewed := true }
        { m with active := some { session with expiresAt := later } } now := by
  rcases h with ⟨session', hactive', hid, hlong, -⟩ | ⟨hnone, -⟩
  · obtain rfl : session = session' := Option.some.inj (hactive.symm.trans hactive')
    refine ⟨hid, .inl ⟨_, rfl, hid, hlong.trans hleft, ?_⟩⟩
    intro h
    cases h
  · rw [hnone] at hactive
    cases hactive

/-- An honoured lease is live before its end. -/
theorem Honoured.live (h : lease.Honoured m now) (hnow : now < lease.grantedAt + lease.ttlS) :
    m.Live now lease.sessionId := by
  rcases h with ⟨session, hactive, hid, hlong, -⟩ | ⟨-, hout⟩
  · exact ⟨session, hactive, hid, hnow.trans_le hlong⟩
  · exact absurd hnow (not_lt.mpr hout)

/-- It is dead from its end on, unless it was renewed. -/
theorem Honoured.not_live (h : lease.Honoured m now) (hrenewed : lease.renewed = false)
    (hnow : lease.grantedAt + lease.ttlS ≤ now) : ¬ m.Live now lease.sessionId := by
  intro hm
  obtain ⟨session, hactive, -, hlive⟩ := hm
  rcases h with ⟨session', hactive', -, -, hend⟩ | ⟨hnone, -⟩
  · obtain rfl : session = session' := Option.some.inj (hactive.symm.trans hactive')
    rw [hend hrenewed] at hlive
    exact absurd hlive (not_lt.mpr hnow)
  · rw [hnone] at hactive
    cases hactive

end Lease

namespace LeasedRuntime

open DeviceRuntime

/-- The session that is active is the one that was leased, for as long. -/
structure Inv (s : LeasedRuntime V) : Prop where
  ttl : s.runtime.sessions.defaultTtlS = ControlSessionManager.defaultTtl
  honoured : ∀ lease, s.lease = some lease → lease.Honoured s.runtime.sessions s.runtime.now

theorem Inv.init (runtimeId bootId : String) (now : ℚ) (targets : List String)
    (customGuard : Bool) :
    Inv (init runtimeId bootId now targets customGuard : LeasedRuntime V) := by
  constructor
  · rfl
  · intro lease h
    cases h

variable {s t : LeasedRuntime V}

theorem Inv.acquire (h : Inv s) {actor : String} {mode : RuntimeMode} {ttlS : Option ℚ}
    {freshId : String} (hno : ttlS ≠ some 0) :
    Inv ⟨(s.runtime.acquireControlSession actor mode ttlS freshId).2,
      s.leaseAfter (.acquireControlSession actor mode ttlS freshId)⟩ := by
  constructor
  · exact h.ttl
  · intro lease hlease
    obtain ⟨ttl, rfl, hgrant⟩ := Option.bind_eq_some_iff.mp hlease
    split at hgrant
    · -- of the times that are not negative, only 0 is not taken as it is
      cases hgrant
      have hne : ttl ≠ 0 := fun h0 => hno (h0 ▸ rfl)
      have httl : s.runtime.sessions.ttl (some ttl) = ttl := s.runtime.sessions.ttl_of_ne hne
      left
      refine ⟨_, rfl, rfl, ?_, ?_⟩
      · exact (congrArg (s.runtime.now + ·) httl).ge
      · intro _
        exact congrArg (s.runtime.now + ·) httl
    · cases hgrant

theorem Inv.renew (h : Inv s) {sessionId : String}
    (hno : ¬ s.Shortens (.renewControlSession sessionId)) :
    Inv ⟨(s.runtime.renewControlSession sessionId).2,
      s.leaseAfter (.renewControlSession sessionId)⟩ := by
  rcases s.runtime.sessions.renew_cases s.runtime.now sessionId with
    ⟨e, herror, hchecked⟩ | ⟨session, hactive, hid, hlive, hrenew⟩
  · have hanswer : (s.runtime.renewControlSession sessionId).1 = .error e := herror
    constructor
    · rcases hchecked with hsame | ⟨hdropped, -⟩
      · exact (congrArg ControlSessionManager.defaultTtlS hsame).trans h.ttl
      · exact (congrArg ControlSessionManager.defaultTtlS hdropped).trans h.ttl
    · intro lease hlease
      simp only [leaseAfter, hanswer] at hlease
      exact (h.honoured lease hlease).checked hchecked
  · have hanswer : (s.runtime.renewControlSession sessionId).1 =
        .ok { session with expiresAt := s.runtime.now + s.runtime.sessions.defaultTtlS } :=
      congrArg Prod.fst hrenew
    have hsessions : (s.runtime.renewControlSession sessionId).2.sessions =
        { s.runtime.sessions with active := (some
          { session with expiresAt := s.runtime.now + s.runtime.sessions.defaultTtlS }) } :=
      congrArg Prod.snd hrenew
    constructor
    · exact (congrArg ControlSessionManager.defaultTtlS hsessions).trans h.ttl
    · intro lease hlease
      simp only [leaseAfter, hanswer] at hlease
      obtain ⟨before, hbefore, rfl⟩ := Option.map_eq_some_iff.mp hlease
      have hleft : session.expiresAt ≤ s.runtime.now + s.runtime.sessions.defaultTtlS := by
        rw [h.ttl]
        exact not_lt.mp fun hlt => hno ⟨session, hactive, hid, hlt⟩
      -- the session that was renewed is the one of the lease
      obtain ⟨hown, hrenewed⟩ := (h.honoured before hbefore).renewed hactive hleft
      have hflag : (before.renewed || decide (before.sessionId = sessionId)) = true := by
        simp [← hown, hid]
      rw [hflag, hsessions]
      exact hrenewed

theorem Inv.release (h : Inv s) (sessionId : String) :
    Inv ⟨s.runtime.releaseControlSession sessionId,
      s.leaseAfter (.releaseControlSession sessionId)⟩ := by
  constructor
  · have httl : (s.runtime.sessions.release sessionId).defaultTtlS =
        s.runtime.sessions.defaultTtlS := by
      unfold ControlSessionManager.release
      split
      · rfl
      · split
        · rfl
        · rfl
    exact httl.trans h.ttl
  · intro lease hlease
    obtain ⟨hbefore, hne⟩ := Option.filter_eq_some_iff.mp hlease
    exact (h.honoured lease hbefore).release (of_decide_eq_true hne)

variable [BEq V]

theorem Inv.step {l : RuntimeLabel V} (h : Inv s) (hno : ¬ s.Shortens l)
    (hs : s.step l = some t) : Inv t := by
  obtain ⟨runtime, hruntime, rfl⟩ := Option.map_eq_some_iff.mp hs
  cases hl : l.ofSessions with
  | false =>
    -- a submission may drop the session, and then its time is over
    have hchecked := sessions_step hl hruntime
    have hlease : s.leaseAfter l = s.lease := by
      cases l <;> first | rfl | cases hl
    constructor
    · rcases hchecked with hsame | ⟨hdropped, -⟩
      · exact (congrArg ControlSessionManager.defaultTtlS hsame).trans h.ttl
      · exact (congrArg ControlSessionManager.defaultTtlS hdropped).trans h.ttl
    · intro lease hsome
      rw [hlease] at hsome
      exact ((h.honoured lease hsome).checked hchecked).mono (now_step hruntime)
  | true =>
    cases l with
    | acquireControlSession actor mode ttlS freshId =>
      cases hruntime
      exact h.acquire hno
    | renewControlSession sessionId =>
      cases hruntime
      exact h.renew hno
    | releaseControlSession sessionId =>
      cases hruntime
      exact h.release sessionId
    | _ => cases hl

/-- A step that shortens nothing leaves the lease as it was granted. -/
theorem kept_of_inv {x : Step (LeasedRuntime.step (V := V))} (h : Inv x.src)
    (hno : ¬ x.src.Shortens x.label) : Kept x := by
  have hdst : Inv x.dst := h.step hno x.fired
  constructor
  · intro lease hlease hnow
    have hlive := (hdst.honoured lease hlease).live hnow
    exact ControlSessionManager.validate_accepts_iff.mpr hlive
  · intro lease hlease hrenewed hnow haccepts
    have hdead := (hdst.honoured lease hlease).not_live hrenewed hnow
    exact hdead (ControlSessionManager.validate_accepts_iff.mp haccepts)
  · intro sessionId renewed hl hanswer session hactive
    rcases x.src.runtime.sessions.renew_cases x.src.runtime.now sessionId with
      ⟨e, herror, -⟩ | ⟨session', hactive', hid, -, hrenew⟩
    · cases hanswer.symm.trans herror
    · obtain rfl : session = session' := Option.some.inj (hactive.symm.trans hactive')
      obtain rfl := Except.ok.inj (hanswer.symm.trans (congrArg Prod.fst hrenew))
      show session.expiresAt ≤ x.src.runtime.now + x.src.runtime.sessions.defaultTtlS
      rw [h.ttl]
      apply not_lt.mp
      intro hlt
      exact hno (hl ▸ ⟨session, hactive, hid, hlt⟩)

/-- A step that shortens something does not. -/
theorem not_kept_of_shortens {x : Step (LeasedRuntime.step (V := V))} (h : Inv x.src)
    (hshort : x.src.Shortens x.label) : ¬ Kept x := by
  intro hkept
  obtain ⟨s, l, t, fired⟩ := x
  obtain ⟨runtime, hruntime, rfl⟩ := Option.map_eq_some_iff.mp fired
  cases l with
  | acquireControlSession actor mode ttlS freshId =>
    -- no time was asked for, and the default time was given
    obtain rfl : ttlS = some 0 := hshort
    cases hruntime
    have hlease : s.leaseAfter (.acquireControlSession actor mode (some 0) freshId) =
        some ⟨freshId, s.runtime.now, 0, false⟩ := by simp [leaseAfter]
    have hrefused := hkept.refused _ hlease rfl (add_zero _).le
    apply hrefused
    apply ControlSessionManager.validate_accepts_iff.mpr
    have httl : s.runtime.sessions.ttl (some 0) = ControlSessionManager.defaultTtl :=
      s.runtime.sessions.ttl_zero.trans h.ttl
    have hlater : s.runtime.now < s.runtime.now + s.runtime.sessions.ttl (some 0) := by
      rw [httl]
      exact lt_add_of_pos_right _ ControlSessionManager.defaultTtl_pos
    exact ⟨_, rfl, rfl, hlater⟩
  | renewControlSession sessionId =>
    obtain ⟨session, hactive, hid, hlong⟩ := hshort
    rcases s.runtime.sessions.renew_cases s.runtime.now sessionId with
      ⟨e, herror, -⟩ | ⟨session', hactive', -, -, hrenew⟩
    · -- more than the default time is left of it, so it is not refused
      have hlive : s.runtime.now < session.expiresAt :=
        (lt_add_of_pos_right _ ControlSessionManager.defaultTtl_pos).trans hlong
      have hreq := ControlSessionManager.requireActive_ok_iff.mpr ⟨rfl, hactive, hid, hlive⟩
      rw [ControlSessionManager.renew, hreq] at herror
      cases herror
    · obtain rfl : session = session' := Option.some.inj (hactive.symm.trans hactive')
      have hle := hkept.renewal sessionId _ rfl (congrArg Prod.fst hrenew) session hactive
      have hle : session.expiresAt ≤ s.runtime.now + s.runtime.sessions.defaultTtlS := hle
      rw [h.ttl] at hle
      exact absurd hlong (not_lt.mpr hle)
  | _ => cases hshort

/-! ## Whole runs -/

/-- **Leases are kept as granted** throughout a run exactly when no session
is asked for with a `ttl_s` of 0, and none is renewed while more than the
default time is left of it. -/
theorem leases_kept_iff (runtimeId bootId : String) (now : ℚ) (targets : List String)
    (customGuard : Bool) {xs : List (Step (LeasedRuntime.step (V := V)))}
    (run : Run LeasedRuntime.step (init runtimeId bootId now targets customGuard) xs s) :
    (∀ x ∈ xs, Kept x) ↔ ∀ x ∈ xs, ¬ x.src.Shortens x.label := by
  apply run.forall_iff_of_kept (J := Inv) (.init runtimeId bootId now targets customGuard)
  · intro x hx hno
    exact hx.step hno x.fired
  · intro x hx
    constructor
    · intro hkept hshort
      exact not_kept_of_shortens hx hshort hkept
    · exact kept_of_inv hx

/-- A session of 20 seconds, renewed in time. -/
theorem leases_kept_iff_renewed :
    ∃ (xs : List (Step (LeasedRuntime.step (V := Int)))) (s : LeasedRuntime Int),
      Run LeasedRuntime.step (init "motor-test" "boot1" 0 ["motor01"] false) xs s ∧
      (s.lease.any fun lease => lease.ttlS = 20 ∧ lease.renewed = true) = true ∧
      ∀ x ∈ xs, Kept x := by
  obtain ⟨xs, s, run, hs⟩ := execSteps_test LeasedRuntime.step
    (init "motor-test" "boot1" 0 ["motor01"] false : LeasedRuntime Int)
    [.acquireControlSession "ui" .manual (some 20) "a", .advance 19, .renewControlSession "a"]
    (fun r => r.1.all (fun x => ¬ x.src.Shortens x.label) &&
      r.2.lease.any fun lease => lease.ttlS = 20 ∧ lease.renewed = true) (by decide +kernel)
  obtain ⟨hok, hlease⟩ := (Bool.and_eq_true ..).mp hs
  refine ⟨xs, s, run, hlease, ?_⟩
  apply (leases_kept_iff "motor-test" "boot1" 0 ["motor01"] false run).mpr
  intro x hx
  exact of_decide_eq_true (List.all_eq_true.mp hok x hx)

/-- A session of 100 seconds that is renewed after 10 ends at 40. -/
theorem leases_renewal_shortens : ¬ ∀ (runtimeId bootId : String) (now : ℚ)
    (targets : List String) (customGuard : Bool)
    (xs : List (Step (LeasedRuntime.step (V := Int)))) (s : LeasedRuntime Int),
    Run LeasedRuntime.step (init runtimeId bootId now targets customGuard) xs s →
      ∀ x ∈ xs, Kept x := by
  intro hall
  obtain ⟨xs, s, run, hs⟩ := execSteps_test LeasedRuntime.step
    (init "motor-test" "boot1" 0 ["motor01"] false : LeasedRuntime Int)
    [.acquireControlSession "ui" .manual (some 100) "a", .advance 10]
    (fun r => r.1.all (fun x => ¬ x.src.Shortens x.label) &&
      decide (r.2.Shortens (.renewControlSession "a"))) (by decide +kernel)
  obtain ⟨hok, hshort⟩ := (Bool.and_eq_true ..).mp hs
  have hinv : Inv s := by
    apply (run.invariant_of (fun x => ¬ x.src.Shortens x.label) (.init ..) _ _).2
    · intro x hx hno
      exact hx.step hno x.fired
    · intro x hx
      exact of_decide_eq_true (List.all_eq_true.mp hok x hx)
  let x : Step (LeasedRuntime.step (V := Int)) := ⟨s, .renewControlSession "a", _, rfl⟩
  have hkept := hall _ _ _ _ _ _ _ (run.snoc x) x (by simp)
  exact not_kept_of_shortens hinv (of_decide_eq_true hshort) hkept

end LeasedRuntime

end Fusion
