import Fusion.Contracts.Command
import Mathlib.Data.Rat.Defs
import Mathlib.Algebra.Order.Ring.Rat

/-!
# ControlSession — one active session per Runtime (core/control_session.py)

The manager reads the Runtime's own monotonic clock; here the reading is an
argument, a rational number of seconds. Issuing a session replaces whatever
was active. The session ids are drawn outside the model.
-/

namespace Fusion

/-- What a session is for. -/
inductive RuntimeMode
  | manual
  | show
  | maintenance
deriving DecidableEq, Repr

/-- A session, and the time it runs out at. -/
structure ControlSession where
  sessionId : String
  mode : RuntimeMode
  actor : String
  issuedAt : ℚ
  expiresAt : ℚ
  runtimeBootId : String
deriving DecidableEq

/-- The one session that a Runtime may have. -/
structure ControlSessionManager where
  runtimeBootId : String
  defaultTtlS : ℚ
  active : Option ControlSession

namespace ControlSessionManager

/-- `DEFAULT_TTL_S` -/
def defaultTtl : ℚ := 30

/-- No session is active. -/
def new (runtimeBootId : String) : ControlSessionManager where
  runtimeBootId := runtimeBootId
  defaultTtlS := defaultTtl
  active := none

/-- `ttl_s or self._default_ttl_s`: a ttl of 0 falls back to the default. -/
def ttl (m : ControlSessionManager) (ttlS : Option ℚ) : ℚ :=
  match ttlS with
  | none => m.defaultTtlS
  | some t => if t = 0 then m.defaultTtlS else t

/-- `acquire` at time `now`, with `freshId` as the new session id. -/
def acquire (m : ControlSessionManager) (now : ℚ) (actor : String) (mode : RuntimeMode)
    (ttlS : Option ℚ) (freshId : String) : ControlSession × ControlSessionManager :=
  let session : ControlSession :=
    { sessionId := freshId
      mode := mode
      actor := actor
      issuedAt := now
      expiresAt := now + m.ttl ttlS
      runtimeBootId := m.runtimeBootId }
  (session, { m with active := some session })

/-- `_require_active`: an expired session is dropped by the call that finds
it expired. -/
def requireActive (m : ControlSessionManager) (now : ℚ) (sessionId : String) :
    Except FusionError ControlSession × ControlSessionManager :=
  match m.active with
  | none => (.error ⟨.controlSessionInvalid, "control session is not active"⟩, m)
  | some session =>
      if session.sessionId ≠ sessionId then
        (.error ⟨.controlSessionInvalid, "control session is not active"⟩, m)
      else if session.expiresAt ≤ now then
        (.error ⟨.controlSessionExpired, "control session has expired"⟩, { m with active := none })
      else (.ok session, m)

/-- `renew` at time `now`: the session runs from here on. -/
def renew (m : ControlSessionManager) (now : ℚ) (sessionId : String) (ttlS : Option ℚ) :
    Except FusionError ControlSession × ControlSessionManager :=
  match m.requireActive now sessionId with
  | (.error e, m) => (.error e, m)
  | (.ok session, m) =>
      let session := { session with expiresAt := now + m.ttl ttlS }
      (.ok session, { m with active := some session })

/-- `release`: of the active session only. -/
def release (m : ControlSessionManager) (sessionId : String) : ControlSessionManager :=
  match m.active with
  | none => m
  | some session => if session.sessionId = sessionId then { m with active := none } else m

/-- `validate`, before a command is let through. -/
def validate (m : ControlSessionManager) (now : ℚ) (sessionId : Option String) :
    Except FusionError ControlSession × ControlSessionManager :=
  match sessionId with
  | none => (.error ⟨.controlSessionRequired, "control_session_id is required"⟩, m)
  | some sessionId => m.requireActive now sessionId

/-! ## What a call may find -/

/-- The id is that of the active, unexpired session. -/
def Live (m : ControlSessionManager) (now : ℚ) (sessionId : String) : Prop :=
  ∃ session, m.active = some session ∧ session.sessionId = sessionId ∧ now < session.expiresAt

/-- A check passes exactly on the live id, and then changes nothing. -/
theorem requireActive_ok_iff {m m' : ControlSessionManager} {now : ℚ} {sessionId : String}
    {session : ControlSession} :
    m.requireActive now sessionId = (.ok session, m') ↔
      m' = m ∧ m.active = some session ∧ session.sessionId = sessionId ∧
        now < session.expiresAt := by
  unfold requireActive
  cases h : m.active with
  | none => simp
  | some active =>
    by_cases hid : active.sessionId = sessionId
    · by_cases hexp : active.expiresAt ≤ now
      · simp only [ne_eq, hid, not_true_eq_false, if_false, if_pos hexp, Prod.mk.injEq]
        constructor
        · rintro ⟨h, _⟩
          cases h
        · rintro ⟨_, hs, _, hlt⟩
          cases hs
          exact absurd hlt (not_lt.mpr hexp)
      · simp only [ne_eq, hid, not_true_eq_false, if_false, if_neg hexp, Prod.mk.injEq,
          Except.ok.injEq, Option.some.injEq]
        constructor
        · rintro ⟨rfl, rfl⟩
          exact ⟨rfl, rfl, hid, not_le.mp hexp⟩
        · rintro ⟨rfl, rfl, _⟩
          exact ⟨rfl, rfl⟩
    · simp only [ne_eq, hid, not_false_eq_true, if_true, Prod.mk.injEq]
      constructor
      · rintro ⟨h, _⟩
        cases h
      · rintro ⟨_, hs, hid', _⟩
        cases hs
        exact absurd hid' hid

/-- A submission that passes the check leaves the manager as it was. -/
theorem validate_ok {m m' : ControlSessionManager} {now : ℚ} {sessionId : Option String}
    {session : ControlSession} (h : m.validate now sessionId = (.ok session, m')) :
    m' = m ∧ sessionId = some session.sessionId ∧ m.Live now session.sessionId := by
  cases sessionId with
  | none => simp [validate] at h
  | some sessionId =>
    obtain ⟨hm, ha, rfl, hlt⟩ := requireActive_ok_iff.mp h
    exact ⟨hm, rfl, session, ha, rfl, hlt⟩

/-- The check accepts exactly the live id. -/
theorem validate_accepts_iff {m : ControlSessionManager} {now : ℚ} {id : String} :
    (∃ session, (m.validate now (some id)).1 = .ok session) ↔ m.Live now id := by
  constructor
  · intro ⟨session, hok⟩
    have hpair : m.validate now (some id) = (.ok session, (m.validate now (some id)).2) :=
      Prod.ext hok rfl
    obtain ⟨-, hactive, hid, hlt⟩ := requireActive_ok_iff.mp hpair
    exact ⟨session, hactive, hid, hlt⟩
  · intro ⟨session, hactive, hid, hlt⟩
    have hpair : m.validate now (some id) = (.ok session, m) :=
      requireActive_ok_iff.mpr ⟨rfl, hactive, hid, hlt⟩
    exact ⟨session, congrArg Prod.fst hpair⟩

/-- A check makes no session active. -/
theorem requireActive_active {m : ControlSessionManager} {now : ℚ} {sessionId : String}
    {session : ControlSession} (h : (m.requireActive now sessionId).2.active = some session) :
    m.active = some session := by
  unfold requireActive at h
  cases hm : m.active with
  | none => simp [hm] at h
  | some active =>
    by_cases hid : active.sessionId = sessionId
    · by_cases hexp : active.expiresAt ≤ now
      · simp [hm, hid, hexp] at h
      · simpa [hm, hid, hexp] using h
    · simpa [hm, hid] using h

/-- No call but `acquire` makes an id live. -/
theorem Live.of_requireActive {m : ControlSessionManager} {now : ℚ} {id sessionId : String}
    (h : (m.requireActive now sessionId).2.Live now id) : m.Live now id := by
  obtain ⟨session, ha, hid, hlt⟩ := h
  exact ⟨session, requireActive_active ha, hid, hlt⟩

theorem Live.of_validate {m : ControlSessionManager} {now : ℚ} {id : String}
    {sessionId : Option String} (h : (m.validate now sessionId).2.Live now id) :
    m.Live now id := by
  cases sessionId with
  | none => exact h
  | some sessionId => exact h.of_requireActive

/-- A renewal moves the end of a session that is still live. -/
theorem Live.of_renew {m : ControlSessionManager} {now : ℚ} {id sessionId : String}
    {ttlS : Option ℚ} (h : (m.renew now sessionId ttlS).2.Live now id) : m.Live now id := by
  unfold renew at h
  split at h
  · rename_i e m' hreq
    have hm : m' = (m.requireActive now sessionId).2 := by rw [hreq]
    rw [hm] at h
    exact h.of_requireActive
  · rename_i session m' hreq
    obtain ⟨_, ha, hid, hlt⟩ := requireActive_ok_iff.mp hreq
    obtain ⟨renewed, ha', hid', _⟩ := h
    cases ha'
    exact ⟨session, ha, hid', hlt⟩

theorem Live.of_release {m : ControlSessionManager} {now : ℚ} {id sessionId : String}
    (h : (m.release sessionId).Live now id) : m.Live now id ∧ sessionId ≠ id := by
  obtain ⟨session, ha, hid, hlt⟩ := h
  unfold release at ha
  cases hm : m.active with
  | none => simp [hm] at ha
  | some active =>
    by_cases hown : active.sessionId = sessionId
    · simp [hm, hown] at ha
    · have heq : active = session := by simpa [hm, hown] using ha
      subst heq
      exact ⟨⟨active, hm, hid, hlt⟩, fun h => hown (hid.trans h.symm)⟩

theorem Live.unique {m : ControlSessionManager} {now : ℚ} {id id' : String}
    (h : m.Live now id) (h' : m.Live now id') : id = id' := by
  obtain ⟨session, ha, hid, _⟩ := h
  obtain ⟨session', ha', hid', _⟩ := h'
  rw [ha] at ha'
  cases ha'
  exact hid.symm.trans hid'

/-- A submission is told `CONTROL_SESSION_EXPIRED` exactly when it names the
active session and that has run out. -/
theorem validate_expired_iff {m : ControlSessionManager} {now : ℚ} {sessionId : Option String} :
    (∃ e, (m.validate now sessionId).1 = .error e ∧ e.code = .controlSessionExpired) ↔
      ∃ session, m.active = some session ∧ sessionId = some session.sessionId ∧
        session.expiresAt ≤ now := by
  cases sessionId with
  | none => simp [validate]
  | some sessionId =>
    unfold validate requireActive
    cases h : m.active with
    | none => simp
    | some active =>
      by_cases hid : active.sessionId = sessionId
      · by_cases hexp : active.expiresAt ≤ now <;> simp [hid, hexp]
      · simp [hid, Ne.symm hid]

end ControlSessionManager

end Fusion
