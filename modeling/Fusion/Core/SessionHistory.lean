import Fusion.Core.ControlSession
import Fusion.Lib.Transition

/-!
# SessionHistory — the calls of one ControlSessionManager

Every call is synchronous, so one call is one step and time passes between
the steps (`renew` reads the clock twice in one call; the two readings are
taken as one). The ids that were handed out are kept beside the manager:
`acquire` draws a new one each time.
-/

namespace Fusion

open Transition

/-- The manager under a clock, and the ids it has drawn. -/
structure SessionHistory where
  manager : ControlSessionManager
  /-- the clock -/
  now : ℚ
  /-- the ids handed out so far -/
  issued : List String

/-- A call of the manager, or time that passes. -/
inductive SessionLabel
  | advance (dt : ℚ)
  | acquire (actor : String) (mode : RuntimeMode) (ttlS : Option ℚ) (freshId : String)
  | renew (sessionId : String) (ttlS : Option ℚ)
  | release (sessionId : String)
  | validate (sessionId : Option String)

namespace SessionHistory

/-- A manager without a session. -/
def init (runtimeBootId : String) (defaultTtlS now : ℚ) : SessionHistory where
  manager := { ControlSessionManager.new runtimeBootId with defaultTtlS := defaultTtlS }
  now := now
  issued := []

/-- One call, at the time of the clock. -/
def step (s : SessionHistory) : SessionLabel → Option SessionHistory
  | .advance dt => if 0 ≤ dt then some { s with now := s.now + dt } else none
  | .acquire actor mode ttlS freshId =>
      if freshId ∈ s.issued then none
      else some
        { s with
          manager := (s.manager.acquire s.now actor mode ttlS freshId).2
          issued := s.issued ++ [freshId] }
  | .renew sessionId ttlS => some
      { s with manager := (s.manager.renew s.now sessionId ttlS).2 }
  | .release sessionId => some { s with manager := s.manager.release sessionId }
  | .validate sessionId => some
      { s with manager := (s.manager.validate s.now sessionId).2 }

/-! ## What the calls answer -/

/-- `validate` would accept the id now. -/
def Accepts (s : SessionHistory) (id : String) : Prop :=
  ∃ session, (s.manager.validate s.now (some id)).1 = .ok session

/-- The step acquires a session under this id. -/
def Acquires (l : SessionLabel) (id : String) : Prop :=
  ∃ actor mode ttlS, l = .acquire actor mode ttlS id

/-- The step ends an issued id: `validate` or `renew` refuses it, or it is
released while it is the active one. -/
inductive Ends (x : Step step) (id : String) : Prop
  | validateRefused (hl : x.label = .validate (some id)) (issued : id ∈ x.src.issued)
      {e : FusionError} (refused : (x.src.manager.validate x.src.now (some id)).1 = .error e)
  | renewRefused {ttlS : Option ℚ} (hl : x.label = .renew id ttlS) (issued : id ∈ x.src.issued)
      {e : FusionError} (refused : (x.src.manager.renew x.src.now id ttlS).1 = .error e)
  | released (hl : x.label = .release id) (issued : id ∈ x.src.issued)
      {session : ControlSession} (active : x.src.manager.active = some session)
      (own : session.sessionId = id)

/-- **One live token, and none that comes back.** -/
structure SingleLive (xs : List (Step step)) (s : SessionHistory) : Prop where
  single : ∀ id id', Accepts s id → Accepts s id' → id = id'
  /-- an accepted id is the one acquired last; it was not released since, and
  its session has not run out -/
  current : ∀ id, Accepts s id →
    (∃ pre x post, xs = pre ++ x :: post ∧ Acquires x.label id ∧
      ∀ y ∈ post, (∀ id', ¬ Acquires y.label id') ∧ y.label ≠ .release id) ∧
    ∃ session, s.manager.active = some session ∧ session.sessionId = id ∧
      s.now < session.expiresAt
  /-- an id that was ended is not accepted -/
  ended : ∀ id, ∀ x ∈ xs, Ends x id → ¬ Accepts s id

theorem accepts_iff {s : SessionHistory} {id : String} :
    Accepts s id ↔ s.manager.Live s.now id :=
  ControlSessionManager.validate_accepts_iff

/-- An id that `validate` or `renew` refuses is not live. -/
theorem not_live_of_refused {m : ControlSessionManager} {now : ℚ} {id : String}
    {e : FusionError} (h : (m.requireActive now id).1 = .error e) : ¬ m.Live now id := by
  rintro ⟨session, ha, hid, hlt⟩
  have hok := ControlSessionManager.requireActive_ok_iff.mpr ⟨rfl, ha, hid, hlt⟩
  rw [hok] at h
  cases h

theorem requireActive_of_renew_refused {m : ControlSessionManager} {now : ℚ} {id : String}
    {ttlS : Option ℚ} {e : FusionError} (h : (m.renew now id ttlS).1 = .error e) :
    (m.requireActive now id).1 = .error e := by
  unfold ControlSessionManager.renew at h
  split at h
  · rename_i e' m' hreq
    rw [hreq]
    exact h
  · cases h

/-! ## One step -/

/-- **An id becomes live by `acquire` only**, and `release` ends it. -/
theorem live_step {s t : SessionHistory} {l : SessionLabel} (hs : s.step l = some t)
    {id : String} (h : t.manager.Live t.now id) :
    (Acquires l id ∧ id ∉ s.issued) ∨
      s.manager.Live s.now id ∧ (∀ id', ¬ Acquires l id') ∧ l ≠ .release id := by
  cases l with
  | advance dt =>
    simp only [step] at hs
    split at hs
    · rename_i hdt
      cases hs
      obtain ⟨session, ha, hid, hlt⟩ := h
      refine .inr ⟨⟨session, ha, hid, ?_⟩, ?_, fun h => nomatch h⟩
      · exact lt_of_le_of_lt (le_add_of_nonneg_right hdt) hlt
      · rintro id' ⟨_, _, _, h⟩
        cases h
    · cases hs
  | acquire actor mode ttlS freshId =>
    simp only [step] at hs
    split at hs
    · cases hs
    · rename_i hfresh
      cases hs
      obtain ⟨session, ha, hid, _⟩ := h
      cases ha
      subst hid
      exact .inl ⟨⟨actor, mode, ttlS, rfl⟩, hfresh⟩
  | renew sessionId ttlS =>
    cases hs
    refine .inr ⟨h.of_renew, ?_, fun h => nomatch h⟩
    rintro id' ⟨_, _, _, h⟩
    cases h
  | release sessionId =>
    cases hs
    obtain ⟨hlive, hne⟩ := h.of_release
    refine .inr ⟨hlive, ?_, ?_⟩
    · rintro id' ⟨_, _, _, h⟩
      cases h
    · intro h
      cases h
      exact hne rfl
  | validate sessionId =>
    cases hs
    refine .inr ⟨h.of_validate, ?_, fun h => nomatch h⟩
    rintro id' ⟨_, _, _, h⟩
    cases h

theorem issued_step {s t : SessionHistory} {l : SessionLabel} (hs : s.step l = some t)
    {id : String} (h : id ∈ s.issued) : id ∈ t.issued := by
  cases l with
  | advance dt =>
    simp only [step] at hs
    split at hs
    · cases hs
      exact h
    · cases hs
  | acquire actor mode ttlS freshId =>
    simp only [step] at hs
    split at hs
    · cases hs
    · cases hs
      exact List.mem_append_left _ h
  | renew sessionId ttlS => cases hs; exact h
  | release sessionId => cases hs; exact h
  | validate sessionId => cases hs; exact h

/-- An id that was handed out and is not live any more. -/
def Dead (s : SessionHistory) (id : String) : Prop :=
  id ∈ s.issued ∧ ¬ s.manager.Live s.now id

theorem Dead.step {s t : SessionHistory} {l : SessionLabel} {id : String} (h : Dead s id)
    (hs : s.step l = some t) : Dead t id := by
  refine ⟨issued_step hs h.1, fun hlive => ?_⟩
  rcases live_step hs hlive with ⟨_, hfresh⟩ | ⟨hlive, _⟩
  · exact hfresh h.1
  · exact h.2 hlive

/-- A step that ends an id leaves it dead. -/
theorem Ends.dead {x : Step SessionHistory.step} {id : String} (h : Ends x id) :
    Dead x.dst id := by
  cases h with
  | validateRefused hl issued refused =>
    exact Dead.step ⟨issued, not_live_of_refused refused⟩ x.fired
  | renewRefused hl issued refused =>
    exact Dead.step ⟨issued, not_live_of_refused (requireActive_of_renew_refused refused)⟩
      x.fired
  | released hl issued active own =>
    refine ⟨issued_step x.fired issued, fun hlive => ?_⟩
    rcases live_step x.fired hlive with ⟨_, hfresh⟩ | ⟨_, _, hne⟩
    · exact hfresh issued
    · exact hne hl

/-! ## Runs -/

/-- A live id comes from the last `acquire` of the run, and was not released
after it. -/
theorem live_acquired {boot : String} {ttl now : ℚ} {xs : List (Step step)}
    {s : SessionHistory} (run : Run step (init boot ttl now) xs s) {id : String}
    (h : s.manager.Live s.now id) :
    ∃ pre x post, xs = pre ++ x :: post ∧ Acquires x.label id ∧
      ∀ y ∈ post, (∀ id', ¬ Acquires y.label id') ∧ y.label ≠ .release id := by
  induction run with
  | nil =>
    obtain ⟨session, ha, _⟩ := h
    cases ha
  | @snoc xs x run ih =>
    rcases live_step x.fired h with ⟨hacq, _⟩ | ⟨hlive, hno⟩
    · exact ⟨xs, x, [], rfl, hacq, by simp⟩
    · obtain ⟨pre, y, post, rfl, hacq, hpost⟩ := ih hlive
      refine ⟨pre, y, post ++ [x], by simp, hacq, fun z hz => ?_⟩
      rcases List.mem_append.mp hz with hz | hz
      · exact hpost z hz
      · rw [List.mem_singleton.mp hz]
        exact hno

/-- An ended id is dead for the rest of the run. -/
theorem ended_dead {s₀ s : SessionHistory} {xs : List (Step step)} (run : Run step s₀ xs s)
    {id : String} {x : Step step} (hx : x ∈ xs) (h : Ends x id) : Dead s id := by
  induction run with
  | nil => simp at hx
  | @snoc xs y run ih =>
    rcases List.mem_append.mp hx with hx | hx
    · exact (ih hx).step y.fired
    · rw [List.mem_singleton] at hx
      subst hx
      exact h.dead

/-- **At every point of every history at most one id is accepted, the one
acquired last and neither released nor run out; and no ended id is ever
accepted again.** -/
theorem single_live_token (boot : String) (ttl now : ℚ) {xs : List (Step step)}
    {s : SessionHistory} (run : Run step (init boot ttl now) xs s) : SingleLive xs s where
  single := fun _ _ h h' => (accepts_iff.mp h).unique (accepts_iff.mp h')
  current := fun _ h => ⟨live_acquired run (accepts_iff.mp h), accepts_iff.mp h⟩
  ended := fun _ _ hx hends h => (ended_dead run hx hends).2 (accepts_iff.mp h)

/-- A renewal in time keeps the token; after the renewed end it is refused,
and a second session takes its place. -/
theorem single_live_token_renewed :
    ∃ xs s, Run step (init "boot1" 30 0) xs s ∧ Accepts s "b" ∧ ¬ Accepts s "a" ∧
      SingleLive xs s := by
  obtain ⟨xs, s, run, _, hs⟩ := execWhile_test (fun _ _ => true) step (init "boot1" 30 0)
    [.acquire "ui" .manual none "a", .advance 29, .renew "a" none, .advance 30,
      .validate (some "a"), .acquire "ui" .manual none "b"]
    (fun s => s.manager.active.any fun session =>
      session.sessionId = "b" ∧ s.now < session.expiresAt) (by decide +kernel)
  obtain ⟨session, ha, hlive⟩ := (Option.any_eq_true ..).mp hs
  have hb : Accepts s "b" := accepts_iff.mpr ⟨session, ha, by simpa using hlive⟩
  have hlaw : SingleLive xs s := single_live_token "boot1" 30 0 run
  refine ⟨xs, s, run, hb, fun hacc => ?_, hlaw⟩
  exact absurd (hlaw.single "a" "b" hacc hb) (by decide)

end SessionHistory

end Fusion
