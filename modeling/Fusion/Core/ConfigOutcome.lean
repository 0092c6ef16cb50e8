import Fusion.Core.ConfigService

/-!
# ConfigOutcome — one call of `apply`, from its check to its end

The whole body of `ConfigService.apply` for a call that gets the lock, with
the answers of the two injected callbacks as arguments. `on_applied` runs
after `activeRevisionId` has moved and before the record is made, outside the
`try` that turns what the guard raises into a record.
-/

namespace Fusion.ConfigService

/-- How the two callbacks of a call end. -/
structure Callbacks where
  applyGuard : Except Fault Unit
  /-- `none` is a call without `on_applied` -/
  onApplied : Option (Except Fault Unit)

/-- From the guard's answer to the end of the call. What `on_applied` raises
leaves the call, and the lock is freed on every way out. -/
def applyFinished (c : ConfigService) (now : ℚ) (revisionId : String) (cb : Callbacks) :
    Except Fault ApplyRecord × ConfigService :=
  match cb.applyGuard, cb.onApplied with
  | .ok (), some (.error fault) =>
      (.error fault, { c with applyLock := false, activeRevisionId := some revisionId })
  | answer, _ =>
      let (r, c) := c.applyGuarded now revisionId answer
      (.ok r, c)

/-- `apply`; `now` is the clock at the record. -/
def apply (c : ConfigService) (now : ℚ) (revisionId : String)
    (expectedActiveRevision : Option String) (cb : Callbacks) :
    Except Fault ApplyRecord × ConfigService :=
  match c.applyCheck revisionId with
  | .error e => (.error (.fusion e), c)
  | .ok () =>
      match c.applyLocked now revisionId expectedActiveRevision with
      | (some r, c) => (.ok r, c)
      | (none, c) => c.applyFinished now revisionId cb

/-- **All or nothing, and journalled**: what a call that returned the record
`r` may have done to the service. -/
structure AllOrNothing (c : ConfigService) (revisionId : String) (r : ApplyRecord)
    (c' : ConfigService) : Prop where
  revision : r.revisionId = revisionId
  /-- the journal gains `r` and keeps its newest entries -/
  journal : c'.journal = (c.journal ++ [r]).drop (c.journal.length + 1 - c.journalLimit)
  journalled : c'.journal.getLast? = some r
  active : c'.activeRevisionId =
    if r.outcome = .succeeded then some revisionId else c.activeRevisionId
  staged : c'.staged = c.staged

/-- The call reaches `on_applied`, and that raises. -/
def RaisesApplied (c : ConfigService) (expectedActiveRevision : Option String)
    (cb : Callbacks) : Prop :=
  (∀ expected, expectedActiveRevision = some expected → c.activeRevisionId = some expected) ∧
    cb.applyGuard = .ok () ∧ ∃ fault, cb.onApplied = some (.error fault)

/-! ## The record of a call -/

/-- A record that lets the active revision stand unless it is a success. -/
theorem AllOrNothing.record {c : ConfigService} {now : ℚ} {revisionId : String}
    {outcome : ApplyOutcome} {detail : Option String} {active : Option String} {lock : Bool}
    (hlimit : 0 < c.journalLimit)
    (hactive : active = if outcome = .succeeded then some revisionId else c.activeRevisionId) :
    let c₁ := { c with activeRevisionId := active, applyLock := lock }
    AllOrNothing c revisionId (c₁.record now revisionId outcome detail).1
      (c₁.record now revisionId outcome detail).2 where
  revision := rfl
  journal := by simp [ConfigService.record]
  journalled := by
    have hle : c.journal.length + 1 - c.journalLimit ≤ c.journal.length := by omega
    simp [ConfigService.record, List.drop_append_of_le_length hle]
  active := hactive
  staged := rfl

/-- A call whose expectation is not met is over, with a rejection. -/
theorem AllOrNothing.missed {c : ConfigService} (now : ℚ) (revisionId : String)
    {expected : String}
    (hlimit : 0 < c.journalLimit) (hmiss : some expected ≠ c.activeRevisionId) :
    ∃ r, (c.applyLocked now revisionId (some expected)).1 = some r ∧
      AllOrNothing c revisionId r (c.applyLocked now revisionId (some expected)).2 := by
  simp only [applyLocked, if_neg hmiss]
  exact ⟨_, rfl, .record hlimit (by simp)⟩

/-- With the expectation met the call only takes the lock. -/
theorem applyLocked_met {c : ConfigService} {now : ℚ} {revisionId : String}
    {expected : Option String}
    (hmet : ∀ e, expected = some e → c.activeRevisionId = some e) :
    c.applyLocked now revisionId expected = (none, { c with applyLock := true }) := by
  cases expected with
  | none => rfl
  | some e => simp [applyLocked, hmet e rfl]

/-- What the guard raises becomes a record. -/
theorem AllOrNothing.finished {c : ConfigService} (now : ℚ) (revisionId : String)
    {cb : Callbacks} (hlimit : 0 < c.journalLimit)
    (hquiet : ¬ (cb.applyGuard = .ok () ∧ ∃ fault, cb.onApplied = some (.error fault))) :
    ∃ r, (c.applyFinished now revisionId cb).1 = .ok r ∧
      AllOrNothing c revisionId r (c.applyFinished now revisionId cb).2 := by
  obtain ⟨guard, onApplied⟩ := cb
  cases guard with
  | error fault =>
    cases fault with
    | fusion e => exact ⟨_, rfl, .record hlimit (by simp)⟩
    | other message => exact ⟨_, rfl, .record hlimit (by simp)⟩
  | ok u =>
    cases onApplied with
    | none => exact ⟨_, rfl, .record hlimit (by simp)⟩
    | some answer =>
      cases answer with
      | error fault => exact absurd ⟨rfl, fault, rfl⟩ hquiet
      | ok u => exact ⟨_, rfl, .record hlimit (by simp)⟩

/-- **A call of a staged revision is all or nothing and journalled exactly if
the journal has room for a record and the call does not reach an `on_applied`
that raises.** -/
theorem apply_allOrNothing_iff {c : ConfigService} {revisionId : String}
    (hstaged : c.staged.get revisionId ≠ none) (now : ℚ) (expected : Option String)
    (cb : Callbacks) :
    (∃ r, (c.apply now revisionId expected cb).1 = .ok r ∧
        AllOrNothing c revisionId r (c.apply now revisionId expected cb).2) ↔
      0 < c.journalLimit ∧ ¬ RaisesApplied c expected cb := by
  have hcheck : c.applyCheck revisionId = .ok () := by
    unfold applyCheck
    cases hget : c.staged.get revisionId with
    | none => exact absurd hget hstaged
    | some revision => rfl
  simp only [apply, hcheck]
  constructor
  · rintro ⟨r, hr, hall⟩
    refine ⟨?_, ?_⟩
    · by_contra hzero
      have hnil : c.journalLimit = 0 := by omega
      have hlast := hall.journalled
      rw [hall.journal, hnil, Nat.sub_zero, List.drop_eq_nil_of_le (by simp)] at hlast
      cases hlast
    · rintro ⟨hmet, hguard, fault, hraise⟩
      rw [applyLocked_met hmet] at hr
      simp only [applyFinished, hguard, hraise] at hr
      cases hr
  · rintro ⟨hlimit, hquiet⟩
    by_cases hmet : ∀ e, expected = some e → c.activeRevisionId = some e
    · rw [applyLocked_met hmet]
      have hq : ¬ (cb.applyGuard = .ok () ∧ ∃ fault, cb.onApplied = some (.error fault)) :=
        fun h => hquiet ⟨hmet, h⟩
      obtain ⟨r, hr, h⟩ := AllOrNothing.finished (c := { c with applyLock := true })
        now revisionId hlimit hq
      exact ⟨r, hr, h.revision, h.journal, h.journalled, h.active, h.staged⟩
    · obtain ⟨e, rfl, hmiss⟩ : ∃ e, expected = some e ∧ c.activeRevisionId ≠ some e := by
        simpa using hmet
      obtain ⟨r, hr, h⟩ := AllOrNothing.missed now revisionId hlimit (Ne.symm hmiss)
      cases hlocked : c.applyLocked now revisionId (some e) with
      | mk answer c' =>
        rw [hlocked] at hr h
        cases hr
        exact ⟨r, rfl, h⟩

/-- A service with one staged revision. -/
private def stagedOne : ConfigService := new.stage 0 "project" "cfgrev1"

/-- A guard that crashes leaves a `FAILED` record and the revision as it was. -/
theorem apply_allOrNothing_guard_crash :
    ∃ r, (stagedOne.apply 1 "cfgrev1" none ⟨.error (.other "boom"), none⟩).1 = .ok r ∧
      AllOrNothing stagedOne "cfgrev1" r
        (stagedOne.apply 1 "cfgrev1" none ⟨.error (.other "boom"), none⟩).2 := by
  refine (apply_allOrNothing_iff (by decide) 1 none _).mpr ⟨by decide, ?_⟩
  rintro ⟨_, hguard, _⟩
  cases hguard

/-- The defect: `on_applied` raises, the exception leaves the call, the
revision is active and no record says so. -/
theorem apply_onApplied_raises :
    ¬ ∀ (c : ConfigService) (now : ℚ) (revisionId : String) (expected : Option String)
      (cb : Callbacks), 0 < c.journalLimit → c.staged.get revisionId ≠ none →
        ∃ r, (c.apply now revisionId expected cb).1 = .ok r ∧
          AllOrNothing c revisionId r (c.apply now revisionId expected cb).2 := by
  intro hall
  obtain ⟨r, hr, _⟩ := hall stagedOne 1 "cfgrev1" none
    ⟨.ok (), some (.error (.other "boom"))⟩ (by decide) (by decide)
  have hraised : (stagedOne.apply 1 "cfgrev1" none
      ⟨.ok (), some (.error (.other "boom"))⟩).1 = .error (.other "boom") := rfl
  rw [hraised] at hr
  cases hr

end Fusion.ConfigService
