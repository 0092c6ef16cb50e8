import Fusion.Contracts.Command
import Mathlib.Algebra.Order.Ring.Rat

/-!
# ConfigService — stage and apply (contracts/config.py, core/config_service.py)

`apply` is a coroutine that waits for the lock and then for the guard, so a
call is cut at these two points: `applyCheck` runs up to the lock,
`applyLocked` from the lock to the guard, `applyGuarded` from the guard to
the end. A revision's content and its hash are left out: nothing reads them.
-/

namespace Fusion

/-- A staged revision. -/
structure ConfigRevision where
  revisionId : String
  kind : String
  stagedAt : ℚ
deriving DecidableEq

/-- How a call of `apply` ended. -/
inductive ApplyOutcome
  | succeeded
  | rejected
  | failed
deriving DecidableEq, Repr

/-- An entry of the journal, and the answer of `apply`. -/
structure ApplyRecord where
  revisionId : String
  outcome : ApplyOutcome
  detail : Option String
  appliedAt : ℚ
deriving DecidableEq

/-- The revisions that are staged, the active one, the journal and the lock. -/
structure ConfigService where
  journalLimit : Nat
  staged : Dict String ConfigRevision
  activeRevisionId : Option String
  journal : List ApplyRecord
  applyLock : Bool

namespace ConfigService

/-- `DEFAULT_JOURNAL_LIMIT` -/
def defaultJournalLimit : Nat := 50

/-- A service without revisions. -/
def new : ConfigService where
  journalLimit := defaultJournalLimit
  staged := .empty
  activeRevisionId := none
  journal := []
  applyLock := false

/-- `stage`, under a new id. -/
def stage (c : ConfigService) (now : ℚ) (kind freshId : String) : ConfigService :=
  { c with staged := c.staged.set freshId ⟨freshId, kind, now⟩ }

/-- `_record`: the journal keeps its newest entries. -/
def record (c : ConfigService) (now : ℚ) (revisionId : String) (outcome : ApplyOutcome)
    (detail : Option String) : ApplyRecord × ConfigService :=
  let r : ApplyRecord := ⟨revisionId, outcome, detail, now⟩
  let journal := c.journal ++ [r]
  (r, { c with journal := journal.drop (journal.length - c.journalLimit) })

/-- `str` of an optional id, as an f-string prints it. -/
def printed : Option String → String
  | none => "None"
  | some s => s

/-- From the call of `apply` to its wait for the lock. -/
def applyCheck (c : ConfigService) (revisionId : String) : Except FusionError Unit :=
  match c.staged.get revisionId with
  | none => .error ⟨.validationError, s!"unknown staged revision '{revisionId}'"⟩
  | some _ => .ok ()

/-- With the lock just taken, up to the guard: a rejection of the expected
revision ends the call and frees the lock. -/
def applyLocked (c : ConfigService) (now : ℚ) (revisionId : String)
    (expectedActiveRevision : Option String) : Option ApplyRecord × ConfigService :=
  match expectedActiveRevision with
  | none => (none, { c with applyLock := true })
  | some expected =>
      if some expected = c.activeRevisionId then (none, { c with applyLock := true })
      else
        let (r, c) := c.record now revisionId .rejected
          (s!"expected active revision '{expected}', " ++
            s!"actual is '{printed c.activeRevisionId}'")
        (some r, c)

/-- From the guard's answer to the end of the call; on success
`activeRevisionId` moves and the caller runs `on_applied`. -/
def applyGuarded (c : ConfigService) (now : ℚ) (revisionId : String)
    (guard : Except Fault Unit) : ApplyRecord × ConfigService :=
  let c := { c with applyLock := false }
  match guard with
  | .error (.fusion e) => c.record now revisionId .rejected e.message
  | .error (.other message) => c.record now revisionId .failed message
  | .ok () => { c with activeRevisionId := some revisionId }.record now revisionId .succeeded none

end ConfigService

end Fusion
