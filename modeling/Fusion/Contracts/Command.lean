import Fusion.Lib.Dict
import Mathlib.Data.String.Basic

/-!
# Command — requests, records and their lifecycle (contracts/command.py)

The submit request, the tracked record with its lifecycle enumerations, and
`fingerprint`, the stable identity of what a `request_id` means. Parameter
values are a type `V` with the language's own equality test as its `BEq`.
The protocol version, the show generation and the wall-clock stamps of a
record are left out: no function of the program reads them.
-/

namespace Fusion

/-- The id that the ledger gives a command. -/
abbrev CommandId := String

/-- How far a command is to be followed before it counts as done. -/
inductive CompletionRequirement
  | dispatched
  | acknowledged
  | observed
deriving DecidableEq, Repr

/-- Where a command is in its lifecycle. -/
inductive CommandStatus
  | queued
  | dispatching
  | dispatched
  | acknowledged
  | observing
  | terminal
deriving DecidableEq, Repr

/-- How a TERMINAL command ended. -/
inductive CommandOutcome
  | succeeded
  | failed
  | cancelled
  | expired
  | rejected
  | unknown
deriving DecidableEq, Repr

/-- The position of a status along QUEUED, DISPATCHING, …, TERMINAL. -/
def CommandStatus.rank : CommandStatus → Nat
  | queued => 0
  | dispatching => 1
  | dispatched => 2
  | acknowledged => 3
  | observing => 4
  | terminal => 5

/-- The text of an outcome, as responses, events and Cue outcomes carry it. -/
def CommandOutcome.value : CommandOutcome → String
  | succeeded => "SUCCEEDED"
  | failed => "FAILED"
  | cancelled => "CANCELLED"
  | expired => "EXPIRED"
  | rejected => "REJECTED"
  | unknown => "UNKNOWN"

/-- contracts/errors.py: the codes callers branch on. -/
inductive ErrorCode
  | validationError
  | unknownTarget
  | unknownAction
  | busy
  | requestIdConflict
  | commandNotFound
  | blobNotFound
  | controlSessionRequired
  | controlSessionInvalid
  | controlSessionExpired
  | runtimeBootMismatch
  | staleGeneration
  | resyncRequired
  | internalError
deriving DecidableEq, Repr

/-- A rejection that reaches the caller. Nothing in the program passes
`details`, so they are always the empty object and are left out. -/
structure FusionError where
  code : ErrorCode
  message : String
deriving DecidableEq, Repr

/-- What a call of the adapter, a guard or a callback may raise: a rejection,
or any other exception, of which only its text is used. -/
inductive Fault
  | fusion (e : FusionError)
  | other (message : String)
deriving DecidableEq, Repr

/-- `str(exc)`. -/
def Fault.message : Fault → String
  | fusion e => e.message
  | other message => message

/-- The body of `submit_command`. -/
structure CommandSubmitRequest (V : Type) where
  requestId : String
  controlSessionId : Option String
  runId : Option String
  cueId : Option String
  targetId : String
  action : String
  params : Dict String V
  completionRequirement : CompletionRequirement
  source : String
  actor : Option String

/-- What the ledger keeps of a command. -/
structure CommandRecord (V : Type) where
  commandId : CommandId
  requestId : String
  runtimeId : String
  runtimeBootId : String
  targetId : String
  action : String
  params : Dict String V
  completionRequirement : CompletionRequirement
  status : CommandStatus
  outcome : Option CommandOutcome
  achievedCompletion : Option CompletionRequirement
  executionGeneration : Nat
  runId : Option String
  cueId : Option String
  source : String
  actor : Option String
  error : Option FusionError

namespace CommandRecord

variable {V : Type}

/-! ## The assignments made to a record -/

/-- `record.status = status` -/
def setStatus (r : CommandRecord V) (status : CommandStatus) : CommandRecord V :=
  { r with status := status }

/-- The stamp and the first status of a submission that is let through. -/
def dispatch (r : CommandRecord V) (executionGeneration : Nat) : CommandRecord V :=
  { r with executionGeneration := executionGeneration, status := .dispatching }

/-- The three assignments of `_finish`. -/
def finish (r : CommandRecord V) (outcome : CommandOutcome)
    (achieved : Option CompletionRequirement) : CommandRecord V :=
  { r with status := .terminal, outcome := some outcome, achievedCompletion := achieved }

/-- A submission refused by the runner. -/
def reject (r : CommandRecord V) (e : FusionError) : CommandRecord V :=
  { r with status := .terminal, outcome := some .rejected, error := some e }

/-- `record.error = {"code": INTERNAL_ERROR, "message": str(exc)}` -/
def setInternalError (r : CommandRecord V) (message : String) : CommandRecord V :=
  { r with error := some ⟨.internalError, message⟩ }

@[simp] theorem setStatus_status (r : CommandRecord V) (st : CommandStatus) :
    (r.setStatus st).status = st := rfl

@[simp] theorem setStatus_commandId (r : CommandRecord V) (st : CommandStatus) :
    (r.setStatus st).commandId = r.commandId := rfl

@[simp] theorem setStatus_completionRequirement (r : CommandRecord V) (st : CommandStatus) :
    (r.setStatus st).completionRequirement = r.completionRequirement := rfl

@[simp] theorem finish_commandId (r : CommandRecord V) (o : CommandOutcome)
    (a : Option CompletionRequirement) : (r.finish o a).commandId = r.commandId := rfl

@[simp] theorem finish_status (r : CommandRecord V) (o : CommandOutcome)
    (a : Option CompletionRequirement) : (r.finish o a).status = .terminal := rfl

end CommandRecord

/-! ## Fingerprints -/

section
variable {V : Type}

/-- The tuple `(target_id, action, sorted(params.items()), requirement)`. -/
structure Fingerprint (V : Type) where
  targetId : String
  action : String
  params : List (String × V)
  completionRequirement : CompletionRequirement

/-- `fingerprint`: what must not change when a request id is used again. -/
def fingerprint (req : CommandSubmitRequest V) : Fingerprint V where
  targetId := req.targetId
  action := req.action
  params := req.params.sortedItems
  completionRequirement := req.completionRequirement

/-- The fingerprint of the request a record was made from. -/
def CommandRecord.fingerprint (r : CommandRecord V) : Fingerprint V where
  targetId := r.targetId
  action := r.action
  params := r.params.sortedItems
  completionRequirement := r.completionRequirement

variable [BEq V]

/-- Equality of two fingerprint tuples, element by element. -/
def Fingerprint.eq (f g : Fingerprint V) : Bool :=
  f.targetId == g.targetId && f.action == g.action && f.params == g.params
    && f.completionRequirement == g.completionRequirement

/-- The request means what the record was made for: same target, action and
completion level, and equal params dictionaries. -/
def CommandRecord.sameContent (r : CommandRecord V) (req : CommandSubmitRequest V) : Bool :=
  r.targetId == req.targetId && r.action == req.action && r.params.eq req.params
    && r.completionRequirement == req.completionRequirement

/-- Fingerprints are equal exactly when the content is the same, the params
compared as dictionaries. -/
theorem fingerprint_eq (r : CommandRecord V) (req : CommandSubmitRequest V) :
    r.fingerprint.eq (fingerprint req) = r.sameContent req := by
  simp [Fingerprint.eq, CommandRecord.fingerprint, fingerprint, CommandRecord.sameContent,
    Dict.sortedItems_beq]

end

end Fusion
