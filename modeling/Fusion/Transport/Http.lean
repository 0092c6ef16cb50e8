import Fusion.Lib.JsonEncoded
import Fusion.Transport.Remote

/-!
# Http — a Runtime's answers on the wire
(transport/server.py, transport/client.py, contracts/errors.py)

What a handler's call returns is written as JSON and encoded; a `FusionError`
is written with the status of its code, and any other exception leaves a plain
text. So does an answer that cannot be written: one with a surrogate in a
string, or with a float that is no number. The call was made by then. The
client's calls read the answer back. The limits of either interpreter are left
out.
-/

namespace Fusion

open Json (Writable)

/-! ## The server -/

/-- The code as it is written. -/
def ErrorCode.value : ErrorCode → String
  | validationError => "VALIDATION_ERROR"
  | unknownTarget => "UNKNOWN_TARGET"
  | unknownAction => "UNKNOWN_ACTION"
  | busy => "BUSY"
  | requestIdConflict => "REQUEST_ID_CONFLICT"
  | commandNotFound => "COMMAND_NOT_FOUND"
  | blobNotFound => "BLOB_NOT_FOUND"
  | controlSessionRequired => "CONTROL_SESSION_REQUIRED"
  | controlSessionInvalid => "CONTROL_SESSION_INVALID"
  | controlSessionExpired => "CONTROL_SESSION_EXPIRED"
  | runtimeBootMismatch => "RUNTIME_BOOT_MISMATCH"
  | staleGeneration => "STALE_GENERATION"
  | resyncRequired => "RESYNC_REQUIRED"
  | internalError => "INTERNAL_ERROR"

/-- `_STATUS_BY_CODE` -/
def statusByCode : List (ErrorCode × Nat) :=
  [(.validationError, 400), (.unknownTarget, 404), (.unknownAction, 404),
    (.commandNotFound, 404), (.blobNotFound, 404), (.busy, 409), (.requestIdConflict, 409),
    (.controlSessionRequired, 401), (.controlSessionInvalid, 401),
    (.controlSessionExpired, 401), (.runtimeBootMismatch, 409), (.staleGeneration, 409),
    (.resyncRequired, 409), (.internalError, 500)]

/-- `_STATUS_BY_CODE.get(code, 400)` -/
def ErrorCode.status (code : ErrorCode) : Nat :=
  (statusByCode.lookup code).getD 400

/-- `to_dict` -/
def FusionError.toDict (e : FusionError) : Json :=
  .object [(Text.of "code", .string (Text.of e.code.value)),
    (Text.of "message", .string (Text.of e.message)), (Text.of "details", .object [])]

/-- A response of the server. -/
structure Response where
  status : Nat
  body : Bytes

/-- The framework tells the client no more than this of an exception. -/
def internalServerError : Response :=
  ⟨500, (Text.of "Internal Server Error").map UInt8.ofNat⟩

/-- A `JSONResponse`. -/
def jsonResponse (status : Nat) (content : Json) : Response :=
  match content.encoded with
  | some body => ⟨status, body⟩
  | none => internalServerError

/-- The answer of a route whose success has this status. -/
def answer (status : Nat) : Except Fault Json → Response
  | .ok content => jsonResponse status content
  -- `_fusion_error_handler`
  | .error (.fusion e) => jsonResponse e.code.status e.toDict
  | .error (.other _) => internalServerError

/-! ## The client -/

/-- What a call of the client raises. -/
inductive CallError
  /-- `raise_for_status` -/
  | status (status : Nat)
  /-- `RuntimeCommandError` -/
  | command (statusCode : Nat) (code message : Json)
  /-- the body is no JSON -/
  | decode
  /-- the body is not an object -/
  | notObject

/-- `r.json()` -/
def Response.json (r : Response) : Except CallError Json :=
  match (Utf8.start.strict r.body).bind Json.loads with
  | some v => .ok v
  | none => .error .decode

/-- `r.raise_for_status()`, then `r.json()`. -/
def Response.checked (r : Response) : Except CallError Json :=
  if 200 ≤ r.status ∧ r.status < 300 then r.json else .error (.status r.status)

/-- `submit_command`, from the response on. -/
def Response.submitted (r : Response) : Except CallError Json :=
  if 400 ≤ r.status then
    match r.json with
    | .ok (.object body) => .error (.command r.status
        ((Json.lookup body (Text.of "code")).getD .null)
        ((Json.lookup body (Text.of "message")).getD (.string (Text.of "command error"))))
    | .ok _ => .error .notObject
    | .error e => .error e
  else r.json

/-! ## What arrives -/

/-- An answer is encoded, or it is an internal error. -/
theorem jsonResponse_cases (status : Nat) {content : Json} (h : Writable false content) :
    (content.isEncodable = true ∧ (jsonResponse status content).status = status ∧
        (jsonResponse status content).json = .ok content) ∨
      (content.isEncodable = false ∧ jsonResponse status content = internalServerError) := by
  rw [← Json.encoded_isSome h, jsonResponse]
  cases hbody : content.encoded with
  | some body =>
    refine .inl ⟨rfl, rfl, ?_⟩
    rw [Response.json, Json.read_encoded h hbody]
  | none => exact .inr ⟨rfl, rfl⟩

theorem FusionError.writable_toDict (e : FusionError) : Writable false e.toDict := by
  refine .object ?_ ?_
  · intro m hm
    simp only [List.mem_cons, List.not_mem_nil, or_false] at hm
    rcases hm with rfl | rfl | rfl <;> exact Json.plain_of false _
  · intro m hm
    simp only [List.mem_cons, List.not_mem_nil, or_false] at hm
    rcases hm with rfl | rfl | rfl
    · exact .string (Json.plain_of false _)
    · exact .string (Json.plain_of false _)
    · exact .object (by simp) (by simp)

/-- An object with these members. -/
def members (ms : List (String × Json)) : List (Text × Json) :=
  ms.map fun m => (Text.of m.1, m.2)

/-- The names are texts of the program. -/
theorem isEncodable_members (ms : List (String × Json)) :
    (Json.object (members ms)).isEncodable = ms.all fun m => m.2.isEncodable := by
  have hname : ∀ name, (Text.of name).all Json.isScalar = true := Json.isEncodable_text
  simp [Json.isEncodable, members, List.all_map, Function.comp_def, hname]

theorem FusionError.isEncodable_toDict (e : FusionError) : e.toDict.isEncodable = true := by
  have hdict : e.toDict = .object (members [("code", .string (Text.of e.code.value)),
      ("message", .string (Text.of e.message)), ("details", .object (members []))]) := rfl
  simp [hdict, isEncodable_members, Json.isEncodable_text]

/-- A rejection arrives as it is. -/
theorem FusionError.json_jsonResponse (e : FusionError) (status : Nat) :
    (jsonResponse status e.toDict).status = status ∧
      (jsonResponse status e.toDict).json = .ok e.toDict := by
  rcases jsonResponse_cases status e.writable_toDict with ⟨-, h⟩ | ⟨hno, -⟩
  · exact h
  · cases e.isEncodable_toDict.symm.trans hno

/-- Every code is answered as an error. -/
theorem ErrorCode.status_error (code : ErrorCode) : 400 ≤ code.status ∧ code.status ≤ 500 := by
  cases code <;> decide

/-- What a caller of `submit_command` is told of what the Runtime answered. -/
def told : Except Fault Json → Except CallError Json
  | .ok content => if content.isEncodable then .ok content else .error .decode
  | .error (.fusion e) => .error (.command e.code.status (.string (Text.of e.code.value))
      (.string (Text.of e.message)))
  | .error (.other _) => .error .decode

/-- What the other callers are told. -/
def toldStatus : Except Fault Json → Except CallError Json
  | .ok content => if content.isEncodable then .ok content else .error (.status 500)
  | .error (.fusion e) => .error (.status e.code.status)
  | .error (.other _) => .error (.status 500)

theorem checked_answer {status : Nat} (hstatus : 200 ≤ status ∧ status < 300)
    {result : Except Fault Json}
    (hwritable : ∀ content, result = .ok content → Writable false content) :
    (answer status result).checked = toldStatus result := by
  match result with
  | .ok content =>
    rcases jsonResponse_cases status (hwritable content rfl) with ⟨hsent, hst, hjson⟩ | ⟨hno, hr⟩
    · rw [answer, Response.checked, hst, if_pos hstatus, hjson, toldStatus, if_pos hsent]
    · rw [answer, hr, toldStatus, hno]
      rfl
  | .error (.fusion e) =>
    obtain ⟨hst, -⟩ := e.json_jsonResponse e.code.status
    have hno : ¬(200 ≤ e.code.status ∧ e.code.status < 300) := by
      have := e.code.status_error.1
      omega
    rw [answer, Response.checked, hst, if_neg hno]
    rfl
  | .error (.other message) => rfl

/-! ## Commands -/

/-- The status as it is written. -/
def CommandStatus.value : CommandStatus → String
  | queued => "QUEUED"
  | dispatching => "DISPATCHING"
  | dispatched => "DISPATCHED"
  | acknowledged => "ACKNOWLEDGED"
  | observing => "OBSERVING"
  | terminal => "TERMINAL"

/-- The level as it is written. -/
def CompletionRequirement.value : CompletionRequirement → String
  | dispatched => "dispatched"
  | acknowledged => "acknowledged"
  | observed => "observed"

/-- A text of the program, as JSON. -/
def text (s : String) : Json := .string (Text.of s)

/-- A text that may be `None`. -/
def optional : Option String → Json
  | none => .null
  | some s => text s

/-- `model_dump()` of a record; its error and its stamps are given as the
record holds them. -/
def CommandRecord.dump (r : CommandRecord Json) (error createdAt updatedAt : Json) : Json :=
  .object (members [("command_id", text r.commandId), ("request_id", text r.requestId),
    ("runtime_id", text r.runtimeId), ("runtime_boot_id", text r.runtimeBootId),
    ("target_id", text r.targetId), ("action", text r.action),
    ("params", .object (members r.params.items)),
    ("completion_requirement", text r.completionRequirement.value),
    ("status", text r.status.value), ("outcome", optional (r.outcome.map CommandOutcome.value)),
    ("achieved_completion", optional (r.achievedCompletion.map CompletionRequirement.value)),
    ("execution_generation", .number (.int r.executionGeneration)), ("run_id", optional r.runId),
    ("cue_id", optional r.cueId), ("source", text r.source), ("actor", optional r.actor),
    ("error", error), ("created_at", createdAt), ("updated_at", updatedAt)])

/-- A text as the language holds it. -/
def ofText (t : Text) : String :=
  String.ofList (t.map Char.ofNat)

/-- `str` of what a call raises; the texts of the libraries' own exceptions
are a parameter. -/
def CallError.str (others : CallError → String) : CallError → String
  | .command _ _ (.string message) => ofText message
  | e => others e

theorem writable_members {ms : List (String × Json)} (h : ∀ m ∈ ms, Writable false m.2) :
    Writable false (.object (members ms)) := by
  refine .object ?_ ?_
  · intro m hm
    obtain ⟨m', -, rfl⟩ := List.mem_map.mp hm
    exact Json.plain_of false m'.1
  · intro m hm
    obtain ⟨m', hm', rfl⟩ := List.mem_map.mp hm
    exact h m' hm'

theorem writable_text (s : String) : Writable false (text s) :=
  .string (Json.plain_of false s)

theorem writable_optional (o : Option String) : Writable false (optional o) := by
  cases o with
  | none => exact .null
  | some s => exact writable_text s

/-- A record of the wire: TERMINAL with an outcome, and of values of the
language. -/
structure OnWire (r : CommandRecord Json) (error createdAt updatedAt : Json) : Prop where
  outcome : r.status = .terminal → ∃ o, r.outcome = some o
  params : ∀ m ∈ r.params.items, Writable false m.2
  error : Writable false error
  createdAt : Writable false createdAt
  updatedAt : Writable false updatedAt

theorem OnWire.writable {r : CommandRecord Json} {error createdAt updatedAt : Json}
    (h : OnWire r error createdAt updatedAt) :
    Writable false (r.dump error createdAt updatedAt) := by
  refine writable_members ?_
  simp only [List.forall_mem_cons, List.not_mem_nil, false_implies, implies_true, and_true,
    writable_text, writable_optional, writable_members h.params, h.error, h.createdAt,
    h.updatedAt, true_and]
  exact .int _

theorem isEncodable_text (s : String) : (text s).isEncodable = true :=
  Json.isEncodable_text s

end Fusion
