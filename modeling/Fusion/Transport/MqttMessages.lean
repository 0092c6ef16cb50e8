import Fusion.Io.TextEventParsing
import Fusion.Lib.Dict
import Fusion.Lib.JsonReader

/-!
# MqttMessages — requests over the management channel
(transport/mqtt_adapter.py)

A stage or apply request is a JSON object in a message; what the call raises
goes into the response. What the message's own text raises does not: the
decoder's other errors and a payload that is no object leave
`_handle_message`, and end the connection.
-/

namespace Fusion

/-- The members of an object. -/
abbrev Members := List (Text × Json)

/-- `payload[name]`, or the text of its `KeyError`. -/
def Members.item (members : Members) (name : String) : Except Text Json :=
  match Json.lookup members (Text.of name) with
  | some v => .ok v
  | none => .error (Text.of s!"'{name}'")

/-- `payload.get(name)` -/
def Members.get (members : Members) (name : String) : Json :=
  (Json.lookup members (Text.of name)).getD .null

/-- `type(v).__name__` -/
def typeName : Json → String
  | .null => "NoneType"
  | .bool _ => "bool"
  | .number (.int _) => "int"
  | .number (.float _) => "float"
  | .string _ => "str"
  | .array _ => "list"
  | .object _ => "dict"

/-! ## The adapter -/

/-- A call of the configuration service. -/
inductive ConfigCall
  | stage (kind content : Json)
  | apply (revisionId expectedActiveRevision : Json)

/-- The two requests of the channel. -/
inductive ConfigRequest
  | stage
  | apply
deriving DecidableEq

/-- Where the request arrives. -/
def ConfigRequest.topic : ConfigRequest → String
  | stage => "config/stage/request"
  | apply => "config/apply/request"

/-- Where it is answered. -/
def ConfigRequest.response : ConfigRequest → String
  | stage => "config/stage/response"
  | apply => "config/apply/response"

/-- The request that makes the call. -/
def ConfigCall.request : ConfigCall → ConfigRequest
  | .stage .. => .stage
  | .apply .. => .apply

/-- The service, over its state: what a call returns, dumped, or the text of
what it raises. -/
structure ConfigApi (σ : Type) where
  stageConfig : σ → Json → Json → Except Text Members × σ
  applyConfig : σ → Json → Json → Except Text Members × σ
  getConfigStatus : σ → Json

/-- A message that the adapter publishes. -/
structure Publication where
  topic : String
  /-- the value that `json.dumps` writes -/
  payload : Json
  qos : Nat
  retain : Bool

/-- Where the adapter's topics begin. -/
structure MqttSettingAdapter where
  topicPrefix : String
  runtimeId : String

/-- What the messages act on. -/
structure Session (σ : Type) where
  config : σ
  calls : List ConfigCall
  published : List Publication

/-- What leaves `_handle_message`. -/
inductive MessageError
  | loads (e : Json.LoadsError)
  | attribute (message : String)

variable {σ : Type}

/-- The call is made. -/
def ConfigApi.perform (api : ConfigApi σ) (config : σ) : ConfigCall → Except Text Members × σ
  | .stage kind content => api.stageConfig config kind content
  | .apply revisionId expected => api.applyConfig config revisionId expected

/-- The call that a stage request asks for. -/
def stageCall (payload : Members) : Except Text ConfigCall := do
  let kind ← payload.item "kind"
  let content ← payload.item "content"
  return .stage kind content

/-- The call that an apply request asks for. -/
def applyCall (payload : Members) : Except Text ConfigCall := do
  let revisionId ← payload.item "revision_id"
  return .apply revisionId (payload.get "expected_active_revision")

/-- The response, with what the call returned or the text of the error. -/
def respond (requestId : Json) (answer : Except Text Members) : Json :=
  let response : Members := [(Text.of "request_id", requestId)]
  match answer with
  | .ok dumped => .object (dumped.foldl (fun r m => Dict.upsert m.1 m.2 r) response)
  | .error e => .object (Dict.upsert (Text.of "error") (.string e) response)

namespace Session

/-- A message goes out. -/
def publish (s : Session σ) (p : Publication) : Session σ :=
  { s with published := s.published ++ [p] }

/-- The `try` block: the call, if the payload names one. -/
def attempt (api : ConfigApi σ) (s : Session σ) (call : Except Text ConfigCall) :
    Except Text Members × Session σ :=
  match call with
  | .error e => (.error e, s)
  | .ok call =>
      let (answer, config) := api.perform s.config call
      (answer, { s with config, calls := s.calls ++ [call] })

end Session

namespace MqttSettingAdapter

/-- `topic` -/
def topic (a : MqttSettingAdapter) (suffix : String) : String :=
  s!"{a.topicPrefix}/{a.runtimeId}/{suffix}"

/-- The status, retained. -/
def status (a : MqttSettingAdapter) (api : ConfigApi σ) (config : σ) : Publication :=
  ⟨a.topic "config/status", api.getConfigStatus config, 1, true⟩

/-- `publish_status` -/
def publishStatus (a : MqttSettingAdapter) (api : ConfigApi σ) (s : Session σ) : Session σ :=
  s.publish (a.status api s.config)

/-- Both requests, up to the response. -/
def handleRequest (a : MqttSettingAdapter) (api : ConfigApi σ) (response : String)
    (call : Members → Except Text ConfigCall) (payload : Json) (s : Session σ) :
    Except MessageError Unit × Session σ :=
  match payload with
  | .object members =>
      let requestId := Members.get members "request_id"
      let (answer, s) := s.attempt api (call members)
      (.ok (), s.publish ⟨a.topic response, respond requestId answer, 1, false⟩)
  | v => (.error (.attribute s!"'{typeName v}' object has no attribute 'get'"), s)

/-- `handle_stage_request` -/
def handleStageRequest (a : MqttSettingAdapter) (api : ConfigApi σ) (payload : Json)
    (s : Session σ) : Except MessageError Unit × Session σ :=
  a.handleRequest api "config/stage/response" stageCall payload s

/-- `handle_apply_request`: the status follows the response. -/
def handleApplyRequest (a : MqttSettingAdapter) (api : ConfigApi σ) (payload : Json)
    (s : Session σ) : Except MessageError Unit × Session σ :=
  match a.handleRequest api "config/apply/response" applyCall payload s with
  | (.ok (), s) => (.ok (), a.publishStatus api s)
  | (.error e, s) => (.error e, s)

/-- `_handle_message`: what is no JSON is dropped. -/
def handleMessage (a : MqttSettingAdapter) (api : ConfigApi σ) (lim : Json.Limits)
    (topic : String) (rawPayload : Bytes) (s : Session σ) :
    Except MessageError Unit × Session σ :=
  match Utf8.start.strict rawPayload with
  | none => (.ok (), s)  -- UnicodeDecodeError
  | some text =>
      match Json.read lim text with
      | .error .decode => (.ok (), s)
      | .error e => (.error (.loads e), s)
      | .ok payload =>
          if topic = a.topic "config/stage/request" then a.handleStageRequest api payload s
          else if topic = a.topic "config/apply/request" then a.handleApplyRequest api payload s
          else (.ok (), s)

/-- A message that arrives. -/
structure Message where
  topic : String
  payload : Bytes
  retain : Bool

/-- The loop over `client.messages`. -/
def serve (a : MqttSettingAdapter) (api : ConfigApi σ) (lim : Json.Limits) :
    List Message → Session σ → Except MessageError Unit × Session σ
  | [], s => (.ok (), s)
  | m :: messages, s =>
      if m.retain then a.serve api lim messages s
      else
        match a.handleMessage api lim m.topic m.payload s with
        | (.ok (), s) => a.serve api lim messages s
        | (.error e, s) => (.error e, s)

/-! ## What a message may do -/

/-- What the handling of one request did is contained: it returned, and
ignored the message or published one response that is not retained, and the
configuration changed through one call at most. -/
structure Contained (a : MqttSettingAdapter) (api : ConfigApi σ) (r : ConfigRequest) (s : Session σ)
    (out : Except MessageError Unit × Session σ) : Prop where
  returns : out.1 = .ok ()
  answers : out.2 = s ∨ ∃ sent, out.2.published = s.published ++ sent ∧
    ∃ p, sent.filter (fun q => !q.retain) = [p] ∧ p.topic = a.topic r.response
  changes : (out.2.calls = s.calls ∧ out.2.config = s.config) ∨
    ∃ call, call.request = r ∧ out.2.calls = s.calls ++ [call] ∧
      out.2.config = (api.perform s.config call).2

/-- The payload is not JSON text in UTF-8, or it is a JSON object. -/
def readable (lim : Json.Limits) (rawPayload : Bytes) : Bool :=
  match Utf8.start.strict rawPayload with
  | none => true
  | some text =>
      match Json.read lim text with
      | .ok (.object _) => true
      | .ok _ => false
      | .error e => e = .decode

variable {a : MqttSettingAdapter} {api : ConfigApi σ} {r : ConfigRequest} {lim : Json.Limits}

theorem topic_inj {x y : String} : a.topic x = a.topic y ↔ x = y := by
  simp [topic, toString]

/-- A message on a request's topic is handled as that request. -/
def handler (a : MqttSettingAdapter) (api : ConfigApi σ) :
    ConfigRequest → Json → Session σ → Except MessageError Unit × Session σ
  | .stage => a.handleStageRequest api
  | .apply => a.handleApplyRequest api

theorem attempt_published (s : Session σ) (call : Except Text ConfigCall) :
    (s.attempt api call).2.published = s.published := by
  cases call <;> rfl

/-- The configuration changes through the call alone. -/
theorem attempt_changes (s : Session σ) {call : Except Text ConfigCall}
    (hcall : ∀ c, call = .ok c → c.request = r) :
    ((s.attempt api call).2.calls = s.calls ∧ (s.attempt api call).2.config = s.config) ∨
      ∃ c, c.request = r ∧ (s.attempt api call).2.calls = s.calls ++ [c] ∧
        (s.attempt api call).2.config = (api.perform s.config c).2 := by
  cases call with
  | error e => exact .inl ⟨rfl, rfl⟩
  | ok c => exact .inr ⟨c, hcall c rfl, rfl, rfl⟩

theorem bind_ok {ε α β : Type} {x : Except ε α} {f : α → Except ε β} {b : β}
    (h : x >>= f = .ok b) : ∃ a, f a = .ok b := by
  cases x with
  | error e => cases h
  | ok a => exact ⟨a, h⟩

theorem stageCall_request (payload : Members) {c : ConfigCall} (h : stageCall payload = .ok c) :
    c.request = .stage := by
  obtain ⟨kind, h⟩ := bind_ok h
  obtain ⟨content, h⟩ := bind_ok h
  cases h
  rfl

theorem applyCall_request (payload : Members) {c : ConfigCall} (h : applyCall payload = .ok c) :
    c.request = .apply := by
  obtain ⟨revisionId, h⟩ := bind_ok h
  cases h
  rfl

theorem handleRequest_object (a : MqttSettingAdapter) (api : ConfigApi σ) (response : String)
    (call : Members → Except Text ConfigCall) (members : Members) (s : Session σ) :
    ∃ p, p.topic = a.topic response ∧ p.retain = false ∧
      a.handleRequest api response call (.object members) s =
        (.ok (), (s.attempt api (call members)).2.publish p) :=
  ⟨_, rfl, rfl, rfl⟩

/-- An object is answered, whatever it holds and whatever the call raises. -/
theorem handler_object (members : Members) (s : Session σ) :
    Contained a api r s (a.handler api r (.object members) s) := by
  cases r with
  | stage =>
    obtain ⟨p, htopic, hretain, hout⟩ :=
      a.handleRequest_object api "config/stage/response" stageCall members s
    simp only [handler, handleStageRequest, hout]
    refine ⟨rfl, .inr ⟨[p], ?_, p, by simp [hretain], htopic⟩, ?_⟩
    · rw [Session.publish, attempt_published]
    · exact attempt_changes s fun c hc => stageCall_request members hc
  | apply =>
    obtain ⟨p, htopic, hretain, hout⟩ :=
      a.handleRequest_object api "config/apply/response" applyCall members s
    simp only [handler, handleApplyRequest, hout]
    -- the status that follows is retained
    let t := (s.attempt api (applyCall members)).2
    have hsent : (t.publish p).published ++ [a.status api t.config] =
        s.published ++ [p, a.status api t.config] := by
      simp [t, Session.publish, attempt_published]
    refine ⟨rfl, .inr ⟨[p, a.status api t.config], hsent, p, by simp [hretain, status], htopic⟩, ?_⟩
    exact attempt_changes s fun c hc => applyCall_request members hc

theorem handler_other {payload : Json} (hother : ∀ members, payload ≠ .object members)
    (s : Session σ) : ∃ e, a.handler api r payload s = (.error e, s) := by
  have hrequest : ∀ response call,
      ∃ e, a.handleRequest api response call payload s = (.error e, s) := by
    intro response call
    cases payload with
    | object members => exact absurd rfl (hother members)
    | _ => exact ⟨_, rfl⟩
  cases r with
  | stage => exact hrequest _ _
  | apply =>
    obtain ⟨e, he⟩ := hrequest "config/apply/response" applyCall
    exact ⟨e, by simp only [handler, handleApplyRequest, he]⟩

/-! ## Every payload -/

/-- A message on a request's topic is ignored, handled as that request, or
raises before anything is done. -/
theorem handleMessage_cases (a : MqttSettingAdapter) (api : ConfigApi σ) (lim : Json.Limits)
    (r : ConfigRequest) (rawPayload : Bytes) (s : Session σ) :
    (readable lim rawPayload = true ∧
      (a.handleMessage api lim (a.topic r.topic) rawPayload s = (.ok (), s) ∨
        ∃ members, a.handleMessage api lim (a.topic r.topic) rawPayload s =
          a.handler api r (.object members) s)) ∨
      readable lim rawPayload = false ∧
        ∃ e, a.handleMessage api lim (a.topic r.topic) rawPayload s = (.error e, s) := by
  unfold handleMessage readable
  cases Utf8.start.strict rawPayload with
  | none => exact .inl ⟨rfl, .inl rfl⟩
  | some text =>
    dsimp only
    cases Json.read lim text with
    | error e =>
      cases e with
      | decode => exact .inl ⟨rfl, .inl rfl⟩
      | digits | recursion => exact .inr ⟨rfl, _, rfl⟩
    | ok payload =>
      have hhandler : (if a.topic r.topic = a.topic "config/stage/request" then
            a.handleStageRequest api payload s
          else if a.topic r.topic = a.topic "config/apply/request" then
            a.handleApplyRequest api payload s
          else (.ok (), s)) = a.handler api r payload s := by
        simp only [topic_inj]
        cases r <;> rfl
      dsimp only
      rw [hhandler]
      cases payload with
      | object members => exact .inl ⟨rfl, .inr ⟨members, rfl⟩⟩
      | _ => exact .inr ⟨rfl, handler_other (by simp) s⟩

theorem contained_ignored (s : Session σ) : Contained a api r s (.ok (), s) :=
  ⟨rfl, .inl rfl, .inl ⟨rfl, rfl⟩⟩

theorem contained_of_readable (a : MqttSettingAdapter) (api : ConfigApi σ) (r : ConfigRequest)
    {rawPayload : Bytes} (hread : readable lim rawPayload = true) (s : Session σ) :
    Contained a api r s (a.handleMessage api lim (a.topic r.topic) rawPayload s) := by
  obtain ⟨-, hout⟩ | ⟨hnot, -⟩ := handleMessage_cases a api lim r rawPayload s
  · obtain hout | ⟨members, hout⟩ := hout
    · rw [hout]
      exact contained_ignored s
    · rw [hout]
      exact handler_object members s
  · cases hread.symm.trans hnot

theorem raises_of_unreadable (a : MqttSettingAdapter) (api : ConfigApi σ) (r : ConfigRequest)
    {rawPayload : Bytes} (hread : readable lim rawPayload = false) (s : Session σ) :
    ∃ e, a.handleMessage api lim (a.topic r.topic) rawPayload s = (.error e, s) := by
  obtain ⟨hnot, -⟩ | ⟨-, hout⟩ := handleMessage_cases a api lim r rawPayload s
  · cases hread.symm.trans hnot
  · exact hout

/-- **A request is contained** exactly when its payload is not JSON text in
UTF-8, or is a JSON object. -/
theorem request_contained_iff (a : MqttSettingAdapter) (api : ConfigApi σ) (lim : Json.Limits)
    (r : ConfigRequest) (rawPayload : Bytes) (s : Session σ) :
    Contained a api r s (a.handleMessage api lim (a.topic r.topic) rawPayload s) ↔
      readable lim rawPayload = true := by
  cases hread : readable lim rawPayload with
  | true => exact iff_of_true (contained_of_readable a api r hread s) rfl
  | false =>
    refine iff_of_false ?_ Bool.false_ne_true
    intro hcontained
    obtain ⟨e, hout⟩ := raises_of_unreadable a api r hread s
    have hreturns := hcontained.returns
    rw [hout] at hreturns
    cases hreturns

/-- A service that knows no revision. -/
def bareApi : ConfigApi Unit where
  stageConfig := fun _ _ _ => (.error (Text.of "no"), ())
  applyConfig := fun _ _ _ => (.error (Text.of "no"), ())
  getConfigStatus := fun _ => .object []

/-- The interpreter's digits, and some depth. -/
def cpython : Json.Limits := ⟨4300, 1000⟩

/-- The payload `[]` of a stage request leaves `_handle_message` as an
exception. -/
theorem request_contained_list : ¬ ∀ (σ : Type) (a : MqttSettingAdapter) (api : ConfigApi σ)
    (lim : Json.Limits) (r : ConfigRequest) (rawPayload : Bytes) (s : Session σ),
    Contained a api r s (a.handleMessage api lim (a.topic r.topic) rawPayload s) := by
  intro hall
  have hcontained := hall Unit ⟨"fusion-test", "motor-test"⟩ bareApi cpython .stage [0x5B, 0x5D]
    ⟨(), [], []⟩
  have hunreadable : readable cpython [0x5B, 0x5D] = false := by decide
  obtain ⟨e, hout⟩ := raises_of_unreadable ⟨"fusion-test", "motor-test"⟩ bareApi .stage hunreadable
    ⟨(), [], []⟩
  have hreturns := hcontained.returns
  rw [hout] at hreturns
  cases hreturns

/-- **The connection outlives its messages** exactly when every message that
is not retained has such a payload. -/
theorem serve_ok_iff (a : MqttSettingAdapter) (api : ConfigApi σ) (lim : Json.Limits)
    (messages : List Message) (s : Session σ)
    (hrequests : ∀ m ∈ messages, ∃ r : ConfigRequest, m.topic = a.topic r.topic) :
    (a.serve api lim messages s).1 = .ok () ↔
      ∀ m ∈ messages, m.retain = true ∨ readable lim m.payload = true := by
  induction messages generalizing s with
  | nil => simp [serve]
  | cons m messages ih =>
    have ih := fun t => ih t fun n hn => hrequests n (List.mem_cons_of_mem m hn)
    obtain ⟨r, htopic⟩ := hrequests m List.mem_cons_self
    cases hretain : m.retain with
    | true => simp [serve, hretain, ih]
    | false =>
      cases hread : readable lim m.payload with
      | true =>
        have hreturns := (contained_of_readable a api r hread s).returns
        generalize hout : a.handleMessage api lim (a.topic r.topic) m.payload s = out at hreturns
        obtain ⟨result, t⟩ := out
        cases hreturns
        simp [serve, hretain, htopic, hout, hread, ih]
      | false =>
        obtain ⟨e, hout⟩ := raises_of_unreadable a api r hread s
        simp [serve, hretain, htopic, hout, hread]

end MqttSettingAdapter

end Fusion
