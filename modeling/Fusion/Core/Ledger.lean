import Fusion.Contracts.Command

/-!
# Ledger — request_id dedup and conflict detection (core/ledger.py)

Same `request_id` and same content: the existing record. Same `request_id`
and other content: `REQUEST_ID_CONFLICT`. A record is a mutable object shared
by everyone who holds its command id, so the ledger is also the store every
later change of a record goes through. Command ids are drawn outside the
model and taken to be fresh.
-/

namespace Fusion

variable {V : Type}

/-- What the ledger knows of a request id. -/
structure Entry (V : Type) where
  fingerprint : Fingerprint V
  commandId : CommandId

/-- The records, by request and by command. -/
structure CommandLedger (V : Type) where
  byRequestId : Dict String (Entry V)
  byCommandId : Dict CommandId (CommandRecord V)

namespace CommandLedger

/-- A ledger without records. -/
def new : CommandLedger V := ⟨.empty, .empty⟩

/-- The record `begin` makes of a request it has not seen. -/
def newRecord (req : CommandSubmitRequest V) (runtimeId runtimeBootId : String)
    (executionGeneration : Nat) (freshId : CommandId) : CommandRecord V where
  commandId := freshId
  requestId := req.requestId
  runtimeId := runtimeId
  runtimeBootId := runtimeBootId
  targetId := req.targetId
  action := req.action
  params := req.params
  completionRequirement := req.completionRequirement
  status := .queued
  outcome := none
  achievedCompletion := none
  executionGeneration := executionGeneration
  runId := req.runId
  cueId := req.cueId
  source := req.source
  actor := req.actor
  error := none

/-- `self._by_command_id[command_id]` is the record object itself; this is
what an assignment to its fields does to the ledger. -/
def store (l : CommandLedger V) (r : CommandRecord V) : CommandLedger V :=
  { l with byCommandId := l.byCommandId.set r.commandId r }

/-- The record of a command. -/
def get (l : CommandLedger V) (c : CommandId) : Option (CommandRecord V) :=
  l.byCommandId.get c

/-- How `begin` answers. -/
inductive Begun (V : Type)
  | conflict (e : FusionError)
  /-- a request it has seen, with the record's command id -/
  | existing (c : CommandId)
  | new (r : CommandRecord V)

variable [BEq V]

/-- `begin`: a request that was seen before gets the record it has. -/
def begin (l : CommandLedger V) (req : CommandSubmitRequest V)
    (runtimeId runtimeBootId : String) (executionGeneration : Nat) (freshId : CommandId) :
    Begun V × CommandLedger V :=
  let fp := fingerprint req
  match l.byRequestId.get req.requestId with
  | some existing =>
      if !existing.fingerprint.eq fp then
        (.conflict ⟨.requestIdConflict,
          s!"request_id '{req.requestId}' already used with different content"⟩, l)
      else (.existing existing.commandId, l)
  | none =>
      let record := newRecord req runtimeId runtimeBootId executionGeneration freshId
      (.new record,
        { byRequestId := l.byRequestId.set req.requestId ⟨fp, freshId⟩
          byCommandId := l.byCommandId.set freshId record })

omit [BEq V] in
theorem get_store (l : CommandLedger V) (r : CommandRecord V) (c : CommandId) :
    (l.store r).get c = if r.commandId = c then some r else l.get c :=
  Dict.get_set ..

omit [BEq V] in
@[simp] theorem store_byRequestId (l : CommandLedger V) (r : CommandRecord V) :
    (l.store r).byRequestId = l.byRequestId := rfl

/-! ## The two dictionaries agree -/

/-- **The ledger invariant**: a record lies under its own id, an entry names
a record made from a request with that id and that fingerprint, and each
record has its entry. -/
structure Inv (l : CommandLedger V) : Prop where
  ids : ∀ c r, l.get c = some r → r.commandId = c
  entries : ∀ q e, l.byRequestId.get q = some e →
    ∃ r, l.get e.commandId = some r ∧ r.requestId = q ∧ r.fingerprint = e.fingerprint
  recorded : ∀ c r, l.get c = some r →
    ∃ e, l.byRequestId.get r.requestId = some e ∧ e.commandId = c

omit [BEq V] in
theorem inv_new : (new : CommandLedger V).Inv :=
  ⟨by simp [new, get], by simp [new], by simp [new, get]⟩

omit [BEq V] in
/-- Assigning to a record's other fields keeps the two dictionaries in
agreement. -/
theorem Inv.store {l : CommandLedger V} (h : l.Inv) {old r : CommandRecord V}
    (hold : l.get r.commandId = some old) (hq : r.requestId = old.requestId)
    (hf : r.fingerprint = old.fingerprint) : (l.store r).Inv where
  ids := by
    intro c r' hr'
    rw [get_store] at hr'
    split at hr'
    · rename_i hc
      cases hr'
      exact hc
    · exact h.ids c r' hr'
  entries := by
    intro q e he
    obtain ⟨r', hr', hq', hf'⟩ := h.entries q e he
    rw [get_store]
    by_cases hc : r.commandId = e.commandId
    · obtain rfl : old = r' := Option.some.inj (hold.symm.trans (hc ▸ hr'))
      exact ⟨r, by rw [if_pos hc], hq.trans hq', hf.trans hf'⟩
    · exact ⟨r', by rw [if_neg hc, hr'], hq', hf'⟩
  recorded := by
    intro c r' hr'
    rw [get_store] at hr'
    split at hr'
    · rename_i hc
      cases hr'
      obtain ⟨e, he, hec⟩ := h.recorded _ _ hold
      exact ⟨e, by rw [hq]; exact he, hec.trans hc⟩
    · exact h.recorded c r' hr'

/-- The three answers of `begin`, with the ledger each leaves. -/
theorem begin_cases (l : CommandLedger V) (req : CommandSubmitRequest V)
    (runtimeId runtimeBootId : String) (generation : Nat) (freshId : CommandId) :
    (∃ e, l.byRequestId.get req.requestId = some e ∧ e.fingerprint.eq (fingerprint req) = false ∧
      l.begin req runtimeId runtimeBootId generation freshId =
        (.conflict ⟨.requestIdConflict,
          s!"request_id '{req.requestId}' already used with different content"⟩, l)) ∨
    (∃ e, l.byRequestId.get req.requestId = some e ∧ e.fingerprint.eq (fingerprint req) = true ∧
      l.begin req runtimeId runtimeBootId generation freshId = (.existing e.commandId, l)) ∨
    (l.byRequestId.get req.requestId = none ∧
      l.begin req runtimeId runtimeBootId generation freshId =
        (.new (newRecord req runtimeId runtimeBootId generation freshId),
          { byRequestId := l.byRequestId.set req.requestId ⟨fingerprint req, freshId⟩
            byCommandId := l.byCommandId.set freshId
              (newRecord req runtimeId runtimeBootId generation freshId) })) := by
  unfold CommandLedger.begin
  cases h : l.byRequestId.get req.requestId with
  | none => exact .inr (.inr ⟨rfl, rfl⟩)
  | some e =>
    cases hfp : e.fingerprint.eq (fingerprint req) with
    | false => exact .inl ⟨e, rfl, hfp, by simp [hfp]⟩
    | true => exact .inr (.inl ⟨e, rfl, hfp, by simp [hfp]⟩)

omit [BEq V] in
/-- A new entry under an unused request id and a fresh command id. -/
theorem Inv.insert {l : CommandLedger V} (h : l.Inv) (req : CommandSubmitRequest V)
    {r : CommandRecord V} (hq : r.requestId = req.requestId)
    (hf : r.fingerprint = fingerprint req)
    (hreq : l.byRequestId.get req.requestId = none) (hfresh : l.get r.commandId = none) :
    Inv { byRequestId := l.byRequestId.set req.requestId ⟨fingerprint req, r.commandId⟩
          byCommandId := l.byCommandId.set r.commandId r } where
  ids := by
    intro c r' hr'
    rw [get, Dict.get_set] at hr'
    split at hr'
    · rename_i hc
      cases hr'
      exact hc
    · exact h.ids c r' hr'
  entries := by
    intro q e he
    rw [Dict.get_set] at he
    split at he
    · rename_i hreq'
      cases he
      exact ⟨r, by simp [get], hq.trans hreq', hf⟩
    · obtain ⟨r', hr', hq', hf'⟩ := h.entries q e he
      have hne : r.commandId ≠ e.commandId := by
        intro heq
        rw [← heq, hfresh] at hr'
        cases hr'
      exact ⟨r', by rw [get, Dict.get_set_ne _ _ hne]; exact hr', hq', hf'⟩
  recorded := by
    intro c r' hr'
    rw [get, Dict.get_set] at hr'
    split at hr'
    · rename_i hc
      cases hr'
      exact ⟨⟨fingerprint req, r.commandId⟩, by simp [hq], hc⟩
    · obtain ⟨e, he, hec⟩ := h.recorded c r' hr'
      have hne : req.requestId ≠ r'.requestId := by
        intro heq
        rw [← heq, hreq] at he
        cases he
      exact ⟨e, by rw [Dict.get_set_ne _ _ hne]; exact he, hec⟩

end CommandLedger

end Fusion
