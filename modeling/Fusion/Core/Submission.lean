import Fusion.Core.RuntimeSteps

/-!
# Submission — a request is executed at most once

The ledger's entries are never changed, and both histories follow them: a
request reaches `adapter.execute` only when its entry is made, and every
answer names the command of its entry.
-/

namespace Fusion.DeviceRuntime

open Transition Relation

variable {V : Type} [BEq V] {s t : DeviceRuntime V}

/-- The command id the ledger has for a request. -/
def commandOf (s : DeviceRuntime V) (requestId : String) : Option CommandId :=
  (s.ledger.byRequestId.get requestId).map (·.commandId)

/-- Ledger entries are for good. -/
theorem Effect.commandOf (h : Effect s t) {q : String} {c : CommandId}
    (hq : s.commandOf q = some c) : t.commandOf q = some c := by
  cases h with
  | frame ledger _ _ _ => simpa only [DeviceRuntime.commandOf, ledger] using hq
  | event _ _ => exact hq
  | change _ _ _ _ _ => exact hq
  | begun req r _ _ _ hreq _ =>
    have hne : req.requestId ≠ q := by
      rintro rfl
      simp [DeviceRuntime.commandOf, hreq] at hq
    simpa only [DeviceRuntime.commandOf, admitted, Dict.get_set_ne _ _ hne] using hq

/-- **The submission invariant**: no request was executed twice, and every
execution and every answer is that of the request's entry. -/
structure SubmitInv (s : DeviceRuntime V) : Prop where
  once : (s.executed.map Prod.fst).Nodup
  executed : ∀ q c, (q, c) ∈ s.executed → s.commandOf q = some c
  returned : ∀ q c, (q, c) ∈ s.returned → s.commandOf q = some c

/-! ## The histories of one step -/

/-- Nothing is executed, and what is answered is the ledger's entry. -/
structure Answers (s t : DeviceRuntime V) : Prop where
  effects : Effects s t
  executed : t.executed = s.executed
  returned : ∀ q c, (q, c) ∈ t.returned → (q, c) ∈ s.returned ∨ t.commandOf q = some c

theorem Answers.inv (h : Answers s t) (hi : SubmitInv s) : SubmitInv t := by
  have hkeep : ∀ {q c}, s.commandOf q = some c → t.commandOf q = some c := fun hq =>
    h.effects.lift (P := fun u => u.commandOf _ = some _) (fun _ _ he => he.commandOf) hq
  refine ⟨h.executed ▸ hi.once, fun q c hqc => ?_, fun q c hqc => ?_⟩
  · exact hkeep (hi.executed q c (h.executed ▸ hqc))
  · rcases h.returned q c hqc with hqc | hqc
    · exact hkeep (hi.returned q c hqc)
    · exact hqc

theorem submitCommand_inv (hi : SubmitInv s) (howner : OwnerInv s)
    (req : CommandSubmitRequest V) {freshId : CommandId} (hfresh : s.getCommand freshId = none)
    (manifest : Except Fault TargetManifest) :
    SubmitInv (s.submitCommand req freshId manifest).2 := by
  have heffects := (submitCommand_moves (l := .subscribeEvents) howner req hfresh manifest).effects
  have hout := submitCommand_cases s req freshId manifest
  generalize s.submitCommand req freshId manifest = answer at hout heffects
  cases hout with
  | refused e sessions => exact Answers.inv ⟨heffects, rfl, fun _ _ h => .inl h⟩ hi
  | faulted message r made hreq => exact Answers.inv ⟨heffects, rfl, fun _ _ h => .inl h⟩ hi
  | rejected e r made hreq => exact Answers.inv ⟨heffects, rfl, fun _ _ h => .inl h⟩ hi
  | existing entry hentry hsame =>
    refine Answers.inv ⟨heffects, rfl, fun q c hqc => ?_⟩ hi
    rcases List.mem_append.mp hqc with hqc | hqc
    · exact .inl hqc
    · obtain ⟨rfl, rfl⟩ := Prod.mk.inj (List.mem_singleton.mp hqc)
      exact .inr (by simp [commandOf, reply, hentry])
  | accepted runner generation r made hrunner hgeneration hreq =>
    have hkeep : ∀ {q c}, s.commandOf q = some c → _ := fun {q c} hq =>
      heffects.lift (P := fun u => u.commandOf q = some c) (fun _ _ he => he.commandOf) hq
    have hnew : ∀ {q c}, s.commandOf q = some c → q ≠ r.requestId := by
      rintro q c hq rfl
      rw [made.requestId, commandOf, hreq] at hq
      cases hq
    refine ⟨?_, fun q c hqc => ?_, fun q c hqc => hkeep (hi.returned q c hqc)⟩
    · simp only [List.map_append, List.map_cons, List.map_nil]
      refine List.nodup_append.mpr ⟨hi.once, by simp, ?_⟩
      rintro q hq q' hq' rfl
      obtain ⟨⟨q, c⟩, hqc, rfl⟩ := List.mem_map.mp hq
      exact hnew (hi.executed q c hqc) (List.mem_singleton.mp hq')
    · rcases List.mem_append.mp hqc with hqc | hqc
      · exact hkeep (hi.executed q c hqc)
      · obtain ⟨rfl, rfl⟩ := Prod.mk.inj (List.mem_singleton.mp hqc)
        rw [made.requestId]
        exact congrArg (Option.map _) (Dict.get_set_self ..)

omit [BEq V] in
theorem executeReturned_histories (s : DeviceRuntime V) (task : CommandTask)
    (r : CommandRecord V) :
    (s.executeReturned task r).executed = s.executed ∧
      (s.executeReturned task r).returned = s.returned ++ [(r.requestId, r.commandId)] := by
  simp only [executeReturned]
  split
  · exact ⟨rfl, rfl⟩
  · split <;> exact ⟨rfl, rfl⟩

omit [BEq V] in
theorem observe_histories {task : CommandTask} {r : CommandRecord V} {generation : Nat}
    {complete : Except String Bool} (h : s.observe task r generation complete = some t) :
    t.executed = s.executed ∧ t.returned = s.returned := by
  obtain ⟨_, deadline, rfl, _⟩ := observe_eq h
  unfold observeLoop
  split
  · split
    · exact ⟨rfl, rfl⟩
    · split <;> exact ⟨rfl, rfl⟩
  · exact ⟨rfl, rfl⟩

omit [BEq V] in
theorem cancel_histories (s : DeviceRuntime V) (task : CommandTask) (r : CommandRecord V) :
    (s.cancel task r).executed = s.executed ∧ (s.cancel task r).returned = s.returned := by
  unfold cancel
  split <;> exact ⟨rfl, rfl⟩

/-- The coroutine of a command answers with its own id. -/
theorem reply_inv (hi : SubmitInv s) (howner : OwnerInv s) (heffects : Effects s t)
    {c : CommandId} {task : CommandTask} {r : CommandRecord V} {runner : TargetRunner}
    (ho : s.owner c = some (task, r, runner)) (hexec : t.executed = s.executed)
    (hret : t.returned = s.returned ++ [(r.requestId, r.commandId)]) : SubmitInv t := by
  obtain ⟨_, _, hr, _⟩ := howner.owner ho
  obtain ⟨e, he, hec⟩ := howner.ledger.recorded _ _ hr
  have hq : s.commandOf r.requestId = some r.commandId := by simp [commandOf, he, hec]
  refine Answers.inv ⟨heffects, hexec, fun q c' hqc => ?_⟩ hi
  rcases List.mem_append.mp (hret ▸ hqc) with hqc | hqc
  · exact .inl hqc
  · obtain ⟨rfl, rfl⟩ := Prod.mk.inj (List.mem_singleton.mp hqc)
    exact .inr (heffects.lift (P := fun u => u.commandOf _ = some _)
      (fun _ _ he => he.commandOf) hq)

theorem SubmitInv.step (hi : SubmitInv s) (howner : OwnerInv s) {l : RuntimeLabel V}
    (hs : s.step l = some t) : SubmitInv t := by
  have heffects := (step_moves howner hs).effects
  have hquiet : t.executed = s.executed ∧ t.returned = s.returned → SubmitInv t := fun h =>
    Answers.inv ⟨heffects, h.1, fun _ _ hqc => .inl (h.2 ▸ hqc)⟩ hi
  cases l with
  | submitCommand req freshId manifest =>
    simp only [DeviceRuntime.step] at hs
    split at hs <;> cases hs
    rename_i hfresh
    exact submitCommand_inv hi howner req (by simpa using hfresh) manifest
  | executeReturned c =>
    simp only [DeviceRuntime.step] at hs
    split at hs
    · rename_i task r runner ho
      split at hs <;> cases hs
      exact reply_inv hi howner heffects ho (executeReturned_histories ..).1
        (executeReturned_histories ..).2
    · cases hs
  | executeRaised c message =>
    simp only [DeviceRuntime.step] at hs
    split at hs
    · rename_i task r runner ho
      split at hs <;> cases hs
      exact reply_inv hi howner heffects ho rfl rfl
    · cases hs
  | observe c complete =>
    simp only [DeviceRuntime.step] at hs
    split at hs
    · exact hquiet (observe_histories hs)
    · cases hs
  | cancel c =>
    simp only [DeviceRuntime.step] at hs
    split at hs
    · cases hs
      exact hquiet (cancel_histories ..)
    · cases hs
  | _ =>
    have hspares := step_sparesCommands rfl hs
    exact hquiet ⟨hspares.executed, hspares.returned⟩

/-! ## Conflicts -/

/-- **A conflicting request changes nothing**: it passed the target and the
session check, its request id is known with other content. -/
theorem submitCommand_conflict (h : OwnerInv s) {c : CommandId} {r : CommandRecord V}
    {req : CommandSubmitRequest V} {runner : TargetRunner} {session : ControlSession}
    (hr : s.getCommand c = some r) (hq : r.requestId = req.requestId)
    (hcontent : r.sameContent req = false)
    (htarget : s.runners.get req.targetId = some runner)
    (hsession : (s.sessions.validate s.now req.controlSessionId).1 = .ok session)
    (freshId : CommandId) (manifest : Except Fault TargetManifest) :
    s.submitCommand req freshId manifest =
      (.error (.fusion ⟨.requestIdConflict,
        s!"request_id '{req.requestId}' already used with different content"⟩), s) := by
  obtain ⟨e, he, hec⟩ := h.ledger.recorded c r hr
  obtain ⟨r', hr', _, hf⟩ := h.ledger.entries _ e he
  obtain rfl : r' = r := Option.some.inj ((hec ▸ hr').symm.trans hr)
  have hfp : e.fingerprint.eq (fingerprint req) = false := by
    rw [← hf, fingerprint_eq, hcontent]
  generalize hval : s.sessions.validate s.now req.controlSessionId = answer at hsession
  obtain ⟨_, sessions⟩ := answer
  cases hsession
  obtain ⟨rfl, -, -⟩ := ControlSessionManager.validate_ok hval
  rw [hq] at he
  simp [submitCommand, htarget, hval, CommandLedger.begin, he, hfp]

/-! ## Along runs -/

theorem submitInv_reachable {runtimeId bootId : String} {now : ℚ} {targets : List String}
    {customGuard : Bool}
    (h : Reachable DeviceRuntime.step (init runtimeId bootId now targets customGuard) s) :
    OwnerInv s ∧ SubmitInv s := by
  refine h.invariant (I := fun u => OwnerInv u ∧ SubmitInv u)
    ⟨.init runtimeId bootId now targets customGuard, ⟨by simp [init], ?_, ?_⟩⟩ ?_
  · simp [init]
  · simp [init]
  · exact fun _ _ _ hu hs => ⟨hu.1.step hs, hu.2.step hu.1 hs⟩

/-- **Exactly-once submission**, in every reachable state: no request was
executed twice, all answers to a request name one command, and a conflicting
request is refused without a trace. -/
theorem exactly_once_submission (runtimeId bootId : String) (now : ℚ) (targets : List String)
    (customGuard : Bool)
    (h : Reachable DeviceRuntime.step (init runtimeId bootId now targets customGuard) s) :
    (s.executed.map Prod.fst).Nodup ∧
    (∀ q c c', (q, c) ∈ s.returned → (q, c') ∈ s.returned → c = c') ∧
    (∀ c r req runner session, s.getCommand c = some r → r.requestId = req.requestId →
      r.sameContent req = false → s.runners.get req.targetId = some runner →
      (s.sessions.validate s.now req.controlSessionId).1 = .ok session →
      ∀ freshId manifest, s.submitCommand req freshId manifest =
        (.error (.fusion ⟨.requestIdConflict,
          s!"request_id '{req.requestId}' already used with different content"⟩), s)) := by
  obtain ⟨howner, hsub⟩ := submitInv_reachable h
  refine ⟨hsub.once, fun q c c' hc hc' => ?_, ?_⟩
  · exact Option.some.inj ((hsub.returned q c hc).symm.trans (hsub.returned q c' hc'))
  · intro c r req runner session hr hq hcontent htarget hsession freshId manifest
    exact submitCommand_conflict howner hr hq hcontent htarget hsession freshId manifest

/-- A second `move` under the first one's request id, while that is still
inside `adapter.execute`. -/
theorem exactly_once_submission_conflict :
    ∃ s, Reachable DeviceRuntime.step motorRuntime s ∧ (s.executed.map Prod.fst).Nodup ∧
      (s.submitCommand (moveRequest "req-1" "cs1" 999 .observed) "c2"
        (.ok (fakeMotor "motor01"))).2 = s := by
  obtain ⟨s, hs, htest⟩ := exec_test DeviceRuntime.step motorRuntime
    ([.acquireControlSession "op" .manual none "cs1",
      .submitCommand (moveRequest "req-1" "cs1" 10 .observed) "c1" (.ok (fakeMotor "motor01"))])
    (fun s => (s.getCommand "c1").any (fun r => r.requestId = "req-1" &&
        !r.sameContent (moveRequest "req-1" "cs1" 999 .observed)) &&
      (s.runners.get "motor01").isSome &&
      (s.sessions.validate s.now (some "cs1")).1.toOption.isSome) (by decide +kernel)
  simp only [Bool.and_eq_true, Option.any_eq_true, decide_eq_true_eq, Bool.not_eq_true'] at htest
  obtain ⟨⟨⟨r, hr, hq, hcontent⟩, htarget⟩, hsession⟩ := htest
  obtain ⟨runner, hrunner⟩ := Option.isSome_iff_exists.mp htarget
  obtain ⟨session, hval⟩ : ∃ session, (s.sessions.validate s.now (some "cs1")).1 = .ok session := by
    cases hv : (s.sessions.validate s.now (some "cs1")).1 with
    | error e => simp [hv, Except.toOption] at hsession
    | ok session => exact ⟨session, rfl⟩
  obtain ⟨honce, -, hconflict⟩ :=
    exactly_once_submission "motor-test" "boot1" 0 ["motor01"] false hs
  exact ⟨s, hs, honce, congrArg Prod.snd
    (hconflict "c1" r (moveRequest "req-1" "cs1" 999 .observed) runner session hr hq hcontent
      hrunner hval "c2" (.ok (fakeMotor "motor01")))⟩

end Fusion.DeviceRuntime
