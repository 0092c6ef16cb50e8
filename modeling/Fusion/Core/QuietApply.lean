import Fusion.Core.Exclusivity

/-!
# QuietApply — what the default apply guard looks at

The guard asks each runner whether its active command is live. A command
that was preempted is no runner's active one any more, so when the
preempting command has ended the guard passes over it, up to its next poll.
-/

namespace Fusion.DeviceRuntime

open Transition

variable {V : Type} {s t : DeviceRuntime V}

/-- The command was stamped before its runner's latest bump. -/
def outdated (s : DeviceRuntime V) (r : CommandRecord V) : Bool :=
  (s.generation r.targetId).any (r.executionGeneration < ·)

/-- No command in flight is of an older generation than its runner's, and none
is QUEUED. -/
def NoneLeft (s : DeviceRuntime V) : Bool :=
  s.ledger.byCommandId.items.all fun x =>
    x.2.status ≠ .queued && (x.2.status = .terminal || !s.outdated x.2)

/-- When the guard of a call for a revision that is not active finds no
runner busy, no command is left over. -/
def DecidesNoneLeft (s : DeviceRuntime V) : RuntimeLabel V → Bool
  | .applyGuarded i _ =>
      match s.applies i with
      | none => true
      | some call =>
          !call.guarding || some call.revisionId = s.config.activeRevisionId ||
            s.runners.items.any (fun x => s.busy x.2) || s.NoneLeft
  | _ => true

theorem noneLeft_iff : s.NoneLeft = true ↔ ∀ c r, s.getCommand c = some r →
    r.status ≠ .queued ∧ (r.status ≠ .terminal → s.outdated r = false) := by
  simp only [NoneLeft, List.all_eq_true, Bool.and_eq_true, Bool.or_eq_true, decide_eq_true_eq,
    Bool.not_eq_true']
  constructor
  · intro h c r hr
    obtain ⟨hqueued, hended⟩ := h (c, r) (Dict.get_eq_some_iff.mp hr)
    exact ⟨hqueued, hended.resolve_left⟩
  · intro h x hx
    obtain ⟨hqueued, hlive⟩ := h x.1 x.2 (Dict.get_eq_some_iff.mpr hx)
    exact ⟨hqueued, or_iff_not_imp_left.mpr hlive⟩

/-! ## The guard -/

theorem defaultApplyGuard_ok_iff :
    s.defaultApplyGuard = .ok () ↔ s.runners.items.any (fun x => s.busy x.2) = false := by
  have hnil : (s.runners.items.filter fun x => s.busy x.2).map Prod.fst = [] ↔
      s.runners.items.any (fun x => s.busy x.2) = false := by
    simp [List.filter_eq_nil_iff]
  rw [← hnil]
  unfold defaultApplyGuard
  split
  · rename_i hempty
    exact iff_of_true rfl hempty
  · rename_i hbusy
    exact iff_of_false nofun hbusy

/-- Where no runner is busy and nothing is left over, every command has
ended: one in flight would be its runner's active one. -/
theorem ended_of_noneLeft (hexcl : Exclusive s)
    (hbusy : s.runners.items.any (fun x => s.busy x.2) = false) (hnone : s.NoneLeft = true)
    {c : CommandId} {r : CommandRecord V} (hr : s.getCommand c = some r) :
    r.status = .terminal := by
  by_contra hlive
  obtain ⟨hqueued, hcurrent⟩ := noneLeft_iff.mp hnone c r hr
  obtain ⟨g, hg, hstamp⟩ := hexcl c r hr ⟨hqueued, hlive⟩
  rcases hstamp with holder | ⟨-, hactive⟩
  · have hnot := hcurrent hlive
    rw [outdated, hg] at hnot
    exact absurd holder (by simpa using hnot)
  · obtain ⟨runner, hrunner, hactive⟩ := Option.bind_eq_some_iff.mp hactive
    rw [List.any_eq_false] at hbusy
    exact hbusy (r.targetId, runner) (Dict.get_eq_some_iff.mp hrunner)
      (busy_of_active hactive hr hlive)

/-! ## Where the active revision moves -/

theorem activeRevision_applyGuarded (s : DeviceRuntime V) (i : Nat) (call : ApplyCall)
    (guard : Except Fault Unit) :
    (s.applyGuarded i call guard).config.activeRevisionId =
      if guard = .ok () then some call.revisionId else s.config.activeRevisionId := by
  match guard with
  | .ok () | .error (.fusion _) | .error (.other _) => rfl

theorem activeRevision_applyLocked (s : DeviceRuntime V) (i : Nat) (call : ApplyCall) :
    (s.applyLocked i call).config.activeRevisionId = s.config.activeRevisionId := by
  unfold applyLocked ConfigService.applyLocked
  cases call.expectedActiveRevision with
  | none => rfl
  | some expected =>
    by_cases h : some expected = s.config.activeRevisionId
    · simp only [if_pos h]
      rfl
    · simp only [if_neg h]
      rfl

/-- The step is none of the config service's. -/
def SameConfig (s t : DeviceRuntime V) : Prop :=
  t.config = s.config ∧ t.customGuard = s.customGuard

section
variable [BEq V]

theorem config_submitCommand (s : DeviceRuntime V) (req : CommandSubmitRequest V)
    (freshId : CommandId) (manifest : Except Fault TargetManifest) :
    SameConfig s (s.submitCommand req freshId manifest).2 := by
  have hout := submitCommand_cases s req freshId manifest
  generalize s.submitCommand req freshId manifest = answer at hout
  cases hout <;> exact ⟨rfl, rfl⟩

/-- The only step that moves the active revision is a guard's answer. -/
theorem step_config {l : RuntimeLabel V} (hs : s.step l = some t) :
    t.customGuard = s.customGuard ∧
      (t.config.activeRevisionId = s.config.activeRevisionId ∨
        ∃ i answer call, l = .applyGuarded i answer ∧ s.applies i = some call ∧
          call.guarding = true ∧ t = s.applyGuarded i call (s.applyGuard answer)) := by
  have same : ∀ {u : DeviceRuntime V} {moves : Prop}, SameConfig s u →
      u.customGuard = s.customGuard ∧
        (u.config.activeRevisionId = s.config.activeRevisionId ∨ moves) :=
    fun hu => ⟨hu.2, .inl (by rw [hu.1])⟩
  cases l with
  | applyGuarded i answer =>
    simp only [step] at hs
    split at hs
    · rename_i call hcall
      split at hs <;> cases hs
      rename_i hguarding
      refine ⟨?_, .inr ⟨i, answer, call, rfl, hcall, hguarding, rfl⟩⟩
      generalize s.applyGuard answer = guard
      cases guard <;> rfl
    · cases hs
  | applyLocked i =>
    simp only [step] at hs
    split at hs
    · split at hs <;> cases hs
      refine ⟨?_, .inl (activeRevision_applyLocked ..)⟩
      unfold applyLocked
      split <;> rfl
    · cases hs
  | applyConfig i revisionId expected =>
    simp only [step] at hs
    split at hs <;> cases hs
    unfold applyConfig
    split <;> exact same ⟨rfl, rfl⟩
  | applyCancelled i =>
    simp only [step] at hs
    split at hs <;> cases hs
    exact ⟨rfl, .inl rfl⟩
  | stageConfig kind freshId =>
    cases hs
    exact ⟨rfl, .inl rfl⟩
  | submitCommand req freshId manifest =>
    simp only [step] at hs
    split at hs <;> cases hs
    exact same (config_submitCommand s req freshId manifest)
  | executeReturned c | executeRaised c message | observe c complete | cancel c =>
    have hspares := step_sparesControl rfl hs
    exact same ⟨hspares.config, hspares.customGuard⟩
  | advance dt =>
    simp only [step] at hs
    split at hs <;> cases hs
    exact same ⟨rfl, rfl⟩
  | eventGet subId =>
    obtain ⟨_, _, rfl⟩ := Option.map_eq_some_iff.mp hs
    exact same ⟨rfl, rfl⟩
  | publishEvent | acquireControlSession | renewControlSession | releaseControlSession
  | subscribeEvents | unsubscribeEvents =>
    cases hs
    exact same ⟨rfl, rfl⟩

/-! ## The law -/

/-- Where the step moves the active revision, every command has ended. -/
def Quiet (x : Step (DeviceRuntime.step (V := V))) : Prop :=
  x.dst.config.activeRevisionId ≠ x.src.config.activeRevisionId →
    ∀ c r, x.dst.getCommand c = some r → r.status = .terminal

omit [BEq V] in
/-- A guard that passes for another revision than the active one. -/
theorem decidesNoneLeft_applyGuarded {i : Nat} {answer : Except Fault Unit} {call : ApplyCall}
    (hcall : s.applies i = some call) (hguarding : call.guarding = true)
    (hmoves : some call.revisionId ≠ s.config.activeRevisionId) :
    DecidesNoneLeft s (.applyGuarded i answer) = true ↔
      (s.runners.items.any (fun x => s.busy x.2) = false → s.NoneLeft = true) := by
  simp only [DecidesNoneLeft, hcall, hguarding, hmoves, Bool.not_true, decide_false,
    Bool.false_or, Bool.or_eq_true]
  constructor
  · intro h hbusy
    exact h.resolve_left (by rw [hbusy]; nofun)
  · intro h
    cases hbusy : s.runners.items.any (fun x => s.busy x.2) with
    | true => exact .inl rfl
    | false => exact .inr (h hbusy)

theorem quiet_iff (x : Step (DeviceRuntime.step (V := V))) (hguard : x.src.customGuard = false)
    (hexcl : Exclusive x.src) :
    Quiet x ↔ DecidesNoneLeft x.src x.label = true := by
  obtain ⟨s, l, t, hs⟩ := x
  have happly : ∀ answer, s.applyGuard answer = s.defaultApplyGuard := fun answer => by
    simp only at hguard
    simp [applyGuard, hguard]
  constructor
  · intro hquiet
    cases l with
    | applyGuarded i answer =>
      cases hcall : s.applies i with
      | none => simp [DecidesNoneLeft, hcall]
      | some call =>
        simp only [step, hcall] at hs
        split at hs <;> cases hs
        rename_i hguarding
        by_cases hmoves : some call.revisionId = s.config.activeRevisionId
        · simp [DecidesNoneLeft, hcall, hmoves]
        · rw [decidesNoneLeft_applyGuarded hcall hguarding hmoves]
          intro hbusy
          -- the guard passes, so the revision moves and all have ended
          have hok : s.applyGuard answer = .ok () :=
            (happly answer).trans (defaultApplyGuard_ok_iff.mpr hbusy)
          have hall := hquiet (by rw [activeRevision_applyGuarded, if_pos hok]; exact hmoves)
          have hended : ∀ c r, s.getCommand c = some r → r.status = .terminal := by
            intro c r hr
            refine hall c r ?_
            rw [getCommand, (applyGuarded_frame ..).1]
            exact hr
          refine noneLeft_iff.mpr fun c r hr => ⟨?_, fun hlive => absurd (hended c r hr) hlive⟩
          rw [hended c r hr]
          decide
    | _ => rfl
  · intro hok hmoved c r hr
    rcases (step_config hs).2 with hsame | ⟨i, answer, call, rfl, hcall, hguarding, rfl⟩
    · exact absurd hsame hmoved
    · have hguarded : s.applyGuard answer = .ok () := by
        by_contra hno
        exact hmoved (by rw [activeRevision_applyGuarded, if_neg hno])
      have hbusy := defaultApplyGuard_ok_iff.mp ((happly answer).symm.trans hguarded)
      have hmoves : some call.revisionId ≠ s.config.activeRevisionId := by
        simpa only [activeRevision_applyGuarded, if_pos hguarded] using hmoved
      refine ended_of_noneLeft hexcl hbusy ?_ (c := c) ?_
      · exact (decidesNoneLeft_applyGuarded hcall hguarding hmoves).mp hok hbusy
      · rw [getCommand, (applyGuarded_frame ..).1] at hr
        exact hr

/-- **Apply on a quiet Runtime** holds of exactly the runs in which every
guard that finds no runner busy finds no command in flight of an older
generation, and none QUEUED. -/
theorem quiet_apply_iff (runtimeId bootId : String) (now : ℚ) (targets : List String)
    {xs : List (Step (DeviceRuntime.step (V := V)))}
    (run : Run DeviceRuntime.step (init runtimeId bootId now targets false) xs s) :
    (∀ x ∈ xs, Quiet x) ↔ ∀ x ∈ xs, DecidesNoneLeft x.src x.label = true :=
  run.forall_iff fun x hx =>
    quiet_iff x (hx.invariant (I := fun s => s.customGuard = false) rfl
      fun _ _ _ hi hs => (step_config hs).1.trans hi) (exclusive_reachable hx)

end

/-- A revision is staged and applied after the `move` has succeeded. -/
theorem quiet_apply_after_move :
    ∃ xs s, Run DeviceRuntime.step motorRuntime xs s ∧
      s.config.activeRevisionId = some "rev1" ∧ ∀ x ∈ xs, Quiet x := by
  obtain ⟨xs, s, run, hok, hs⟩ := execWhile_test DecidesNoneLeft DeviceRuntime.step motorRuntime
    [.acquireControlSession "op" .manual none "cs1",
      .submitCommand (moveRequest "req-1" "cs1" 100 .acknowledged) "c1"
        (.ok (fakeMotor "motor01")),
      .executeReturned "c1", .stageConfig "motor" "rev1", .applyConfig 0 "rev1" none,
      .applyLocked 0, .applyGuarded 0 (.ok ())]
    (fun s => s.config.activeRevisionId = some "rev1") (by decide +kernel)
  exact ⟨xs, s, run, by simpa using hs,
    (quiet_apply_iff "motor-test" "boot1" 0 ["motor01"] run).mpr hok⟩

/-- The defect: a `stop` preempts the `move` that is being observed and
ends; the apply finds the runner free while the `move` is OBSERVING. -/
theorem quiet_apply_preempted_move :
    ¬ ∀ xs s, Run DeviceRuntime.step motorRuntime xs s → ∀ x ∈ xs, Quiet x := by
  intro hall
  obtain ⟨xs, s, run, -, hs⟩ := execWhile_test (fun _ _ => true) DeviceRuntime.step motorRuntime
    [.acquireControlSession "op" .manual none "cs1",
      .submitCommand (moveRequest "req-1" "cs1" 100 .observed) "c1" (.ok (fakeMotor "motor01")),
      .executeReturned "c1",
      .submitCommand { moveRequest "req-2" "cs1" 0 .acknowledged with action := "stop" } "c2"
        (.ok (fakeMotor "motor01")),
      .executeReturned "c2", .stageConfig "motor" "rev1", .applyConfig 0 "rev1" none,
      .applyLocked 0]
    (fun s => (s.step (.applyGuarded 0 (.ok ()))).isSome &&
      !DecidesNoneLeft s (.applyGuarded 0 (.ok ())) && !s.customGuard)
    (by decide +kernel)
  simp only [Bool.and_eq_true, Bool.not_eq_true'] at hs
  obtain ⟨⟨hfires, hleft⟩, hguard⟩ := hs
  obtain ⟨t, ht⟩ := Option.isSome_iff_exists.mp hfires
  have hquiet := hall _ _ (run.snoc ⟨s, _, t, ht⟩) ⟨s, _, t, ht⟩ (by simp)
  rw [quiet_iff ⟨s, _, t, ht⟩ hguard (exclusive_reachable run.reachable), hleft] at hquiet
  cases hquiet

end Fusion.DeviceRuntime
