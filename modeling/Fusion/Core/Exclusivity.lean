import Fusion.Core.Lifecycle

/-!
# Exclusivity — one current command for each runner

`_active` is overwritten by a preempting command and cleared by whichever
command it points to, while the preempted ones linger until their next poll.
What links it to the stamps is `Stamped`: a command in flight is behind its
runner's generation, or at it and the active one. A bump puts everything
behind; a submission finds the runner idle, so everything is behind already,
or bumps.
-/

namespace Fusion

/-- `submit` let the command through, and it has not ended. -/
def CommandRecord.InFlight {V : Type} (r : CommandRecord V) : Prop :=
  r.status ≠ .queued ∧ r.status ≠ .terminal

namespace DeviceRuntime

open Transition

variable {V : Type} {s t : DeviceRuntime V}

/-- The runner's `_active`. -/
def activeOf (s : DeviceRuntime V) (target : String) : Option CommandId :=
  (s.runners.get target).bind (·.active)

/-- The command is fenced off, or is its runner's active one. -/
def Stamped (s : DeviceRuntime V) (c : CommandId) (r : CommandRecord V) : Prop :=
  ∃ g, s.generation r.targetId = some g ∧
    (r.executionGeneration < g ∨ r.executionGeneration = g ∧ s.activeOf r.targetId = some c)

/-- **The exclusivity invariant.** -/
def Exclusive (s : DeviceRuntime V) : Prop :=
  ∀ c r, s.getCommand c = some r → r.InFlight → s.Stamped c r

/-! ## Runners after an operation -/

theorem generation_bumpGenerations (s : DeviceRuntime V) (target : String) :
    s.bumpGenerations.generation target = (s.generation target).map (· + 1) := by
  simp only [bumpGenerations, generation, Dict.get_mapValues, Option.map_map]
  rfl

theorem busy_of_active {runner : TargetRunner} {c : CommandId} {r : CommandRecord V}
    (hactive : runner.active = some c) (hr : s.getCommand c = some r)
    (hlive : r.status ≠ .terminal) : s.busy runner = true := by
  simp [busy, hactive, hr, hlive]

/-- An active command that is no longer active has ended. -/
def Releases (s t : DeviceRuntime V) : Prop :=
  ∀ target c, s.activeOf target = some c →
    t.activeOf target = some c ∨ ∃ r, t.getCommand c = some r ∧ r.status = .terminal

theorem Releases.of_runners (h : t.runners = s.runners) : Releases s t := by
  intro target c hc
  refine .inl ?_
  rw [activeOf, h]
  exact hc

theorem releases_finish {u : DeviceRuntime V} (hrunners : u.runners = s.runners)
    (task : CommandTask) (r : CommandRecord V) (o : CommandOutcome)
    (a : Option CompletionRequirement) : Releases s (u.finish task r o a) := by
  intro target c hc
  by_cases hown : c = r.commandId
  · refine .inr ⟨r.finish o a, ?_, rfl⟩
    rw [getCommand_finish, if_pos hown.symm]
  · obtain ⟨runner, hrunner, hactive⟩ := Option.bind_eq_some_iff.mp hc
    refine .inl ?_
    show ((u.runners.mapValues _).get target).bind _ = _
    rw [Dict.get_mapValues, hrunners, hrunner]
    show (if target = task.targetId then _ else runner).active = some c
    split
    · -- only the pointer to `r` itself is cleared
      rw [TargetRunner.release, if_neg]
      · exact hactive
      · rw [hactive]
        exact fun h => hown (Option.some.inj h)
    · exact hactive

theorem Releases.reply (h : Releases s t) (requestId : String) (c : CommandId) :
    Releases s (t.reply requestId c) := h

theorem releases_executeReturned (s : DeviceRuntime V) (task : CommandTask)
    (r : CommandRecord V) : Releases s (s.executeReturned task r) := by
  simp only [executeReturned]
  split
  · exact (releases_finish (by rfl) task _ _ _).reply _ _
  · split
    · exact (releases_finish (by rfl) task _ _ _).reply _ _
    · exact .of_runners rfl

theorem releases_observe {task : CommandTask} {r : CommandRecord V} {generation : Nat}
    {complete : Except String Bool} (h : s.observe task r generation complete = some t) :
    Releases s t := by
  obtain ⟨-, deadline, rfl, -⟩ := observe_eq h
  unfold observeLoop
  split
  · split
    · exact releases_finish rfl _ _ _ _
    · split
      · exact releases_finish rfl _ _ _ _
      · exact releases_finish rfl _ _ _ _
      · exact .of_runners rfl
  · exact releases_finish rfl _ _ _ _

theorem releases_cancel (s : DeviceRuntime V) (task : CommandTask) (r : CommandRecord V) :
    Releases s (s.cancel task r) := by
  unfold cancel
  split
  · exact releases_finish rfl _ _ _ _
  · exact releases_finish rfl _ _ _ _
  · exact .of_runners rfl

/-! ## The invariant, operation by operation -/

theorem Exclusive.frame (hi : Exclusive s) (hledger : t.ledger = s.ledger)
    (hrunners : t.runners = s.runners) : Exclusive t := by
  intro c r hr hflight
  rw [getCommand, hledger] at hr
  obtain ⟨g, hg, hstamp⟩ := hi c r hr hflight
  refine ⟨g, ?_, ?_⟩
  · rw [generation, hrunners]
    exact hg
  · rw [activeOf, hrunners]
    exact hstamp

/-- A bump leaves nothing at the current generation. -/
theorem Exclusive.bump (hi : Exclusive s) : Exclusive s.bumpGenerations := by
  intro c r hr hflight
  obtain ⟨g, hg, hstamp⟩ := hi c r hr hflight
  refine ⟨g + 1, ?_, .inl ?_⟩
  · rw [generation_bumpGenerations, hg]
    rfl
  · rcases hstamp with hlt | ⟨heq, -⟩ <;> omega

section
variable [BEq V]

/-- A command is driven by its coroutine: its stamp stays, and it is given
up as the active one only when it ends. -/
theorem Exclusive.drives (hi : Exclusive s) (howner : OwnerInv s) {c : CommandId}
    {task : CommandTask} {r r' : CommandRecord V} {runner : TargetRunner}
    {task' : Option CommandTask} (ho : s.owner c = some (task, r, runner))
    (hd : Drives s t r' task') (hid : r'.commandId = r.commandId) (hreleases : Releases s t) :
    Exclusive t := by
  obtain ⟨-, -, hr, hfits⟩ := howner.owner ho
  have keeps : ∀ {c r}, s.Stamped c r → t.getCommand c = some r → r.InFlight →
      t.Stamped c r := by
    rintro c r ⟨g, hg, hstamp⟩ hr hflight
    refine ⟨g, (hd.generations _).trans hg, hstamp.imp_right ?_⟩
    rintro ⟨heq, hactive⟩
    rcases hreleases _ _ hactive with hactive | ⟨r', hr', hdone⟩
    · exact ⟨heq, hactive⟩
    · cases hr.symm.trans hr'
      exact absurd hdone hflight.2
  intro c₁ r₁ hr₁ hflight
  by_cases hc : c₁ = r'.commandId
  · -- the driven command was in flight before, under the same stamp
    subst hc
    obtain ⟨r₂, hr₂, hle⟩ := hd.effects.later _ _ hr
    rw [← hid] at hr₂ hr
    cases hr₁.symm.trans hr₂
    have hqueued : r.status ≠ .queued := by
      rw [hfits.status]
      cases task.stage <;> nofun
    have hgeneration : r₁.executionGeneration = r.executionGeneration :=
      hle.generation (by cases h : r.status <;> simp_all [CommandStatus.rank])
    have hstamp := hi _ r hr ⟨hqueued, hfits.live⟩
    refine keeps ?_ hr₁ hflight
    rw [Stamped, hgeneration, hle.targetId]
    exact hstamp
  · exact keeps (hi c₁ r₁ (hd.records c₁ hc ▸ hr₁) hflight) hr₁ hflight

omit [BEq V] in
theorem runnerSubmit_preempts {runner : TargetRunner} (r : CommandRecord V)
    (manifest : Except Fault TargetManifest) (hbusy : s.busy runner = true)
    (h : (s.runnerSubmit runner r manifest).1 = .ok ()) :
    (s.runnerSubmit runner r manifest).2.generation runner.targetId
      = some (runner.executionGeneration + 1) := by
  unfold runnerSubmit at h ⊢
  cases manifest with
  | error fault => cases h
  | ok manifest =>
    simp only at h ⊢
    cases hspec : manifest.getAction r.action with
    | none =>
      rw [hspec] at h
      cases h
    | some spec =>
      simp only [hspec, hbusy] at h ⊢
      split at h
      · cases h
      · rename_i hcontrol
        simp only [hcontrol]
        show (((s.runners.set runner.targetId _).get runner.targetId).map _) = _
        rw [Dict.get_set_self]
        rfl

/-- A submission that finds its runner's active command in flight bumps the
generation. -/
theorem submitCommand_preempts {req : CommandSubmitRequest V} {freshId c c' : CommandId}
    {manifest : Except Fault TargetManifest} {runner : TargetRunner} {r : CommandRecord V}
    (h : (s.submitCommand req freshId manifest).1 = .ok (.suspended c'))
    (hrunner : s.runners.get req.targetId = some runner) (hactive : runner.active = some c)
    (hr : s.getCommand c = some r) (hlive : r.status ≠ .terminal) (hne : freshId ≠ c) :
    (s.submitCommand req freshId manifest).2.generation runner.targetId
      = some (runner.executionGeneration + 1) := by
  unfold submitCommand at h ⊢
  simp only [hrunner] at h ⊢
  split at h
  · cases h
  · rename_i session sessions hval
    obtain ⟨rfl, -, -⟩ := ControlSessionManager.validate_ok hval
    rcases CommandLedger.begin_cases s.ledger req s.runtimeId s.runtimeBootId
        runner.executionGeneration freshId with
      ⟨entry, -, -, hb⟩ | ⟨entry, -, -, hb⟩ | ⟨-, hb⟩
    · simp only [hb] at h
      cases h
    · simp only [hb] at h
      cases h
    · -- the new record does not hide the active one
      let new := CommandLedger.newRecord req s.runtimeId s.runtimeBootId
        runner.executionGeneration freshId
      have hbusy : (s.admitted req new).busy runner = true := by
        refine busy_of_active hactive ?_ hlive
        rw [getCommand_admitted, if_neg (show new.commandId ≠ c from hne)]
        exact hr
      simp only [hb] at h ⊢
      split at h
      · rename_i u hsub
        have hgeneration := runnerSubmit_preempts new manifest hbusy
        rw [show (s.admitted req new).runnerSubmit runner new manifest = (.ok (), u) from hsub]
          at hgeneration
        exact hgeneration rfl
      · cases h
      · cases h

omit [BEq V] in
/-- A runner takes a new command at a generation that nothing in flight on
it carries. -/
theorem Exclusive.admits (hi : Exclusive s) (runner : TargetRunner) (generation : Nat)
    (r : CommandRecord V) (hrunner : s.runners.get r.targetId = some runner)
    (hrunners : t.runners = s.runners.set r.targetId
      { runner with active := some r.commandId, executionGeneration := generation })
    (hrecords : ∀ c, t.getCommand c = if r.commandId = c then some r else s.getCommand c)
    (hstamp : r.executionGeneration = generation)
    (hge : runner.executionGeneration ≤ generation)
    (hbump : ∀ c r', r.commandId ≠ c → runner.active = some c → s.getCommand c = some r' →
      r'.InFlight → runner.executionGeneration < generation) : Exclusive t := by
  have hown : t.generation r.targetId = some generation ∧
      t.activeOf r.targetId = some r.commandId := by
    constructor <;> simp [DeviceRuntime.generation, activeOf, hrunners]
  intro c r' hr' hflight
  rw [hrecords] at hr'
  split at hr'
  · -- the new command is the active one, at the generation it was given
    rename_i hc
    cases hr'
    subst hc
    exact ⟨generation, hown.1, .inr ⟨hstamp, hown.2⟩⟩
  · rename_i hne
    obtain ⟨g, hg, hbehind⟩ := hi c r' hr' hflight
    by_cases hsame : r'.targetId = r.targetId
    · -- another command of this runner: behind before, or active and preempted
      rw [Stamped, hsame]
      refine ⟨generation, hown.1, .inl ?_⟩
      obtain rfl : runner.executionGeneration = g := by
        simpa [DeviceRuntime.generation, hsame, hrunner] using hg
      rcases hbehind with hlt | ⟨heq, hactive⟩
      · omega
      · have hactive' : runner.active = some c := by
          simpa [activeOf, hsame, hrunner] using hactive
        have := hbump c r' hne hactive' hr' hflight
        omega
    · refine ⟨g, ?_, ?_⟩
      · rw [DeviceRuntime.generation, hrunners, Dict.get_set_ne _ _ (Ne.symm hsame)]
        exact hg
      · rw [activeOf, hrunners, Dict.get_set_ne _ _ (Ne.symm hsame)]
        exact hbehind

/-- A submission admits a command, or changes nothing that is in flight. -/
theorem Exclusive.submitCommand (hi : Exclusive s) (howner : OwnerInv s)
    (req : CommandSubmitRequest V) (freshId : CommandId)
    (manifest : Except Fault TargetManifest) :
    Exclusive (s.submitCommand req freshId manifest).2 := by
  have hout := submitCommand_cases s req freshId manifest
  generalize hanswer : s.submitCommand req freshId manifest = answer at hout
  cases hout with
  | refused e sessions => exact hi.frame rfl rfl
  | existing entry _ _ => exact hi.frame rfl rfl
  | faulted message r made _ =>
    intro c r' hr' hflight
    replace hr' : (s.admitted req r).getCommand c = some r' := hr'
    rw [getCommand_admitted] at hr'
    split at hr'
    · cases hr'
      exact absurd made.status hflight.1
    · exact hi c r' hr' hflight
  | rejected e r made _ =>
    intro c r' hr' hflight
    replace hr' : ((s.admitted req r).change (r.reject e)).getCommand c = some r' := hr'
    rw [getCommand_change] at hr'
    split at hr'
    · cases hr'
      exact absurd rfl hflight.2
    · rename_i hne
      rw [getCommand_admitted, if_neg (show ¬r.commandId = c from hne)] at hr'
      exact hi c r' hr' hflight
  | accepted runner generation r made hrunner hgeneration _ =>
    have hname : runner.targetId = r.targetId :=
      (howner.runners _ _ hrunner).trans made.targetId.symm
    refine hi.admits runner generation (r.dispatch generation)
      (made.targetId ▸ hrunner) (congrArg (fun target => s.runners.set target _) hname) ?_ rfl
      (by omega) ?_
    · intro c
      refine (getCommand_change _ (r.dispatch generation) c).trans ?_
      by_cases hc : r.commandId = c
      · exact (if_pos hc).trans (if_pos hc).symm
      · exact (if_neg hc).trans
          (((getCommand_admitted s req r c).trans (if_neg hc)).trans (if_neg hc).symm)
    · intro c r' hne hactive hr' hflight
      have hbump := submitCommand_preempts (by rw [hanswer]) hrunner hactive hr' hflight.2
        (fun hc => hne (made.commandId.trans hc))
      rw [hanswer] at hbump
      have hown : generation = runner.executionGeneration + 1 := by
        refine Option.some.inj (Eq.trans ?_ hbump)
        simp [DeviceRuntime.generation, DeviceRuntime.setTask, DeviceRuntime.change,
          DeviceRuntime.publish, DeviceRuntime.setRunner]
      omega

theorem Exclusive.step (hi : Exclusive s) (howner : OwnerInv s) {l : RuntimeLabel V}
    (hs : s.step l = some t) : Exclusive t := by
  cases l with
  | submitCommand req freshId manifest =>
    simp only [DeviceRuntime.step] at hs
    split at hs <;> cases hs
    exact hi.submitCommand howner req freshId manifest
  | executeReturned c =>
    simp only [DeviceRuntime.step] at hs
    split at hs
    · rename_i task r runner ho
      split at hs <;> cases hs
      rename_i hstage
      obtain ⟨-, -, hr, hfits⟩ := howner.owner ho
      have hstatus : r.status = .dispatching := by rw [hfits.status, hstage]; rfl
      have hreleases := releases_executeReturned s task r
      rcases drives_executeReturned task hr hstatus with ⟨-, hd⟩ | ⟨-, hd⟩
      · exact hi.drives howner ho hd rfl hreleases
      · exact hi.drives howner ho hd rfl hreleases
    · cases hs
  | executeRaised c message =>
    simp only [DeviceRuntime.step] at hs
    split at hs
    · rename_i task r runner ho
      split at hs <;> cases hs
      obtain ⟨-, -, hr, hfits⟩ := howner.owner ho
      obtain ⟨r', hle, hd⟩ := drives_fail task hr hfits.live message
      exact hi.drives howner ho (hd.reply _ _) hle.commandId
        ((releases_finish rfl _ _ _ _).reply _ _)
    · cases hs
  | observe c complete =>
    simp only [DeviceRuntime.step] at hs
    split at hs
    · rename_i task r runner ho
      obtain ⟨-, -, hr, hfits⟩ := howner.owner ho
      have hreleases := releases_observe hs
      obtain ⟨-, deadline, rfl, -⟩ := observe_eq hs
      rcases drives_observeLoop task deadline runner.executionGeneration complete hr hfits.live with
        ⟨r', o, a, hle, hd, -⟩ | ⟨wakeAt, hd⟩
      · exact hi.drives howner ho hd hle.commandId hreleases
      · exact hi.drives howner ho hd rfl hreleases
    · cases hs
  | cancel c =>
    simp only [DeviceRuntime.step] at hs
    split at hs
    · rename_i task r runner ho
      cases hs
      obtain ⟨-, -, hr, hfits⟩ := howner.owner ho
      have hreleases := releases_cancel s task r
      rcases drives_cancel task hr hfits.live with hd | hd
      · exact hi.drives howner ho hd rfl hreleases
      · exact hi.drives howner ho hd rfl hreleases
    · cases hs
  | _ =>
    -- the step is about no command, and bumps the generations at most
    have hspares := step_sparesCommands rfl hs
    rcases hspares.runners with hsame | hbumped
    · exact hi.frame hspares.ledger hsame
    · exact hi.bump.frame hspares.ledger hbumped

theorem exclusive_reachable {runtimeId bootId : String} {now : ℚ} {targets : List String}
    {customGuard : Bool}
    (h : Reachable DeviceRuntime.step
      (init (V := V) runtimeId bootId now targets customGuard) s) : Exclusive s := by
  refine (h.invariant (I := fun s => OwnerInv s ∧ Exclusive s)
    ⟨.init runtimeId bootId now targets customGuard, ?_⟩ ?_).2
  · intro c r hr
    cases hr
  · intro s l t hi hs
    exact ⟨hi.1.step hs, hi.2.step hi.1 hs⟩

/-- **Runner exclusivity**: in every reachable state, each command in flight
on a runner carries its generation or an older one, and no two carry the
current one. -/
theorem runner_exclusivity (runtimeId bootId : String) (now : ℚ) (targets : List String)
    (customGuard : Bool)
    (h : Reachable DeviceRuntime.step
      (init (V := V) runtimeId bootId now targets customGuard) s)
    {target : String} {runner : TargetRunner} (hrunner : s.runners.get target = some runner) :
    (∀ c r, s.getCommand c = some r → r.targetId = target → r.InFlight →
      r.executionGeneration ≤ runner.executionGeneration) ∧
    ∀ c r c' r', s.getCommand c = some r → r.targetId = target → r.InFlight →
      s.getCommand c' = some r' → r'.targetId = target → r'.InFlight → c ≠ c' →
      r.executionGeneration < runner.executionGeneration ∨
        r'.executionGeneration < runner.executionGeneration := by
  have hi := exclusive_reachable h
  have stamped : ∀ c r, s.getCommand c = some r → r.targetId = target → r.InFlight →
      r.executionGeneration < runner.executionGeneration ∨
        r.executionGeneration = runner.executionGeneration ∧ runner.active = some c := by
    intro c r hr htarget hflight
    obtain ⟨g, hg, hstamp⟩ := hi c r hr hflight
    simp only [DeviceRuntime.generation, activeOf, htarget, hrunner, Option.map_some,
      Option.some.injEq, Option.bind_some] at hg hstamp
    exact hg ▸ hstamp
  refine ⟨?_, ?_⟩
  · intro c r hr htarget hflight
    rcases stamped c r hr htarget hflight with hlt | ⟨heq, -⟩ <;> omega
  · intro c r c' r' hr htarget hflight hr' htarget' hflight' hne
    rcases stamped c r hr htarget hflight with hlt | ⟨-, hactive⟩
    · exact .inl hlt
    rcases stamped c' r' hr' htarget' hflight' with hlt | ⟨-, hactive'⟩
    · exact .inr hlt
    · exact absurd (Option.some.inj (hactive.symm.trans hactive')) hne

omit [BEq V] in
/-- A `move` under observation, then a `stop` that preempts it: both are in
flight, and the `move` is behind. -/
theorem runner_exclusivity_preempted :
    ∃ s runner, Reachable DeviceRuntime.step motorRuntime s ∧
      s.runners.get "motor01" = some runner ∧
      (s.getCommand "c1").map (fun r => (r.status, r.executionGeneration)) = some (.observing, 2) ∧
      (s.getCommand "c2").map (fun r => (r.status, r.executionGeneration)) =
        some (.dispatching, 3) ∧
      ∀ c r, s.getCommand c = some r → r.targetId = "motor01" → r.InFlight →
        r.executionGeneration ≤ runner.executionGeneration := by
  obtain ⟨s, hreach, hs⟩ := exec_test DeviceRuntime.step motorRuntime
    [.acquireControlSession "op" .manual none "cs1",
      .submitCommand (moveRequest "req-1" "cs1" 100 .observed) "c1" (.ok (fakeMotor "motor01")),
      .executeReturned "c1",
      .submitCommand { moveRequest "req-2" "cs1" 0 .acknowledged with action := "stop" } "c2"
        (.ok (fakeMotor "motor01"))]
    (fun s => (s.runners.get "motor01").isSome &&
      (s.getCommand "c1").map (fun r => (r.status, r.executionGeneration)) ==
        some (.observing, 2) &&
      (s.getCommand "c2").map (fun r => (r.status, r.executionGeneration)) ==
        some (.dispatching, 3))
    (by decide +kernel)
  simp only [Bool.and_eq_true, beq_iff_eq] at hs
  obtain ⟨⟨hrunner, hmove⟩, hstop⟩ := hs
  obtain ⟨runner, hrunner⟩ := Option.isSome_iff_exists.mp hrunner
  exact ⟨s, runner, hreach, hrunner, hmove, hstop,
    (runner_exclusivity "motor-test" "boot1" 0 ["motor01"] false hreach hrunner).1⟩

end

end DeviceRuntime

end Fusion
