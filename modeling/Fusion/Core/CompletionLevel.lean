import Fusion.Core.Drivers

/-!
# CompletionLevel — what a command asked for, reached and may reach

The level a command reaches is the one it asked for, on all three exits of
the runner. The level its action declares (`max_completion`) is carried in the
manifest and read by nobody, so it is kept exactly by the submissions that ask
for no more.
-/

namespace Fusion

/-- `dispatched < acknowledged < observed` -/
def CompletionRequirement.level : CompletionRequirement → Nat
  | dispatched => 0
  | acknowledged => 1
  | observed => 2

namespace DeviceRuntime

open Transition

variable {V : Type} {s t : DeviceRuntime V} {l : RuntimeLabel V}

/-- The action of a submission that passes every check `submit_command` and
`submit` make: a known target, a live session, a request the ledger has not
seen, an action of the manifest, and a target that is idle or preempted. -/
def admittedSpec (s : DeviceRuntime V) (req : CommandSubmitRequest V)
    (manifest : TargetManifest) : Option ActionSpec :=
  match s.runners.get req.targetId with
  | none => none
  | some runner =>
      if (s.sessions.validate s.now req.controlSessionId).1.isOk &&
          (s.ledger.byRequestId.get req.requestId).isNone then
        (manifest.getAction req.action).filter fun spec =>
          !s.busy runner || spec.priority = .control
      else none

theorem admittedSpec_getAction {req : CommandSubmitRequest V} {manifest : TargetManifest}
    {spec : ActionSpec} (h : s.admittedSpec req manifest = some spec) :
    manifest.getAction req.action = some spec := by
  unfold admittedSpec at h
  split at h
  · cases h
  · split at h
    · exact (Option.filter_eq_some_iff.mp h).1
    · cases h

/-- No submission that would be admitted asks for more than its action
declares. -/
def WithinMax (s : DeviceRuntime V) : RuntimeLabel V → Bool
  | .submitCommand req _ (.ok manifest) =>
      (s.admittedSpec req manifest).all fun spec =>
        req.completionRequirement.level ≤ spec.maxCompletion.level
  | _ => true

section
variable [BEq V]

/-- The step submits the command `c`, and the runner takes it. -/
structure Dispatches (x : Step (step (V := V))) (c : CommandId) (req : CommandSubmitRequest V)
    (manifest : TargetManifest) : Prop where
  label : x.label = .submitCommand req c (.ok manifest)
  answer : (x.src.submitCommand req c (.ok manifest)).1 = .ok (.suspended c)

/-- **The levels of a run are honest**: a command that ended SUCCEEDED reached
the level it was submitted with, and no more than the action it names declares
in the manifest read at its submission; and no submission that asks for more
is taken. -/
structure HonestLevels (xs : List (Step (step (V := V)))) (s : DeviceRuntime V) : Prop where
  reached : ∀ c r, s.getCommand c = some r → r.status = .terminal →
    r.outcome = some .succeeded → ∃ x ∈ xs, ∃ req manifest spec, Dispatches x c req manifest ∧
      manifest.getAction req.action = some spec ∧
      r.completionRequirement = req.completionRequirement ∧
      r.achievedCompletion = some req.completionRequirement ∧
      req.completionRequirement.level ≤ spec.maxCompletion.level
  refused : ∀ x ∈ xs, ∀ c req manifest spec, Dispatches x c req manifest →
    manifest.getAction req.action = some spec →
    req.completionRequirement.level ≤ spec.maxCompletion.level

/-! ## When a submission is taken -/

omit [BEq V] in
theorem busy_admitted {req : CommandSubmitRequest V} {r : CommandRecord V}
    {runner : TargetRunner} (hne : runner.active ≠ some r.commandId) :
    (s.admitted req r).busy runner = s.busy runner := by
  unfold busy
  cases hactive : runner.active with
  | none => rfl
  | some c =>
    have hc : r.commandId ≠ c := fun h => hne (h ▸ hactive)
    simp only [Option.bind_some, getCommand_admitted, if_neg hc]

omit [BEq V] in
theorem runnerSubmit_ok_iff (s : DeviceRuntime V) (runner : TargetRunner) (r : CommandRecord V)
    (manifest : TargetManifest) :
    (s.runnerSubmit runner r (.ok manifest)).1 = .ok () ↔
      ((manifest.getAction r.action).filter fun spec =>
        !s.busy runner || spec.priority = .control).isSome := by
  unfold runnerSubmit
  simp only
  cases hspec : manifest.getAction r.action with
  | none => exact ⟨fun h => (nomatch h), fun h => (nomatch h)⟩
  | some spec =>
    simp only [Option.filter_some]
    split
    · rename_i hbusy
      have hfree : (!s.busy runner || decide (spec.priority = .control)) = false := by
        cases hb : s.busy runner <;> simp_all
      rw [hfree]
      exact ⟨fun h => (nomatch h), fun h => (nomatch h)⟩
    · rename_i hbusy
      have hfree : (!s.busy runner || decide (spec.priority = .control)) = true := by
        cases hb : s.busy runner <;> simp_all
      rw [hfree]
      exact ⟨fun _ => rfl, fun _ => rfl⟩

/-- **A submission is taken exactly if it passes the checks.** -/
theorem submitCommand_suspended_iff {req : CommandSubmitRequest V} {freshId : CommandId}
    (hactive : ∀ runner, s.runners.get req.targetId = some runner →
      runner.active ≠ some freshId) (manifest : TargetManifest) :
    (s.submitCommand req freshId (.ok manifest)).1 = .ok (.suspended freshId) ↔
      (s.admittedSpec req manifest).isSome := by
  unfold submitCommand admittedSpec
  cases hrunner : s.runners.get req.targetId with
  | none => simp
  | some runner =>
    simp only
    cases hval : s.sessions.validate s.now req.controlSessionId with
    | mk answer sessions =>
      cases answer with
      | error e => simp [Except.isOk, Except.toBool]
      | ok session =>
        obtain ⟨rfl, -, -⟩ := ControlSessionManager.validate_ok hval
        simp only [Except.isOk, Except.toBool, Bool.true_and]
        rcases CommandLedger.begin_cases s.ledger req s.runtimeId s.runtimeBootId
            runner.executionGeneration freshId with
          ⟨entry, hentry, -, hb⟩ | ⟨entry, hentry, -, hb⟩ | ⟨hreq, hb⟩
        · simp [hb, hentry]
        · simp [hb, hentry]
        · -- the new record does not hide the active one
          let new := CommandLedger.newRecord req s.runtimeId s.runtimeBootId
            runner.executionGeneration freshId
          have hbusy : (s.admitted req new).busy runner = s.busy runner :=
            busy_admitted (hactive runner hrunner)
          have hok := runnerSubmit_ok_iff (s.admitted req new) runner new manifest
          rw [hbusy] at hok
          simp only [hb, hreq, Option.isNone_none, if_true]
          rw [show manifest.getAction req.action = manifest.getAction new.action from rfl, ← hok]
          split
          · rename_i u hsub
            rw [show (s.admitted req new).runnerSubmit runner new (.ok manifest) = (.ok (), u)
              from hsub]
            exact ⟨fun _ => rfl, fun _ => rfl⟩
          · rename_i e u hsub
            rw [show (s.admitted req new).runnerSubmit runner new (.ok manifest)
              = (.error (.fusion e), u) from hsub]
            constructor
            · intro h
              cases h
            · intro h
              cases h
          · rename_i message u hsub
            rw [show (s.admitted req new).runnerSubmit runner new (.ok manifest)
              = (.error (.other message), u) from hsub]
            constructor
            · intro h
              cases h
            · intro h
              cases h

omit [BEq V] in
theorem runnerSubmit_error (s : DeviceRuntime V) (runner : TargetRunner) (r : CommandRecord V)
    (fault : Fault) : s.runnerSubmit runner r (.error fault) = (.error fault, s) := rfl

/-- Without a manifest nothing is taken. -/
theorem manifest_of_suspended (req : CommandSubmitRequest V) (freshId c : CommandId)
    (manifest : Except Fault TargetManifest)
    (h : (s.submitCommand req freshId manifest).1 = .ok (.suspended c)) :
    ∃ m, manifest = .ok m := by
  cases manifest with
  | ok m => exact ⟨m, rfl⟩
  | error fault =>
    unfold submitCommand at h
    cases hrunner : s.runners.get req.targetId with
    | none =>
      rw [hrunner] at h
      cases h
    | some runner =>
      simp only [hrunner, runnerSubmit_error] at h
      split at h
      · cases h
      · split at h
        · cases h
        · cases h
        · cases fault with
          | fusion e => cases h
          | other message => cases h

/-! ## Where a command comes from -/

/-- The command was taken at one of the steps `xs`, with the level `r` has. -/
def Taken (xs : List (Step (step (V := V)))) (c : CommandId) (r : CommandRecord V) : Prop :=
  ∃ x ∈ xs, ∃ req manifest, Dispatches x c req manifest ∧
    r.completionRequirement = req.completionRequirement

theorem Taken.snoc {xs : List (Step (step (V := V)))} {c : CommandId} {r r' : CommandRecord V}
    (h : Taken xs c r) (x : Step (step (V := V)))
    (hlevel : r'.completionRequirement = r.completionRequirement) : Taken (xs ++ [x]) c r' := by
  obtain ⟨y, hy, req, manifest, hd, hr⟩ := h
  exact ⟨y, List.mem_append_left _ hy, req, manifest, hd, hlevel.trans hr⟩

/-- **The level invariant**: what a coroutine drives was taken, and what
succeeded reached the level it was taken with. -/
structure LevelInv (xs : List (Step (step (V := V)))) (s : DeviceRuntime V) : Prop where
  driven : ∀ c task r, s.tasks c = some task → s.getCommand c = some r → Taken xs c r
  reached : ∀ c r, s.getCommand c = some r → r.status = .terminal →
    r.outcome = some .succeeded →
      Taken xs c r ∧ r.achievedCompletion = some r.completionRequirement

/-- A submission that starts a coroutine takes its command, at the level that
was asked for. -/
theorem submitCommand_taken {req : CommandSubmitRequest V} {c : CommandId}
    {manifest : Except Fault TargetManifest} {task : CommandTask} {r : CommandRecord V}
    (htask : (s.submitCommand req c manifest).2.tasks c = some task) (hnone : s.tasks c = none)
    (hr : (s.submitCommand req c manifest).2.getCommand c = some r) :
    ∃ m, manifest = .ok m ∧ (s.submitCommand req c manifest).1 = .ok (.suspended c) ∧
      r.completionRequirement = req.completionRequirement := by
  have hsusp := manifest_of_suspended (s := s) req c c manifest
  have hout := submitCommand_cases s req c manifest
  generalize s.submitCommand req c manifest = answer at hout htask hr hsusp
  cases hout with
  | accepted runner generation r₀ made _ _ _ =>
    have hrec := getCommand_change_self ((s.admitted req r₀).setRunner
      { runner with active := some r₀.commandId, executionGeneration := generation })
      (r₀.dispatch generation)
    rw [show (r₀.dispatch generation).commandId = c from made.commandId] at hrec
    obtain rfl := Option.some.inj (hrec.symm.trans hr)
    have hanswer : (Except.ok (SubmitAnswer.suspended r₀.commandId) : Except Fault _)
        = .ok (.suspended c) := by rw [made.commandId]
    obtain ⟨m, hm⟩ := hsusp hanswer
    exact ⟨m, hm, hanswer, made.requirement⟩
  | refused e sessions =>
    rw [show s.tasks c = some task from htask] at hnone
    cases hnone
  | existing entry _ _ =>
    rw [show s.tasks c = some task from htask] at hnone
    cases hnone
  | faulted message r₀ _ _ =>
    rw [show s.tasks c = some task from htask] at hnone
    cases hnone
  | rejected e r₀ _ _ =>
    rw [show s.tasks c = some task from htask] at hnone
    cases hnone

/-- A coroutine that appears in a step is that of the command it takes. -/
theorem step_taken {x : Step (step (V := V))} (howner : OwnerInv x.src) {c : CommandId}
    {task : CommandTask} (htask : x.dst.tasks c = some task) (hnone : x.src.tasks c = none)
    {r : CommandRecord V} (hr : x.dst.getCommand c = some r) : Taken [x] c r := by
  obtain ⟨s, l, t, hs⟩ := x
  replace htask : t.tasks c = some task := htask
  replace hnone : s.tasks c = none := hnone
  replace hr : t.getCommand c = some r := hr
  rcases l.kinds with hcontrol | ⟨req, freshId, manifest, rfl⟩ | ⟨c', hl⟩
  · rw [step_tasks_of_ofNoCommand hcontrol hs, hnone] at htask
    cases htask
  · have ht : t = (s.submitCommand req freshId manifest).2 := by
      simp only [step] at hs
      split at hs
      · cases hs
      · exact (Option.some.inj hs).symm
    rw [ht] at htask hr
    have hc : c = freshId := by
      by_contra hc
      rw [submitCommand_tasks s req manifest hc, hnone] at htask
      cases htask
    subst hc
    obtain ⟨m, rfl, hanswer, hlevel⟩ := submitCommand_taken htask hnone hr
    exact ⟨_, List.mem_singleton_self _, req, m, ⟨rfl, hanswer⟩, hlevel⟩
  · obtain ⟨task₀, r₀, htask₀, -, rfl, -, hand⟩ := step_handover howner hl hs
    by_cases hc : c = r₀.commandId
    · rw [hc, htask₀] at hnone
      cases hnone
    · rw [hand.tasks hc, hnone] at htask
      cases htask

theorem LevelInv.snoc {xs : List (Step (step (V := V)))} {x : Step (step (V := V))}
    (h : LevelInv xs x.src) (howner : OwnerInv x.src) : LevelInv (xs ++ [x]) x.dst := by
  have hmoves := step_moves howner x.fired
  have hlater := hmoves.effects.later
  refine ⟨fun c task r htask hr => ?_, fun c r hr hdone hsucc => ?_⟩
  · cases hold : x.src.tasks c with
    | none =>
      obtain ⟨y, hy, req, manifest, hd, hlevel⟩ := step_taken howner htask hold hr
      exact ⟨y, List.mem_append_right _ hy, req, manifest, hd, hlevel⟩
    | some task₀ =>
      obtain ⟨r₀, hr₀, -⟩ := howner.owned c task₀ hold
      obtain ⟨r', hr', hle⟩ := hlater c r₀ hr₀
      obtain rfl := Option.some.inj (hr'.symm.trans hr)
      exact (h.driven c task₀ r₀ hold hr₀).snoc x hle.requirement
  · by_cases hwas : ∃ r₀, x.src.getCommand c = some r₀ ∧ r₀.status = .terminal
    · -- it had succeeded before this step
      obtain ⟨r₀, hr₀, hdone₀⟩ := hwas
      obtain ⟨r', hr', hle⟩ := hlater c r₀ hr₀
      obtain rfl := Option.some.inj (hr'.symm.trans hr)
      obtain rfl := hle.frozen hdone₀
      obtain ⟨htaken, hreached⟩ := h.reached c _ hr₀ hdone hsucc
      exact ⟨htaken.snoc x rfl, hreached⟩
    · obtain ⟨task, r₀, task', htask, hr₀, hfits, rfl, -, hby⟩ := hmoves.succeeded hr hdone hsucc
        (fun r₀ hr₀ hdone₀ => hwas ⟨r₀, hr₀, hdone₀⟩)
      have htaken := h.driven _ task r₀ htask hr₀
      cases hby with
      | executed label stage level record =>
        subst record
        exact ⟨htaken.snoc x rfl, rfl⟩
      | observed label stage asked generation record =>
        subst record
        refine ⟨htaken.snoc x rfl, ?_⟩
        show some CompletionRequirement.observed = some r₀.completionRequirement
        rw [hfits.level stage]

/-! ## Runs -/

/-- A run with its invariants. -/
theorem levelInv_of_run {runtimeId bootId : String} {now : ℚ} {targets : List String}
    {customGuard : Bool} {xs : List (Step (step (V := V)))}
    (run : Run step (init runtimeId bootId now targets customGuard) xs s) : LevelInv xs s := by
  induction run with
  | nil =>
    refine ⟨fun c task r htask => ?_, fun c r hr => ?_⟩
    · cases htask
    · cases hr
  | snoc x run ih => exact ih.snoc (inv_reachable run.reachable).1

/-- A fresh id is nobody's active command. -/
theorem fresh_not_active {x : Step (step (V := V))}
    (hknown : ∀ target c, x.src.activeOf target = some c → ∃ r, x.src.getCommand c = some r)
    {c : CommandId} {req : CommandSubmitRequest V} {manifest : Except Fault TargetManifest}
    (hl : x.label = .submitCommand req c manifest) (runner : TargetRunner)
    (hrunner : x.src.runners.get req.targetId = some runner) : runner.active ≠ some c := by
  intro hactive
  have hfired := x.fired
  rw [hl] at hfired
  simp only [step] at hfired
  split at hfired
  · cases hfired
  · rename_i hfresh
    obtain ⟨r, hr⟩ := hknown req.targetId c (by simp [activeOf, hrunner, hactive])
    exact hfresh (by simp [hr])

/-- What is taken passed the checks. -/
theorem Dispatches.admittedSpec {x : Step (step (V := V))}
    (hknown : ∀ target c, x.src.activeOf target = some c → ∃ r, x.src.getCommand c = some r)
    {c : CommandId} {req : CommandSubmitRequest V} {manifest : TargetManifest}
    (h : Dispatches x c req manifest) : ∃ spec, x.src.admittedSpec req manifest = some spec :=
  Option.isSome_iff_exists.mp
    ((submitCommand_suspended_iff (fresh_not_active hknown h.label) manifest).mp h.answer)

/-- **A step takes no submission beyond its action's level exactly if none
that passes the other checks asks for more.** -/
theorem dispatches_within_iff {x : Step (step (V := V))}
    (hknown : ∀ target c, x.src.activeOf target = some c → ∃ r, x.src.getCommand c = some r) :
    (∀ c req manifest spec, Dispatches x c req manifest →
      manifest.getAction req.action = some spec →
      req.completionRequirement.level ≤ spec.maxCompletion.level) ↔
    WithinMax x.src x.label = true := by
  constructor
  · intro hall
    cases hl : x.label with
    | submitCommand req c manifest =>
      cases manifest with
      | error fault => rfl
      | ok manifest =>
        simp only [WithinMax]
        cases hspec : x.src.admittedSpec req manifest with
        | none => rfl
        | some spec =>
          have htaken := (submitCommand_suspended_iff (fresh_not_active hknown hl) manifest).mpr
            (by simp [hspec])
          have hle := hall c req manifest spec ⟨hl, htaken⟩ (admittedSpec_getAction hspec)
          simpa using hle
    | _ => rfl
  · intro hok c req manifest spec hd hspec
    obtain ⟨spec', hspec'⟩ := hd.admittedSpec hknown
    obtain rfl := Option.some.inj ((admittedSpec_getAction hspec').symm.trans hspec)
    rw [hd.label] at hok
    simpa [WithinMax, hspec'] using hok

/-- **The levels of a run are honest exactly if no submission of it that
passes the other checks asks for more than its action declares.** -/
theorem honest_levels_iff (runtimeId bootId : String) (now : ℚ) (targets : List String)
    (customGuard : Bool) {xs : List (Step (step (V := V)))}
    (run : Run step (init runtimeId bootId now targets customGuard) xs s) :
    HonestLevels xs s ↔ ∀ x ∈ xs, WithinMax x.src x.label = true := by
  have hsteps := run.forall_iff fun x hx =>
    dispatches_within_iff (x := x) fun _ _ hactive => active_recorded hx hactive
  rw [← hsteps]
  constructor
  · exact fun h => h.refused
  · intro hrefused
    refine ⟨fun c r hr hdone hsucc => ?_, hrefused⟩
    obtain ⟨⟨x, hx, req, manifest, hd, hlevel⟩, hreached⟩ :=
      (levelInv_of_run run).reached c r hr hdone hsucc
    obtain ⟨spec, hspec⟩ := hd.admittedSpec fun _ _ hactive =>
      active_recorded (run.src_reachable hx) hactive
    have haction := admittedSpec_getAction hspec
    exact ⟨x, hx, req, manifest, spec, hd, haction, hlevel, hlevel ▸ hreached,
      hrefused x hx c req manifest spec hd haction⟩

omit [BEq V] in
/-- A `stop` that asks for what it declares. -/
theorem honest_levels_iff_stop :
    ∃ xs s, Run step motorRuntime xs s ∧
      (s.getCommand "c1").map (·.achievedCompletion) = some (some .acknowledged) ∧
      HonestLevels xs s := by
  obtain ⟨xs, s, run, hok, hs⟩ := execWhile_test WithinMax step motorRuntime
    [.acquireControlSession "op" .manual none "cs1",
      .submitCommand { moveRequest "req-1" "cs1" 0 .acknowledged with action := "stop" } "c1"
        (.ok (fakeMotor "motor01")),
      .executeReturned "c1"]
    (fun s => (s.getCommand "c1").map (·.achievedCompletion) == some (some .acknowledged))
    (by decide +kernel)
  refine ⟨xs, s, run, by simpa using hs, ?_⟩
  exact (honest_levels_iff "motor-test" "boot1" 0 ["motor01"] false run).mpr hok

omit [BEq V] in
/-- The defect: a `stop`, which declares `acknowledged` at most, is submitted
with the default level and reported as observed. -/
theorem stop_reported_observed :
    ¬ ∀ xs s, Run step motorRuntime xs s → HonestLevels xs s := by
  intro hall
  obtain ⟨xs, s, run, hlabels, hs⟩ := exec_labels step motorRuntime
    [.acquireControlSession "op" .manual none "cs1",
      .submitCommand { moveRequest "req-1" "cs1" 0 .observed with action := "stop" } "c1"
        (.ok (fakeMotor "motor01")),
      .executeReturned "c1", .observe "c1" (.ok true)]
    (fun s => (s.getCommand "c1").any fun r =>
      r.status = .terminal ∧ r.outcome = some .succeeded)
    (by decide +kernel)
  obtain ⟨r, hr, hdone⟩ := (Option.any_eq_true ..).mp hs
  obtain ⟨hdone, hsucc⟩ : r.status = .terminal ∧ r.outcome = some .succeeded := by
    simpa using hdone
  obtain ⟨x, hx, req, manifest, spec, hd, hspec, -, -, hle⟩ :=
    (hall xs s run).reached "c1" r hr hdone hsucc
  -- the only submission of the run is that of the `stop`
  have hmem := List.mem_map_of_mem (f := Step.label) hx
  rw [hlabels, hd.label] at hmem
  simp only [List.mem_cons, List.not_mem_nil, reduceCtorEq, RuntimeLabel.submitCommand.injEq,
    Except.ok.injEq, true_and, or_false, false_or] at hmem
  obtain ⟨rfl, rfl⟩ := hmem
  have hstop : (fakeMotor "motor01").getAction "stop" = some ⟨"stop", .acknowledged, .control⟩ := by
    decide
  cases hstop.symm.trans hspec
  exact absurd hle (by decide)

end

end DeviceRuntime

end Fusion
