import Fusion.Core.Exclusivity

/-!
# Drivers — who finishes a command

A command in flight is finished by one coroutine: `submit` while it awaits
`adapter.execute`, and the observer that `submit` leaves behind. `Handover`
says what a coroutine's step may do with its command: keep it, hand it to its
observer, or finish it and give up `_active`. The one way out that finishes
nothing is `dropped`: a cancelled observer that never ran.
-/

namespace Fusion

namespace DeviceRuntime

open Transition

variable {V : Type} {s t : DeviceRuntime V} {l : RuntimeLabel V}

/-- The command whose coroutine takes the step. -/
def RuntimeLabel.task? : RuntimeLabel V → Option CommandId
  | .executeReturned c | .executeRaised c _ | .observe c _ | .cancel c => some c
  | _ => none

theorem RuntimeLabel.kinds (l : RuntimeLabel V) :
    l.ofNoCommand = true ∨
      (∃ req freshId manifest, l = .submitCommand req freshId manifest) ∨
      ∃ c, l.task? = some c := by
  cases l with
  | submitCommand req freshId manifest => exact .inr (.inl ⟨req, freshId, manifest, rfl⟩)
  | executeReturned c | executeRaised c message | observe c complete | cancel c =>
    exact .inr (.inr ⟨c, rfl⟩)
  | _ => exact .inl rfl

/-! ## A coroutine's step -/

/-- The runners after the command `c` of `target` was finished. -/
def released (s : DeviceRuntime V) (target : String) (c : CommandId) :
    Dict String TargetRunner :=
  s.runners.mapValues fun name runner => if name = target then runner.release c else runner

section
variable [BEq V]

/-- **What a coroutine's step does with its command.** -/
inductive Handover (s : DeviceRuntime V) (l : RuntimeLabel V) (t : DeviceRuntime V)
    (task : CommandTask) (r : CommandRecord V) : Prop
  | goesOn (r' : CommandRecord V) (k : CommandTask) (drives : Drives s t r' (some k))
      (id : r'.commandId = r.commandId) (fits : Fits k r') (target : k.targetId = task.targetId)
      (runners : t.runners = s.runners)
  | ends (r' : CommandRecord V) (drives : Drives s t r' none) (id : r'.commandId = r.commandId)
      (done : r'.status = .terminal) (runners : t.runners = s.released task.targetId r.commandId)
  /-- an observer is cancelled before it runs: the record stays as it is -/
  | dropped (drives : Drives s t r none) (label : l = .cancel r.commandId)
      (spawned : task.stage = .spawned) (runners : t.runners = s.runners)

theorem handover_finish {u : DeviceRuntime V} {task : CommandTask} {r r' : CommandRecord V}
    {o : CommandOutcome} {a : Option CompletionRequirement}
    (hd : Drives s (u.finish task r' o a) (r'.finish o a) none)
    (hid : r'.commandId = r.commandId) (hrunners : u.runners = s.runners) :
    Handover s l (u.finish task r' o a) task r :=
  .ends _ hd hid rfl (by rw [← hid, released, ← hrunners]; rfl)

theorem Handover.reply {task : CommandTask} {r : CommandRecord V} (h : Handover s l t task r)
    (q : String) (c : CommandId) : Handover s l (t.reply q c) task r := by
  cases h with
  | goesOn r' k drives id fits target runners =>
    exact .goesOn r' k (drives.reply q c) id fits target runners
  | ends r' drives id done runners => exact .ends r' (drives.reply q c) id done runners
  | dropped drives label spawned runners =>
    exact .dropped (drives.reply q c) label spawned runners

theorem Handover.tasks {task : CommandTask} {r : CommandRecord V} (h : Handover s l t task r)
    {c : CommandId} (hc : c ≠ r.commandId) : t.tasks c = s.tasks c := by
  cases h with
  | goesOn r' k drives id fits target runners => exact drives.tasks c (id ▸ hc)
  | ends r' drives id done runners => exact drives.tasks c (id ▸ hc)
  | dropped drives label spawned runners => exact drives.tasks c hc

theorem Handover.records {task : CommandTask} {r : CommandRecord V}
    (h : Handover s l t task r) {c : CommandId} (hc : c ≠ r.commandId) :
    t.getCommand c = s.getCommand c := by
  cases h with
  | goesOn r' k drives id fits target runners => exact drives.records c (id ▸ hc)
  | ends r' drives id done runners => exact drives.records c (id ▸ hc)
  | dropped drives label spawned runners => exact drives.records c hc

theorem handover_executeReturned {task : CommandTask} {r : CommandRecord V}
    (hr : s.getCommand r.commandId = some r) (hfits : Fits task r)
    (hstage : task.stage = .executing) :
    Handover s l (s.executeReturned task r) task r := by
  have hstatus : r.status = .dispatching := by rw [hfits.status, hstage]; rfl
  rcases drives_executeReturned task hr hstatus with ⟨hlevel, hd⟩ | ⟨hlevel, hd⟩
  · refine .ends _ hd rfl rfl ?_
    unfold executeReturned
    cases hreq : r.completionRequirement with
    | dispatched => simp only [CommandRecord.setStatus, hreq, if_true]; rfl
    | acknowledged => simp only [CommandRecord.setStatus, hreq]; rfl
    | observed => exact absurd hreq hlevel
  · refine .goesOn _ _ hd rfl ⟨rfl, hfits.generation, hfits.target, fun _ => hlevel⟩ rfl ?_
    unfold executeReturned
    simp only [CommandRecord.setStatus, hlevel]
    rfl

theorem handover_fail {task : CommandTask} {r : CommandRecord V}
    (hr : s.getCommand r.commandId = some r) (hfits : Fits task r) (message : String) :
    Handover s l (s.fail task r message) task r :=
  handover_finish (drives_finish task hr hfits.live (.setInternalError hfits.live message) _ _)
    rfl rfl

theorem handover_observe {task : CommandTask} {r : CommandRecord V}
    (hr : s.getCommand r.commandId = some r) (hfits : Fits task r) {generation : Nat}
    {complete : Except String Bool} (h : s.observe task r generation complete = some t) :
    Handover s l t task r := by
  obtain ⟨hstage, deadline, rfl, -⟩ := observe_eq h
  have hfinish : ∀ (o : CommandOutcome) (a : Option CompletionRequirement),
      Handover s l (s.finish task r o a) task r := fun o a =>
    handover_finish (drives_finish task hr hfits.live (.refl r) o a) rfl rfl
  unfold observeLoop
  split
  · split
    · exact hfinish _ _
    · split
      · exact handover_fail hr hfits _
      · exact hfinish _ _
      · refine .goesOn r _ ((Drives.refl hr).setTask _) rfl ⟨?_, hfits.generation, hfits.target,
          fun _ => hfits.level hstage⟩ rfl rfl
        rw [hfits.status, hstage]
        rfl
  · exact hfinish _ _

theorem handover_cancel {task : CommandTask} {r : CommandRecord V}
    (hr : s.getCommand r.commandId = some r) (hfits : Fits task r) :
    Handover s (.cancel r.commandId) (s.cancel task r) task r := by
  unfold cancel
  cases hstage : task.stage with
  | executing | observing deadline wakeAt =>
    exact handover_finish (drives_finish task hr hfits.live (.refl r) _ _) rfl rfl
  | spawned => exact .dropped ((Drives.refl hr).setTask none) rfl hstage rfl

/-- **One step of a coroutine**, by its label. -/
theorem step_handover (h : OwnerInv s) {c : CommandId} (hl : l.task? = some c)
    (hs : s.step l = some t) :
    ∃ task r, s.tasks c = some task ∧ s.getCommand c = some r ∧ r.commandId = c ∧
      Fits task r ∧ Handover s l t task r := by
  have howner : ∀ {task r runner}, s.owner c = some (task, r, runner) →
      Handover s l t task r → ∃ task r, s.tasks c = some task ∧ s.getCommand c = some r ∧
        r.commandId = c ∧ Fits task r ∧ Handover s l t task r := by
    intro task r runner ho hand
    obtain ⟨rfl, htask, hr, hfits⟩ := h.owner ho
    exact ⟨task, r, htask, hr, rfl, hfits, hand⟩
  cases l with
  | executeReturned c' =>
    cases hl
    simp only [step] at hs
    split at hs
    · rename_i task r runner ho
      split at hs <;> cases hs
      rename_i hstage
      obtain ⟨-, -, hr, hfits⟩ := h.owner ho
      exact howner ho (handover_executeReturned hr hfits hstage)
    · cases hs
  | executeRaised c' message =>
    cases hl
    simp only [step] at hs
    split at hs
    · rename_i task r runner ho
      split at hs <;> cases hs
      obtain ⟨-, -, hr, hfits⟩ := h.owner ho
      exact howner ho ((handover_fail hr hfits message).reply _ _)
    · cases hs
  | observe c' complete =>
    cases hl
    simp only [step] at hs
    split at hs
    · rename_i task r runner ho
      obtain ⟨-, -, hr, hfits⟩ := h.owner ho
      exact howner ho (handover_observe hr hfits hs)
    · cases hs
  | cancel c' =>
    cases hl
    simp only [step] at hs
    split at hs
    · rename_i task r runner ho
      cases hs
      obtain ⟨rfl, -, hr, hfits⟩ := h.owner ho
      exact howner ho (handover_cancel hr hfits)
    · cases hs
  | _ => cases hl

/-- The steps about no command leave all coroutines where they are. -/
theorem step_tasks_of_ofNoCommand (hl : l.ofNoCommand = true) (hs : s.step l = some t) :
    t.tasks = s.tasks := by
  cases l with
  | applyGuarded i answer =>
    simp only [step] at hs
    split at hs
    · split at hs <;> cases hs
      exact (applyGuarded_frame ..).2.1
    · cases hs
  | applyConfig i revisionId expected =>
    simp only [step] at hs
    split at hs <;> cases hs
    exact (applyConfig_frame ..).2.1
  | applyLocked i =>
    simp only [step] at hs
    split at hs
    · split at hs <;> cases hs
      exact (applyLocked_frame ..).2.1
    · cases hs
  | advance dt | applyCancelled i =>
    simp only [step] at hs
    split at hs <;> cases hs
    rfl
  | eventGet subId =>
    obtain ⟨_, _, rfl⟩ := Option.map_eq_some_iff.mp hs
    rfl
  | acquireControlSession actor mode ttlS freshId | releaseControlSession sessionId
  | publishEvent name targetId | renewControlSession sessionId | stageConfig kind freshId
  | subscribeEvents | unsubscribeEvents subId =>
    cases hs
    rfl
  | submitCommand req freshId manifest | executeReturned c | executeRaised c message
  | observe c complete | cancel c => cases hl

/-! ## The invariant -/

/-- **Every command is looked after**: one that is not finished has a
coroutine at the stage its status tells, a finished one has none, and what a
runner calls active is looked after on that runner. -/
structure Driven (s : DeviceRuntime V) : Prop where
  driver : ∀ c r, s.getCommand c = some r → r.status ≠ .terminal →
    ∃ task, s.tasks c = some task ∧ Fits task r
  active : ∀ target c, s.activeOf target = some c →
    ∃ task, s.tasks c = some task ∧ task.targetId = target

omit [BEq V] in
theorem activeOf_released (target : String) (c : CommandId) {runners : Dict String TargetRunner}
    (h : runners = s.released target c) (u : DeviceRuntime V) (hu : u.runners = runners)
    {name : String} {c' : CommandId} (hactive : u.activeOf name = some c') :
    s.activeOf name = some c' ∧ (name = target → c' ≠ c) := by
  subst h
  rw [activeOf, hu, released, Dict.get_mapValues] at hactive
  cases hrunner : s.runners.get name with
  | none => simp [hrunner] at hactive
  | some runner =>
    rw [hrunner] at hactive
    simp only [Option.map_some, Option.bind_some] at hactive
    rw [activeOf, hrunner, Option.bind_some]
    by_cases hname : name = target
    · rw [if_pos hname, TargetRunner.release] at hactive
      split at hactive
      · cases hactive
      · rename_i hne
        refine ⟨hactive, fun _ heq => hne ?_⟩
        rw [← heq]
        exact hactive
    · rw [if_neg hname] at hactive
      exact ⟨hactive, fun h => absurd h hname⟩

/-- A step that is no command's leaves the active commands: a bump does too. -/
theorem activeOf_ofNoCommand (hnone : l.ofNoCommand = true) (hs : s.step l = some t)
    (target : String) : t.activeOf target = s.activeOf target := by
  rcases (step_sparesCommands hnone hs).runners with hsame | hbumped
  · rw [activeOf, hsame]
    rfl
  · rw [activeOf, hbumped, bumpGenerations, Dict.get_mapValues, Option.bind_map]
    rfl

omit [BEq V] in
/-- The command of a runner that has just accepted one. -/
theorem activeOf_accepted {runner : TargetRunner} {generation : Nat} {c' : CommandId}
    (hu : t.runners = s.runners.set runner.targetId
      { runner with active := some c', executionGeneration := generation })
    {target : String} {c : CommandId} (hactive : t.activeOf target = some c) :
    runner.targetId = target ∧ c = c' ∨ s.activeOf target = some c := by
  rw [activeOf, hu, Dict.get_set] at hactive
  split at hactive
  · rename_i hown
    exact .inl ⟨hown, (Option.some.inj hactive).symm⟩
  · exact .inr hactive

theorem Handover.driven {task : CommandTask} {r : CommandRecord V}
    (h : Handover s l t task r) (hi : Driven s) (htask : s.tasks r.commandId = some task)
    (hno : ¬ (l = .cancel r.commandId ∧ task.stage = .spawned)) : Driven t := by
  cases h with
  | goesOn r' k drives id fits target runners =>
    have hk : t.tasks r.commandId = some k := id ▸ drives.task
    refine ⟨fun c r₁ hr₁ hlive => ?_, fun name c hactive => ?_⟩
    · by_cases hc : c = r'.commandId
      · subst hc
        cases hr₁.symm.trans drives.record
        exact ⟨k, drives.task, fits⟩
      · rw [drives.records c hc] at hr₁
        rw [drives.tasks c hc]
        exact hi.driver c r₁ hr₁ hlive
    · rw [activeOf, runners] at hactive
      obtain ⟨task₁, htask₁, hname⟩ := hi.active name c hactive
      by_cases hc : c = r.commandId
      · subst hc
        cases htask.symm.trans htask₁
        exact ⟨k, hk, target.trans hname⟩
      · rw [drives.tasks c (id ▸ hc)]
        exact ⟨task₁, htask₁, hname⟩
  | ends r' drives id done runners =>
    refine ⟨fun c r₁ hr₁ hlive => ?_, fun name c hactive => ?_⟩
    · by_cases hc : c = r'.commandId
      · subst hc
        cases hr₁.symm.trans drives.record
        exact absurd done hlive
      · rw [drives.records c hc] at hr₁
        rw [drives.tasks c hc]
        exact hi.driver c r₁ hr₁ hlive
    · -- the finished command was active on its own runner at most
      obtain ⟨hactive', hne⟩ := activeOf_released _ _ rfl t runners hactive
      obtain ⟨task₁, htask₁, hname⟩ := hi.active name c hactive'
      by_cases hc : c = r.commandId
      · subst hc
        cases htask.symm.trans htask₁
        exact absurd rfl (hne hname.symm)
      · rw [drives.tasks c (id ▸ hc)]
        exact ⟨task₁, htask₁, hname⟩
  | dropped drives label spawned runners => exact absurd ⟨label, spawned⟩ hno

omit [BEq V] in
theorem runnerSubmit_ne_other (s : DeviceRuntime V) (runner : TargetRunner)
    (r : CommandRecord V) (manifest : TargetManifest) (message : String) :
    (s.runnerSubmit runner r (.ok manifest)).1 ≠ .error (.other message) := by
  unfold runnerSubmit
  simp only
  split
  · intro h
    cases h
  · split
    · intro h
      cases h
    · intro h
      cases h

/-- Where the manifest can be read, a submission is refused by the Runtime's
own errors only. -/
theorem submitCommand_ne_other (s : DeviceRuntime V) (req : CommandSubmitRequest V)
    (freshId : CommandId) (manifest : TargetManifest) (message : String) :
    (s.submitCommand req freshId (.ok manifest)).1 ≠ .error (.other message) := by
  unfold submitCommand
  cases s.runners.get req.targetId with
  | none =>
    intro h
    cases h
  | some runner =>
    simp only
    split
    · intro h
      cases h
    · split
      · intro h
        cases h
      · intro h
        cases h
      · rename_i r ledger _
        split
        · intro h
          cases h
        · intro h
          cases h
        · rename_i message' u hsub
          intro h
          exact absurd (congrArg Prod.fst hsub) (runnerSubmit_ne_other _ runner r manifest message')

/-- A submission whose manifest can be read leaves no command alone. -/
theorem Driven.submitCommand (hi : Driven s) (howner : OwnerInv s)
    (req : CommandSubmitRequest V) {freshId : CommandId} (hfresh : s.getCommand freshId = none)
    (manifest : TargetManifest) : Driven (s.submitCommand req freshId (.ok manifest)).2 := by
  have hfresh' : ∀ {c r}, s.getCommand c = some r → c ≠ freshId := by
    intro c r hr hc
    rw [hc, hfresh] at hr
    cases hr
  have htasks : ∀ {c task}, s.tasks c = some task → c ≠ freshId := by
    intro c task htask
    obtain ⟨r, hr, _⟩ := howner.owned c task htask
    exact hfresh' hr
  have hout := submitCommand_cases s req freshId (.ok manifest)
  generalize hanswer : s.submitCommand req freshId (.ok manifest) = answer at hout
  cases hout with
  | refused e sessions => exact ⟨hi.driver, hi.active⟩
  | existing entry _ _ => exact ⟨hi.driver, hi.active⟩
  | faulted message r made _ =>
    exact absurd (congrArg Prod.fst hanswer) (submitCommand_ne_other s req freshId manifest message)
  | rejected e r made _ =>
    refine ⟨fun c r₁ hr₁ hlive => ?_, hi.active⟩
    replace hr₁ : ((s.admitted req r).change (r.reject e)).getCommand c = some r₁ := hr₁
    rw [getCommand_change] at hr₁
    split at hr₁
    · cases hr₁
      exact absurd rfl hlive
    · rename_i hne
      rw [getCommand_admitted, if_neg (show ¬ r.commandId = c from hne)] at hr₁
      exact hi.driver c r₁ hr₁ hlive
  | accepted runner generation r made hrunner hgeneration _ =>
    have hname : runner.targetId = req.targetId := howner.runners _ _ hrunner
    refine ⟨fun c r₁ hr₁ hlive => ?_, fun name c hactive => ?_⟩
    · replace hr₁ := (getCommand_change _ (r.dispatch generation) c).symm.trans hr₁
      split at hr₁
      · rename_i hc
        cases hr₁
        subst hc
        refine ⟨⟨runner.targetId, generation, .executing⟩, tasks_setTask_self .., rfl, rfl, ?_, ?_⟩
        · exact made.targetId.trans hname.symm
        · simp [TaskStage.status]
      · rename_i hne
        replace hr₁ := (getCommand_admitted s req r c).symm.trans hr₁
        rw [if_neg (show ¬ r.commandId = c from hne)] at hr₁
        obtain ⟨task, htask, hfits⟩ := hi.driver c r₁ hr₁ hlive
        exact ⟨task, (tasks_setTask_ne _ _ (Ne.symm hne)).trans htask, hfits⟩
    · rcases activeOf_accepted (s := s) rfl hactive with ⟨hown, rfl⟩ | hold
      · -- the new command is the active one of its runner
        exact ⟨⟨runner.targetId, generation, .executing⟩, tasks_setTask_self .., hown⟩
      · obtain ⟨task, htask, htarget⟩ := hi.active name c hold
        have hne : c ≠ r.commandId := made.commandId ▸ htasks htask
        exact ⟨task, (tasks_setTask_ne _ _ hne).trans htask, htarget⟩

/-! ## Steps and runs -/

/-- The assumptions on the environment: `manifest()` does not raise, and a
coroutine is cancelled where it is suspended, so not before its first run. -/
def Regular (s : DeviceRuntime V) : RuntimeLabel V → Bool
  | .submitCommand _ _ manifest => manifest.isOk
  | .cancel c => (s.tasks c).all fun task => task.stage ≠ .spawned
  | _ => true

/-- **One step keeps every command looked after.** -/
theorem Driven.step (hi : Driven s) (howner : OwnerInv s) (hs : s.step l = some t)
    (hok : Regular s l = true) : Driven t := by
  rcases l.kinds with hnone | ⟨req, freshId, manifest, rfl⟩ | ⟨c, hl⟩
  · have hspares := step_sparesCommands hnone hs
    have htasks := step_tasks_of_ofNoCommand hnone hs
    refine ⟨fun c r hr hlive => ?_, fun name c hactive => ?_⟩
    · rw [getCommand, hspares.ledger] at hr
      rw [htasks]
      exact hi.driver c r hr hlive
    · rw [htasks]
      rw [activeOf_ofNoCommand hnone hs] at hactive
      exact hi.active name c hactive
  · simp only [DeviceRuntime.step] at hs
    split at hs <;> cases hs
    rename_i hfresh
    cases manifest with
    | error fault => cases hok
    | ok manifest => exact hi.submitCommand howner req (by simpa using hfresh) manifest
  · obtain ⟨task, r, htask, hr, rfl, hfits, hand⟩ := step_handover howner hl hs
    refine hand.driven hi htask ?_
    rintro ⟨rfl, hspawned⟩
    simp [Regular, htask, hspawned] at hok

/-- A command's coroutine is made when the command is admitted, and changed
by its own steps only. -/
def OneDriver (x : Step (DeviceRuntime.step (V := V))) : Prop :=
  ∀ c, x.dst.tasks c ≠ x.src.tasks c → x.label.task? = some c ∨
    x.src.getCommand c = none ∧ x.src.tasks c = none ∧
      ∃ req manifest, x.label = .submitCommand req c manifest

/-- A coroutine that ends leaves its command finished and active nowhere. -/
def Clears (x : Step (DeviceRuntime.step (V := V))) : Prop :=
  ∀ c task, x.src.tasks c = some task → x.dst.tasks c = none →
    (∃ r, x.dst.getCommand c = some r ∧ r.status = .terminal) ∧
      ∀ target, x.dst.activeOf target ≠ some c

theorem submitCommand_tasks (s : DeviceRuntime V) (req : CommandSubmitRequest V)
    {freshId c : CommandId} (manifest : Except Fault TargetManifest) (hc : c ≠ freshId) :
    (s.submitCommand req freshId manifest).2.tasks c = s.tasks c := by
  have hout := submitCommand_cases s req freshId manifest
  generalize s.submitCommand req freshId manifest = answer at hout
  cases hout with
  | accepted runner generation r made _ _ _ => exact tasks_setTask_ne _ _ (made.commandId ▸ hc)
  | _ => rfl

theorem submitCommand_records (s : DeviceRuntime V) (req : CommandSubmitRequest V)
    {freshId c : CommandId} (manifest : Except Fault TargetManifest) (hc : c ≠ freshId) :
    (s.submitCommand req freshId manifest).2.getCommand c = s.getCommand c := by
  have hout := submitCommand_cases s req freshId manifest
  generalize s.submitCommand req freshId manifest = answer at hout
  have hadmitted : ∀ {r : CommandRecord V}, MadeFrom req freshId r →
      (s.admitted req r).getCommand c = s.getCommand c := fun made => by
    rw [getCommand_admitted, if_neg (made.commandId ▸ Ne.symm hc)]
  cases hout with
  | refused e sessions => rfl
  | existing entry _ _ => rfl
  | faulted message r made _ => exact hadmitted made
  | rejected e r made _ =>
    have hne : (r.reject e).commandId ≠ c := by
      rw [show (r.reject e).commandId = freshId from made.commandId]
      exact Ne.symm hc
    exact (getCommand_change_ne _ hne).trans (hadmitted made)
  | accepted runner generation r made _ _ _ =>
    have hne : (r.dispatch generation).commandId ≠ c := by
      rw [show (r.dispatch generation).commandId = freshId from made.commandId]
      exact Ne.symm hc
    exact (getCommand_change_ne _ hne).trans (hadmitted made)

theorem step_oneDriver {x : Step (DeviceRuntime.step (V := V))} (h : OwnerInv x.src) :
    OneDriver x := by
  intro c hne
  obtain ⟨s, l, t, hs⟩ := x
  rcases l.kinds with hnone | ⟨req, freshId, manifest, rfl⟩ | ⟨c', hl⟩
  · exact absurd (congrFun (step_tasks_of_ofNoCommand hnone hs) c) hne
  · simp only [DeviceRuntime.step] at hs
    split at hs <;> cases hs
    rename_i hfresh
    have hc : c = freshId := by
      by_contra hc
      exact hne (submitCommand_tasks s req manifest hc)
    subst hc
    have hnone : s.getCommand c = none := by simpa using hfresh
    refine .inr ⟨hnone, ?_, req, manifest, rfl⟩
    cases htask : s.tasks c with
    | none => rfl
    | some task =>
      obtain ⟨r, hr, -⟩ := h.owned c task htask
      rw [hnone] at hr
      cases hr
  · obtain ⟨task, r, -, -, rfl, -, hand⟩ := step_handover h hl hs
    refine .inl ?_
    have hc : c = r.commandId := by
      by_contra hc
      exact hne (hand.tasks hc)
    exact hc ▸ hl

theorem Driven.clears {x : Step (DeviceRuntime.step (V := V))} (h : OwnerInv x.src)
    (hdst : Driven x.dst) : Clears x := by
  intro c task htask hnone
  obtain ⟨r, hr, -⟩ := h.owned c task htask
  obtain ⟨r', hr', -⟩ := (step_moves h x.fired).effects.later c r hr
  refine ⟨⟨r', hr', ?_⟩, fun target hactive => ?_⟩
  · by_contra hlive
    obtain ⟨task', htask', -⟩ := hdst.driver c r' hr' hlive
    rw [hnone] at htask'
    cases htask'
  · obtain ⟨task', htask', -⟩ := hdst.active target c hactive
    rw [hnone] at htask'
    cases htask'

/-- A runner's active command is the one it had, or a recorded one. -/
theorem step_activeOf (howner : OwnerInv s) (hs : s.step l = some t) {target : String}
    {c : CommandId} (hactive : t.activeOf target = some c) :
    s.activeOf target = some c ∨ ∃ r, t.getCommand c = some r := by
  rcases l.kinds with hnone | ⟨req, freshId, manifest, rfl⟩ | ⟨c', hl⟩
  · left
    rw [← activeOf_ofNoCommand hnone hs]
    exact hactive
  · simp only [DeviceRuntime.step] at hs
    split at hs <;> cases hs
    have hout := submitCommand_cases s req freshId manifest
    generalize s.submitCommand req freshId manifest = answer at hout hactive
    cases hout with
    | accepted runner generation r made _ _ _ =>
      rcases activeOf_accepted (s := s) rfl hactive with ⟨-, rfl⟩ | hold
      · exact .inr ⟨_, getCommand_change_self _ (r.dispatch generation)⟩
      · exact .inl hold
    | _ => exact .inl hactive
  · obtain ⟨task, r, -, -, rfl, -, hand⟩ := step_handover howner hl hs
    refine .inl ?_
    cases hand with
    | goesOn r' k drives id fits target runners =>
      rw [activeOf, runners] at hactive
      exact hactive
    | ends r' drives id done runners => exact (activeOf_released _ _ rfl t runners hactive).1
    | dropped drives label spawned runners =>
      rw [activeOf, runners] at hactive
      exact hactive

/-- What a runner calls active is in the ledger. -/
theorem active_recorded {runtimeId bootId : String} {now : ℚ} {targets : List String}
    {customGuard : Bool}
    (h : Reachable DeviceRuntime.step
      (DeviceRuntime.init (V := V) runtimeId bootId now targets customGuard) s)
    {target : String} {c : CommandId} (hactive : s.activeOf target = some c) :
    ∃ r, s.getCommand c = some r := by
  refine (h.invariant (I := fun s => OwnerInv s ∧
    ∀ target c, s.activeOf target = some c → ∃ r, s.getCommand c = some r)
    ⟨.init runtimeId bootId now targets customGuard, fun target c hactive => ?_⟩ ?_).2 target c
      hactive
  · obtain ⟨runner, hrunner, hc⟩ := Option.bind_eq_some_iff.mp hactive
    rw [runners_init hrunner] at hc
    cases hc
  · intro s l t hi hs
    refine ⟨hi.1.step hs, fun target c hactive => ?_⟩
    rcases step_activeOf hi.1 hs hactive with hold | hnew
    · obtain ⟨r, hr⟩ := hi.2 target c hold
      obtain ⟨r', hr', -⟩ := (step_moves hi.1 hs).effects.later c r hr
      exact ⟨r', hr'⟩
    · exact hnew

/-- **Nothing is orphaned**: a command that is not finished has a driver, the
`submit` coroutine while it is DISPATCHING and its observer while it is
OBSERVING; a finished one has none; and a busy runner has one that drives the
command it is busy with. -/
structure NoOrphans (s : DeviceRuntime V) : Prop where
  driver : ∀ c r, s.getCommand c = some r → r.status ≠ .terminal →
    ∃ task, s.tasks c = some task ∧ Fits task r
  finished : ∀ c r, s.getCommand c = some r → r.status = .terminal → s.tasks c = none
  busy : ∀ target runner, s.runners.get target = some runner → s.busy runner = true →
    ∃ c task, runner.active = some c ∧ s.tasks c = some task ∧ task.targetId = target

omit [BEq V] in
theorem Driven.noOrphans (hi : Driven s) (howner : OwnerInv s) : NoOrphans s where
  driver := hi.driver
  finished := by
    intro c r hr hdone
    cases htask : s.tasks c with
    | none => rfl
    | some task =>
      obtain ⟨r', hr', hfits⟩ := howner.owned c task htask
      cases hr.symm.trans hr'
      exact absurd hdone hfits.live
  busy := by
    intro target runner hrunner hbusy
    cases hactive : runner.active with
    | none => simp [DeviceRuntime.busy, hactive] at hbusy
    | some c =>
      have hof : s.activeOf target = some c := by simp [activeOf, hrunner, hactive]
      obtain ⟨task, htask, htarget⟩ := hi.active target c hof
      exact ⟨c, task, rfl, htask, htarget⟩

omit [BEq V] in
theorem Driven.init (runtimeId bootId : String) (now : ℚ) (targets : List String)
    (customGuard : Bool) : Driven (init (V := V) runtimeId bootId now targets customGuard) where
  driver := by simp [DeviceRuntime.init, getCommand, CommandLedger.get, CommandLedger.new]
  active := by
    intro target c hactive
    obtain ⟨runner, hrunner, hc⟩ := Option.bind_eq_some_iff.mp hactive
    rw [runners_init hrunner] at hc
    cases hc

/-- **No command is orphaned**, in any run in which manifests can be read and
coroutines are cancelled where they are suspended. -/
theorem no_orphaned_command (runtimeId bootId : String) (now : ℚ) (targets : List String)
    (customGuard : Bool) {xs : List (Step (DeviceRuntime.step (V := V)))}
    (run : Run DeviceRuntime.step (init runtimeId bootId now targets customGuard) xs s)
    (hok : ∀ x ∈ xs, Regular x.src x.label = true) :
    NoOrphans s ∧ ∀ x ∈ xs, OneDriver x ∧ Clears x := by
  obtain ⟨hsrc, hend⟩ := run.invariant_of (I := fun u => OwnerInv u ∧ Driven u)
    (fun x => Regular x.src x.label = true)
    ⟨.init runtimeId bootId now targets customGuard, .init runtimeId bootId now targets customGuard⟩
    (fun x hi hx => ⟨hi.1.step x.fired, hi.2.step hi.1 x.fired hx⟩) hok
  refine ⟨hend.2.noOrphans hend.1, fun x hx => ?_⟩
  obtain ⟨howner, hi⟩ := hsrc x hx
  exact ⟨step_oneDriver howner, (hi.step howner x.fired (hok x hx)).clears howner⟩

omit [BEq V] in
/-- A `move` whose observer is cancelled in its sleep, and a `stop` after it
whose `execute` raises: nothing is left busy. -/
theorem no_orphaned_command_cancelled :
    ∃ xs s, Run DeviceRuntime.step motorRuntime xs s ∧
      (s.getCommand "c1").map (·.outcome) = some (some .cancelled) ∧
      (s.getCommand "c2").map (·.outcome) = some (some .failed) ∧
      NoOrphans s ∧ ∀ x ∈ xs, OneDriver x ∧ Clears x := by
  obtain ⟨xs, s, run, hok, hs⟩ := execWhile_test Regular DeviceRuntime.step motorRuntime
    [.acquireControlSession "op" .manual none "cs1",
      .submitCommand (moveRequest "req-1" "cs1" 100 .observed) "c1" (.ok (fakeMotor "motor01")),
      .executeReturned "c1", .observe "c1" (.ok false),
      .submitCommand { moveRequest "req-2" "cs1" 0 .acknowledged with action := "stop" } "c2"
        (.ok (fakeMotor "motor01")),
      .cancel "c1", .executeRaised "c2" "driver fault"]
    (fun s => (s.getCommand "c1").map (·.outcome) == some (some .cancelled) &&
      (s.getCommand "c2").map (·.outcome) == some (some .failed))
    (by decide +kernel)
  simp only [Bool.and_eq_true, beq_iff_eq] at hs
  exact ⟨xs, s, run, hs.1, hs.2,
    no_orphaned_command "motor-test" "boot1" 0 ["motor01"] false run hok⟩

end

end DeviceRuntime

end Fusion
