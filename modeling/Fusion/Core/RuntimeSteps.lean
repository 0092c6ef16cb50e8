import Fusion.Core.DeviceRuntime
import Mathlib.Logic.Relation

/-!
# RuntimeSteps — what a Runtime step does to records and coroutines

One spec lemma for each function of the runner (`Drives`), one for the first
stretch of a submission (`SubmitOutcome`), and `step_moves`: a step does
nothing to any command, or admits one, or drives one that a coroutine owns.
Records and events change only by the few `Effect`s; the laws about them are
read off the effects, not off the code.
-/

namespace Fusion

/-! ## The order of a record's life -/

theorem CommandStatus.rank_le_terminal (s : CommandStatus) : s.rank ≤ terminal.rank := by
  cases s <;> decide

/-- `r'` is a later state of the record `r`. -/
structure CommandRecord.Le {V : Type} (r r' : CommandRecord V) : Prop where
  rank : r.status.rank ≤ r'.status.rank
  frozen : r.status = .terminal → r' = r
  commandId : r'.commandId = r.commandId
  requestId : r'.requestId = r.requestId
  targetId : r'.targetId = r.targetId
  requirement : r'.completionRequirement = r.completionRequirement
  fingerprint : r'.fingerprint = r.fingerprint
  outcome : r.status ≠ .terminal → r'.status = .terminal → r'.outcome.isSome = true
  /-- the stamp is final once the record is dispatched -/
  generation : 1 ≤ r.status.rank → r'.executionGeneration = r.executionGeneration

namespace CommandRecord

variable {V : Type} {r r' r'' : CommandRecord V}

theorem Le.refl (r : CommandRecord V) : r.Le r :=
  ⟨Nat.le_refl _, fun _ => rfl, rfl, rfl, rfl, rfl, rfl, fun h ht => absurd ht h, fun _ => rfl⟩

theorem Le.trans (h : r.Le r') (h' : r'.Le r'') : r.Le r'' where
  rank := h.rank.trans h'.rank
  frozen := fun ht => by
    have hr := h.frozen ht
    rw [hr] at h'
    exact h'.frozen ht
  commandId := h'.commandId.trans h.commandId
  requestId := h'.requestId.trans h.requestId
  targetId := h'.targetId.trans h.targetId
  requirement := h'.requirement.trans h.requirement
  fingerprint := h'.fingerprint.trans h.fingerprint
  outcome := fun hlive hdone => by
    by_cases hmid : r'.status = .terminal
    · rw [h'.frozen hmid]
      exact h.outcome hlive hmid
    · exact h'.outcome hmid hdone
  generation := fun hr => (h'.generation (hr.trans h.rank)).trans (h.generation hr)

/-- A live record may take any later live status. -/
theorem Le.setStatus (hlive : r.status ≠ .terminal) {st : CommandStatus}
    (hrank : r.status.rank ≤ st.rank) (hst : st ≠ .terminal) : r.Le (r.setStatus st) :=
  ⟨hrank, fun ht => absurd ht hlive, rfl, rfl, rfl, rfl, rfl, fun _ ht => absurd ht hst,
    fun _ => rfl⟩

theorem Le.dispatch (hqueued : r.status = .queued) (generation : Nat) :
    r.Le (r.dispatch generation) := by
  refine ⟨?_, fun ht => ?_, rfl, rfl, rfl, rfl, rfl, nofun, fun hrank => ?_⟩
  · simp [hqueued, CommandStatus.rank]
  · simp [hqueued] at ht
  · simp [hqueued, CommandStatus.rank] at hrank

theorem Le.finish (hle : r.Le r') (hlive : r.status ≠ .terminal) (o : CommandOutcome)
    (a : Option CompletionRequirement) : r.Le (r'.finish o a) :=
  ⟨r.status.rank_le_terminal, fun ht => absurd ht hlive, hle.commandId, hle.requestId,
    hle.targetId, hle.requirement, hle.fingerprint, fun _ _ => rfl, hle.generation⟩

theorem Le.reject (hlive : r.status ≠ .terminal) (e : FusionError) : r.Le (r.reject e) :=
  ⟨r.status.rank_le_terminal, fun ht => absurd ht hlive, rfl, rfl, rfl, rfl, rfl, fun _ _ => rfl,
    fun _ => rfl⟩

theorem Le.setInternalError (hlive : r.status ≠ .terminal) (message : String) :
    r.Le (r.setInternalError message) :=
  ⟨Nat.le_refl _, fun ht => absurd ht hlive, rfl, rfl, rfl, rfl, rfl, fun _ ht => absurd ht hlive,
    fun _ => rfl⟩

end CommandRecord

/-- The status of a record whose coroutine is at the given stage. -/
def TaskStage.status : TaskStage → CommandStatus
  | executing => .dispatching
  | spawned | observing _ _ => .observing

theorem TaskStage.status_ne_terminal (g : TaskStage) : g.status ≠ .terminal := by
  cases g <;> simp [TaskStage.status]

namespace DeviceRuntime

open Transition Relation

variable {V : Type} {s t : DeviceRuntime V}

/-! ## Reading a state after an operation -/

@[simp] theorem getCommand_publish (s : DeviceRuntime V) (f : EventFields) (c : CommandId) :
    (s.publish f).getCommand c = s.getCommand c := rfl

theorem getCommand_change (s : DeviceRuntime V) (r : CommandRecord V) (c : CommandId) :
    (s.change r).getCommand c = if r.commandId = c then some r else s.getCommand c :=
  CommandLedger.get_store ..

@[simp] theorem getCommand_change_self (s : DeviceRuntime V) (r : CommandRecord V) :
    (s.change r).getCommand r.commandId = some r := by
  simp [getCommand_change]

theorem getCommand_change_ne (s : DeviceRuntime V) {r : CommandRecord V} {c : CommandId}
    (h : r.commandId ≠ c) : (s.change r).getCommand c = s.getCommand c := by
  simp [getCommand_change, h]

@[simp] theorem getCommand_setRunner (s : DeviceRuntime V) (r : TargetRunner) (c : CommandId) :
    (s.setRunner r).getCommand c = s.getCommand c := rfl

@[simp] theorem getCommand_setTask (s : DeviceRuntime V) (c' : CommandId)
    (t : Option CommandTask) (c : CommandId) :
    (s.setTask c' t).getCommand c = s.getCommand c := rfl

@[simp] theorem getCommand_reply (s : DeviceRuntime V) (q : String) (c' c : CommandId) :
    (s.reply q c').getCommand c = s.getCommand c := rfl

@[simp] theorem getCommand_bumpGenerations (s : DeviceRuntime V) (c : CommandId) :
    s.bumpGenerations.getCommand c = s.getCommand c := rfl

@[simp] theorem tasks_change (s : DeviceRuntime V) (r : CommandRecord V) :
    (s.change r).tasks = s.tasks := rfl

@[simp] theorem tasks_setTask_self (s : DeviceRuntime V) (c : CommandId)
    (t : Option CommandTask) : (s.setTask c t).tasks c = t := by
  simp [setTask]

theorem tasks_setTask_ne (s : DeviceRuntime V) {c c' : CommandId} (t : Option CommandTask)
    (h : c' ≠ c) : (s.setTask c t).tasks c' = s.tasks c' := by
  simp [setTask, h]

theorem getCommand_finish (s : DeviceRuntime V) (t : CommandTask) (r : CommandRecord V)
    (o : CommandOutcome) (a : Option CompletionRequirement) (c : CommandId) :
    (s.finish t r o a).getCommand c =
      if r.commandId = c then some (r.finish o a) else s.getCommand c :=
  getCommand_change ..

@[simp] theorem tasks_finish_self (s : DeviceRuntime V) (t : CommandTask) (r : CommandRecord V)
    (o : CommandOutcome) (a : Option CompletionRequirement) :
    (s.finish t r o a).tasks r.commandId = none :=
  tasks_setTask_self ..

/-! ## Runners under their own names -/

/-- Each runner lies under its own target id. -/
def Named (s : DeviceRuntime V) : Prop :=
  ∀ target runner, s.runners.get target = some runner → runner.targetId = target

theorem Named.mapRunners (h : Named s) {f : String → TargetRunner → TargetRunner}
    (hf : ∀ target runner, (f target runner).targetId = runner.targetId) :
    Named { s with runners := s.runners.mapValues f } := by
  intro target runner hr
  simp only [Dict.get_mapValues, Option.map_eq_some_iff] at hr
  obtain ⟨runner', hr', rfl⟩ := hr
  rw [hf, h target runner' hr']

theorem Named.bumpGenerations (h : Named s) : Named s.bumpGenerations :=
  h.mapRunners fun _ _ => rfl

theorem Named.setRunner (h : Named s) (r : TargetRunner) : Named (s.setRunner r) := by
  intro target runner hr
  simp only [DeviceRuntime.setRunner, Dict.get_set] at hr
  split at hr
  · rename_i hname
    cases hr
    exact hname
  · exact h target runner hr

/-! ## Effects -/

/-- The state after `begin` made the record `r` of `req`. -/
def admitted (s : DeviceRuntime V) (req : CommandSubmitRequest V) (r : CommandRecord V) :
    DeviceRuntime V :=
  { s with ledger :=
    { byRequestId := s.ledger.byRequestId.set req.requestId ⟨fingerprint req, r.commandId⟩
      byCommandId := s.ledger.byCommandId.set r.commandId r } }

theorem getCommand_admitted (s : DeviceRuntime V) (req : CommandSubmitRequest V)
    (r : CommandRecord V) (c : CommandId) :
    (s.admitted req r).getCommand c = if r.commandId = c then some r else s.getCommand c :=
  Dict.get_set ..

/-- What a piece of a step does to records and events. -/
inductive Effect [BEq V] : DeviceRuntime V → DeviceRuntime V → Prop
  /-- records and the event history stay -/
  | frame {s t : DeviceRuntime V} (ledger : t.ledger = s.ledger)
      (published : t.published = s.published)
      (events : ∀ es, s.events.Inv es → t.events.Inv es) (named : Named s → Named t) :
      Effect s t
  /-- an event of the adapter's own -/
  | event {s : DeviceRuntime V} (f : EventFields) (hf : f.commandId = none) :
      Effect s (s.publish f)
  /-- `begin` makes a record -/
  | begun {s : DeviceRuntime V} (req : CommandSubmitRequest V) (r : CommandRecord V)
      (hq : r.requestId = req.requestId) (hf : r.fingerprint = fingerprint req)
      (hstatus : r.status = .queued)
      (hreq : s.ledger.byRequestId.get req.requestId = none)
      (hfresh : s.getCommand r.commandId = none) :
      Effect s (s.admitted req r)
  /-- a live record moves on, and is reported -/
  | change {s : DeviceRuntime V} (old r : CommandRecord V)
      (hold : s.getCommand r.commandId = some old) (hlive : old.status ≠ .terminal)
      (hle : old.Le r) : Effect s (s.change r)

/-- What comes of any number of assignments. -/
abbrev Effects [BEq V] : DeviceRuntime V → DeviceRuntime V → Prop := ReflTransGen Effect

/-- The runner's generation of a target. -/
def generation (s : DeviceRuntime V) (target : String) : Option Nat :=
  (s.runners.get target).map (·.executionGeneration)

/-- A step drives one command: its record becomes `r'`, its coroutine
`task'`; all other records and coroutines, and every generation, stay. -/
structure Drives [BEq V] (s t : DeviceRuntime V) (r' : CommandRecord V)
    (task' : Option CommandTask) : Prop where
  effects : Effects s t
  record : t.getCommand r'.commandId = some r'
  records : ∀ c, c ≠ r'.commandId → t.getCommand c = s.getCommand c
  task : t.tasks r'.commandId = task'
  tasks : ∀ c, c ≠ r'.commandId → t.tasks c = s.tasks c
  generations : ∀ target, t.generation target = s.generation target

section
variable [BEq V]

theorem Drives.of_change {r r' : CommandRecord V} (hid : r'.commandId = r.commandId)
    (hr : s.getCommand r.commandId = some r) (hlive : r.status ≠ .terminal) (hle : r.Le r') :
    Drives s (s.change r') r' (s.tasks r'.commandId) where
  effects := .single (.change r r' (hid ▸ hr) hlive hle)
  record := getCommand_change_self s r'
  records := fun _ hc => getCommand_change_ne s (Ne.symm hc)
  task := rfl
  tasks := fun _ _ => rfl
  generations := fun _ => rfl

theorem Drives.trans {u : DeviceRuntime V} {r r' : CommandRecord V} {k k' : Option CommandTask}
    (h : Drives s t r k) (h' : Drives t u r' k') (hid : r'.commandId = r.commandId) :
    Drives s u r' k' where
  effects := h.effects.trans h'.effects
  record := h'.record
  records := fun c hc => (h'.records c hc).trans (h.records c (hid ▸ hc))
  task := h'.task
  tasks := fun c hc => (h'.tasks c hc).trans (h.tasks c (hid ▸ hc))
  generations := fun target => (h'.generations target).trans (h.generations target)

/-- Replacing the coroutine is no effect on records. -/
theorem Drives.setTask {r : CommandRecord V} {k : Option CommandTask} (h : Drives s t r k)
    (k' : Option CommandTask) : Drives s (t.setTask r.commandId k') r k' where
  effects := h.effects.tail (.frame rfl rfl (fun _ he => he) fun hn => hn)
  record := h.record
  records := h.records
  task := tasks_setTask_self ..
  tasks := fun c hc => (tasks_setTask_ne t k' hc).trans (h.tasks c hc)
  generations := h.generations

/-- Nor is changing runners, apart from their generations. -/
theorem Drives.setRunners {r : CommandRecord V} {k : Option CommandTask} (h : Drives s t r k)
    {runners : Dict String TargetRunner}
    (hg : ∀ target, (runners.get target).map (·.executionGeneration) = t.generation target)
    (hn : Named t → Named { t with runners := runners }) :
    Drives s { t with runners := runners } r k :=
  ⟨h.effects.tail (.frame rfl rfl (fun _ he => he) hn), h.record, h.records, h.task, h.tasks,
    fun target => (hg target).trans (h.generations target)⟩

theorem Drives.reply {r : CommandRecord V} {k : Option CommandTask} (h : Drives s t r k)
    (q : String) (c : CommandId) : Drives s (t.reply q c) r k :=
  ⟨h.effects.tail (.frame rfl rfl (fun _ he => he) fun hn => hn), h.record, h.records, h.task,
    h.tasks, h.generations⟩

theorem Drives.refl {r : CommandRecord V} (hr : s.getCommand r.commandId = some r) :
    Drives s s r (s.tasks r.commandId) :=
  ⟨.refl, hr, fun _ _ => rfl, rfl, fun _ _ => rfl, fun _ => rfl⟩

/-! ## One spec for each function of the runner -/

theorem drives_finish (task : CommandTask) {r r' : CommandRecord V}
    (hr : s.getCommand r.commandId = some r) (hlive : r.status ≠ .terminal) (hle : r.Le r')
    (o : CommandOutcome) (a : Option CompletionRequirement) :
    Drives s (s.finish task r' o a) (r'.finish o a) none := by
  have hchange : Drives s (s.change (r'.finish o a)) (r'.finish o a) _ :=
    .of_change hle.commandId hr hlive (hle.finish hlive o a)
  refine (hchange.setRunners (fun target => ?_) (fun hn => hn.mapRunners ?_)).setTask none
  · simp only [generation, Dict.get_mapValues, Option.map_map]
    congr 1
    funext runner
    simp only [Function.comp_apply]
    split <;> simp
  · intro target runner
    split <;> simp

/-- `adapter.execute` returned: the command succeeds at the level it asked
for, or goes on to be observed. -/
theorem drives_executeReturned (task : CommandTask) {r : CommandRecord V}
    (hr : s.getCommand r.commandId = some r) (hstatus : r.status = .dispatching) :
    (r.completionRequirement ≠ .observed ∧
      Drives s (s.executeReturned task r)
        (r.finish .succeeded (some r.completionRequirement)) none) ∨
    (r.completionRequirement = .observed ∧
      Drives s (s.executeReturned task r) (r.setStatus .observing)
        (some { task with stage := .spawned })) := by
  have hlive : r.status ≠ .terminal := by simp [hstatus]
  have h₁ : Drives s (s.change (r.setStatus .dispatched)) (r.setStatus .dispatched) _ :=
    .of_change (r := r) rfl hr hlive
      (.setStatus hlive (by simp [hstatus, CommandStatus.rank]) nofun)
  have h₂ : Drives s _ (r.setStatus .acknowledged) _ :=
    h₁.trans (.of_change (r := r.setStatus .dispatched) rfl h₁.record (by simp)
      (.setStatus (by simp) (by simp [CommandStatus.rank]) nofun)) rfl
  have h₃ : Drives s _ (r.setStatus .observing) _ :=
    h₂.trans (.of_change (r := r.setStatus .acknowledged) rfl h₂.record (by simp)
      (.setStatus (by simp) (by simp [CommandStatus.rank]) nofun)) rfl
  simp only [executeReturned]
  split
  · rename_i hreq
    refine .inl ⟨by simpa using hreq ▸ by simp, ?_⟩
    have hfin := drives_finish task h₁.record (by simp) (.refl _) .succeeded (some .dispatched)
    rw [show r.completionRequirement = .dispatched from hreq]
    exact (h₁.trans hfin rfl).reply _ _
  · rename_i hreq
    split
    · rename_i hreq'
      refine .inl ⟨by simpa using hreq' ▸ by simp, ?_⟩
      have hfin := drives_finish task h₂.record (by simp) (.refl _) .succeeded
        (some .acknowledged)
      rw [show r.completionRequirement = .acknowledged from hreq']
      exact (h₂.trans hfin rfl).reply _ _
    · rename_i hreq'
      refine .inr ⟨?_, (h₃.setTask _).reply _ _⟩
      cases hreq'' : r.completionRequirement <;> simp_all

theorem drives_fail (task : CommandTask) {r : CommandRecord V}
    (hr : s.getCommand r.commandId = some r) (hlive : r.status ≠ .terminal) (message : String) :
    ∃ r', r.Le r' ∧ Drives s (s.fail task r message) (r'.finish .failed none) none := by
  have hle := CommandRecord.Le.setInternalError hlive message
  exact ⟨_, hle, drives_finish task hr hlive hle _ _⟩

/-- One pass of the observer's loop finishes the command or lets it sleep
again; it reports success only at the generation it was submitted under. -/
theorem drives_observeLoop (task : CommandTask) {r : CommandRecord V} (deadline : ℚ)
    (generation : Nat) (complete : Except String Bool)
    (hr : s.getCommand r.commandId = some r) (hlive : r.status ≠ .terminal) :
    (∃ r' o a, r.Le r' ∧
      Drives s (s.observeLoop task r deadline generation complete) (r'.finish o a) none ∧
      (o = .succeeded → s.now < deadline ∧ task.generation = generation ∧ complete = .ok true ∧
        r' = r ∧ a = some .observed)) ∨
    ∃ wakeAt, Drives s (s.observeLoop task r deadline generation complete) r
      (some { task with stage := .observing deadline wakeAt }) := by
  unfold observeLoop
  split
  · rename_i hnow
    split
    · exact .inl ⟨r, _, _, .refl r, drives_finish task hr hlive (.refl r) _ _, by simp⟩
    · rename_i hgen
      cases complete with
      | error message =>
        obtain ⟨r', hle, hd⟩ := drives_fail task hr hlive message
        exact .inl ⟨r', _, _, hle, hd, by simp⟩
      | ok done =>
        cases done with
        | true =>
          exact .inl ⟨r, _, _, .refl r, drives_finish task hr hlive (.refl r) _ _,
            fun _ => ⟨hnow, not_not.mp hgen, rfl, rfl, rfl⟩⟩
        | false => exact .inr ⟨_, (Drives.refl hr).setTask _⟩
  · exact .inl ⟨r, _, _, .refl r, drives_finish task hr hlive (.refl r) _ _, by simp⟩

/-- The observer runs at time `now` and gets as far as asking the adapter. -/
def asks (task : CommandTask) (now : ℚ) (generation : Nat) : Bool :=
  match task.stage with
  | .executing => false
  | .spawned => task.generation = generation
  | .observing deadline wakeAt =>
      wakeAt ≤ now && now < deadline && task.generation = generation

omit [BEq V] in
/-- The observer's run, the first or a later one. -/
theorem observe_eq {task : CommandTask} {r : CommandRecord V} {generation : Nat}
    {complete : Except String Bool} (h : s.observe task r generation complete = some t) :
    task.stage.status = .observing ∧
      ∃ deadline, t = s.observeLoop task r deadline generation complete ∧
        (s.now < deadline → task.generation = generation →
          asks task s.now generation = true) := by
  unfold observe at h
  cases hstage : task.stage with
  | executing =>
    rw [hstage] at h
    cases h
  | spawned =>
    rw [hstage] at h
    exact ⟨rfl, _, (Option.some.inj h).symm, by simp [asks, hstage]⟩
  | observing deadline wakeAt =>
    simp only [hstage] at h
    split at h
    · cases h
    · rename_i hwake
      refine ⟨rfl, _, (Option.some.inj h).symm, fun hnow hgen => ?_⟩
      simp [asks, hstage, hnow, hgen, not_lt.mp hwake]

omit [BEq V] in
/-- Asked and told that the action is complete, the observer succeeds. -/
theorem observe_of_asks {task : CommandTask} (r : CommandRecord V) {generation : Nat}
    (h : asks task s.now generation = true) :
    s.observe task r generation (.ok true) =
      some (s.finish task r .succeeded (some .observed)) := by
  unfold asks at h
  unfold observe observeLoop
  split at h
  · cases h
  · have hpos : s.now < s.now + TargetRunner.observeTimeout :=
      lt_add_of_pos_right _ (by decide +kernel)
    simp_all
  · simp only [Bool.and_eq_true, decide_eq_true_eq] at h
    obtain ⟨⟨hwake, hnow⟩, hgen⟩ := h
    simp_all [not_lt.mpr hwake]

theorem drives_cancel (task : CommandTask) {r : CommandRecord V}
    (hr : s.getCommand r.commandId = some r) (hlive : r.status ≠ .terminal) :
    Drives s (s.cancel task r) (r.finish .cancelled none) none ∨
      Drives s (s.cancel task r) r none := by
  unfold cancel
  split
  · exact .inl (drives_finish task hr hlive (.refl r) _ _)
  · exact .inl (drives_finish task hr hlive (.refl r) _ _)
  · exact .inr ((Drives.refl hr).setTask none)

/-! ## Submission -/

/-- `r` is the record `begin` makes of `req` under a fresh id. -/
structure MadeFrom (req : CommandSubmitRequest V) (freshId : CommandId) (r : CommandRecord V) :
    Prop where
  commandId : r.commandId = freshId
  requestId : r.requestId = req.requestId
  fingerprint : r.fingerprint = fingerprint req
  targetId : r.targetId = req.targetId
  requirement : r.completionRequirement = req.completionRequirement
  status : r.status = .queued
  outcome : r.outcome = none

/-- How the first stretch of `submit_command` can end, and the state it
leaves. -/
inductive SubmitOutcome (s : DeviceRuntime V) (req : CommandSubmitRequest V)
    (freshId : CommandId) : Except Fault SubmitAnswer × DeviceRuntime V → Prop
  /-- refused before the ledger was changed -/
  | refused (e : FusionError) (sessions : ControlSessionManager) :
      SubmitOutcome s req freshId (.error (.fusion e), { s with sessions := sessions })
  | existing (entry : Entry V) (hentry : s.ledger.byRequestId.get req.requestId = some entry)
      (hsame : entry.fingerprint.eq (fingerprint req) = true) :
      SubmitOutcome s req freshId
        (.ok (.returned entry.commandId), s.reply req.requestId entry.commandId)
  /-- the manifest could not be read; the record stays QUEUED -/
  | faulted (message : String) (r : CommandRecord V) (made : MadeFrom req freshId r)
      (hreq : s.ledger.byRequestId.get req.requestId = none) :
      SubmitOutcome s req freshId (.error (.other message), s.admitted req r)
  | rejected (e : FusionError) (r : CommandRecord V) (made : MadeFrom req freshId r)
      (hreq : s.ledger.byRequestId.get req.requestId = none) :
      SubmitOutcome s req freshId (.error (.fusion e), (s.admitted req r).change (r.reject e))
  /-- dispatched under the runner's generation -/
  | accepted (runner : TargetRunner) (generation : Nat) (r : CommandRecord V)
      (made : MadeFrom req freshId r) (hrunner : s.runners.get req.targetId = some runner)
      (hgeneration : generation = runner.executionGeneration ∨
        generation = runner.executionGeneration + 1)
      (hreq : s.ledger.byRequestId.get req.requestId = none) :
      SubmitOutcome s req freshId (.ok (.suspended r.commandId),
        { ((((s.admitted req r).setRunner
            { runner with active := some r.commandId, executionGeneration := generation }).change
            (r.dispatch generation)).setTask r.commandId
            (some ⟨runner.targetId, generation, .executing⟩)) with
          executed := s.executed ++ [(r.requestId, r.commandId)] })

omit [BEq V] in
/-- `submit` refuses without a trace, or dispatches under the runner's
generation, bumped when it preempts. -/
theorem runnerSubmit_cases (s : DeviceRuntime V) (runner : TargetRunner) (r : CommandRecord V)
    (manifest : Except Fault TargetManifest) :
    (∃ fault, s.runnerSubmit runner r manifest = (.error fault, s)) ∨
    ∃ generation, (generation = runner.executionGeneration ∨
        generation = runner.executionGeneration + 1) ∧
      s.runnerSubmit runner r manifest = (.ok (),
        { (((s.setRunner
            { runner with active := some r.commandId, executionGeneration := generation }).change
            (r.dispatch generation)).setTask r.commandId
            (some ⟨runner.targetId, generation, .executing⟩)) with
          executed := s.executed ++ [(r.requestId, r.commandId)] }) := by
  unfold runnerSubmit
  cases manifest with
  | error fault => exact .inl ⟨fault, rfl⟩
  | ok manifest =>
    simp only
    split
    · exact .inl ⟨_, rfl⟩
    · split
      · exact .inl ⟨_, rfl⟩
      · cases s.busy runner with
        | true => exact .inr ⟨_, .inr rfl, rfl⟩
        | false => exact .inr ⟨_, .inl rfl, rfl⟩

theorem submitCommand_cases (s : DeviceRuntime V) (req : CommandSubmitRequest V)
    (freshId : CommandId) (manifest : Except Fault TargetManifest) :
    SubmitOutcome s req freshId (s.submitCommand req freshId manifest) := by
  unfold submitCommand
  cases hrunner : s.runners.get req.targetId with
  | none => exact .refused _ s.sessions
  | some runner =>
    simp only
    split
    · exact .refused _ _
    · rename_i session sessions hval
      obtain ⟨rfl, -, -⟩ := ControlSessionManager.validate_ok hval
      rcases CommandLedger.begin_cases s.ledger req s.runtimeId s.runtimeBootId
          runner.executionGeneration freshId with
        ⟨entry, hentry, hfp, hb⟩ | ⟨entry, hentry, hfp, hb⟩ | ⟨hreq, hb⟩
      · simp only [hb]
        exact .refused _ s.sessions
      · simp only [hb]
        exact .existing entry hentry hfp
      · simp only [hb]
        have made : MadeFrom req freshId (CommandLedger.newRecord req s.runtimeId
            s.runtimeBootId runner.executionGeneration freshId) :=
          ⟨rfl, rfl, rfl, rfl, rfl, rfl, rfl⟩
        rcases runnerSubmit_cases _ runner (CommandLedger.newRecord req s.runtimeId
            s.runtimeBootId runner.executionGeneration freshId) manifest with
          ⟨fault, hsub⟩ | ⟨generation, hgen, hsub⟩
        · rw [hsub]
          cases fault with
          | fusion e => exact .rejected e _ made hreq
          | other message => exact .faulted message _ made hreq
        · rw [hsub]
          exact .accepted runner generation _ made hrunner hgen hreq

/-! ## Owners -/

/-- The coroutine `task` fits the record `r` of its command. -/
structure Fits (task : CommandTask) (r : CommandRecord V) : Prop where
  status : r.status = task.stage.status
  generation : r.executionGeneration = task.generation
  target : r.targetId = task.targetId
  /-- only commands that ask for it are observed -/
  level : task.stage.status = .observing → r.completionRequirement = .observed

omit [BEq V] in
theorem Fits.live {task : CommandTask} {r : CommandRecord V} (h : Fits task r) :
    r.status ≠ .terminal := by
  rw [h.status]
  exact task.stage.status_ne_terminal

/-- **The owner invariant**: the ledger's dictionaries agree, runners lie
under their own names, and a live coroutine fits the record of its command. -/
structure OwnerInv (s : DeviceRuntime V) : Prop where
  ledger : s.ledger.Inv
  runners : Named s
  owned : ∀ c task, s.tasks c = some task → ∃ r, s.getCommand c = some r ∧ Fits task r

omit [BEq V] in
theorem owner_eq {c : CommandId} {task : CommandTask} {r : CommandRecord V}
    {runner : TargetRunner} (h : s.owner c = some (task, r, runner)) :
    s.tasks c = some task ∧ s.getCommand c = some r ∧
      s.runners.get task.targetId = some runner := by
  simp only [owner, Option.bind_eq_some_iff, Option.map_eq_some_iff, Prod.mk.injEq] at h
  obtain ⟨_, ht, _, hr, _, hrunner, rfl, rfl, rfl⟩ := h
  exact ⟨ht, hr, hrunner⟩

omit [BEq V] in
theorem OwnerInv.owner (h : OwnerInv s) {c : CommandId} {task : CommandTask}
    {r : CommandRecord V} {runner : TargetRunner} (ho : s.owner c = some (task, r, runner)) :
    r.commandId = c ∧ s.tasks r.commandId = some task ∧ s.getCommand r.commandId = some r ∧
      Fits task r := by
  obtain ⟨ht, hr, _⟩ := owner_eq ho
  obtain ⟨r', hr', hfits⟩ := h.owned c task ht
  obtain rfl : r' = r := Option.some.inj (hr'.symm.trans hr)
  obtain rfl : r'.commandId = c := h.ledger.ids c r' hr
  exact ⟨rfl, ht, hr, hfits⟩

/-! ## Steps -/

/-- How a command comes to succeed: `adapter.execute` returned and it asked
for no more, or its observer found it complete, still at the generation it
was submitted under. -/
inductive SucceedsBy (s : DeviceRuntime V) (l : RuntimeLabel V) (task : CommandTask)
    (r r' : CommandRecord V) : Prop
  | executed (label : l = .executeReturned r.commandId) (stage : task.stage = .executing)
      (level : r.completionRequirement ≠ .observed)
      (record : r' = r.finish .succeeded (some r.completionRequirement))
  | observed (label : l = .observe r.commandId (.ok true))
      (stage : task.stage.status = .observing)
      (asked : asks task s.now task.generation = true)
      (generation : s.generation task.targetId = some task.generation)
      (record : r' = r.finish .succeeded (some .observed))

/-- **What a step does**: nothing to any command, or it admits one, or it
drives one that a coroutine owns. -/
inductive Moves (s : DeviceRuntime V) (l : RuntimeLabel V) (t : DeviceRuntime V) : Prop
  | quiet (effects : Effects s t) (records : ∀ c, t.getCommand c = s.getCommand c)
      (tasks : t.tasks = s.tasks)
  | admits (r : CommandRecord V) (effects : Effects s t)
      (fresh : s.getCommand r.commandId = none)
      (record : t.getCommand r.commandId = some r)
      (records : ∀ c, c ≠ r.commandId → t.getCommand c = s.getCommand c)
      (tasks : ∀ c, c ≠ r.commandId → t.tasks c = s.tasks c)
      (fits : ∀ task, t.tasks r.commandId = some task → Fits task r ∧ task.stage = .executing)
      (outcome : r.outcome ≠ some .succeeded)
  | drives (task : CommandTask) (r r' : CommandRecord V) (task' : Option CommandTask)
      (htask : s.tasks r.commandId = some task) (hr : s.getCommand r.commandId = some r)
      (hfits : Fits task r) (hid : r'.commandId = r.commandId) (drives : Drives s t r' task')
      (fits : ∀ k, task' = some k → Fits k r' ∧
        (task.stage.status = .observing ∨ l = .executeReturned r.commandId))
      (succeeds : r'.status = .terminal → r'.outcome = some .succeeded →
        SucceedsBy s l task r r')

section
variable {l : RuntimeLabel V}

theorem Moves.of_frame (hl : t.ledger = s.ledger) (ht : t.tasks = s.tasks)
    (hp : t.published = s.published) (he : ∀ es, s.events.Inv es → t.events.Inv es)
    (hn : Named s → Named t) : Moves s l t :=
  .quiet (.single (.frame hl hp he hn)) (fun c => by simp only [getCommand, hl]) ht

theorem Moves.effects (h : Moves s l t) : Effects s t := by
  cases h with
  | quiet effects _ _ => exact effects
  | admits _ effects _ _ _ _ _ _ => exact effects
  | drives _ _ _ _ _ _ _ _ drives _ _ => exact drives.effects

/-- The step in which a command ends SUCCEEDED drives it. -/
theorem Moves.succeeded (h : Moves s l t) {c : CommandId} {r : CommandRecord V}
    (hr : t.getCommand c = some r) (hdone : r.status = .terminal)
    (hsucc : r.outcome = some .succeeded)
    (hlive : ∀ r, s.getCommand c = some r → r.status ≠ .terminal) :
    ∃ task r₀ task', s.tasks r₀.commandId = some task ∧ s.getCommand r₀.commandId = some r₀ ∧
      Fits task r₀ ∧ c = r₀.commandId ∧ Drives s t r task' ∧ SucceedsBy s l task r₀ r := by
  have hother : t.getCommand c ≠ s.getCommand c := by
    intro hsame
    exact hlive r (hsame.symm.trans hr) hdone
  cases h with
  | quiet _ records _ => exact absurd (records c) hother
  | admits r' _ _ record records _ _ outcome =>
    by_cases hc : c = r'.commandId
    · subst hc
      obtain rfl : r' = r := Option.some.inj (record.symm.trans hr)
      exact absurd hsucc outcome
    · exact absurd (records c hc) hother
  | drives task r₀ r' task' htask hr₀ hfits hid hd _ succeeds =>
    by_cases hc : c = r'.commandId
    · subst hc
      obtain rfl : r' = r := Option.some.inj (hd.record.symm.trans hr)
      exact ⟨task, r₀, task', htask, hr₀, hfits, hid, hd, succeeds hdone hsucc⟩
    · exact absurd (hd.records c hc) hother

/-- A submission moves nothing, or admits the fresh id. -/
theorem submitCommand_moves (h : OwnerInv s) (req : CommandSubmitRequest V)
    {freshId : CommandId} (hfresh : s.getCommand freshId = none)
    (manifest : Except Fault TargetManifest) :
    Moves s l (s.submitCommand req freshId manifest).2 := by
  have hnotask : s.tasks freshId = none := by
    cases ht : s.tasks freshId with
    | none => rfl
    | some task =>
      obtain ⟨r, hr, _⟩ := h.owned _ _ ht
      rw [hfresh] at hr
      cases hr
  have hbegun : ∀ {r}, MadeFrom req freshId r → s.ledger.byRequestId.get req.requestId = none →
      Effect s (s.admitted req r) := fun made hreq =>
    .begun req _ made.requestId made.fingerprint made.status hreq (made.commandId ▸ hfresh)
  have hrec : ∀ r, (s.admitted req r).getCommand r.commandId = some r := by
    simp [getCommand_admitted]
  have hrecs : ∀ r c, c ≠ r.commandId → (s.admitted req r).getCommand c = s.getCommand c := by
    intro r c hc
    rw [getCommand_admitted, if_neg (Ne.symm hc)]
  have hout := submitCommand_cases s req freshId manifest
  generalize s.submitCommand req freshId manifest = answer at hout
  cases hout with
  | refused e sessions => exact .of_frame rfl rfl rfl (fun _ he => he) fun hn => hn
  | existing entry _ _ => exact .of_frame rfl rfl rfl (fun _ he => he) fun hn => hn
  | faulted message r made hreq =>
    refine .admits r (.single (hbegun made hreq)) (made.commandId ▸ hfresh) (hrec r) (hrecs r)
      (fun _ _ => rfl) (fun task htask => ?_) (by simp [made.outcome])
    exact absurd (htask.symm.trans (made.commandId ▸ hnotask)) (by simp)
  | rejected e r made hreq =>
    have hlive : r.status ≠ .terminal := by simp [made.status]
    have hchange : Effect (s.admitted req r) ((s.admitted req r).change (r.reject e)) :=
      .change r (r.reject e) (hrec r) hlive (.reject hlive e)
    refine .admits (r.reject e) ((ReflTransGen.single (hbegun made hreq)).tail hchange)
      (made.commandId ▸ hfresh) (getCommand_change_self _ _) ?_ (fun _ _ => rfl)
      (fun task htask => ?_) (by simp [CommandRecord.reject])
    · intro c hc
      rw [getCommand_change_ne _ (Ne.symm hc)]
      exact hrecs r c hc
    · exact absurd (htask.symm.trans (made.commandId ▸ hnotask)) (by simp)
  | accepted runner generation r made hrunner hgeneration hreq =>
    let s₁ := (s.admitted req r).setRunner
      { runner with active := some r.commandId, executionGeneration := generation }
    have hframe : Effect (s.admitted req r) s₁ :=
      .frame rfl rfl (fun _ he => he) fun hn => hn.setRunner _
    have hchange : Effect s₁ (s₁.change (r.dispatch generation)) :=
      .change r (r.dispatch generation) (hrec r) (by simp [made.status])
        (.dispatch made.status generation)
    refine .admits (r.dispatch generation)
      ((((ReflTransGen.single (hbegun made hreq)).tail hframe).tail hchange).tail
        (.frame rfl rfl (fun _ he => he) fun hn => hn))
      (made.commandId ▸ hfresh) (getCommand_change_self s₁ _) ?_ ?_ (fun task htask => ?_)
      (by simp [CommandRecord.dispatch, made.outcome])
    · intro c hc
      have : (s₁.change (r.dispatch generation)).getCommand c = s₁.getCommand c :=
        getCommand_change_ne _ (Ne.symm hc)
      exact this.trans (hrecs r c hc)
    · exact fun c hc => tasks_setTask_ne _ _ hc
    · have : some (⟨runner.targetId, generation, .executing⟩ : CommandTask) = some task :=
        (tasks_setTask_self ..).symm.trans htask
      cases this
      refine ⟨⟨rfl, rfl, ?_, by simp [TaskStage.status]⟩, rfl⟩
      exact made.targetId.trans (h.runners _ _ hrunner).symm

theorem Drives.moves (h : OwnerInv s) {c : CommandId} {task : CommandTask}
    {r r' : CommandRecord V} {runner : TargetRunner} {task' : Option CommandTask}
    (ho : s.owner c = some (task, r, runner)) (hd : Drives s t r' task')
    (hid : r'.commandId = r.commandId)
    (hfits : ∀ k, task' = some k → Fits k r' ∧
      (task.stage.status = .observing ∨ l = .executeReturned r.commandId))
    (succeeds : r'.status = .terminal → r'.outcome = some .succeeded →
      SucceedsBy s l task r r') : Moves s l t := by
  obtain ⟨_, htask, hr, hf⟩ := h.owner ho
  exact .drives task r r' task' htask hr hf hid hd hfits succeeds

theorem finish_moves (h : OwnerInv s) {c : CommandId} {task : CommandTask}
    {r r' : CommandRecord V} {runner : TargetRunner} {o : CommandOutcome}
    {a : Option CompletionRequirement} (ho : s.owner c = some (task, r, runner)) (hle : r.Le r')
    (hd : Drives s t (r'.finish o a) none)
    (succeeds : o = .succeeded → SucceedsBy s l task r (r'.finish o a)) : Moves s l t :=
  hd.moves h ho hle.commandId (by simp) fun _ ho => succeeds (Option.some.inj ho)

theorem executeReturned_moves (h : OwnerInv s) {c : CommandId} {task : CommandTask}
    {r : CommandRecord V} {runner : TargetRunner} (ho : s.owner c = some (task, r, runner))
    (hstage : task.stage = .executing) :
    Moves s (.executeReturned c) (s.executeReturned task r) := by
  obtain ⟨rfl, htask, hr, hfits⟩ := h.owner ho
  have hstatus : r.status = .dispatching := by rw [hfits.status, hstage]; rfl
  rcases drives_executeReturned task hr hstatus with ⟨hlevel, hd⟩ | ⟨hlevel, hd⟩
  · exact finish_moves h ho (.refl r) hd fun _ => .executed rfl hstage hlevel rfl
  · refine hd.moves h ho rfl ?_ (by simp)
    rintro k ⟨⟩
    exact ⟨⟨rfl, hfits.generation, hfits.target, fun _ => hlevel⟩, .inr rfl⟩

theorem executeRaised_moves (h : OwnerInv s) {c : CommandId} {task : CommandTask}
    {r : CommandRecord V} {runner : TargetRunner} (ho : s.owner c = some (task, r, runner))
    (message : String) : Moves s l ((s.fail task r message).reply r.requestId r.commandId) := by
  obtain ⟨rfl, htask, hr, hfits⟩ := h.owner ho
  obtain ⟨r', hle, hd⟩ := drives_fail task hr hfits.live message
  exact finish_moves h ho hle (hd.reply _ _) (by simp)

theorem observe_moves (h : OwnerInv s) {c : CommandId} {task : CommandTask}
    {r : CommandRecord V} {runner : TargetRunner} (ho : s.owner c = some (task, r, runner))
    {complete : Except String Bool}
    (ht : s.observe task r runner.executionGeneration complete = some t) :
    Moves s (.observe c complete) t := by
  have hrunner := (owner_eq ho).2.2
  obtain ⟨rfl, htask, hr, hfits⟩ := h.owner ho
  obtain ⟨hstage, deadline, rfl, hasks⟩ := observe_eq ht
  rcases drives_observeLoop task deadline runner.executionGeneration complete hr hfits.live with
    ⟨r', o, a, hle, hd, hsucc⟩ | ⟨wakeAt, hd⟩
  · refine finish_moves h ho hle hd fun hok => ?_
    obtain ⟨hnow, hgen, rfl, rfl, rfl⟩ := hsucc hok
    exact .observed rfl hstage (hgen ▸ hasks hnow hgen) (by simp [generation, hrunner, hgen])
      (by rw [hok])
  · refine hd.moves h ho rfl ?_ fun hdone => absurd hdone hfits.live
    rintro k ⟨⟩
    exact ⟨⟨by rw [hfits.status, hstage]; rfl, hfits.generation, hfits.target,
      fun _ => hfits.level hstage⟩, .inl hstage⟩

theorem cancel_moves (h : OwnerInv s) {c : CommandId} {task : CommandTask}
    {r : CommandRecord V} {runner : TargetRunner} (ho : s.owner c = some (task, r, runner)) :
    Moves s l (s.cancel task r) := by
  obtain ⟨rfl, htask, hr, hfits⟩ := h.owner ho
  rcases drives_cancel task hr hfits.live with hd | hd
  · exact finish_moves h ho (.refl r) hd (by simp)
  · exact hd.moves h ho rfl (by simp) fun hdone => absurd hdone hfits.live

omit [BEq V] in
theorem applyGuarded_frame (s : DeviceRuntime V) (i : Nat) (call : ApplyCall)
    (guard : Except Fault Unit) :
    (s.applyGuarded i call guard).ledger = s.ledger ∧
      (s.applyGuarded i call guard).tasks = s.tasks ∧
      (s.applyGuarded i call guard).published = s.published ∧
      (s.applyGuarded i call guard).events = s.events ∧
      (Named s → Named (s.applyGuarded i call guard)) := by
  cases guard with
  | ok _ => exact ⟨rfl, rfl, rfl, rfl, fun hn => Named.bumpGenerations hn⟩
  | error _ => exact ⟨rfl, rfl, rfl, rfl, fun hn => hn⟩

omit [BEq V] in
theorem applyLocked_frame (s : DeviceRuntime V) (i : Nat) (call : ApplyCall) :
    (s.applyLocked i call).ledger = s.ledger ∧ (s.applyLocked i call).tasks = s.tasks ∧
      (s.applyLocked i call).published = s.published ∧
      (s.applyLocked i call).events = s.events ∧
      (Named s → Named (s.applyLocked i call)) := by
  unfold applyLocked
  split <;> exact ⟨rfl, rfl, rfl, rfl, fun hn => hn⟩

omit [BEq V] in
theorem applyConfig_frame (s : DeviceRuntime V) (i : Nat) (revisionId : String)
    (expected : Option String) :
    (s.applyConfig i revisionId expected).ledger = s.ledger ∧
      (s.applyConfig i revisionId expected).tasks = s.tasks ∧
      (s.applyConfig i revisionId expected).published = s.published ∧
      (s.applyConfig i revisionId expected).events = s.events ∧
      (Named s → Named (s.applyConfig i revisionId expected)) := by
  unfold applyConfig
  split <;> exact ⟨rfl, rfl, rfl, rfl, fun hn => hn⟩

/-- **One step of a Runtime.** -/
theorem step_moves (h : OwnerInv s) (hs : s.step l = some t) : Moves s l t := by
  have hframe : ∀ {u : DeviceRuntime V}, u.ledger = s.ledger ∧ u.tasks = s.tasks ∧
      u.published = s.published ∧ u.events = s.events ∧ (Named s → Named u) → Moves s l u :=
    fun hu => .of_frame hu.1 hu.2.1 hu.2.2.1 (fun _ he => hu.2.2.2.1 ▸ he) hu.2.2.2.2
  cases l with
  | advance dt =>
    simp only [step] at hs
    split at hs <;> cases hs
    exact hframe ⟨rfl, rfl, rfl, rfl, fun hn => hn⟩
  | submitCommand req freshId manifest =>
    simp only [step] at hs
    split at hs <;> cases hs
    rename_i hfresh
    exact submitCommand_moves h req (by simpa using hfresh) manifest
  | executeReturned c =>
    simp only [step] at hs
    split at hs
    · rename_i task r runner ho
      split at hs <;> cases hs
      rename_i hstage
      exact executeReturned_moves h ho hstage
    · cases hs
  | executeRaised c message =>
    simp only [step] at hs
    split at hs
    · rename_i task r runner ho
      split at hs <;> cases hs
      exact executeRaised_moves h ho message
    · cases hs
  | observe c complete =>
    simp only [step] at hs
    split at hs
    · rename_i task r runner ho
      exact observe_moves h ho hs
    · cases hs
  | cancel c =>
    simp only [step] at hs
    split at hs
    · rename_i task r runner ho
      cases hs
      exact cancel_moves h ho
    · cases hs
  | publishEvent name targetId =>
    cases hs
    exact .quiet (.single (.event _ rfl)) (fun _ => rfl) rfl
  | acquireControlSession actor mode ttlS freshId =>
    cases hs
    exact hframe ⟨rfl, rfl, rfl, rfl, fun hn => Named.bumpGenerations hn⟩
  | renewControlSession sessionId =>
    cases hs
    exact hframe ⟨rfl, rfl, rfl, rfl, fun hn => hn⟩
  | releaseControlSession sessionId =>
    cases hs
    exact hframe ⟨rfl, rfl, rfl, rfl, fun hn => Named.bumpGenerations hn⟩
  | stageConfig kind freshId =>
    cases hs
    exact hframe ⟨rfl, rfl, rfl, rfl, fun hn => hn⟩
  | applyConfig i revisionId expected =>
    simp only [step] at hs
    split at hs <;> cases hs
    exact hframe (applyConfig_frame ..)
  | applyLocked i =>
    simp only [step] at hs
    split at hs
    · split at hs <;> cases hs
      exact hframe (applyLocked_frame ..)
    · cases hs
  | applyGuarded i answer =>
    simp only [step] at hs
    split at hs
    · split at hs <;> cases hs
      exact hframe (applyGuarded_frame ..)
    · cases hs
  | applyCancelled i =>
    simp only [step] at hs
    split at hs <;> cases hs
    exact hframe ⟨rfl, rfl, rfl, rfl, fun hn => hn⟩
  | subscribeEvents =>
    cases hs
    exact .of_frame rfl rfl rfl (fun _ he => he.subscribe) fun hn => hn
  | unsubscribeEvents subId =>
    cases hs
    exact .of_frame rfl rfl rfl (fun _ he => he.unsubscribe subId) fun hn => hn
  | eventGet subId =>
    obtain ⟨⟨item, b⟩, hg, rfl⟩ := Option.map_eq_some_iff.mp hs
    exact .of_frame rfl rfl rfl (fun _ he => he.queueGet hg) fun hn => hn

end

/-! ## What a step leaves alone -/

/-- The steps of the coroutine of a command. -/
def RuntimeLabel.ofTask : RuntimeLabel V → Bool
  | .executeReturned _ | .executeRaised _ _ | .observe _ _ | .cancel _ => true
  | _ => false

/-- The steps about no command. -/
def RuntimeLabel.ofNoCommand : RuntimeLabel V → Bool
  | .submitCommand _ _ _ => false
  | l => !l.ofTask

/-- The sessions and the configuration stay. -/
structure SparesControl (s t : DeviceRuntime V) : Prop where
  sessions : t.sessions = s.sessions
  config : t.config = s.config
  customGuard : t.customGuard = s.customGuard

omit [BEq V] in
theorem SparesControl.refl (s : DeviceRuntime V) : SparesControl s s := ⟨rfl, rfl, rfl⟩

omit [BEq V] in
theorem SparesControl.change (h : SparesControl s t) (r : CommandRecord V) :
    SparesControl s (t.change r) :=
  ⟨h.sessions, h.config, h.customGuard⟩

omit [BEq V] in
theorem SparesControl.setTask (h : SparesControl s t) (c : CommandId)
    (task : Option CommandTask) : SparesControl s (t.setTask c task) :=
  ⟨h.sessions, h.config, h.customGuard⟩

omit [BEq V] in
theorem SparesControl.reply (h : SparesControl s t) (requestId : String) (c : CommandId) :
    SparesControl s (t.reply requestId c) :=
  ⟨h.sessions, h.config, h.customGuard⟩

omit [BEq V] in
theorem SparesControl.finish (h : SparesControl s t) (task : CommandTask) (r : CommandRecord V)
    (o : CommandOutcome) (a : Option CompletionRequirement) :
    SparesControl s (t.finish task r o a) :=
  have hchanged := h.change (r.finish o a)
  ⟨hchanged.sessions, hchanged.config, hchanged.customGuard⟩

omit [BEq V] in
theorem sparesControl_executeReturned (s : DeviceRuntime V) (task : CommandTask)
    (r : CommandRecord V) : SparesControl s (s.executeReturned task r) := by
  have hdispatched := (SparesControl.refl s).change (r.setStatus .dispatched)
  have hacknowledged := hdispatched.change ((r.setStatus .dispatched).setStatus .acknowledged)
  simp only [executeReturned]
  split
  · exact (hdispatched.finish ..).reply _ _
  · split
    · exact (hacknowledged.finish ..).reply _ _
    · exact ((hacknowledged.change _).setTask _ _).reply _ _

omit [BEq V] in
theorem sparesControl_observeLoop (s : DeviceRuntime V) (task : CommandTask)
    (r : CommandRecord V) (deadline : ℚ) (generation : Nat) (complete : Except String Bool) :
    SparesControl s (s.observeLoop task r deadline generation complete) := by
  have hsame := SparesControl.refl s
  unfold observeLoop
  split
  · split
    · exact hsame.finish ..
    · split
      · exact hsame.finish ..
      · exact hsame.finish ..
      · exact hsame.setTask ..
  · exact hsame.finish ..

/-- **Commands leave the control alone**, once they are submitted. -/
theorem step_sparesControl {l : RuntimeLabel V} (hl : l.ofTask = true)
    (hs : s.step l = some t) : SparesControl s t := by
  have hsame := SparesControl.refl s
  cases l with
  | executeReturned c =>
    simp only [step] at hs
    split at hs
    · split at hs <;> cases hs
      exact sparesControl_executeReturned ..
    · cases hs
  | executeRaised c message =>
    simp only [step] at hs
    split at hs
    · split at hs <;> cases hs
      exact (hsame.finish ..).reply _ _
    · cases hs
  | observe c complete =>
    simp only [step] at hs
    split at hs
    · obtain ⟨-, deadline, rfl, -⟩ := observe_eq hs
      exact sparesControl_observeLoop ..
    · cases hs
  | cancel c =>
    simp only [step] at hs
    split at hs <;> cases hs
    unfold cancel
    split
    · exact hsame.finish ..
    · exact hsame.finish ..
    · exact hsame.setTask ..
  | _ => cases hl

/-- The commands stay, and so do the runners unless their generations are
bumped. -/
structure SparesCommands (s t : DeviceRuntime V) : Prop where
  ledger : t.ledger = s.ledger
  runners : t.runners = s.runners ∨ t.runners = s.bumpGenerations.runners
  executed : t.executed = s.executed
  returned : t.returned = s.returned

omit [BEq V] in
theorem SparesCommands.of_eq (hledger : t.ledger = s.ledger) (hrunners : t.runners = s.runners)
    (hexecuted : t.executed = s.executed) (hreturned : t.returned = s.returned) :
    SparesCommands s t :=
  ⟨hledger, .inl hrunners, hexecuted, hreturned⟩

/-- **Control leaves the commands alone**: what else happens on a Runtime
bumps generations, at most. -/
theorem step_sparesCommands {l : RuntimeLabel V} (hl : l.ofNoCommand = true)
    (hs : s.step l = some t) : SparesCommands s t := by
  cases l with
  | acquireControlSession actor mode ttlS freshId =>
    cases hs
    exact ⟨rfl, .inr rfl, rfl, rfl⟩
  | releaseControlSession sessionId =>
    cases hs
    exact ⟨rfl, .inr rfl, rfl, rfl⟩
  | applyGuarded i answer =>
    simp only [step] at hs
    split at hs
    · split at hs <;> cases hs
      generalize s.applyGuard answer = guard
      cases guard with
      | ok _ => exact ⟨rfl, .inr rfl, rfl, rfl⟩
      | error _ => exact .of_eq rfl rfl rfl rfl
    · cases hs
  | applyConfig i revisionId expected =>
    simp only [step] at hs
    split at hs <;> cases hs
    unfold applyConfig
    split <;> exact .of_eq rfl rfl rfl rfl
  | applyLocked i =>
    simp only [step] at hs
    split at hs
    · split at hs <;> cases hs
      unfold applyLocked
      split <;> exact .of_eq rfl rfl rfl rfl
    · cases hs
  | advance dt | applyCancelled i =>
    simp only [step] at hs
    split at hs <;> cases hs
    exact .of_eq rfl rfl rfl rfl
  | eventGet subId =>
    obtain ⟨_, _, rfl⟩ := Option.map_eq_some_iff.mp hs
    exact .of_eq rfl rfl rfl rfl
  | publishEvent name targetId | renewControlSession sessionId | stageConfig kind freshId
  | subscribeEvents | unsubscribeEvents subId =>
    cases hs
    exact .of_eq rfl rfl rfl rfl
  | submitCommand req freshId manifest | executeReturned c | executeRaised c message
  | observe c complete | cancel c => cases hl

/-! ## The owner invariant along runs -/

theorem Effect.named (h : Effect s t) (hn : Named s) : Named t := by
  cases h with
  | frame _ _ _ named => exact named hn
  | event _ _ => exact hn
  | begun _ _ _ _ _ _ _ => exact hn
  | change _ _ _ _ _ => exact hn

theorem Effect.ledger (h : Effect s t) (hl : s.ledger.Inv) : t.ledger.Inv := by
  cases h with
  | frame ledger _ _ _ => exact ledger ▸ hl
  | event _ _ => exact hl
  | begun req r hq hf _ hreq hfresh => exact hl.insert req hq hf hreq hfresh
  | change old r hold _ hle => exact hl.store hold hle.requestId hle.fingerprint

/-- What one effect keeps, many keep. -/
theorem Effects.lift {P : DeviceRuntime V → Prop} (hstep : ∀ s t, Effect s t → P s → P t)
    (h : Effects s t) (hs : P s) : P t := by
  induction h with
  | refl => exact hs
  | tail _ he ih => exact hstep _ _ he ih

theorem OwnerInv.moves (h : OwnerInv s) {l : RuntimeLabel V} (hm : Moves s l t) :
    OwnerInv t where
  ledger := hm.effects.lift (P := fun u => u.ledger.Inv) (fun _ _ he => he.ledger) h.ledger
  runners := hm.effects.lift (P := Named) (fun _ _ he => he.named) h.runners
  owned := by
    intro c task htask
    have hother : t.tasks c = s.tasks c → t.getCommand c = s.getCommand c →
        ∃ r, t.getCommand c = some r ∧ Fits task r := fun ht hr => by
      obtain ⟨r, hr', hf⟩ := h.owned c task (ht ▸ htask)
      exact ⟨r, hr.trans hr', hf⟩
    cases hm with
    | quiet _ records tasks => exact hother (congrFun tasks c) (records c)
    | admits r _ _ record records tasks fits _ =>
      by_cases hc : c = r.commandId
      · subst hc
        exact ⟨r, record, (fits task htask).1⟩
      · exact hother (tasks c hc) (records c hc)
    | drives _ r r' task' _ _ _ _ hd fits _ =>
      by_cases hc : c = r'.commandId
      · subst hc
        exact ⟨r', hd.record, (fits task (hd.task.symm.trans htask)).1⟩
      · exact hother (hd.tasks c hc) (hd.records c hc)

theorem OwnerInv.step (h : OwnerInv s) {l : RuntimeLabel V} (hs : s.step l = some t) :
    OwnerInv t :=
  h.moves (step_moves h hs)

omit [BEq V] in
/-- At start every runner is new. -/
theorem runners_init {runtimeId bootId : String} {now : ℚ} {targets : List String}
    {customGuard : Bool} {target : String} {runner : TargetRunner}
    (h : (init (V := V) runtimeId bootId now targets customGuard).runners.get target
      = some runner) : runner = .new target := by
  have hfold : ∀ (ts : List String) (d : Dict String TargetRunner),
      (∀ target runner, d.get target = some runner → runner = .new target) →
      ∀ target runner, (ts.foldl (fun d t => d.set t (.new t)) d).get target = some runner →
        runner = .new target := by
    intro ts
    induction ts with
    | nil => exact fun d hd => hd
    | cons t ts ih =>
      intro d hd
      refine ih (d.set t (.new t)) fun target runner hr => ?_
      rw [Dict.get_set] at hr
      split at hr
      · rename_i hname
        cases hr
        rw [hname]
      · exact hd target runner hr
  exact hfold targets .empty (by simp) target runner h

omit [BEq V] in
theorem named_init (runtimeId bootId : String) (now : ℚ) (targets : List String)
    (customGuard : Bool) : Named (init (V := V) runtimeId bootId now targets customGuard) := by
  intro target runner h
  rw [runners_init h]
  rfl

omit [BEq V] in
theorem OwnerInv.init (runtimeId bootId : String) (now : ℚ) (targets : List String)
    (customGuard : Bool) :
    OwnerInv (DeviceRuntime.init (V := V) runtimeId bootId now targets customGuard) where
  ledger := CommandLedger.inv_new
  runners := named_init runtimeId bootId now targets customGuard
  owned := by simp [DeviceRuntime.init]

theorem OwnerInv.reachable (h : OwnerInv s) (hr : Reachable DeviceRuntime.step s t) : OwnerInv t :=
  hr.invariant h fun _ _ _ hi hs => hi.step hs

end

end DeviceRuntime

end Fusion
