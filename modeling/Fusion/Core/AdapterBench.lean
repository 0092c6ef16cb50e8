import Fusion.Core.Drivers
import Fusion.Core.Exclusivity
import Fusion.Core.Leases

/-!
# AdapterBench — a Runtime with its adapters beside it
(plugin_sdk/base.py, core/target_runner.py, core/device_runtime.py)

The steps of a Runtime leave free what an adapter answers. Here the adapters
are part of the state: `execute` and `is_action_complete` are called on them,
and their own tasks go on between the steps of the Runtime. An `execute` that
does not suspend is called in one stretch with its submission.

A command that may still succeed carries its runner's generation, and is then
the latest that its adapter was called for. So what an observer is told of the
adapter is about that call.
-/

namespace Fusion

open Transition

variable {V : Type}

/-! ## The current command of a runner -/

namespace DeviceRuntime

variable {s t : DeviceRuntime V} {target : String} {c : CommandId}

/-- The command's coroutine carries its runner's generation. -/
def Current (s : DeviceRuntime V) (target : String) (c : CommandId) : Prop :=
  ∃ task, s.tasks c = some task ∧ task.targetId = target ∧
    s.generation target = some task.generation

/-- A command with a coroutine has been dispatched. -/
theorem Fits.started {task : CommandTask} {r : CommandRecord V} (h : Fits task r) :
    r.status ≠ .queued := by
  rw [h.status]
  cases task.stage <;> simp [TaskStage.status]

/-- A current command is the runner's active one. -/
theorem Current.active (h : s.Current target c) (howner : OwnerInv s) (hexcl : Exclusive s) :
    s.activeOf target = some c := by
  obtain ⟨task, htask, rfl, hgeneration⟩ := h
  obtain ⟨r, hr, hfits⟩ := howner.owned c task htask
  obtain ⟨g, hg, hstamp⟩ := hexcl c r hr ⟨hfits.started, hfits.live⟩
  rw [hfits.target] at hg hstamp
  obtain rfl : g = task.generation := Option.some.inj (hg.symm.trans hgeneration)
  rcases hstamp with hlt | ⟨-, hactive⟩
  · rw [hfits.generation] at hlt
    exact absurd hlt (lt_irrefl _)
  · exact hactive

variable [BEq V] {l : RuntimeLabel V}

/-- A command is made current by its submission alone. -/
theorem current_step (howner : OwnerInv s) (hexcl : Exclusive s)
    (hl : ∀ req freshId manifest, l ≠ .submitCommand req freshId manifest)
    (hs : s.step l = some t) (h : t.Current target c) : s.Current target c := by
  obtain ⟨task, htask, htarget, hgeneration⟩ := h
  rcases l.kinds with hnone | ⟨req, freshId, manifest, rfl⟩ | ⟨c', hc'⟩
  · rw [step_tasks_of_ofNoCommand hnone hs] at htask
    refine ⟨task, htask, htarget, ?_⟩
    rcases (step_sparesCommands hnone hs).runners with hsame | hbumped
    · rw [generation, ← hsame]
      exact hgeneration
    · -- a bump leaves nothing current behind
      obtain ⟨r, hr, hfits⟩ := howner.owned c task htask
      obtain ⟨g, hg, hstamp⟩ := hexcl c r hr ⟨hfits.started, hfits.live⟩
      rw [hfits.target, htarget] at hg
      have hbump : t.generation target = s.bumpGenerations.generation target := by
        rw [generation, hbumped]
        rfl
      rw [hbump, generation_bumpGenerations, hg] at hgeneration
      have hnext : g + 1 = task.generation := Option.some.inj hgeneration
      rw [← hfits.generation] at hnext
      rcases hstamp with hlt | ⟨heq, -⟩
      · omega
      · omega
  · exact absurd rfl (hl req freshId manifest)
  · obtain ⟨task', r, htask', hr, rfl, hfits, hand⟩ := step_handover howner hc' hs
    have hgenerations : t.generation target = s.generation target := by
      cases hand with
      | goesOn _ _ drives => exact drives.generations target
      | ends _ drives => exact drives.generations target
      | dropped drives => exact drives.generations target
    rw [hgenerations] at hgeneration
    by_cases hc : c = r.commandId
    · subst hc
      cases hand with
      | goesOn r' k drives hid fits htarget' _ =>
        have hk : t.tasks r.commandId = some k := hid ▸ drives.task
        obtain rfl : k = task := Option.some.inj (hk.symm.trans htask)
        obtain ⟨r'', hr'', hle⟩ := drives.effects.later _ r hr
        obtain rfl : r'' = r' := Option.some.inj (hr''.symm.trans (hid ▸ drives.record))
        have hrank : 1 ≤ r.status.rank := by
          rw [hfits.status]
          cases task'.stage <;> simp [TaskStage.status, CommandStatus.rank]
        refine ⟨task', htask', htarget'.symm.trans htarget, ?_⟩
        rw [hgeneration, ← fits.generation, hle.generation hrank, hfits.generation]
      | ends r' drives hid _ _ =>
        have hnone : t.tasks r.commandId = none := hid ▸ drives.task
        rw [hnone] at htask
        cases htask
      | dropped drives _ _ _ =>
        have hnone := drives.task
        rw [hnone] at htask
        cases htask
    · rw [hand.tasks hc] at htask
      exact ⟨task, htask, htarget, hgeneration⟩

/-- What a submission makes current. -/
theorem current_submitCommand (howner : OwnerInv s) {req : CommandSubmitRequest V}
    {freshId : CommandId} {manifest : Except Fault TargetManifest}
    (ht : OwnerInv (s.submitCommand req freshId manifest).2)
    (hexcl : Exclusive (s.submitCommand req freshId manifest).2)
    (h : (s.submitCommand req freshId manifest).2.Current target c) :
    s.Current target c ∧ ((s.submitCommand req freshId manifest).1 = .ok (.suspended freshId) →
        target ≠ req.targetId) ∨
      (s.submitCommand req freshId manifest).1 = .ok (.suspended freshId) ∧
        target = req.targetId ∧ c = freshId := by
  have hout := submitCommand_cases s req freshId manifest
  generalize s.submitCommand req freshId manifest = answer at hout ht hexcl h
  cases hout with
  | refused e sessions => exact .inl ⟨h, nofun⟩
  | existing entry _ _ => exact .inl ⟨h, nofun⟩
  | faulted message r made _ => exact .inl ⟨h, nofun⟩
  | rejected e r made _ => exact .inl ⟨h, nofun⟩
  | accepted runner generation r made hrunner _ _ =>
    have hname : runner.targetId = req.targetId := howner.runners _ _ hrunner
    by_cases htarget : target = req.targetId
    · refine .inr ⟨by rw [made.commandId], htarget, ?_⟩
      have hactive := h.active ht hexcl
      have hnew : (({ ((((s.admitted req r).setRunner
          { runner with active := some r.commandId, executionGeneration := generation }).change
          (r.dispatch generation)).setTask r.commandId
          (some ⟨runner.targetId, generation, .executing⟩)) with
          executed := s.executed ++ [(r.requestId, r.commandId)] } :
          DeviceRuntime V).activeOf target) = some r.commandId := by
        show ((s.runners.set runner.targetId _).get target).bind _ = _
        rw [hname, htarget, Dict.get_set_self]
        rfl
      rw [hnew] at hactive
      rw [← Option.some.inj hactive, made.commandId]
    · obtain ⟨task, htask, rfl, hgeneration⟩ := h
      have hne : runner.targetId ≠ task.targetId := by
        rw [hname]
        exact Ne.symm htarget
      have hc : c ≠ r.commandId := by
        rintro rfl
        have hnew : Function.update s.tasks r.commandId
            (some ⟨runner.targetId, generation, .executing⟩) r.commandId = some task := htask
        rw [Function.update_self] at hnew
        cases hnew
        exact hne rfl
      refine .inl ⟨⟨task, ?_, rfl, ?_⟩, fun _ => htarget⟩
      · have hold : Function.update s.tasks r.commandId
            (some ⟨runner.targetId, generation, .executing⟩) c = some task := htask
        rwa [Function.update_of_ne hc] at hold
      · have hold : ((s.runners.set runner.targetId
            { runner with active := some r.commandId, executionGeneration := generation }).get
            task.targetId).map (·.executionGeneration) = some task.generation := hgeneration
        rwa [Dict.get_set_ne _ _ hne] at hold

/-- A command is finished as observed by its observer, while it is current. -/
theorem observed_by (howner : OwnerInv s) (hs : s.step l = some t) {r : CommandRecord V}
    (hr : t.getCommand c = some r) (hdone : r.status = .terminal)
    (hsucc : r.outcome = some .succeeded) (hlevel : r.achievedCompletion = some .observed)
    (hlive : ∀ r₀, s.getCommand c = some r₀ → r₀.status ≠ .terminal) :
    l = .observe c (.ok true) ∧ s.Current r.targetId c ∧
      ∃ r₀, s.getCommand c = some r₀ ∧ r = r₀.finish .succeeded (some .observed) := by
  obtain ⟨task, r₀, task', htask, hr₀, hfits, rfl, -, hby⟩ :=
    (step_moves howner hs).succeeded hr hdone hsucc hlive
  cases hby with
  | executed _ _ level record =>
    rw [record] at hlevel
    exact absurd (Option.some.inj hlevel) level
  | observed label _ _ generation record =>
    subst record
    have htarget : r₀.targetId = task.targetId := hfits.target
    exact ⟨label, ⟨task, htask, htarget.symm, htarget ▸ generation⟩, r₀, hr₀, rfl⟩

end DeviceRuntime

/-! ## The bench -/

/-- An adapter, by its states: what it answers its Runtime, and what its own
tasks do, which may publish an event. -/
structure TargetAdapter (A ι P V : Type) where
  manifest : String → TargetManifest
  execute : A → String → Dict String V → Except String Unit × A
  isActionComplete : A → String → Dict String V → Except String Bool
  act : A → ℚ → ι → Option (A × Option (String × P))

/-- A call of `execute`, and the command that it was made for. -/
structure ExecuteCall (A V : Type) where
  command : CommandId
  action : String
  params : Dict String V
  time : ℚ
  before : A
  result : Except String Unit
  after : A

/-- An event that an adapter published, and when. -/
structure AdapterEvent (P : Type) where
  time : ℚ
  name : String
  payload : P

/-- A Runtime with its adapters; `P` is what their events carry. -/
structure AdapterBench (A P V : Type) where
  runtime : DeviceRuntime V
  adapters : String → A
  /-- history: the calls on each target -/
  calls : String → List (ExecuteCall A V)
  /-- history: what each target's adapter has published -/
  published : String → List (AdapterEvent P)

/-- A step of the Runtime, of a call to an adapter, or of an adapter itself. -/
inductive BenchLabel (ι V : Type)
  /-- a step of the Runtime that the adapters have no part in -/
  | runtime (l : DeviceRuntime.RuntimeLabel V)
  /-- `submit_command`, to the end if it raises or does not observe, else up to
  the start of the observer -/
  | submit (req : CommandSubmitRequest V) (freshId : CommandId)
  | observe (c : CommandId)
  /-- something that an adapter does by itself -/
  | act (target : String) (i : ι)

/-- `publish_event` -/
def DeviceRuntime.publishEvent (s : DeviceRuntime V) (name : String) (targetId : Option String) :
    DeviceRuntime V :=
  s.publish ⟨.adapter name, targetId, none, none, none, .adapter⟩

namespace AdapterBench

open DeviceRuntime

variable {A ι P : Type}

/-- A Runtime at start with new adapters. -/
def init (runtimeId bootId : String) (now : ℚ) (targets : List String) (new : String → A) :
    AdapterBench A P V where
  runtime := .init runtimeId bootId now targets false
  adapters := new
  calls := fun _ => []
  published := fun _ => []

/-- What the adapters answer is not free. -/
def allows : RuntimeLabel V → Bool
  | .submitCommand .. | .executeReturned _ | .executeRaised .. | .observe .. => false
  | _ => true

/-- The end of a call of `execute`. -/
def returned (c : CommandId) : Except String Unit → RuntimeLabel V
  | .ok () => .executeReturned c
  | .error message => .executeRaised c message

/-- The call of `execute` for command `c`, at the time `now`. -/
def called (s : AdapterBench A P V) (c : CommandId) (req : CommandSubmitRequest V)
    (out : Except String Unit × A) : AdapterBench A P V :=
  let call : ExecuteCall A V :=
    ⟨c, req.action, req.params, s.runtime.now, s.adapters req.targetId, out.1, out.2⟩
  { s with
    adapters := Function.update s.adapters req.targetId out.2
    calls := Function.update s.calls req.targetId (s.calls req.targetId ++ [call]) }

/-- What an event adds to the history. -/
def events (now : ℚ) (event : Option (String × P)) : List (AdapterEvent P) :=
  event.toList.map fun e => ⟨now, e.1, e.2⟩

/-- A target's adapter has acted. -/
def acted (s : AdapterBench A P V) (target : String) (out : A × Option (String × P)) :
    AdapterBench A P V where
  runtime := out.2.elim s.runtime fun e => s.runtime.publishEvent e.1 (some target)
  adapters := Function.update s.adapters target out.1
  calls := s.calls
  published := Function.update s.published target
    (s.published target ++ events s.runtime.now out.2)

variable [BEq V] (m : TargetAdapter A ι P V)

/-- One step. What the Runtime is told of an adapter is what the adapter answers. -/
def step (s : AdapterBench A P V) : BenchLabel ι V → Option (AdapterBench A P V)
  | .runtime l =>
      if allows l then (s.runtime.step l).map fun rt => { s with runtime := rt } else none
  | .submit req freshId =>
      if (s.runtime.getCommand freshId).isSome then none
      else
        let out := s.runtime.submitCommand req freshId (.ok (m.manifest req.targetId))
        match out.1 with
        | .ok (.suspended c) =>
            let call := m.execute (s.adapters req.targetId) req.action req.params
            (out.2.step (returned c call.1)).map fun rt =>
              { s.called c req call with runtime := rt }
        | _ => some { s with runtime := out.2 }
  | .observe c =>
      (s.runtime.getCommand c).bind fun r =>
        let complete := m.isActionComplete (s.adapters r.targetId) r.action r.params
        (s.runtime.step (.observe c complete)).map fun rt => { s with runtime := rt }
  | .act target i =>
      (m.act (s.adapters target) s.runtime.now i).map fun out => s.acted target out

/-! ### One step -/

variable {m} {s t : AdapterBench A P V} {l : BenchLabel ι V}

/-- What a submission leaves before the adapter is called. -/
def submitted (m : TargetAdapter A ι P V) (s : AdapterBench A P V) (req : CommandSubmitRequest V)
    (freshId : CommandId) : Except Fault SubmitAnswer × DeviceRuntime V :=
  s.runtime.submitCommand req freshId (.ok (m.manifest req.targetId))

/-- **What a step of the bench does.** -/
inductive Acts (m : TargetAdapter A ι P V) (s : AdapterBench A P V) :
    BenchLabel ι V → AdapterBench A P V → Prop
  | goesOn {lab : BenchLabel ι V} (label : ∀ target i, lab ≠ .act target i)
      (l : RuntimeLabel V) (rt : DeviceRuntime V)
      (fired : s.runtime.step l = some rt)
      (other : ∀ req freshId manifest, l ≠ .submitCommand req freshId manifest)
      (asks : ∀ c complete, l = .observe c complete → ∃ r, s.runtime.getCommand c = some r ∧
        complete = m.isActionComplete (s.adapters r.targetId) r.action r.params) :
      Acts m s lab { s with runtime := rt }
  /-- the submission ends without a call -/
  | answers (req : CommandSubmitRequest V) (freshId : CommandId)
      (fresh : s.runtime.getCommand freshId = none)
      (ended : (submitted m s req freshId).1 ≠ .ok (.suspended freshId)) :
      Acts m s (.submit req freshId) { s with runtime := (submitted m s req freshId).2 }
  | calls (req : CommandSubmitRequest V) (freshId : CommandId) (out : Except String Unit × A)
      (rt : DeviceRuntime V) (fresh : s.runtime.getCommand freshId = none)
      (suspended : (submitted m s req freshId).1 = .ok (.suspended freshId))
      (executes : m.execute (s.adapters req.targetId) req.action req.params = out)
      (fired : (submitted m s req freshId).2.step (returned freshId out.1) = some rt) :
      Acts m s (.submit req freshId) { s.called freshId req out with runtime := rt }
  | acts (target : String) (i : ι) (out : A × Option (String × P))
      (act : m.act (s.adapters target) s.runtime.now i = some out) :
      Acts m s (.act target i) (s.acted target out)

theorem submitted_suspended {req : CommandSubmitRequest V} {freshId c : CommandId}
    (h : (submitted m s req freshId).1 = .ok (.suspended c)) : c = freshId := by
  have hout := submitCommand_cases s.runtime req freshId
    (.ok (m.manifest req.targetId))
  rw [submitted] at h
  generalize s.runtime.submitCommand req freshId (.ok (m.manifest req.targetId)) = answer
    at hout h
  cases hout with
  | refused | existing | faulted | rejected => cases h
  | accepted runner generation r made =>
    cases h
    exact made.commandId

theorem step_acts (h : s.step m l = some t) : Acts m s l t := by
  cases l with
  | runtime rl =>
    simp only [step] at h
    split at h
    · rename_i hallows
      obtain ⟨rt, hrt, rfl⟩ := Option.map_eq_some_iff.mp h
      refine .goesOn ?_ rl rt hrt ?_ ?_
      · intro target i heq
        cases heq
      · rintro req freshId manifest rfl
        cases hallows
      · rintro c complete rfl
        cases hallows
    · cases h
  | submit req freshId =>
    simp only [step] at h
    split at h
    · cases h
    · rename_i hfresh
      have hfresh : s.runtime.getCommand freshId = none := by simpa using hfresh
      split at h
      · rename_i c hc
        have hsuspended : (submitted m s req freshId).1 = .ok (.suspended c) := hc
        obtain rfl := submitted_suspended hsuspended
        obtain ⟨rt, hrt, rfl⟩ := Option.map_eq_some_iff.mp h
        exact .calls req c _ rt hfresh hsuspended rfl hrt
      · rename_i hended
        cases h
        exact .answers req freshId hfresh (hended freshId)
  | observe c =>
    obtain ⟨r, hr, h⟩ := Option.bind_eq_some_iff.mp h
    obtain ⟨rt, hrt, rfl⟩ := Option.map_eq_some_iff.mp h
    generalize hcomplete : m.isActionComplete (s.adapters r.targetId) r.action r.params =
      complete at hrt
    refine .goesOn ?_ (.observe c complete) rt hrt ?_ ?_
    · intro target i heq
      cases heq
    · intro req freshId manifest heq
      cases heq
    · intro c' complete' heq
      cases heq
      exact ⟨r, hr, hcomplete.symm⟩
  | act target i =>
    obtain ⟨out, hout, rfl⟩ := Option.map_eq_some_iff.mp h
    exact .acts target i out hout

theorem step_submitted (req : CommandSubmitRequest V) {freshId : CommandId}
    (fresh : s.runtime.getCommand freshId = none) :
    s.runtime.step (.submitCommand req freshId (.ok (m.manifest req.targetId))) =
      some (submitted m s req freshId).2 := by
  rw [DeviceRuntime.step, fresh]
  rfl

/-- The Runtime of the bench goes on by steps of its own. -/
theorem Acts.runtime (h : Acts m s l t) :
    Reachable DeviceRuntime.step s.runtime t.runtime := by
  cases h with
  | goesOn _ l rt fired => exact Reachable.refl.tail fired
  | answers req freshId fresh => exact Reachable.refl.tail (step_submitted req fresh)
  | calls req freshId out rt fresh _ _ fired =>
    exact (Reachable.refl.tail (step_submitted req fresh)).tail fired
  | acts target i out =>
    obtain ⟨a, event⟩ := out
    cases event with
    | none => exact .refl
    | some e => exact Reachable.refl.tail (l := .publishEvent e.1 (some target)) rfl

theorem Acts.now_le (h : Acts m s l t) : s.runtime.now ≤ t.runtime.now :=
  h.runtime.relates (I := fun _ => True) (R := fun u v => u.now ≤ v.now) (fun _ => le_refl _)
    (fun _ _ _ h h' => h.trans h') (fun _ _ _ _ _ => trivial)
    (fun _ _ _ _ hs => now_step hs) trivial

/-! ## The invariant -/

/-- The call was made from the record of its command. -/
def OfRecord (rt : DeviceRuntime V) (call : ExecuteCall A V) : Prop :=
  ∃ r, rt.getCommand call.command = some r ∧ r.action = call.action ∧
    r.params.sortedItems = call.params.sortedItems

omit [BEq V] in
theorem OfRecord.later {rt rt' : DeviceRuntime V} {call : ExecuteCall A V}
    (h : OfRecord rt call) (hl : Later rt rt') : OfRecord rt' call := by
  obtain ⟨r, hr, haction, hparams⟩ := h
  obtain ⟨r', hr', hle⟩ := hl _ r hr
  have hcontent := hle.fingerprint
  exact ⟨r', hr', (congrArg Fingerprint.action hcontent).trans haction,
    (congrArg Fingerprint.params hcontent).trans hparams⟩

/-- The command's call is the latest on the target, and it returned. -/
def Latest (calls : List (ExecuteCall A V)) (c : CommandId) : Prop :=
  ∃ call, calls.getLast? = some call ∧ call.command = c ∧ call.result = .ok ()

/-- **The bench invariant**: what is current on a runner is the latest call on
its adapter. -/
structure BenchInv (s : AdapterBench A P V) : Prop where
  owner : s.runtime.OwnerInv
  exclusive : s.runtime.Exclusive
  latest : ∀ target c, s.runtime.Current target c → Latest (s.calls target) c
  record : ∀ target, ∀ call ∈ s.calls target, OfRecord s.runtime call

theorem runtime_inv (hi : BenchInv s) (h : Acts m s l t) :
    t.runtime.OwnerInv ∧ t.runtime.Exclusive ∧ Later s.runtime t.runtime := by
  refine ⟨hi.owner.reachable h.runtime, ?_, later_of_reachable hi.owner h.runtime⟩
  exact (h.runtime.invariant (I := fun u => u.OwnerInv ∧ u.Exclusive) ⟨hi.owner, hi.exclusive⟩
    fun _ _ _ hu hs => ⟨hu.1.step hs, hu.2.step hu.1 hs⟩).2

/-- A submission that reaches the adapter leaves its own record. -/
theorem submitted_record {req : CommandSubmitRequest V} {freshId : CommandId}
    (h : (submitted m s req freshId).1 = .ok (.suspended freshId)) :
    ∃ r, (submitted m s req freshId).2.getCommand freshId = some r ∧
      r.fingerprint = fingerprint req := by
  have hout := submitCommand_cases s.runtime req freshId (.ok (m.manifest req.targetId))
  rw [submitted] at h ⊢
  generalize s.runtime.submitCommand req freshId (.ok (m.manifest req.targetId)) = answer
    at hout h
  cases hout with
  | refused | existing | faulted | rejected => cases h
  | accepted runner generation r made =>
    have hid : (r.dispatch generation).commandId = freshId := made.commandId
    refine ⟨r.dispatch generation, ?_, made.fingerprint⟩
    show DeviceRuntime.getCommand (DeviceRuntime.change _ _) freshId = _
    rw [getCommand_change, if_pos hid]

/-- What is current after the adapter was called. -/
theorem current_submitted (hi : BenchInv s) {req : CommandSubmitRequest V}
    {freshId : CommandId} (fresh : s.runtime.getCommand freshId = none) {target : String}
    {c : CommandId} (h : (submitted m s req freshId).2.Current target c) :
    s.runtime.Current target c ∧ ((submitted m s req freshId).1 = .ok (.suspended freshId) →
        target ≠ req.targetId) ∨
      (submitted m s req freshId).1 = .ok (.suspended freshId) ∧
        target = req.targetId ∧ c = freshId := by
  have hs := step_submitted (m := m) req fresh
  exact current_submitCommand hi.owner (hi.owner.step hs) (hi.exclusive.step hi.owner hs) h

/-- An exception of the adapter ends the command. -/
theorem executeRaised_ends {u rt : DeviceRuntime V} (howner : u.OwnerInv) {c : CommandId}
    {message : String} (hs : u.step (.executeRaised c message) = some rt) :
    rt.tasks c = none := by
  simp only [DeviceRuntime.step] at hs
  split at hs
  · rename_i task r runner ho
    split at hs <;> cases hs
    obtain ⟨rfl, -⟩ := howner.owner ho
    exact tasks_finish_self u task (r.setInternalError message) .failed none
  · cases hs

omit [BEq V] in
theorem returned_ne_submit (c : CommandId) (result : Except String Unit)
    (req : CommandSubmitRequest V) (freshId : CommandId) (manifest : Except Fault TargetManifest) :
    returned c result ≠ .submitCommand req freshId manifest := by
  intro heq
  cases result <;> cases heq

/-- **Every step.** -/
theorem BenchInv.step (hi : BenchInv s) (h : Acts m s l t) : BenchInv t := by
  obtain ⟨howner, hexcl, hlater⟩ := runtime_inv hi h
  -- the calls stay
  have hquiet : t.calls = s.calls →
      (∀ target c, t.runtime.Current target c → s.runtime.Current target c) → BenchInv t := by
    intro hcalls hcurrent
    refine ⟨howner, hexcl, ?_, ?_⟩
    · rw [hcalls]
      exact fun target c hc => hi.latest target c (hcurrent target c hc)
    · rw [hcalls]
      exact fun target call hcall => (hi.record target call hcall).later hlater
  cases h with
  | goesOn _ l rt fired other =>
    exact hquiet rfl fun target c hc => current_step hi.owner hi.exclusive other fired hc
  | answers req freshId fresh ended =>
    refine hquiet rfl fun target c hc => ?_
    rcases current_submitted hi fresh hc with ⟨hold, -⟩ | ⟨hsuspended, -⟩
    · exact hold
    · exact absurd hsuspended ended
  | acts target i out =>
    refine hquiet rfl fun target' c hc => ?_
    obtain ⟨a, event⟩ := out
    cases event with
    | none => exact hc
    | some e =>
      refine current_step (l := .publishEvent e.1 (some target)) hi.owner hi.exclusive ?_ rfl hc
      intro req freshId manifest heq
      cases heq
  | calls req freshId out rt fresh suspended executes fired =>
    have hs := step_submitted (m := m) req fresh
    have hsowner := hi.owner.step hs
    have hown : (s.called freshId req out).calls req.targetId = s.calls req.targetId ++
        [⟨freshId, req.action, req.params, s.runtime.now, s.adapters req.targetId, out.1,
          out.2⟩] := Function.update_self ..
    have hother : ∀ {target}, target ≠ req.targetId →
        (s.called freshId req out).calls target = s.calls target :=
      fun hne => Function.update_of_ne hne _ _
    refine ⟨howner, hexcl, ?_, ?_⟩
    · intro target c hc
      have hcurrent : (submitted m s req freshId).2.Current target c :=
        current_step hsowner (hi.exclusive.step hi.owner hs) (returned_ne_submit _ _) fired hc
      rcases current_submitted hi fresh hcurrent with ⟨hold, hne⟩ | ⟨-, rfl, rfl⟩
      · rw [show (s.called freshId req out).calls target = _ from hother (hne suspended)]
        exact hi.latest target c hold
      · -- the call returned, or nothing is current of it
        rw [show (s.called c req out).calls req.targetId = _ from hown]
        refine ⟨_, List.getLast?_concat, rfl, ?_⟩
        show out.1 = .ok ()
        match hout : out.1 with
        | .ok () => rfl
        | .error message =>
          rw [hout] at fired
          obtain ⟨task, htask, -⟩ := hc
          rw [show rt.tasks c = none from executeRaised_ends hsowner fired] at htask
          cases htask
    · intro target call hcall
      by_cases htarget : target = req.targetId
      · subst htarget
        rw [show (s.called freshId req out).calls req.targetId = _ from hown] at hcall
        rcases List.mem_append.mp hcall with hold | hnew
        · exact (hi.record _ call hold).later hlater
        · obtain rfl := List.mem_singleton.mp hnew
          obtain ⟨r, hr, hcontent⟩ := submitted_record suspended
          have hrecord : OfRecord (submitted m s req freshId).2 ⟨freshId, req.action, req.params,
              s.runtime.now, s.adapters req.targetId, out.1, out.2⟩ :=
            ⟨r, hr, congrArg Fingerprint.action hcontent, congrArg Fingerprint.params hcontent⟩
          exact hrecord.later (step_moves hsowner fired).effects.later
      · rw [show (s.called freshId req out).calls target = _ from hother htarget] at hcall
        exact (hi.record target call hcall).later hlater

omit [BEq V] in
theorem BenchInv.init (runtimeId bootId : String) (now : ℚ) (targets : List String)
    (new : String → A) :
    BenchInv (AdapterBench.init runtimeId bootId now targets new : AdapterBench A P V) where
  owner := .init runtimeId bootId now targets false
  exclusive := by
    intro c r hr
    cases hr
  latest := by
    intro target c hc
    obtain ⟨task, htask, -⟩ := hc
    cases htask
  record := by
    intro target call hcall
    cases hcall

section
variable {runtimeId bootId : String} {now : ℚ} {targets : List String} {new : String → A}

theorem inv_reachable (h : Reachable (step m) (init runtimeId bootId now targets new) s) :
    BenchInv s :=
  h.invariant (.init runtimeId bootId now targets new) fun _ _ _ hi hs => hi.step (step_acts hs)

end

/-! ## Observed commands -/

/-- The record is finished SUCCEEDED as observed. -/
structure Observed (r : CommandRecord V) : Prop where
  done : r.status = .terminal
  succeeded : r.outcome = some .succeeded
  level : r.achievedCompletion = some .observed

/-- **An observed command is complete.** At the moment a command is finished
SUCCEEDED as observed, its call is the latest on its target's adapter, and the
adapter calls the action complete. -/
theorem Acts.observed (hi : BenchInv s) (h : Acts m s l t) {c : CommandId}
    {r : CommandRecord V} (hr : t.runtime.getCommand c = some r) (hobserved : Observed r)
    (hlive : ∀ r₀, s.runtime.getCommand c = some r₀ → r₀.status ≠ .terminal) :
    t.calls = s.calls ∧ t.adapters = s.adapters ∧
      m.isActionComplete (s.adapters r.targetId) r.action r.params = .ok true ∧
      ∃ call, (s.calls r.targetId).getLast? = some call ∧ call.command = c ∧
        call.result = .ok () ∧ r.action = call.action ∧
        r.params.sortedItems = call.params.sortedItems := by
  -- a step that is no observation finishes nothing as observed
  have hbefore : ∀ {u rt : DeviceRuntime V} {l : RuntimeLabel V}, u.OwnerInv →
      u.step l = some rt → (∀ c complete, l ≠ .observe c complete) →
      rt.getCommand c = some r → u.getCommand c = some r := by
    intro u rt l hu hs hl hrt
    by_contra hno
    have hlive' : ∀ r₀, u.getCommand c = some r₀ → r₀.status ≠ .terminal := by
      intro r₀ hr₀ hdone
      obtain ⟨r', hr', hle⟩ := (step_moves hu hs).effects.later c r₀ hr₀
      obtain rfl : r' = r := Option.some.inj (hr'.symm.trans hrt)
      rw [hle.frozen hdone] at hno
      exact hno hr₀
    exact hl _ _ (observed_by hu hs hrt hobserved.done hobserved.succeeded hobserved.level
      hlive').1
  have hsubmit : ∀ {req freshId}, s.runtime.getCommand freshId = none →
      (submitted m s req freshId).2.getCommand c ≠ some r := by
    intro req freshId fresh hu
    refine hlive r (hbefore hi.owner (step_submitted (m := m) req fresh) ?_ hu) hobserved.done
    intro c' complete heq
    cases heq
  have hlater := (runtime_inv hi h).2.2
  cases h with
  | goesOn _ l rt fired other asks =>
    obtain ⟨rfl, hcurrent, r₀, hr₀, hfinished⟩ :=
      observed_by hi.owner fired hr hobserved.done hobserved.succeeded hobserved.level hlive
    obtain ⟨r₁, hr₁, hcomplete⟩ := asks c (.ok true) rfl
    obtain rfl : r₀ = r₁ := Option.some.inj (hr₀.symm.trans hr₁)
    obtain ⟨call, hcall, hcommand, hresult⟩ := hi.latest _ _ hcurrent
    obtain ⟨r', hr', haction, hparams⟩ :=
      (hi.record _ call (List.mem_of_getLast? hcall)).later hlater
    rw [hcommand, hr] at hr'
    obtain rfl := Option.some.inj hr'
    refine ⟨rfl, rfl, ?_, call, hcall, hcommand, hresult, haction, hparams⟩
    subst hfinished
    exact hcomplete.symm
  | answers req freshId fresh ended => exact absurd hr (hsubmit fresh)
  | calls req freshId out rt fresh suspended executes fired =>
    refine absurd (hbefore (hi.owner.step (step_submitted req fresh)) fired ?_ hr) (hsubmit fresh)
    intro c' complete heq
    cases hout : out.1 <;> rw [hout] at heq <;> cases heq
  | acts target i out =>
    obtain ⟨a, event⟩ := out
    cases event <;> exact absurd hobserved.done (hlive r hr)

/-! ## One target -/

/-- What a label lets the target's adapter do by itself. -/
def ownAct (target : String) : BenchLabel ι V → Option ι
  | .act name i => if name = target then some i else none
  | _ => none

/-- **What a step is to one target.** -/
inductive TargetStep (m : TargetAdapter A ι P V) (s : AdapterBench A P V) (l : BenchLabel ι V)
    (t : AdapterBench A P V) (target : String) : Prop
  | idle (label : ownAct target l = none) (adapter : t.adapters target = s.adapters target)
      (calls : t.calls target = s.calls target)
      (published : t.published target = s.published target)
  | acts (i : ι) (event : Option (String × P)) (label : ownAct target l = some i)
      (now : t.runtime.now = s.runtime.now)
      (act : m.act (s.adapters target) s.runtime.now i = some (t.adapters target, event))
      (runtime : t.runtime = event.elim s.runtime fun e => s.runtime.publishEvent e.1 (some target))
      (calls : t.calls target = s.calls target)
      (published : t.published target = s.published target ++ events s.runtime.now event)
  | executes (call : ExecuteCall A V) (label : ownAct target l = none)
      (time : call.time = s.runtime.now) (before : call.before = s.adapters target)
      (after : call.after = t.adapters target)
      (executes : m.execute (s.adapters target) call.action call.params =
        (call.result, t.adapters target))
      (calls : t.calls target = s.calls target ++ [call])
      (published : t.published target = s.published target)

theorem targetStep (h : Acts m s l t) (target : String) : TargetStep m s l t target := by
  cases h with
  | goesOn label =>
    have hlabel : ownAct target l = none := by
      cases l with
      | act name i => exact absurd rfl (label name i)
      | runtime | submit | observe => rfl
    exact .idle hlabel rfl rfl rfl
  | answers => exact .idle rfl rfl rfl rfl
  | calls req freshId out rt fresh suspended executes fired =>
    by_cases htarget : target = req.targetId
    · subst htarget
      have hadapter : (s.called freshId req out).adapters req.targetId = out.2 :=
        Function.update_self ..
      refine .executes ⟨freshId, req.action, req.params, s.runtime.now, s.adapters req.targetId,
        out.1, out.2⟩ rfl rfl rfl hadapter.symm ?_ (Function.update_self ..) rfl
      rw [show (s.called freshId req out).adapters req.targetId = _ from hadapter]
      exact executes
    · exact .idle rfl (Function.update_of_ne htarget _ _) (Function.update_of_ne htarget _ _) rfl
  | acts name i out act =>
    by_cases htarget : target = name
    · subst htarget
      have hadapter : (s.acted target out).adapters target = out.1 := Function.update_self ..
      refine .acts i out.2 (if_pos rfl) ?_ ?_ rfl rfl (Function.update_self ..)
      · obtain ⟨a, event⟩ := out
        cases event <;> rfl
      · rw [hadapter]
        exact act
    · exact .idle (if_neg (Ne.symm htarget)) (Function.update_of_ne htarget _ _) rfl
        (Function.update_of_ne htarget _ _)

/-- A law of one adapter, its calls and its events: it holds on while time
passes, and after all that the adapter does and is called for. -/
structure TargetLaw (m : TargetAdapter A ι P V)
    (L : A → List (ExecuteCall A V) → List (AdapterEvent P) → ℚ → Prop) : Prop where
  waits : ∀ {a calls es now later}, now ≤ later → L a calls es now → L a calls es later
  acts : ∀ {a b calls es now i event}, m.act a now i = some (b, event) → L a calls es now →
    L b calls (es ++ events now event) now
  executes : ∀ {calls es} (call : ExecuteCall A V),
    m.execute call.before call.action call.params = (call.result, call.after) →
    L call.before calls es call.time → L call.after (calls ++ [call]) es call.time

/-- The law of a target, at a state. -/
def Keeps (L : A → List (ExecuteCall A V) → List (AdapterEvent P) → ℚ → Prop) (target : String)
    (s : AdapterBench A P V) : Prop :=
  L (s.adapters target) (s.calls target) (s.published target) s.runtime.now

variable {L : A → List (ExecuteCall A V) → List (AdapterEvent P) → ℚ → Prop} {target : String}

theorem TargetLaw.step (hL : TargetLaw m L) (h : Acts m s l t) (hi : Keeps L target s) :
    Keeps L target t := by
  have hnow := h.now_le
  unfold Keeps at hi ⊢
  cases targetStep h target with
  | idle _ adapter calls published =>
    rw [adapter, calls, published]
    exact hL.waits hnow hi
  | acts i event _ _ act _ calls published =>
    rw [calls, published]
    exact hL.waits hnow (hL.acts act hi)
  | executes call _ time before after executes calls published =>
    rw [calls, published, ← after]
    rw [← before, ← time] at hi
    rw [← before, ← after] at executes
    exact hL.waits (time ▸ hnow) (hL.executes call executes hi)

/-- **The law of an adapter holds in every run.** -/
theorem TargetLaw.reachable (hL : TargetLaw m L) (h₀ : Keeps L target s)
    (h : Reachable (AdapterBench.step m) s t) : Keeps L target t :=
  h.invariant h₀ fun _ _ _ hi hs => hL.step (step_acts hs) hi

end AdapterBench

end Fusion
