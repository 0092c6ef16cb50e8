import Fusion.Apps.SettingCoordinator

/-!
# GroupDeployment — what a deployment's outcome says

Whatever the network, the Runtimes and their other callers do, a deployment
that returns has one result for each client, in order. A success is a record
that the client's Runtime made of the very revision this deployment staged
there, and that revision was the active one then; a failure may be a lost
response. `overall` follows from the results.
-/

namespace Fusion

open Transition

/-! ## What a call of `apply` leaves -/

namespace ConfigApply

variable {s t : ConfigApply} {l : Label}

/-- A decision of the call `call`, as the last record. -/
structure Decided (s t : ConfigApply) (revisionId : String) (decision : Decision) : Prop where
  made : t.made = s.made ++ [decision]
  revision : decision.record.revisionId = revisionId
  active : decision.record.outcome = .succeeded → t.active = some revisionId

/-- A call goes on, decides, or is over without a decision. -/
inductive CallAfter (s t : ConfigApply) (i : Nat) (revisionId : String) : Prop
  | going (call : ApplyCall) (at_ : t.calls i = some call) (revision : call.revisionId = revisionId)
  | decided (decision : Decision) (left : t.calls i = none) (h : Decided s t revisionId decision)
  | dropped (left : t.calls i = none) (made : t.made = s.made)

theorem locked_after {i : Nat} {call : ApplyCall} :
    CallAfter s (s.locked i call) i call.revisionId := by
  obtain ⟨revisionId, expected, guarding⟩ := call
  cases expected with
  | none =>
    exact .going ⟨revisionId, none, true⟩ (by simp [locked, ConfigService.applyLocked, setCall]) rfl
  | some e =>
    by_cases hmet : some e = s.service.activeRevisionId
    · exact .going ⟨revisionId, some e, true⟩
        (by simp [locked, ConfigService.applyLocked, setCall, hmet]) rfl
    · simp only [locked, ConfigService.applyLocked, if_neg hmet]
      refine .decided _ (by simp [setCall]) ⟨rfl, rfl, fun h => ?_⟩
      cases h

theorem guarded_after {i : Nat} {call : ApplyCall} (answer : Except Fault Unit) :
    CallAfter s (s.guarded i call answer) i call.revisionId := by
  have hover : (s.guarded i call answer).calls i = none := by simp [guarded, setCall]
  cases answer with
  | ok u => exact .decided _ hover ⟨rfl, rfl, fun _ => rfl⟩
  | error fault =>
    cases fault with
    | fusion e =>
      refine .decided _ hover ⟨rfl, rfl, fun h => ?_⟩
      cases h
    | other message =>
      refine .decided _ hover ⟨rfl, rfl, fun h => ?_⟩
      cases h

/-- **What a step leaves of a call.** -/
theorem step_call (h : s.step l = some t) {i : Nat} {call : ApplyCall}
    (hcall : s.calls i = some call) : CallAfter s t i call.revisionId := by
  have hsame : t.calls i = s.calls i → CallAfter s t i call.revisionId :=
    fun heq => .going call (heq.trans hcall) rfl
  have hother : ∀ {j : Nat} {new : Option ApplyCall}, j ≠ i →
      (s.setCall j new).calls i = s.calls i := by
    intro j new hj
    simp [setCall, Ne.symm hj]
  cases l with
  | advance dt =>
    simp only [step] at h
    split at h <;> cases h
    exact hsame rfl
  | stage kind freshId =>
    cases h
    exact hsame rfl
  | apply j revisionId expected =>
    simp only [step] at h
    split at h
    · cases h
    · rename_i hnone
      have hj : j ≠ i := by
        rintro rfl
        cases hnone.symm.trans hcall
      split at h <;> cases h
      · exact hsame rfl
      · exact hsame (hother hj)
  | locked j =>
    simp only [step] at h
    split at h
    · rename_i call' hcall'
      split at h <;> cases h
      by_cases hj : j = i
      · subst hj
        obtain rfl := Option.some.inj (hcall.symm.trans hcall')
        exact locked_after
      · refine hsame ?_
        unfold locked
        split <;> exact hother hj
    · cases h
  | guarded j answer =>
    simp only [step] at h
    split at h
    · rename_i call' hcall'
      split at h <;> cases h
      by_cases hj : j = i
      · subst hj
        obtain rfl := Option.some.inj (hcall.symm.trans hcall')
        exact guarded_after answer
      · exact hsame (hother hj)
    · cases h
  | cancelled j =>
    simp only [step] at h
    split at h <;> cases h
    by_cases hj : j = i
    · subst hj
      exact .dropped (by simp [setCall]) rfl
    · exact hsame (by simp [setCall, Ne.symm hj])

/-- A step makes one record at most; where it is a success, its revision is
the active one. -/
theorem step_made (h : s.step l = some t) :
    t.made = s.made ∨ ∃ decision, Decided s t decision.record.revisionId decision := by
  have hdoes := step_does h
  cases hdoes with
  | rests _ _ _ _ made _ => exact .inl made
  | takes _ _ _ _ _ _ _ made _ => exact .inl made
  | misses e record _ _ rejected _ decides =>
    exact .inr ⟨_, decides.made, rfl, fun h => by cases rejected.symm.trans h⟩
  | writes call record _ _ revision active decides =>
    exact .inr ⟨_, decides.made, rfl, fun _ => by rw [active, ← revision]⟩
  | refuses call record _ kept _ decides =>
    exact .inr ⟨_, decides.made, rfl, fun h => absurd h kept⟩
  | drops _ _ _ _ _ _ made _ => exact .inl made

end ConfigApply

/-! ## The deployment -/

namespace SettingCoordinator

variable (d : DeployCall) {s t : SettingCoordinator}

/-- A Runtime that the client reaches made the record, of the revision that
the deployment staged there. -/
def Recorded (s : SettingCoordinator) (name revisionId : String) (record : ApplyRecord) : Prop :=
  record.revisionId = revisionId ∧ ∃ e ∈ s.log, e.runtime = d.reaches name ∧ e.record = record

/-- How a client's result came about. -/
inductive ResultOk (s : SettingCoordinator) (name : String) : RuntimeDeploymentResult → Prop
  | notStaged (message : String) :
      ResultOk s name ⟨name, false, none, some message, none, none⟩
  | stagedOnly (revisionId : String) (happly : d.apply = false)
      (staged : (name, revisionId) ∈ s.stagedHere) :
      ResultOk s name (applyResult name revisionId none none)
  | returned (revisionId : String) (record : ApplyRecord) (happly : d.apply = true)
      (staged : (name, revisionId) ∈ s.stagedHere)
      (recorded : Recorded d s name revisionId record) :
      ResultOk s name (applyResult name revisionId (some record.outcome) record.detail)
  | raised (revisionId message : String) (happly : d.apply = true)
      (staged : (name, revisionId) ∈ s.stagedHere) :
      ResultOk s name (applyResult name revisionId (some .failed) (some message))

/-- What is known of the client that `_deploy_one` is with. -/
def PhaseOk (s : SettingCoordinator) (name : String) : DeployPhase → Prop
  | .staging => True
  | .staged revisionId => (name, revisionId) ∈ s.stagedHere
  | .applying revisionId | .broken revisionId =>
      d.apply = true ∧ (name, revisionId) ∈ s.stagedHere
  | .serving revisionId i =>
      d.apply = true ∧ (name, revisionId) ∈ s.stagedHere ∧
        ∃ call, (s.runtimes (d.reaches name)).calls i = some call ∧ call.revisionId = revisionId
  | .applied revisionId record =>
      d.apply = true ∧ (name, revisionId) ∈ s.stagedHere ∧ Recorded d s name revisionId record

/-- **The invariant of a deployment.** -/
structure Inv (s : SettingCoordinator) : Prop where
  order : s.results.keys ++ (s.current.map Prod.fst).toList ++ s.todo = d.clients
  log : ∀ e ∈ s.log, e.record.outcome = .succeeded → e.active = some e.record.revisionId
  phase : ∀ name phase, s.current = some (name, phase) → PhaseOk d s name phase
  results : ∀ name r, s.results.get name = some r → ResultOk d s name r
  /-- each client's Runtime stages for the deployment once at most -/
  once : (s.stagedHere.map Prod.fst).Nodup
  begun : ∀ x ∈ s.stagedHere, x.1 ∈ s.results.keys ∨
    ∃ phase, s.current = some (x.1, phase) ∧ phase ≠ .staging

/-! ### What a step keeps -/

/-- The histories grow. -/
structure Grows (s t : SettingCoordinator) : Prop where
  log : ∀ e ∈ s.log, e ∈ t.log
  staged : ∀ x ∈ s.stagedHere, x ∈ t.stagedHere

variable {d}

theorem Recorded.mono {name revisionId : String} {record : ApplyRecord} (h : Grows s t)
    (hr : Recorded d s name revisionId record) : Recorded d t name revisionId record := by
  obtain ⟨hrevision, e, he, hruntime⟩ := hr
  exact ⟨hrevision, e, h.log e he, hruntime⟩

theorem ResultOk.mono {name : String} {r : RuntimeDeploymentResult} (h : Grows s t)
    (hr : ResultOk d s name r) : ResultOk d t name r := by
  cases hr with
  | notStaged message => exact .notStaged message
  | stagedOnly revisionId happly staged => exact .stagedOnly revisionId happly (h.staged _ staged)
  | returned revisionId record happly staged recorded =>
    exact .returned revisionId record happly (h.staged _ staged) (recorded.mono h)
  | raised revisionId message happly staged =>
    exact .raised revisionId message happly (h.staged _ staged)

/-- A phase that the Runtime's next steps do not touch. -/
theorem PhaseOk.mono {name : String} {phase : DeployPhase} (h : Grows s t)
    (hruntime : ∀ revisionId i, phase = .serving revisionId i →
      t.runtimes (d.reaches name) = s.runtimes (d.reaches name))
    (hp : PhaseOk d s name phase) : PhaseOk d t name phase := by
  cases phase with
  | staging => trivial
  | staged revisionId => exact h.staged _ hp
  | applying revisionId | broken revisionId => exact ⟨hp.1, h.staged _ hp.2⟩
  | serving revisionId i =>
    obtain ⟨happly, hstaged, hcall⟩ := hp
    refine ⟨happly, h.staged _ hstaged, ?_⟩
    rwa [hruntime revisionId i rfl]
  | applied revisionId record => exact ⟨hp.1, h.staged _ hp.2.1, hp.2.2.mono h⟩

theorem Inv.init (runtimes : String → ConfigApply) : Inv d (init d runtimes) where
  order := by simp [SettingCoordinator.init, Dict.keys, Dict.empty]
  log := by simp [SettingCoordinator.init]
  phase := by simp [SettingCoordinator.init]
  results := by simp [SettingCoordinator.init]
  once := by simp [SettingCoordinator.init]
  begun := by simp [SettingCoordinator.init]

theorem runtimeStep_eq_some {id : String} {l : ConfigApply.Label}
    {follow : ConfigApply → ConfigApply → String × DeployPhase → String × DeployPhase}
    (h : s.runtimeStep id l follow = some t) :
    ∃ after, (s.runtimes id).step l = some after ∧ t = { s with
      runtimes := Function.update s.runtimes id after
      current := s.current.map (follow (s.runtimes id) after)
      log := s.log ++ (after.made.drop (s.runtimes id).made.length).map fun decision =>
        ⟨id, decision.record, after.active⟩ } := by
  simp only [runtimeStep] at h
  split at h
  · obtain ⟨after, hstep, rfl⟩ := Option.map_eq_some_iff.mp h
    exact ⟨after, hstep, rfl⟩
  · cases h

/-- The records that a Runtime's step adds to the log tell the truth about
its active revision. -/
theorem log_runtimeStep {id : String} {l : ConfigApply.Label} {before after : ConfigApply}
    (h : before.step l = some after) :
    ∀ e ∈ (after.made.drop before.made.length).map fun decision : Decision =>
        (⟨id, decision.record, after.active⟩ : DeployLogEntry),
      e.record.outcome = .succeeded → e.active = some e.record.revisionId := by
  intro e he
  obtain ⟨decision, hdecision, rfl⟩ := List.mem_map.mp he
  rcases ConfigApply.step_made h with hmade | ⟨decision', hdecided⟩
  · simp [hmade] at hdecision
  · rw [hdecided.made, List.drop_left] at hdecision
    obtain rfl := List.mem_singleton.mp hdecision
    exact hdecided.active

/-- **A Runtime goes on**: the phase of its client goes with it. -/
theorem phaseOk_follow {id name : String} {l : ConfigApply.Label} {phase : DeployPhase}
    {after : ConfigApply} (hstep : (s.runtimes id).step l = some after) (hgrows : Grows s t)
    (hruntimes : t.runtimes = Function.update s.runtimes id after)
    (hlog : t.log = s.log ++ (after.made.drop (s.runtimes id).made.length).map fun decision =>
      ⟨id, decision.record, after.active⟩)
    (hp : PhaseOk d s name phase) :
    PhaseOk d t name (d.follow id (s.runtimes id) after (name, phase)).2 := by
  unfold DeployCall.follow
  by_cases hid : d.reaches name = id
  · subst hid
    simp only [if_true]
    cases phase with
    | serving revisionId i =>
      obtain ⟨happly, hstaged, call, hcall, rfl⟩ := hp
      have hstaged := hgrows.staged _ hstaged
      unfold DeployPhase.follow
      cases ConfigApply.step_call hstep hcall with
      | going call' hat hrevision =>
        simp only [hat]
        exact ⟨happly, hstaged, call', by rw [hruntimes, Function.update_self, hat], hrevision⟩
      | decided decision hover hdecided =>
        simp only [hover, hdecided.made, List.drop_left, List.getLast?_singleton]
        refine ⟨happly, hstaged, hdecided.revision,
          ⟨d.reaches name, decision.record, after.active⟩, ?_, rfl, rfl⟩
        rw [hlog, hdecided.made, List.drop_left]
        simp
      | dropped hover hmade =>
        simp only [hover, hmade, List.drop_length, List.getLast?_nil]
        exact ⟨happly, hstaged⟩
    | staging => trivial
    | staged revisionId => exact hgrows.staged _ hp
    | applying revisionId | broken revisionId => exact ⟨hp.1, hgrows.staged _ hp.2⟩
    | applied revisionId record => exact ⟨hp.1, hgrows.staged _ hp.2.1, hp.2.2.mono hgrows⟩
  · rw [if_neg hid]
    refine hp.mono hgrows fun _ _ _ => ?_
    rw [hruntimes, Function.update_of_ne hid]

theorem Inv.current_new (hi : Inv d s) {name : String} {phase : DeployPhase}
    (hcurrent : s.current = some (name, phase)) : name ∉ s.results.keys := by
  have hdistinct := d.distinct
  rw [← hi.order, hcurrent] at hdistinct
  intro hmem
  have hpair := (List.nodup_append.mp (List.nodup_append.mp hdistinct).1).2.2
  exact hpair name hmem name (by simp) rfl

/-- A client that nothing was staged for. -/
theorem Inv.nothing_staged (hi : Inv d s) {name : String}
    (hcurrent : s.current = some (name, .staging)) : name ∉ s.stagedHere.map Prod.fst := by
  intro hmem
  obtain ⟨x, hx, rfl⟩ := List.mem_map.mp hmem
  rcases hi.begun x hx with hkeys | ⟨phase, hphase, hne⟩
  · exact hi.current_new hcurrent hkeys
  · rw [hcurrent] at hphase
    cases hphase
    exact hne rfl

/-- The current client has its result. -/
theorem Inv.finish (hi : Inv d s) {name : String} {phase : DeployPhase}
    {r : RuntimeDeploymentResult} (hcurrent : s.current = some (name, phase))
    (hr : ResultOk d s name r) : Inv d (s.finish name r) where
  order := by
    have hkeys : (s.results.set name r).keys = s.results.keys ++ [name] :=
      s.results.keys_set_new r (hi.current_new hcurrent)
    have horder := hi.order
    rw [hcurrent] at horder
    simpa [SettingCoordinator.finish, hkeys] using horder
  log := hi.log
  phase := by simp [SettingCoordinator.finish]
  results := by
    intro name' r' hget
    have hgrows : Grows s (s.finish name r) := ⟨fun _ h => h, fun _ h => h⟩
    simp only [SettingCoordinator.finish, Dict.get_set] at hget
    split at hget
    · rename_i hname
      cases hget
      exact hname ▸ hr.mono hgrows
    · exact (hi.results name' r' hget).mono hgrows
  once := hi.once
  begun := by
    intro x hx
    have hkeys : (s.results.set name r).keys = s.results.keys ++ [name] :=
      s.results.keys_set_new r (hi.current_new hcurrent)
    left
    show x.1 ∈ (s.results.set name r).keys
    rw [hkeys, List.mem_append, List.mem_singleton]
    rcases hi.begun x hx with hx | ⟨phase', hphase', -⟩
    · exact .inl hx
    · rw [hcurrent] at hphase'
      cases hphase'
      exact .inr rfl

/-- The Runtimes and the current client's phase move; the client stays. -/
theorem Inv.moves (hi : Inv d s) (hgrows : Grows s t)
    (hlog : ∀ e ∈ t.log, e ∈ s.log ∨
      (e.record.outcome = .succeeded → e.active = some e.record.revisionId))
    (htodo : t.todo = s.todo) (hresults : t.results = s.results)
    (hname : t.current.map Prod.fst = s.current.map Prod.fst)
    (hphase : ∀ name phase, t.current = some (name, phase) → PhaseOk d t name phase)
    (honce : (t.stagedHere.map Prod.fst).Nodup)
    (hbegun : ∀ x ∈ t.stagedHere, x.1 ∈ s.results.keys ∨
      ∃ phase, t.current = some (x.1, phase) ∧ phase ≠ .staging) : Inv d t where
  order := by rw [htodo, hresults, hname, hi.order]
  log := by
    intro e he
    rcases hlog e he with he | he
    · exact hi.log e he
    · exact he
  phase := hphase
  results := by
    rw [hresults]
    exact fun name r hget => (hi.results name r hget).mono hgrows
  once := honce
  begun := by rwa [hresults]

/-- The revisions staged before, when the current client's phase has moved
on. -/
theorem Inv.begun_map (hi : Inv d s) {f : String × DeployPhase → String × DeployPhase}
    (hf : ∀ x, (f x).1 = x.1 ∧ (x.2 ≠ .staging → (f x).2 ≠ .staging)) :
    ∀ x ∈ s.stagedHere, x.1 ∈ s.results.keys ∨
      ∃ phase, s.current.map f = some (x.1, phase) ∧ phase ≠ .staging := by
  intro x hx
  refine (hi.begun x hx).imp id ?_
  rintro ⟨phase, hcurrent, hne⟩
  have hfx := hf (x.1, phase)
  refine ⟨(f (x.1, phase)).2, ?_, hfx.2 hne⟩
  rw [hcurrent]
  exact congrArg some (Prod.ext hfx.1 rfl)

theorem follow_ne_staging (id : String) (before after : ConfigApply) (x : String × DeployPhase) :
    (d.follow id before after x).1 = x.1 ∧
      (x.2 ≠ .staging → (d.follow id before after x).2 ≠ .staging) := by
  refine ⟨rfl, fun hne => ?_⟩
  obtain ⟨name, phase⟩ := x
  unfold DeployCall.follow
  dsimp only
  split
  · cases phase with
    | staging => exact absurd rfl hne
    | serving revisionId i =>
      unfold DeployPhase.follow
      dsimp only
      split
      · simp
      · split <;> simp
    | staged | applying | applied | broken => simp [DeployPhase.follow]
  · exact hne

theorem restart_ne_staging (id : String) (x : String × DeployPhase) :
    (d.restart id x).1 = x.1 ∧ (x.2 ≠ .staging → (d.restart id x).2 ≠ .staging) := by
  refine ⟨rfl, fun hne => ?_⟩
  obtain ⟨name, phase⟩ := x
  unfold DeployCall.restart
  dsimp only
  split
  · cases phase with
    | staging => exact absurd rfl hne
    | staged | applying | serving | applied | broken => simp [DeployPhase.restart]
  · exact hne

/-- A log that grew by the records of one Runtime's step. -/
theorem log_grown {id : String} {l : ConfigApply.Label} {after : ConfigApply}
    (hstep : (s.runtimes id).step l = some after)
    (hlog : t.log = s.log ++ (after.made.drop (s.runtimes id).made.length).map fun decision =>
      ⟨id, decision.record, after.active⟩) :
    ∀ e ∈ t.log, e ∈ s.log ∨
      (e.record.outcome = .succeeded → e.active = some e.record.revisionId) := by
  intro e he
  rw [hlog] at he
  exact (List.mem_append.mp he).imp_right (log_runtimeStep hstep e)

theorem Inv.step_runtime (hi : Inv d s) {id : String} {l : ConfigApply.Label}
    (h : s.step d (.runtime id l) = some t) : Inv d t := by
  obtain ⟨after, hstep, rfl⟩ := runtimeStep_eq_some h
  refine hi.moves ⟨fun e he => List.mem_append_left _ he, fun x hx => hx⟩
    (log_grown hstep rfl) rfl rfl (by simp [Function.comp_def, DeployCall.follow]) ?_ hi.once
    (hi.begun_map (follow_ne_staging id _ _))
  intro name phase hcurrent
  obtain ⟨⟨name', phase'⟩, hcurrent', hfollow⟩ := Option.map_eq_some_iff.mp hcurrent
  obtain rfl : name' = name := congrArg Prod.fst hfollow
  obtain rfl := (congrArg Prod.snd hfollow).symm
  exact phaseOk_follow hstep ⟨fun e he => List.mem_append_left _ he, fun x hx => hx⟩ rfl rfl
    (hi.phase _ _ hcurrent')

theorem Inv.step_restart (hi : Inv d s) {id : String} {now : ℚ}
    (h : s.step d (.restart id now) = some t) : Inv d t := by
  cases h
  refine hi.moves ⟨fun e he => he, fun x hx => hx⟩ (fun e he => .inl he) rfl rfl
    (by simp [Function.comp_def, DeployCall.restart]) ?_ hi.once
    (hi.begun_map (restart_ne_staging id))
  intro name phase hcurrent
  obtain ⟨⟨name', phase'⟩, hcurrent', hrestart⟩ := Option.map_eq_some_iff.mp hcurrent
  obtain rfl : name' = name := congrArg Prod.fst hrestart
  obtain rfl := (congrArg Prod.snd hrestart).symm
  have hp := hi.phase _ _ hcurrent'
  unfold DeployCall.restart
  dsimp only
  split
  · cases phase' with
    | serving revisionId i => exact ⟨hp.1, hp.2.1⟩
    | staging => trivial
    | staged | applying | applied | broken => exact hp
  · rename_i hid
    have hgrows : Grows s { s with
        runtimes := Function.update s.runtimes id (.init now ConfigService.defaultJournalLimit)
        current := s.current.map (d.restart id) } := ⟨fun e he => he, fun x hx => hx⟩
    exact hp.mono hgrows fun _ _ _ => Function.update_of_ne hid ..

theorem Inv.step_next (hi : Inv d s) (h : s.step d .next = some t) : Inv d t := by
  simp only [step] at h
  split at h
  · rename_i name todo hcurrent htodo
    cases h
    have horder := hi.order
    rw [hcurrent, htodo] at horder
    refine ⟨by simpa using horder, hi.log, ?_, ?_, hi.once, ?_⟩
    · intro name' phase hphase
      cases hphase
      trivial
    · intro name' r hget
      have hgrows : Grows s { s with current := some (name, .staging), todo := todo } :=
        ⟨fun e he => he, fun x hx => hx⟩
      exact (hi.results name' r hget).mono hgrows
    · intro x hx
      refine (hi.begun x hx).imp_right ?_
      rintro ⟨phase, hphase, -⟩
      cases hcurrent.symm.trans hphase
  · cases h

theorem Inv.step_stageServed (hi : Inv d s) {freshId : String}
    (h : s.step d (.stageServed freshId) = some t) : Inv d t := by
  simp only [step] at h
  split at h
  · rename_i name hcurrent
    obtain ⟨u, hu, rfl⟩ := Option.map_eq_some_iff.mp h
    obtain ⟨after, hstep, rfl⟩ := runtimeStep_eq_some hu
    refine hi.moves ⟨fun e he => List.mem_append_left _ he, fun x hx => List.mem_append_left _ hx⟩
      (log_grown hstep rfl) rfl rfl (by simp [hcurrent]) ?_ ?_ ?_
    · intro name' phase hphase
      rw [hcurrent] at hphase
      cases hphase
      exact List.mem_append_right _ (by simp)
    · rw [List.map_append, List.nodup_append]
      refine ⟨hi.once, by simp, ?_⟩
      rintro a ha b hb rfl
      obtain rfl : a = name := by simpa using hb
      exact hi.nothing_staged hcurrent ha
    · intro x hx
      rcases List.mem_append.mp hx with hx | hx
      · rcases hi.begun x hx with hkeys | ⟨phase, hphase, hne⟩
        · exact .inl hkeys
        · cases hcurrent.symm.trans hphase
          exact absurd rfl hne
      · obtain rfl := List.mem_singleton.mp hx
        exact .inr ⟨.staged freshId, by simp [hcurrent], by simp⟩
  · cases h

theorem Inv.step_stageReturned (hi : Inv d s) (h : s.step d .stageReturned = some t) :
    Inv d t := by
  simp only [step] at h
  split at h
  · rename_i name revisionId hcurrent
    have hstaged : (name, revisionId) ∈ s.stagedHere := hi.phase _ _ hcurrent
    split at h <;> cases h
    · rename_i happly
      have hgrows : Grows s { s with current := some (name, .applying revisionId) } :=
        ⟨fun e he => he, fun x hx => hx⟩
      refine hi.moves hgrows (fun e he => .inl he) rfl rfl (by simp [hcurrent]) ?_ hi.once ?_
      · intro name' phase hphase
        cases hphase
        exact ⟨happly, hstaged⟩
      · intro x hx
        refine (hi.begun x hx).imp_right ?_
        rintro ⟨phase, hphase, -⟩
        cases hcurrent.symm.trans hphase
        exact ⟨_, rfl, by simp⟩
    · rename_i happly
      exact hi.finish hcurrent (.stagedOnly revisionId (by simpa using happly) hstaged)
  · cases h

theorem Inv.step_stageRaised (hi : Inv d s) {message : String}
    (h : s.step d (.stageRaised message) = some t) : Inv d t := by
  simp only [step] at h
  split at h
  · rename_i hcurrent
    cases h
    exact hi.finish hcurrent (.notStaged message)
  · rename_i hcurrent
    cases h
    exact hi.finish hcurrent (.notStaged message)
  · cases h

theorem Inv.step_applyServed (hi : Inv d s) {call : Nat}
    (h : s.step d (.applyServed call) = some t) : Inv d t := by
  simp only [step] at h
  split at h
  · rename_i name revisionId hcurrent
    have hp : PhaseOk d s name (.applying revisionId) := hi.phase _ _ hcurrent
    split at h
    · cases h
    · rename_i hfree
      obtain ⟨after, hstep, rfl⟩ := runtimeStep_eq_some h
      refine hi.moves ⟨fun e he => List.mem_append_left _ he, fun x hx => hx⟩
        (log_grown hstep rfl) rfl rfl (by simp [hcurrent]) ?_ hi.once ?_
      · intro name' phase hphase
        rw [hcurrent, Option.map_some] at hphase
        cases hphase
        -- the Runtime knows the revision, and a call of its own serves the request
        simp only [ConfigApply.step, hfree] at hstep
        split at hstep <;> cases hstep
        · rw [hfree]
          exact hp
        · simp only [ConfigApply.setCall, Function.update_self]
          exact ⟨hp.1, hp.2, ⟨revisionId, none, false⟩, by simp, rfl⟩
      · intro x hx
        refine (hi.begun x hx).imp_right ?_
        rintro ⟨phase, hphase, -⟩
        cases hcurrent.symm.trans hphase
        refine ⟨_, by rw [hcurrent]; rfl, ?_⟩
        split <;> simp
  · cases h

theorem Inv.step_applyReturned (hi : Inv d s) (h : s.step d .applyReturned = some t) :
    Inv d t := by
  simp only [step] at h
  split at h
  · rename_i name revisionId record hcurrent
    cases h
    obtain ⟨happly, hstaged, hrecorded⟩ := hi.phase _ _ hcurrent
    exact hi.finish hcurrent (.returned revisionId record happly hstaged hrecorded)
  · cases h

theorem Inv.step_applyRaised (hi : Inv d s) {message : String}
    (h : s.step d (.applyRaised message) = some t) : Inv d t := by
  simp only [step] at h
  split at h
  · rename_i name revisionId hcurrent
    cases h
    obtain ⟨happly, hstaged⟩ := hi.phase _ _ hcurrent
    exact hi.finish hcurrent (.raised revisionId message happly hstaged)
  · rename_i name revisionId call hcurrent
    cases h
    obtain ⟨happly, hstaged, -⟩ := hi.phase _ _ hcurrent
    exact hi.finish hcurrent (.raised revisionId message happly hstaged)
  · rename_i name revisionId record hcurrent
    cases h
    obtain ⟨happly, hstaged, -⟩ := hi.phase _ _ hcurrent
    exact hi.finish hcurrent (.raised revisionId message happly hstaged)
  · rename_i name revisionId hcurrent
    cases h
    obtain ⟨happly, hstaged⟩ := hi.phase _ _ hcurrent
    exact hi.finish hcurrent (.raised revisionId message happly hstaged)
  · cases h

theorem Inv.step {l : Label} (hi : Inv d s) (h : s.step d l = some t) : Inv d t := by
  cases l with
  | runtime id l => exact hi.step_runtime h
  | restart id now => exact hi.step_restart h
  | next => exact hi.step_next h
  | stageServed freshId => exact hi.step_stageServed h
  | stageReturned => exact hi.step_stageReturned h
  | stageRaised message => exact hi.step_stageRaised h
  | applyServed call => exact hi.step_applyServed h
  | applyReturned => exact hi.step_applyReturned h
  | applyRaised message => exact hi.step_applyRaised h

theorem Inv.reachable {runtimes : String → ConfigApply}
    (h : Reachable (SettingCoordinator.step d) (.init d runtimes) s) : Inv d s :=
  h.invariant (.init runtimes) fun _ _ _ hi hs => hi.step hs

end SettingCoordinator

/-! ## The overall state -/

/-- The results, in order. -/
def Deployment.all (D : Deployment) : List RuntimeDeploymentResult :=
  D.results.items.map Prod.snd

/-- How the results add up. -/
inductive Deployment.Sum (apply : Bool) (results : List RuntimeDeploymentResult) :
    DeploymentOverall → Prop
  | notStaged (h : ∃ r ∈ results, r.staged = false) : Sum apply results .failed
  | stagedOnly (hstaged : ∀ r ∈ results, r.staged = true) (h : apply = false ∨ results = []) :
      Sum apply results .staged
  | succeeded (hstaged : ∀ r ∈ results, r.staged = true) (happly : apply = true)
      (hne : results ≠ []) (h : ∀ r ∈ results, r.applyOutcome = some .succeeded) :
      Sum apply results .succeeded
  | someSucceeded (hstaged : ∀ r ∈ results, r.staged = true) (happly : apply = true)
      (h : ∃ r ∈ results, r.applyOutcome = some .succeeded)
      (hnot : ∃ r ∈ results, r.applyOutcome ≠ some .succeeded) :
      Sum apply results .someSucceeded
  | noneSucceeded (hstaged : ∀ r ∈ results, r.staged = true) (happly : apply = true)
      (hne : results ≠ []) (h : ∀ r ∈ results, r.applyOutcome ≠ some .succeeded) :
      Sum apply results .failed

/-- **What `overall` says**, where a staged result has an outcome exactly if
apply was asked for. -/
theorem Deployment.overall_sum (D : Deployment) (apply : Bool)
    (hattempt : ∀ r ∈ D.all, r.staged = true → r.applyOutcome.isSome = apply) :
    Sum apply D.all D.overall := by
  have hall : D.results.items.map Prod.snd = D.all := rfl
  simp only [overall, hall]
  generalize D.all = results at hattempt
  split
  · rename_i hunstaged
    exact .notStaged (by simpa using hunstaged)
  · rename_i hstaged
    have hstaged : ∀ r ∈ results, r.staged = true := by simpa using hstaged
    have houtcome : ∀ r ∈ results, r.applyOutcome.isSome = apply :=
      fun r hr => hattempt r hr (hstaged r hr)
    split
    · rename_i hempty
      rw [List.isEmpty_iff, List.filterMap_eq_nil_iff] at hempty
      refine .stagedOnly hstaged ?_
      cases results with
      | nil => exact .inr rfl
      | cons r results =>
        have hr := houtcome r (by simp)
        rw [hempty r (by simp)] at hr
        exact .inl hr.symm
    · rename_i hempty
      -- some client has an outcome, so apply was asked for and they all have one
      obtain ⟨r, hr, o, ho⟩ : ∃ r ∈ results, ∃ o, r.applyOutcome = some o := by
        by_contra hnone
        refine hempty (List.isEmpty_iff.mpr (List.filterMap_eq_nil_iff.mpr fun r hr => ?_))
        cases ho : r.applyOutcome with
        | none => rfl
        | some o => exact absurd ⟨r, hr, o, ho⟩ hnone
      have happly : apply = true := by rw [← houtcome r hr, ho]; rfl
      have hne : results ≠ [] := List.ne_nil_of_mem hr
      have hsome : ∀ r ∈ results, ∃ o, r.applyOutcome = some o := fun r hr =>
        Option.isSome_iff_exists.mp ((houtcome r hr).trans happly)
      split
      · rename_i hsucceeded
        refine .succeeded hstaged happly hne fun r hr => ?_
        obtain ⟨o, ho⟩ := hsome r hr
        have := List.all_eq_true.mp hsucceeded o (List.mem_filterMap.mpr ⟨r, hr, ho⟩)
        rw [ho, of_decide_eq_true this]
      · rename_i hnotAll
        split
        · rename_i hany
          obtain ⟨o, hmem, ho⟩ := List.any_eq_true.mp hany
          obtain ⟨r, hr, hro⟩ := List.mem_filterMap.mp hmem
          refine .someSucceeded hstaged happly ⟨r, hr, by rw [hro, of_decide_eq_true ho]⟩ ?_
          by_contra hevery
          refine hnotAll (List.all_eq_true.mpr fun o ho => ?_)
          obtain ⟨r, hr, hro⟩ := List.mem_filterMap.mp ho
          have heq : r.applyOutcome = some .succeeded := by
            by_contra hne
            exact hevery ⟨r, hr, hne⟩
          exact decide_eq_true (Option.some.inj (hro.symm.trans heq))
        · rename_i hnone
          refine .noneSucceeded hstaged happly hne fun r hr heq => ?_
          exact hnone (List.any_eq_true.mpr ⟨.succeeded, List.mem_filterMap.mpr ⟨r, hr, heq⟩, rfl⟩)

/-! ## Every deployment -/

namespace SettingCoordinator

variable {d : DeployCall} {s : SettingCoordinator}

/-- The client's Runtime staged the revision for this deployment, applied it
with this outcome, and a success made it the active one. -/
def Carried (d : DeployCall) (s : SettingCoordinator) (name revisionId : String)
    (outcome : ApplyOutcome) : Prop :=
  (name, revisionId) ∈ s.stagedHere ∧ ∃ e ∈ s.log, e.runtime = d.reaches name ∧
    e.record.revisionId = revisionId ∧ e.record.outcome = outcome ∧
    (outcome = .succeeded → e.active = some revisionId)

theorem Recorded.carried (hi : Inv d s) {name revisionId : String} {record : ApplyRecord}
    (hstaged : (name, revisionId) ∈ s.stagedHere) (h : Recorded d s name revisionId record) :
    Carried d s name revisionId record.outcome := by
  obtain ⟨rfl, e, he, hruntime, rfl⟩ := h
  exact ⟨hstaged, e, he, hruntime, rfl, rfl, hi.log e he⟩

theorem ResultOk.name {name : String} {r : RuntimeDeploymentResult} (h : ResultOk d s name r) :
    r.runtimeName = name := by
  cases h <;> rfl

theorem ResultOk.attempted {name : String} {r : RuntimeDeploymentResult}
    (h : ResultOk d s name r) (hstaged : r.staged = true) :
    r.applyOutcome.isSome = d.apply := by
  cases h with
  | notStaged message => cases hstaged
  | stagedOnly _ happly _ => exact happly.symm
  | returned _ _ happly _ _ => exact happly.symm
  | raised _ _ happly _ => exact happly.symm

/-- An outcome that is not a failure is the Runtime's. -/
theorem ResultOk.carried (hi : Inv d s) {name : String} {r : RuntimeDeploymentResult}
    (h : ResultOk d s name r) {outcome : ApplyOutcome} (houtcome : r.applyOutcome = some outcome)
    (hne : outcome ≠ .failed) :
    ∃ revisionId, r.revisionId = some revisionId ∧ Carried d s name revisionId outcome := by
  cases h with
  | notStaged message => cases houtcome
  | stagedOnly => cases houtcome
  | returned revisionId record _ hstaged hrecorded =>
    cases houtcome
    exact ⟨revisionId, rfl, hrecorded.carried hi hstaged⟩
  | raised =>
    cases houtcome
    exact absurd rfl hne

/-- **What a deployment's outcome says**, for every run of the coordinator,
the Runtimes and their other callers. There is one result for each client, in
order. Each Runtime staged for the deployment once at most. A result that is
no failure is a record of the client's Runtime for the revision staged there.
The overall state is the sum of the results; it is a success exactly if apply
was asked for, there are clients, and each of their results is a success. -/
theorem deploy_accounts {runtimes : String → ConfigApply}
    (h : Reachable (step d) (init d runtimes) s) (hended : s.Ended) (deploymentId : String)
    (createdAt : ℚ) :
    let D := s.deployment d deploymentId createdAt
    D.results.keys = d.clients ∧ (s.stagedHere.map Prod.fst).Nodup ∧
      (∀ name r, D.results.get name = some r → r.runtimeName = name ∧
        ∀ outcome, r.applyOutcome = some outcome → outcome ≠ .failed →
          ∃ revisionId, r.revisionId = some revisionId ∧ Carried d s name revisionId outcome) ∧
      Deployment.Sum d.apply D.all D.overall ∧
      (D.overall = .succeeded → d.clients ≠ [] ∧ ∀ name ∈ d.clients,
        ∃ revisionId, Carried d s name revisionId .succeeded) := by
  intro D
  have hi := Inv.reachable h
  have hkeys : D.results.keys = d.clients := by
    have horder := hi.order
    rw [hended.1, hended.2] at horder
    show s.results.keys = d.clients
    simpa using horder
  have hresults : ∀ r ∈ D.all, ∃ name, s.results.get name = some r ∧ ResultOk d s name r := by
    intro r hr
    obtain ⟨⟨name, r'⟩, hmem, rfl⟩ := List.mem_map.mp hr
    have hget : s.results.get name = some r' := Dict.get_eq_some_iff.mpr hmem
    exact ⟨name, hget, hi.results name r' hget⟩
  have hsum : Deployment.Sum d.apply D.all D.overall := by
    refine D.overall_sum d.apply fun r hr hstaged => ?_
    obtain ⟨name, -, hok⟩ := hresults r hr
    exact hok.attempted hstaged
  refine ⟨hkeys, hi.once, fun name r hget => ?_, hsum, fun hoverall => ?_⟩
  · have hok := hi.results name r hget
    exact ⟨hok.name, fun outcome houtcome hne => hok.carried hi houtcome hne⟩
  · rw [hoverall] at hsum
    cases hsum with
    | succeeded hstaged happly hne hall =>
      refine ⟨?_, fun name hname => ?_⟩
      · intro hnil
        have : D.results.keys = [] := hkeys.trans hnil
        exact hne (by simpa [Dict.keys, Deployment.all] using this)
      · rw [← hkeys] at hname
        obtain ⟨r, hget⟩ := Dict.mem_keys_iff.mp hname
        have hr : r ∈ D.all := List.mem_map.mpr ⟨(name, r), Dict.get_eq_some_iff.mp hget, rfl⟩
        obtain ⟨revisionId, -, hcarried⟩ :=
          (hi.results name r hget).carried hi (hall r hr) (by simp)
        exact ⟨revisionId, hcarried⟩

/-- Two clients, and apply. -/
private def twoClients : DeployCall :=
  ⟨"install", true, ["motor", "video"], by decide, fun name => name ++ "-runtime"⟩

/-- What the coordinator and a Runtime do for a client that applies. -/
private def applies (runtime revisionId : String) : List Label :=
  [.next, .stageServed revisionId, .stageReturned, .applyServed 0,
    .runtime runtime (.locked 0), .runtime runtime (.guarded 0 (.ok ())), .applyReturned]

/-- A deployment that succeeds at both clients. -/
theorem deploy_accounts_two :
    ∃ s : SettingCoordinator, (s.deployment twoClients "deploy1" 0).overall = .succeeded ∧
      ∀ name ∈ ["motor", "video"],
        ∃ revisionId, Carried twoClients s name revisionId .succeeded := by
  obtain ⟨s, hs, htest⟩ := exec_test (step twoClients) (init twoClients fun _ => .init 0 50)
    (applies "motor-runtime" "cfgrev1" ++ applies "video-runtime" "cfgrev2")
    (fun s => s.current.isNone && s.todo.isEmpty &&
      (s.deployment twoClients "deploy1" 0).overall = .succeeded) (by decide +kernel)
  simp only [Bool.and_eq_true, Option.isNone_iff_eq_none, List.isEmpty_iff,
    decide_eq_true_eq] at htest
  obtain ⟨⟨hcurrent, htodo⟩, hoverall⟩ := htest
  exact ⟨s, hoverall,
    ((deploy_accounts hs ⟨hcurrent, htodo⟩ "deploy1" 0).2.2.2.2 hoverall).2⟩

end SettingCoordinator

end Fusion
