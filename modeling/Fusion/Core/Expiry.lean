import Fusion.Core.Drivers
import Mathlib.Tactic.Linarith
import Mathlib.Tactic.NormNum

/-!
# Expiry — how an observer's loop ends

The loop of `_observe` tests the deadline, asks the adapter and sleeps, in
this order. Beside it stand the clock's readings at its polls: each is at
least one `POLL_INTERVAL_S` after the one before, and the last one decides.
An action that completes between the last poll and the deadline is not asked
about again.
-/

namespace Fusion.DeviceRuntime

open Transition

variable {V : Type} {s t : DeviceRuntime V} {l : RuntimeLabel V}

/-! ## Polls -/

section
variable [BEq V]

/-- The clock's reading, if the step is a poll of the observer of `c`. -/
def pollAt (c : CommandId) (x : Step (step (V := V))) : Option ℚ :=
  match x.label with
  | .observe c' _ => if c' = c then some x.src.now else none
  | _ => none

/-- The clock's readings at the polls of a run. -/
def polls (c : CommandId) (xs : List (Step (step (V := V)))) : List ℚ := xs.filterMap (pollAt c)

/-- What is left to the environment, at one step: the command's
coroutine is not cancelled; at a poll the generation is still the one the
command was submitted under, and the adapter answers, truly, whether the
action that completes at `moment` is complete. -/
def Faithful (c : CommandId) (task : CommandTask) (moment : ℚ) (s : DeviceRuntime V) :
    RuntimeLabel V → Bool
  | .cancel c' => c' ≠ c
  | .observe c' complete => c' ≠ c ||
      (decide (s.generation task.targetId = some task.generation) &&
        match complete with
        | .ok answer => answer = decide (moment ≤ s.now)
        | .error _ => false)
  | _ => true

/-- Some poll falls between the moment of completion and the deadline, which
is counted from the first poll. -/
def Polled (moment : ℚ) (ps : List ℚ) : Prop :=
  ∃ p ∈ ps, moment ≤ p ∧ ∀ first ∈ ps.head?, p < first + TargetRunner.observeTimeout

/-- The observer of `c`, after the polls `ps`. -/
inductive Watch (c : CommandId) (task : CommandTask) (moment : ℚ) (s : DeviceRuntime V) :
    List ℚ → Prop
  | waiting (htask : s.tasks c = some { task with stage := .spawned }) : Watch c task moment s []
  /-- every poll so far came too early -/
  | polling {ps : List ℚ} (first last : ℚ)
      (htask : s.tasks c = some { task with
        stage := .observing (first + TargetRunner.observeTimeout)
          (last + TargetRunner.pollInterval) })
      (hfirst : ps.head? = some first)
      (hspaced : first + ((ps.length : ℚ) - 1) * TargetRunner.pollInterval ≤ last)
      (hlast : last < first + TargetRunner.observeTimeout)
      (early : ∀ p ∈ ps, p < moment) : Watch c task moment s ps
  | ended {ps : List ℚ} (r : CommandRecord V) (htask : s.tasks c = none)
      (hr : s.getCommand c = some r) (done : r.status = .terminal) (hlen : ps.length ≤ 501)
      (verdict : r.outcome = some .succeeded ∧ Polled moment ps ∨
        r.outcome = some .expired ∧ ¬ Polled moment ps) : Watch c task moment s ps

/-- What the step of another coroutine, or of none, leaves to an observer. -/
theorem step_spares_observer (howner : OwnerInv s) (hs : s.step l = some t) {c : CommandId}
    (hrecord : ∃ r, s.getCommand c = some r)
    (hstage : ∀ task, s.tasks c = some task → task.stage.status = .observing)
    (hl : ∀ complete, l ≠ .observe c complete) (hcancel : l ≠ .cancel c) :
    t.tasks c = s.tasks c ∧ t.getCommand c = s.getCommand c := by
  rcases l.kinds with hnone | ⟨req, freshId, manifest, rfl⟩ | ⟨c', hl'⟩
  · refine ⟨congrFun (step_tasks_of_ofNoCommand hnone hs) c, ?_⟩
    simp only [getCommand, (step_sparesCommands hnone hs).ledger]
  · simp only [step] at hs
    split at hs <;> cases hs
    rename_i hfresh
    have hc : c ≠ freshId := by
      rintro rfl
      obtain ⟨r, hr⟩ := hrecord
      simp [hr] at hfresh
    exact ⟨submitCommand_tasks s req manifest hc, submitCommand_records s req manifest hc⟩
  · obtain ⟨task, r, htask, -, rfl, -, hand⟩ := step_handover howner hl' hs
    by_cases hc : c = r.commandId
    · -- an observer takes no other steps of its own
      subst hc
      have hnot := hstage task htask
      cases l with
      | observe c' complete =>
        cases hl'
        exact absurd rfl (hl complete)
      | cancel c' =>
        cases hl'
        exact absurd rfl hcancel
      | executeReturned c' =>
        cases hl'
        simp only [step] at hs
        split at hs
        · rename_i task' _ _ ho
          cases htask.symm.trans (owner_eq ho).1
          split at hs
          · rename_i hexec
            rw [hexec] at hnot
            cases hnot
          · cases hs
        · cases hs
      | executeRaised c' message =>
        cases hl'
        simp only [step] at hs
        split at hs
        · rename_i task' _ _ ho
          cases htask.symm.trans (owner_eq ho).1
          split at hs
          · rename_i hexec
            rw [hexec] at hnot
            cases hnot
          · cases hs
        · cases hs
      | _ => cases hl'
    · exact ⟨hand.tasks hc, hand.records hc⟩

/-! ## One poll -/

omit [BEq V] in
/-- One pass of the loop for a command whose generation is current. -/
theorem observeLoop_current (task : CommandTask) {r : CommandRecord V} {generation : Nat}
    (hgen : task.generation = generation) (deadline moment : ℚ) :
    s.observeLoop task r deadline generation (.ok (decide (moment ≤ s.now))) =
      if s.now < deadline then
        if moment ≤ s.now then s.finish task r .succeeded (some .observed)
        else s.setTask r.commandId
          (some { task with stage := .observing deadline (s.now + TargetRunner.pollInterval) })
      else s.finish task r .expired none := by
  unfold observeLoop
  rw [if_neg (show ¬ task.generation ≠ generation from not_not.mpr hgen)]
  by_cases hmoment : moment ≤ s.now <;> simp [hmoment]

omit [BEq V] in
theorem Watch.of_finish {c : CommandId} {task task' : CommandTask} {moment : ℚ} {ps : List ℚ}
    {r : CommandRecord V} (hid : r.commandId = c) (hlen : ps.length ≤ 501)
    {o : CommandOutcome} {a : Option CompletionRequirement}
    (verdict : o = .succeeded ∧ Polled moment ps ∨ o = .expired ∧ ¬ Polled moment ps) :
    Watch c task moment (s.finish task' r o a) ps := by
  subst hid
  refine .ended (r.finish o a) (tasks_finish_self ..) ?_ rfl hlen ?_
  · rw [getCommand_finish, if_pos rfl]
  · rcases verdict with ⟨rfl, h⟩ | ⟨rfl, h⟩
    · exact .inl ⟨rfl, h⟩
    · exact .inr ⟨rfl, h⟩

theorem polled_snoc_of_early {moment first : ℚ} (now : ℚ) {ps : List ℚ}
    (hfirst : ps.head? = some first) (early : ∀ p ∈ ps, p < moment) :
    Polled moment (ps ++ [now]) ↔ moment ≤ now ∧ now < first + TargetRunner.observeTimeout := by
  have hhead : (ps ++ [now]).head? = some first := by
    rw [List.head?_append, hfirst]
    rfl
  simp only [Polled, hhead, Option.mem_some_iff, forall_eq']
  constructor
  · rintro ⟨p, hp, hmoment, hdeadline⟩
    rcases List.mem_append.mp hp with hp | hp
    · exact absurd (early p hp) (not_lt.mpr hmoment)
    · rw [List.mem_singleton.mp hp] at hmoment hdeadline
      exact ⟨hmoment, hdeadline⟩
  · rintro ⟨hmoment, hdeadline⟩
    exact ⟨now, by simp, hmoment, hdeadline⟩

/-- The polls before the deadline are no more than the interval allows. -/
theorem polls_length_le {n : ℕ} {first last : ℚ}
    (hspaced : first + ((n : ℚ) - 1) * TargetRunner.pollInterval ≤ last)
    (hlast : last < first + TargetRunner.observeTimeout) : n ≤ 500 := by
  have hlt : ((n : ℚ) - 1) * TargetRunner.pollInterval < TargetRunner.observeTimeout := by
    linarith
  simp only [TargetRunner.pollInterval, TargetRunner.observeTimeout] at hlt
  have hn : (n : ℚ) < 501 := by linarith
  exact Nat.lt_succ_iff.mp (by exact_mod_cast hn)

omit [BEq V] in
/-- What the environment promises at a poll. -/
theorem faithful_observe {c : CommandId} {task : CommandTask} {moment : ℚ}
    {complete : Except String Bool} (h : Faithful c task moment s (.observe c complete) = true) :
    s.generation task.targetId = some task.generation ∧
      complete = .ok (decide (moment ≤ s.now)) := by
  cases complete with
  | error message => simp [Faithful] at h
  | ok answer =>
    obtain ⟨hgen, hanswer⟩ : s.generation task.targetId = some task.generation ∧
        answer = decide (moment ≤ s.now) := by simpa [Faithful] using h
    exact ⟨hgen, by rw [hanswer]⟩

theorem Watch.poll {c : CommandId} {task : CommandTask} {moment : ℚ} {ps : List ℚ}
    {complete : Except String Bool} (h : Watch c task moment s ps) (howner : OwnerInv s)
    (hs : s.step (.observe c complete) = some t)
    (hok : Faithful c task moment s (.observe c complete) = true) :
    Watch c task moment t (ps ++ [s.now]) := by
  obtain ⟨hcurrent, rfl⟩ := faithful_observe hok
  simp only [step] at hs
  split at hs
  · rename_i task' r runner ho
    obtain ⟨rfl, -, -, -⟩ := howner.owner ho
    obtain ⟨htask', -, hrunner⟩ := owner_eq ho
    have hgen : task'.targetId = task.targetId → task.generation = runner.executionGeneration := by
      intro htarget
      rw [generation, ← htarget, hrunner] at hcurrent
      exact (Option.some.inj hcurrent).symm
    cases h with
    | waiting htask =>
      obtain rfl := Option.some.inj (htask'.symm.trans htask)
      have hnow : s.now < s.now + TargetRunner.observeTimeout := by
        simp only [TargetRunner.observeTimeout]
        linarith
      simp only [observe, Option.some.injEq] at hs
      rw [observeLoop_current { task with stage := .spawned } (hgen rfl), if_pos hnow] at hs
      split at hs <;> subst hs
      · rename_i hmoment
        exact .of_finish rfl (by simp) (.inl ⟨rfl, s.now, by simp, hmoment, by simpa using hnow⟩)
      · rename_i hmoment
        refine .polling s.now s.now (tasks_setTask_self ..) rfl (by simp) hnow ?_
        intro p hp
        rw [List.mem_singleton.mp hp]
        exact not_le.mp hmoment
    | polling first last htask hfirst hspaced hlast early =>
      obtain rfl := Option.some.inj (htask'.symm.trans htask)
      have hlen := polls_length_le hspaced hlast
      have hsnoc := polled_snoc_of_early s.now hfirst early
      simp only [observe] at hs
      split at hs
      · cases hs
      · rename_i hwake
        rw [Option.some.injEq, observeLoop_current { task with
          stage := .observing (first + TargetRunner.observeTimeout)
            (last + TargetRunner.pollInterval) } (hgen rfl)] at hs
        split at hs
        · rename_i hnow
          split at hs <;> subst hs
          · rename_i hmoment
            exact .of_finish rfl (by simp; omega) (.inl ⟨rfl, hsnoc.mpr ⟨hmoment, hnow⟩⟩)
          · rename_i hmoment
            refine .polling first s.now (tasks_setTask_self ..) ?_ ?_ hnow ?_
            · rw [List.head?_append, hfirst]
              rfl
            · have := not_lt.mp hwake
              simp only [List.length_append, List.length_singleton]
              push_cast
              linarith
            · intro p hp
              rcases List.mem_append.mp hp with hp | hp
              · exact early p hp
              · rw [List.mem_singleton.mp hp]
                exact not_le.mp hmoment
        · -- the deadline has passed: the adapter is not asked again
          rename_i hnow
          subst hs
          exact .of_finish rfl (by simp; omega) (.inr ⟨rfl, fun h => hnow (hsnoc.mp h).2⟩)
    | ended r htask hr done hlen verdict =>
      rw [htask] at htask'
      cases htask'
  · cases hs

/-! ## Runs -/

omit [BEq V] in
theorem Watch.frame {c : CommandId} {task : CommandTask} {moment : ℚ} {ps : List ℚ}
    (h : Watch c task moment s ps) (htasks : t.tasks c = s.tasks c)
    (hrecord : t.getCommand c = s.getCommand c) : Watch c task moment t ps := by
  cases h with
  | waiting htask => exact .waiting (htasks.trans htask)
  | polling first last htask hfirst hspaced hlast early =>
    exact .polling first last (htasks.trans htask) hfirst hspaced hlast early
  | ended r htask hr done hlen verdict =>
    exact .ended r (htasks.trans htask) (hrecord.trans hr) done hlen verdict

omit [BEq V] in
theorem Watch.recorded {c : CommandId} {task : CommandTask} {moment : ℚ} {ps : List ℚ}
    (h : Watch c task moment s ps) (howner : OwnerInv s) : ∃ r, s.getCommand c = some r := by
  cases h with
  | waiting htask | polling _ _ htask =>
    obtain ⟨r, hr, -⟩ := howner.owned c _ htask
    exact ⟨r, hr⟩
  | ended r _ hr => exact ⟨r, hr⟩

omit [BEq V] in
theorem Watch.stage {c : CommandId} {task task' : CommandTask} {moment : ℚ} {ps : List ℚ}
    (h : Watch c task moment s ps) (htask' : s.tasks c = some task') :
    task'.stage.status = .observing := by
  cases h with
  | waiting htask | polling _ _ htask =>
    cases htask'.symm.trans htask
    rfl
  | ended _ htask =>
    rw [htask] at htask'
    cases htask'

/-- **One step of the Runtime, seen by an observer**: its poll, or nothing. -/
theorem Watch.step {c : CommandId} {task : CommandTask} {moment : ℚ}
    {xs : List (Step (step (V := V)))} {x : Step (step (V := V))}
    (h : Watch c task moment x.src (polls c xs)) (howner : OwnerInv x.src)
    (hok : Faithful c task moment x.src x.label = true) :
    Watch c task moment x.dst (polls c (xs ++ [x])) := by
  obtain ⟨s, l, t, hs⟩ := x
  have hpolls : polls c (xs ++ [⟨s, l, t, hs⟩]) =
      polls c xs ++ (pollAt c ⟨s, l, t, hs⟩).toList := by
    rw [polls, polls, List.filterMap_append]
    cases hp : pollAt c ⟨s, l, t, hs⟩ <;> simp [hp]
  rw [hpolls]
  by_cases hpoll : ∃ complete, l = .observe c complete
  · obtain ⟨complete, rfl⟩ := hpoll
    simpa [pollAt] using h.poll howner hs hok
  · have hnone : pollAt c ⟨s, l, t, hs⟩ = none := by
      cases l with
      | observe c' complete =>
        have hc : c' ≠ c := by
          rintro rfl
          exact hpoll ⟨complete, rfl⟩
        simp [pollAt, hc]
      | _ => rfl
    have hcancel : l ≠ .cancel c := by
      rintro rfl
      simp [Faithful] at hok
    obtain ⟨htasks, hrecord⟩ := step_spares_observer howner hs (h.recorded howner)
      (fun _ htask => h.stage htask) (fun complete hl => hpoll ⟨complete, hl⟩) hcancel
    rw [hnone]
    simpa using h.frame htasks hrecord

omit [BEq V] in
/-- The owner of a coroutine in flight. -/
theorem owner_of_task (howner : OwnerInv s) (hexcl : Exclusive s) {c : CommandId}
    {task : CommandTask} (htask : s.tasks c = some task) :
    ∃ r runner, s.owner c = some (task, r, runner) := by
  obtain ⟨r, hr, hfits⟩ := howner.owned c task htask
  have hqueued : r.status ≠ .queued := by
    rw [hfits.status]
    cases task.stage <;> nofun
  obtain ⟨g, hg, -⟩ := hexcl c r hr ⟨hqueued, hfits.live⟩
  rw [generation, hfits.target] at hg
  obtain ⟨runner, hrunner, -⟩ := Option.map_eq_some_iff.mp hg
  exact ⟨r, runner, by simp [owner, htask, hr, hrunner]⟩

/-- Time passes, and an observer that still runs polls again. -/
theorem Watch.goesOn {c : CommandId} {task : CommandTask} {moment : ℚ} {ps : List ℚ}
    (h : Watch c task moment s ps) (howner : OwnerInv s) (hexcl : Exclusive s)
    (halive : s.tasks c ≠ none) :
    ∃ dt u v, s.step (.advance dt) = some u ∧
      u.step (.observe c (.ok (decide (moment ≤ u.now)))) = some v := by
  have hnext : ∀ {task'} (dt : ℚ), s.tasks c = some task' → 0 ≤ dt →
      (∀ r generation complete,
        ({ s with now := s.now + dt }.observe task' r generation complete).isSome) →
      ∃ dt u v, s.step (.advance dt) = some u ∧
        u.step (.observe c (.ok (decide (moment ≤ u.now)))) = some v := by
    intro task' dt htask hdt hobserve
    obtain ⟨r, runner, ho⟩ := owner_of_task howner hexcl htask
    have ho' : { s with now := s.now + dt }.owner c = some (task', r, runner) := ho
    obtain ⟨v, hv⟩ := Option.isSome_iff_exists.mp (hobserve r runner.executionGeneration
      (.ok (decide (moment ≤ s.now + dt))))
    refine ⟨dt, { s with now := s.now + dt }, v, by simp [DeviceRuntime.step, hdt], ?_⟩
    simp only [DeviceRuntime.step, ho']
    exact hv
  cases h with
  | waiting htask => exact hnext 0 htask (le_refl _) fun _ _ _ => rfl
  | polling first last htask =>
    refine hnext (max 0 (last + TargetRunner.pollInterval - s.now)) htask (le_max_left _ _) ?_
    intro r generation complete
    have hawake : ¬ s.now + max 0 (last + TargetRunner.pollInterval - s.now)
        < last + TargetRunner.pollInterval := by
      have := le_max_right 0 (last + TargetRunner.pollInterval - s.now)
      linarith
    simp [observe, hawake]
  | ended _ htask => exact absurd htask halive

omit [BEq V] in
theorem Watch.length_le {c : CommandId} {task : CommandTask} {moment : ℚ} {ps : List ℚ}
    (h : Watch c task moment s ps) : ps.length ≤ 501 := by
  cases h with
  | waiting => simp
  | polling first last _ _ hspaced hlast _ =>
    have := polls_length_le hspaced hlast
    omega
  | ended _ _ _ _ hlen => exact hlen

/-- **How an observer ends**, in a run of the Runtime whose environment is
faithful to a completion at `moment`: it polls 501 times at most, it polls
again as long as it has not ended, and it ends SUCCEEDED exactly if one of its
polls fell between the completion and the deadline, else EXPIRED. -/
theorem observe_verdict_iff (runtimeId bootId : String) (now : ℚ) (targets : List String)
    (customGuard : Bool) {s₀ : DeviceRuntime V}
    (hs₀ : Reachable step (init runtimeId bootId now targets customGuard) s₀)
    {c : CommandId} {task : CommandTask} (htask : s₀.tasks c = some task)
    (hspawned : task.stage = .spawned) (moment : ℚ) {xs : List (Step (step (V := V)))}
    (run : Run step s₀ xs s) (hok : ∀ x ∈ xs, Faithful c task moment x.src x.label = true) :
    (polls c xs).length ≤ 501 ∧
      (s.tasks c ≠ none → ∃ dt u v, s.step (.advance dt) = some u ∧
        u.step (.observe c (.ok (decide (moment ≤ u.now)))) = some v) ∧
      (s.tasks c = none → ∃ r, s.getCommand c = some r ∧ r.status = .terminal ∧
        (r.outcome = some .succeeded ↔ Polled moment (polls c xs)) ∧
        (r.outcome = some .expired ↔ ¬ Polled moment (polls c xs))) := by
  have hwatch : Watch c task moment s (polls c xs) := by
    induction run with
    | nil =>
      have hsame : { task with stage := .spawned } = task := by rw [← hspawned]
      exact .waiting (hsame ▸ htask)
    | snoc x run ih =>
      have howner := (inv_reachable (hs₀.trans run.reachable)).1
      exact (ih fun y hy => hok y (List.mem_append_left _ hy)).step howner (hok x (by simp))
  have hreach := hs₀.trans run.reachable
  refine ⟨hwatch.length_le, hwatch.goesOn (inv_reachable hreach).1 (exclusive_reachable hreach),
    fun hended => ?_⟩
  generalize polls c xs = ps at hwatch
  cases hwatch with
  | waiting htask' | polling _ _ htask' =>
    rw [hended] at htask'
    cases htask'
  | ended r _ hr done _ verdict =>
    refine ⟨r, hr, done, ?_⟩
    rcases verdict with ⟨houtcome, hpolled⟩ | ⟨houtcome, hpolled⟩
    · simp [houtcome, hpolled]
    · simp [houtcome, hpolled]

end

/-- A `move` that `submit` has just handed to its observer. -/
def moveHanded : DeviceRuntime Int :=
  (exec step motorRuntime
    [.acquireControlSession "op" .manual none "cs1",
      .submitCommand (moveRequest "req-1" "cs1" 100 .observed) "c1" (.ok (fakeMotor "motor01")),
      .executeReturned "c1"]).getD motorRuntime

private theorem moveHanded_reachable : Reachable step motorRuntime moveHanded :=
  exec_getD_reachable _ _ _ (by decide +kernel)

private theorem moveHanded_task :
    moveHanded.tasks "c1" = some ⟨"motor01", 2, .spawned⟩ := by
  decide +kernel

/-- An action that completes between two polls succeeds at the second. -/
theorem observe_verdict_iff_second_poll :
    ∃ xs s, Run step moveHanded xs s ∧ polls "c1" xs = [0, 1 / 50] ∧
      ∃ r, s.getCommand "c1" = some r ∧ r.outcome = some .succeeded := by
  obtain ⟨xs, s, run, htest⟩ := execSteps_test step moveHanded
    [.observe "c1" (.ok false), .advance (1 / 50), .observe "c1" (.ok true)]
    (fun r => r.1.all (fun x => Faithful "c1" ⟨"motor01", 2, .spawned⟩ (1 / 100) x.src x.label) &&
      polls "c1" r.1 == [0, 1 / 50] && (r.2.tasks "c1").isNone)
    (by decide +kernel)
  simp only [Bool.and_eq_true, List.all_eq_true, beq_iff_eq, Option.isNone_iff_eq_none] at htest
  obtain ⟨⟨hok, hpolls⟩, hended⟩ := htest
  obtain ⟨-, -, hverdict⟩ := observe_verdict_iff "motor-test" "boot1" 0 ["motor01"] false
    moveHanded_reachable moveHanded_task rfl (1 / 100) run hok
  obtain ⟨r, hr, -, hsucceeded, -⟩ := hverdict hended
  refine ⟨xs, s, run, hpolls, r, hr, hsucceeded.mpr ?_⟩
  rw [hpolls]
  exact ⟨1 / 50, by simp, by norm_num, by simp [TargetRunner.observeTimeout]; norm_num⟩

/-- The defect: the action completes at 5 s, the sleep that began at 0 s ends
at 20 s, and the command is EXPIRED without another look at the adapter. -/
theorem completed_action_expires :
    ¬ ∀ (moment : ℚ) (xs : List (Step (step (V := Int)))) (s : DeviceRuntime Int),
      Run step moveHanded xs s →
      (∀ x ∈ xs, Faithful "c1" ⟨"motor01", 2, .spawned⟩ moment x.src x.label = true) →
      (∀ first ∈ (polls "c1" xs).head?, moment < first + TargetRunner.observeTimeout) →
      s.tasks "c1" = none →
      ∃ r, s.getCommand "c1" = some r ∧ r.outcome = some .succeeded := by
  intro hall
  obtain ⟨xs, s, run, htest⟩ := execSteps_test step moveHanded
    [.observe "c1" (.ok false), .advance 20, .observe "c1" (.ok true)]
    (fun r => r.1.all (fun x => Faithful "c1" ⟨"motor01", 2, .spawned⟩ 5 x.src x.label) &&
      polls "c1" r.1 == [0, 20] && (r.2.tasks "c1").isNone &&
      (r.2.getCommand "c1").map (·.outcome) == some (some .expired))
    (by decide +kernel)
  simp only [Bool.and_eq_true, List.all_eq_true, beq_iff_eq, Option.isNone_iff_eq_none] at htest
  obtain ⟨⟨⟨hok, hpolls⟩, hended⟩, hexpired⟩ := htest
  obtain ⟨r, hr, hsucceeded⟩ := hall 5 xs s run hok
    (by rw [hpolls]; simp [TargetRunner.observeTimeout]; norm_num) hended
  rw [hr] at hexpired
  simp [hsucceeded] at hexpired

end Fusion.DeviceRuntime
