import Fusion.Core.ShowController

/-!
# OneShow — what the controller keeps, and where it does not

`arm` and `abort` write the Show state when the coroutine they await ends,
whatever happened in between; they write it only if that coroutine returns,
or if `prepare` raises. The first makes a late write possible (`Unlapped`
excludes it), the second a missing one (`Closes` excludes it).
-/

namespace Fusion

open Transition

namespace ShowControl

variable {s t : ShowControl}

/-! ## Steps -/

/-- All but the calls and the state stays. -/
structure SameRuns (s t : ShowControl) : Prop where
  started : t.started = s.started
  runs : t.runs = s.runs
  runTask : t.controller.runTask = s.controller.runTask

/-- **What a step does.** -/
inductive Does (s : ShowControl) : Label → ShowControl → Prop
  /-- nothing is entered, written or ended: a refused operation, a request
  to stop -/
  | rests {l : Label} {t : ShowControl} (same : SameRuns s t)
      (state : t.controller.state = s.controller.state) (calls : t.calls = s.calls)
      (enteredBy : t.enteredBy = s.enteredBy) : Does s l t
  /-- `arm` or `abort` is accepted -/
  | enters {l : Label} {t : ShowControl} (k : Nat) (call : ShowCall) (same : SameRuns s t)
      (quiet : t.controller.state.isQuiet = true → s.controller.state.isQuiet = true)
      (calls : t.calls = Function.update s.calls k (some call))
      (enteredBy : t.enteredBy = some k) : Does s l t
  /-- `abort` goes on to `stop_all` -/
  | goes {k : Nat} {t : ShowControl} (call : ShowCall) (same : SameRuns s t)
      (state : t.controller.state = s.controller.state)
      (calls : t.calls = Function.update s.calls k (some call))
      (enteredBy : t.enteredBy = s.enteredBy) : Does s (.joined k) t
  /-- `arm` or `abort` writes the state and ends -/
  | writes {l : Label} {t : ShowControl} (k : Nat)
      (label : l = .prepareReturned k ∨ (∃ message, l = .prepareRaised k message) ∨
        l = .stopReturned k) (same : SameRuns s t)
      (state : t.controller.state.isTransitional = false)
      (calls : t.calls = Function.update s.calls k none) : Does s l t
  /-- `arm` or `abort` ends and leaves the state as it is -/
  | leaves {l : Label} {t : ShowControl} (k : Nat)
      (label : l = .stopRaised k ∨ l = .callCancelled k ∧ ∀ r, s.calls k ≠ some (.joining r))
      (same : SameRuns s t) (state : t.controller.state = s.controller.state)
      (calls : t.calls = Function.update s.calls k none)
      (enteredBy : t.enteredBy = s.enteredBy) : Does s l t
  | starts {runId : String} {t : ShowControl} (armed : s.controller.state = .armed)
      (state : t.controller.state = .running) (runTask : t.controller.runTask = some s.started)
      (started : t.started = s.started + 1)
      (runs : t.runs = Function.update s.runs s.started .created) (calls : t.calls = s.calls) :
      Does s (.start runId) t
  | begins {r : Nat} {t : ShowControl} (created : s.runs r = .created)
      (started : t.started = s.started) (controller : t.controller = s.controller)
      (runs : t.runs = Function.update s.runs r .executing) (calls : t.calls = s.calls)
      (enteredBy : t.enteredBy = s.enteredBy) : Does s (.runBegins r) t
  /-- a run task ends, and `_drive` may write the state -/
  | ends {l : Label} {t : ShowControl} (r : Nat) (alive : s.runs r ≠ .ended)
      (started : t.started = s.started)
      (runTask : t.controller.runTask = s.controller.runTask)
      (state : t.controller.state = s.controller.state ∨
        t.controller.state.isTransitional = false)
      (runs : t.runs = Function.update s.runs r .ended) (calls : t.calls = s.calls)
      (enteredBy : t.enteredBy = s.enteredBy) : Does s l t
  | holds {t : ShowControl} (running : s.controller.state = .running) (same : SameRuns s t)
      (state : t.controller.state = .holding) (calls : t.calls = s.calls) : Does s .hold t

theorem state_runReturned (c : ShowController) :
    (c.runReturned.state = c.state ∨ c.runReturned.state.isTransitional = false) ∧
      c.runReturned.runTask = c.runTask := by
  unfold ShowController.runReturned
  split
  · exact ⟨.inr rfl, rfl⟩
  · exact ⟨.inl rfl, rfl⟩

theorem step_does {l : Label} (h : s.step l = some t) : Does s l t := by
  cases l with
  | arm k =>
    simp only [step] at h
    split at h <;> cases h
    · rename_i c _ harm
      obtain ⟨hidle, rfl⟩ := ShowController.arm_ok harm
      exact .enters k .preparing ⟨rfl, rfl, rfl⟩ (fun _ => by rw [hidle]; rfl) rfl rfl
    · exact .rests ⟨rfl, rfl, rfl⟩ rfl rfl rfl
  | prepareReturned k =>
    simp only [step] at h
    split at h <;> cases h
    exact .writes k (.inl rfl) ⟨rfl, rfl, rfl⟩ rfl rfl
  | prepareRaised k message =>
    simp only [step] at h
    split at h <;> cases h
    exact .writes k (.inr (.inl ⟨message, rfl⟩)) ⟨rfl, rfl, rfl⟩ rfl rfl
  | start runId =>
    simp only [step] at h
    split at h <;> cases h
    · rename_i c hstart
      obtain ⟨harmed, hstate, htask⟩ := ShowController.start_ok hstart
      exact .starts harmed hstate htask rfl rfl rfl
    · exact .rests ⟨rfl, rfl, rfl⟩ rfl rfl rfl
  | runBegins r =>
    simp only [step] at h
    split at h <;> cases h
    rename_i hcreated
    exact .begins hcreated.1 rfl rfl rfl rfl rfl
  | runReturned r =>
    simp only [step] at h
    split at h <;> cases h
    rename_i hexecuting
    obtain ⟨hstate, htask⟩ := state_runReturned s.controller
    exact .ends r (by rw [hexecuting]; nofun) rfl htask hstate rfl rfl rfl
  | runRaised r message =>
    simp only [step] at h
    split at h <;> cases h
    rename_i hexecuting
    exact .ends r (by rw [hexecuting]; nofun) rfl rfl (.inr rfl) rfl rfl rfl
  | runCancelled r =>
    simp only [step] at h
    split at h <;> cases h
    rename_i halive
    refine .ends r ?_ rfl rfl (.inl rfl) rfl rfl rfl
    rcases halive with h | ⟨h, -⟩ <;> rw [h] <;> nofun
  | hold =>
    simp only [step] at h
    split at h <;> cases h
    · rename_i c hhold
      obtain ⟨hrunning, hstate, htask⟩ := ShowController.hold_ok hhold
      exact .holds hrunning ⟨rfl, rfl, htask⟩ hstate rfl
    · exact .rests ⟨rfl, rfl, rfl⟩ rfl rfl rfl
  | abort k =>
    simp only [step] at h
    split at h
    · rename_i c _ habort
      obtain rfl := ShowController.abort_ok habort
      split at h <;> cases h
      · exact .enters k _ ⟨rfl, rfl, rfl⟩ nofun rfl rfl
      · exact .enters k _ ⟨rfl, rfl, rfl⟩ nofun rfl rfl
    · cases h
      exact .rests ⟨rfl, rfl, rfl⟩ rfl rfl rfl
    · cases h
  | joined k =>
    simp only [step] at h
    split at h
    · split at h <;> cases h
      exact .goes .stopping ⟨rfl, rfl, rfl⟩ rfl rfl rfl
    · cases h
  | stopReturned k =>
    simp only [step] at h
    split at h <;> cases h
    exact .writes k (.inr (.inr rfl)) ⟨rfl, rfl, rfl⟩ rfl rfl
  | stopRaised k =>
    simp only [step] at h
    split at h <;> cases h
    exact .leaves k (.inl rfl) ⟨rfl, rfl, rfl⟩ rfl rfl rfl
  | callCancelled k =>
    simp only [step] at h
    split at h
    · cases h
    · cases h
      exact .rests ⟨rfl, rfl, rfl⟩ rfl rfl rfl
    · rename_i call hjoining hcall
      cases h
      refine .leaves k (.inr ⟨rfl, fun r hr => ?_⟩) ⟨rfl, rfl, rfl⟩ rfl rfl rfl
      exact hjoining r (Option.some.inj (hcall.symm.trans hr))

/-! ## One Show at a time -/

/-- At most one `run` executes, and none in IDLE, PREPARING or ARMED. -/
structure OneRun (s : ShowControl) : Prop where
  alone : ∀ r r', s.runs r = .executing → s.runs r' = .executing → r = r'
  quiet : s.controller.state.isQuiet = true → ∀ r, s.runs r ≠ .executing

/-- No run task is alive. -/
def atRest (s : ShowControl) : Bool := (List.range s.started).all fun r => s.runs r = .ended

/-- `arm` and `abort` write IDLE or ARMED only where no run task is alive. -/
def Unlapped (s : ShowControl) : Label → Bool
  | .prepareReturned _ | .prepareRaised _ _ | .stopReturned _ => s.atRest
  | _ => true

/-- **The invariant**: a run task that is alive is the controller's own, and
the Show is not IDLE, PREPARING or ARMED. -/
structure OwnRun (s : ShowControl) : Prop where
  made : ∀ r, s.runs r ≠ .ended → r < s.started
  own : ∀ r, s.runs r ≠ .ended → s.controller.runTask = some r
  live : ∀ r, s.runs r ≠ .ended → s.controller.state.isQuiet = false

theorem OwnRun.init : OwnRun init where
  made := fun _ hr => absurd rfl hr
  own := fun _ hr => absurd rfl hr
  live := fun _ hr => absurd rfl hr

theorem OwnRun.oneRun (hi : OwnRun s) : OneRun s := by
  have alive : ∀ {r}, s.runs r = .executing → s.runs r ≠ .ended := by
    intro r hr
    rw [hr]
    nofun
  refine ⟨fun r r' hr hr' => ?_, fun hquiet r hr => ?_⟩
  · exact Option.some.inj ((hi.own r (alive hr)).symm.trans (hi.own r' (alive hr')))
  · rw [hi.live r (alive hr)] at hquiet
    cases hquiet

theorem OwnRun.ended_of_atRest (hi : OwnRun s) (hrest : s.atRest = true) (r : Nat) :
    s.runs r = .ended := by
  by_contra halive
  simp only [atRest, List.all_eq_true, List.mem_range, decide_eq_true_eq] at hrest
  exact halive (hrest r (hi.made r halive))

theorem OwnRun.of_same (hi : OwnRun s) (h : SameRuns s t)
    (hstate : t.controller.state.isQuiet = true → s.controller.state.isQuiet = true) :
    OwnRun t where
  made := by
    rw [h.runs, h.started]
    exact hi.made
  own := by
    rw [h.runs, h.runTask]
    exact hi.own
  live := by
    rw [h.runs]
    intro r hr
    cases hquiet : t.controller.state.isQuiet with
    | false => rfl
    | true => exact (hstate hquiet).symm.trans (hi.live r hr)

theorem OwnRun.step {l : Label} (hi : OwnRun s) (h : Does s l t)
    (hok : Unlapped s l = true) : OwnRun t := by
  cases h with
  | rests same state _ _ => exact hi.of_same same (fun hq => state ▸ hq)
  | enters _ _ same quiet _ _ => exact hi.of_same same quiet
  | goes _ same state _ _ => exact hi.of_same same (fun hq => state ▸ hq)
  | writes k label same state _ =>
    -- nothing is alive that the new state could be wrong about
    have hrest : s.atRest = true := by
      rcases label with rfl | ⟨_, rfl⟩ | rfl <;> exact hok
    have hnone : ∀ r, t.runs r = .ended := by
      intro r
      rw [same.runs]
      exact hi.ended_of_atRest hrest r
    exact ⟨fun r hr => absurd (hnone r) hr, fun r hr => absurd (hnone r) hr,
      fun r hr => absurd (hnone r) hr⟩
  | leaves _ _ same state _ _ => exact hi.of_same same (fun hq => state ▸ hq)
  | starts armed state runTask started runs _ =>
    -- nothing is alive in ARMED, so the new task is the only one
    have own : ∀ r, t.runs r ≠ .ended → r = s.started := by
      intro r hr
      by_contra hne
      rw [runs, Function.update_of_ne hne] at hr
      have := hi.live r hr
      rw [armed] at this
      cases this
    refine ⟨fun r hr => ?_, fun r hr => ?_, fun r hr => ?_⟩
    · rw [own r hr, started]
      exact Nat.lt_succ_self _
    · rw [own r hr, runTask]
    · rw [state]
      rfl
  | @begins r _ created started controller runs _ _ =>
    have before : ∀ r', t.runs r' ≠ .ended → s.runs r' ≠ .ended := by
      intro r' hr'
      rw [runs] at hr'
      by_cases hne : r' = r
      · subst hne
        rw [created]
        nofun
      · rwa [Function.update_of_ne hne] at hr'
    refine ⟨fun r hr => ?_, fun r hr => ?_, fun r hr => ?_⟩
    · rw [started]
      exact hi.made r (before r hr)
    · rw [controller]
      exact hi.own r (before r hr)
    · rw [controller]
      exact hi.live r (before r hr)
  | ends r alive started runTask state runs _ _ =>
    -- the task that ends was the only one
    have hnone : ∀ r', t.runs r' = .ended := by
      intro r'
      rw [runs]
      by_cases hne : r' = r
      · subst hne
        exact Function.update_self ..
      · rw [Function.update_of_ne hne]
        by_contra halive
        exact hne (Option.some.inj ((hi.own r' halive).symm.trans (hi.own r alive)))
    exact ⟨fun r hr => absurd (hnone r) hr, fun r hr => absurd (hnone r) hr,
      fun r hr => absurd (hnone r) hr⟩
  | holds running same state _ =>
    refine hi.of_same same fun hq => ?_
    rw [state] at hq
    cases hq

/-- **One Show at a time**, in every state reached by a run in which `arm`
and `abort` write IDLE or ARMED only where no run task is alive. -/
theorem one_show {xs : List (Step step)} (run : Run step init xs s)
    (hok : ∀ x ∈ xs, Unlapped x.src x.label = true) : OneRun s :=
  (run.invariant_of (I := OwnRun) (fun x => Unlapped x.src x.label = true)
    OwnRun.init (fun x hi hx => hi.step (step_does x.fired) hx) hok).2.oneRun

/-- A Show is armed and started, runs, and is aborted. -/
theorem one_show_aborted :
    ∃ xs s, Run step init xs s ∧ s.controller.state = .armed ∧ s.runs 0 = .ended ∧
      OneRun s := by
  obtain ⟨xs, s, run, hok, hs⟩ := execWhile_test Unlapped step init
    [.arm 0, .prepareReturned 0, .start "r0", .runBegins 0, .hold, .abort 1, .runCancelled 0,
      .joined 1, .stopReturned 1, .arm 2, .prepareReturned 2]
    (fun s => s.controller.state = .armed && s.started = 1 && s.runs 0 = .ended)
    (by decide +kernel)
  simp only [Bool.and_eq_true, decide_eq_true_eq] at hs
  exact ⟨xs, s, run, hs.1.1, hs.2, one_show run hok⟩

/-- The defect: `run` raises while it is being cancelled, so the Show is
FAULTED and a second `abort` is accepted; the first one ends, the next Show
is armed and started, and then the second one writes IDLE. -/
theorem one_show_late_abort : ¬ ∀ xs s, Run step init xs s → OneRun s := by
  intro hall
  obtain ⟨xs, s, run, -, hs⟩ := execWhile_test (fun _ _ => true) step init
    [.arm 0, .prepareReturned 0, .start "r0", .runBegins 0, .abort 1,
      .runRaised 0 "cleanup failed", .abort 2, .joined 1, .stopReturned 1,
      .arm 3, .prepareReturned 3, .start "r1", .runBegins 1, .stopReturned 2]
    (fun s => s.controller.state = .idle && s.runs 1 = .executing) (by decide +kernel)
  simp only [Bool.and_eq_true, decide_eq_true_eq] at hs
  exact (hall xs s run).quiet (by rw [hs.1]; rfl) 1 hs.2

/-! ## No wedged Show -/

/-- PREPARING and STOPPING do not outlive the call that entered them. -/
structure NotWedged (s : ShowControl) : Prop where
  accepts : (∀ k, s.calls k = none) → s.controller.state.isTransitional = false
  entered : s.controller.state.isTransitional = true →
    ∃ k, s.enteredBy = some k ∧ (s.calls k).isSome

theorem notWedged_of_entered (h : s.controller.state.isTransitional = true →
    ∃ k, s.enteredBy = some k ∧ (s.calls k).isSome) : NotWedged s := by
  refine ⟨fun hnone => ?_, h⟩
  by_contra htrans
  obtain ⟨k, -, hcall⟩ := h ((Bool.not_eq_false _).mp htrans)
  rw [hnone k] at hcall
  cases hcall

/-- PREPARING or STOPPING stands, and call `k` entered it. -/
def stands (s : ShowControl) (k : Nat) : Bool :=
  s.controller.state.isTransitional && s.enteredBy = some k

/-- No call ends, by an exception of `stop_all` or by its own cancellation,
while the PREPARING or STOPPING that it entered stands. -/
def Closes (s : ShowControl) : Label → Bool
  | .stopRaised k => !s.stands k
  | .callCancelled k =>
      match s.calls k with
      | some (.joining _) => true
      | _ => !s.stands k
  | _ => true

theorem closes_of_leaves {l : Label} {k : Nat}
    (h : l = .stopRaised k ∨ l = .callCancelled k ∧ ∀ r, s.calls k ≠ some (.joining r)) :
    Closes s l = !s.stands k := by
  rcases h with rfl | ⟨rfl, hjoining⟩
  · rfl
  · simp only [Closes]

/-- The call that ends is not the one that PREPARING or STOPPING needs. -/
theorem stands_of_notWedged {k : Nat} (ht : NotWedged (s.setCall k none)) :
    s.stands k = false := by
  by_contra hstands
  obtain ⟨htrans, hby⟩ := Bool.and_eq_true_iff.mp ((Bool.not_eq_false _).mp hstands)
  obtain ⟨j, hj, hcall⟩ := ht.entered htrans
  obtain rfl : k = j := Option.some.inj ((of_decide_eq_true hby).symm.trans hj)
  simp [setCall] at hcall

theorem closes_of_notWedged {l : Label} (h : s.step l = some t) (ht : NotWedged t) :
    Closes s l = true := by
  cases l with
  | stopRaised k =>
    simp only [step] at h
    split at h <;> cases h
    simp [Closes, stands_of_notWedged ht]
  | callCancelled k =>
    simp only [step] at h
    split at h <;> cases h
    · rename_i r hr
      simp [Closes, hr]
    · rename_i call hjoining hcall
      have hleaves : ∀ r, s.calls k ≠ some (.joining r) := fun r hr =>
        hjoining r (Option.some.inj (hcall.symm.trans hr))
      rw [closes_of_leaves (.inr ⟨rfl, hleaves⟩), stands_of_notWedged ht]
      rfl
  | _ => rfl

theorem notWedged_step {l : Label} (hi : NotWedged s) (h : Does s l t)
    (hok : Closes s l = true) : NotWedged t := by
  refine notWedged_of_entered fun htrans => ?_
  cases h with
  | rests _ state calls enteredBy =>
    rw [state] at htrans
    rw [calls, enteredBy]
    exact hi.entered htrans
  | enters k call _ _ calls enteredBy =>
    refine ⟨k, enteredBy, ?_⟩
    rw [calls, Function.update_self]
    rfl
  | @goes j _ call _ state calls enteredBy =>
    rw [state] at htrans
    obtain ⟨k, hk, hcall⟩ := hi.entered htrans
    refine ⟨k, enteredBy.trans hk, ?_⟩
    rw [calls]
    by_cases hne : k = j
    · rw [hne, Function.update_self]
      rfl
    · rwa [Function.update_of_ne hne]
  | writes _ _ _ state _ =>
    rw [state] at htrans
    cases htrans
  | leaves j label _ state calls enteredBy =>
    rw [state] at htrans
    obtain ⟨k, hk, hcall⟩ := hi.entered htrans
    refine ⟨k, enteredBy.trans hk, ?_⟩
    rw [calls]
    by_cases hne : k = j
    · -- the call that ends is the one that entered the state
      rw [closes_of_leaves label, stands, htrans, hk, hne] at hok
      simp at hok
    · rwa [Function.update_of_ne hne]
  | starts _ state _ _ _ _ =>
    rw [state] at htrans
    cases htrans
  | begins _ _ controller _ calls enteredBy =>
    rw [controller] at htrans
    rw [calls, enteredBy]
    exact hi.entered htrans
  | ends _ _ _ _ state _ calls enteredBy =>
    rcases state with state | state <;> rw [state] at htrans
    · rw [calls, enteredBy]
      exact hi.entered htrans
    · cases htrans
  | holds _ _ state _ =>
    rw [state] at htrans
    cases htrans

/-- **No wedged Show** in the states of exactly the runs in which no call
ends, by an exception of `stop_all` or by its own cancellation, while the
PREPARING or STOPPING that it entered stands. -/
theorem not_wedged_iff {xs : List (Step step)} (run : Run step init xs s) :
    (∀ x ∈ xs, NotWedged x.dst) ↔ ∀ x ∈ xs, Closes x.src x.label = true :=
  run.forall_dst_iff ⟨fun _ => rfl, fun h => absurd h (by decide)⟩ fun x hi =>
    ⟨closes_of_notWedged x.fired, notWedged_step hi (step_does x.fired)⟩

/-- `prepare` raises and is called again; the Show fails and is aborted. -/
theorem not_wedged_faulted :
    ∃ xs s, Run step init xs s ∧ s.controller.state = .idle ∧ s.started = 1 ∧
      ∀ x ∈ xs, NotWedged x.dst := by
  obtain ⟨xs, s, run, hok, hs⟩ := execWhile_test Closes step init
    [.arm 0, .prepareRaised 0 "no target", .arm 1, .prepareReturned 1, .start "r0",
      .runBegins 0, .runRaised 0 "1 cue(s) did not succeed", .abort 2, .stopReturned 2]
    (fun s => s.controller.state = .idle && s.started = 1) (by decide +kernel)
  simp only [Bool.and_eq_true, decide_eq_true_eq] at hs
  exact ⟨xs, s, run, hs.1, hs.2, (not_wedged_iff run).mpr hok⟩

/-- The defect: `stop_all` raises, so `abort` ends and the Show stays
STOPPING. -/
theorem wedged_by_stop_all :
    ¬ ∀ xs s, Run step init xs s → ∀ x ∈ xs, NotWedged x.dst := by
  intro hall
  obtain ⟨xs, s, run, -, hs⟩ := execWhile_test (fun _ _ => true) step init
    [.arm 0, .prepareReturned 0, .start "r0", .runBegins 0, .abort 1, .runCancelled 0,
      .joined 1]
    (fun s => (s.step (.stopRaised 1)).isSome && !Closes s (.stopRaised 1)) (by decide +kernel)
  obtain ⟨hfires, hcloses⟩ := Bool.and_eq_true_iff.mp hs
  obtain ⟨t, ht⟩ := Option.isSome_iff_exists.mp hfires
  have hwedged := hall _ _ (run.snoc ⟨s, _, t, ht⟩) ⟨s, _, t, ht⟩ (by simp)
  rw [closes_of_notWedged ht hwedged] at hcloses
  cases hcloses

end ShowControl

end Fusion
