import Fusion.Plugins.Mightyzap

/-!
# MightyzapCompletion — which observation completes a move

`is_action_complete` reads the cached Moving bit, and the first check comes
right after the goal was acknowledged, so the bit may be older than the
motion. A `move` is completed by an observation of that motion in exactly
the runs in which each completion check that finds the cache at rest finds
it filled by a poll started after the acknowledgement.
-/

namespace Fusion.Mightyzap.Station

open Transition DeviceRuntime

variable {V : Type} [BEq V] {ops : FloatOps V} {s t : Station V}

/-! ## The law and when it holds -/

/-- The record is that of a `move` of this adapter, finished SUCCEEDED as
observed. -/
def ObservedMove (s : Station V) (r : CommandRecord V) : Prop :=
  r.targetId = s.adapter.targetId ∧ r.action = "move" ∧ r.status = .terminal ∧
    r.outcome = some .succeeded ∧ r.achievedCompletion = some .observed

/-- A poll that was started after the command's write was acknowledged has
succeeded and read Moving = 0. -/
def RestObserved (s : Station V) (c : CommandId) : Prop :=
  ∃ a n, s.acknowledgedAt c = some a ∧ a < n ∧ n ∈ s.restPolls

/-- A `move` that the step finishes as observed was seen at rest after its
goal was acknowledged. -/
def HonestCompletion (x : Step (step ops)) : Prop :=
  ∀ c r, x.dst.runtime.getCommand c = some r → ObservedMove x.dst r →
    (∀ r₀, x.src.runtime.getCommand c = some r₀ → r₀.status ≠ .terminal) →
    RestObserved x.src c

/-- A completion check of a `move` that is reached, and finds the cache at
rest, finds it filled by a poll started after the acknowledgement. -/
def FreshBlock (s : Station V) : StationLabel V → Bool
  | .observe c =>
      match s.runtime.owner c with
      | none => true
      | some (task, r, runner) =>
          r.action ≠ "move" || !asks task s.runtime.now runner.executionGeneration ||
            s.adapter.moving || (s.acknowledgedAt c).any (· < s.cacheFrom)
  | _ => true

/-! ## The poll cycle -/

/-- **The cache invariant**: polls run one after the other, the cache is
from the latest one read whole, and if it is at rest that poll read rest. -/
structure CacheInv (s : Station V) : Prop where
  reading : ∀ n first, s.poll = .reading n first → s.cacheFrom < n ∧ n ≤ s.pollsStarted
  started : s.cacheFrom ≤ s.pollsStarted
  rest : ∀ n ∈ s.restPolls, n ≤ s.cacheFrom
  block : 0 < s.cacheFrom → s.adapter.moving = false → s.cacheFrom ∈ s.restPolls

omit [BEq V] in
/-- A step away from the poll cycle. -/
theorem CacheInv.frame (h : CacheInv s) (hp : t.poll = s.poll)
    (hs : t.pollsStarted = s.pollsStarted) (hc : t.cacheFrom = s.cacheFrom)
    (hr : t.restPolls = s.restPolls) (hm : t.adapter.moving = s.adapter.moving) :
    CacheInv t := by
  refine ⟨?_, ?_, ?_, ?_⟩ <;> simp only [hp, hs, hc, hr, hm]
  · exact h.reading
  · exact h.started
  · exact h.rest
  · exact h.block

omit [BEq V] in
theorem CacheInv.startPoll (h : CacheInv s) (first : Bool) : CacheInv (s.startPoll first) where
  reading := by
    intro n first' hn
    cases hn
    exact ⟨Nat.lt_succ_of_le h.started, Nat.le_refl _⟩
  started := Nat.le_succ_of_le h.started
  rest := h.rest
  block := h.block

omit [BEq V] in
theorem CacheInv.endPoll {first : Bool} (h : CacheInv { s with poll := .idle }) :
    CacheInv (s.endPoll first) :=
  ⟨by simp [Station.endPoll], h.started, h.rest, h.block⟩

omit [BEq V] in
/-- Reading poll `n` whole makes it the cache. -/
theorem CacheInv.takePoll (h : CacheInv s) {n : Nat} {first : Bool}
    (hpoll : s.poll = .reading n first) (registers : List Nat) :
    CacheInv { s.takePoll n registers with poll := .idle } := by
  obtain ⟨hlt, hle⟩ := h.reading n first hpoll
  have hmoving := s.adapter.pollReturned_moving s.runtime.now registers
  unfold Station.takePoll
  cases hm : Adapter.movingRegister registers with
  | none =>
    simp only [hm] at hmoving
    exact ⟨by simp, h.started, h.rest, fun h0 hrest => h.block h0 (hmoving.symm.trans hrest)⟩
  | some m =>
    simp only [hm] at hmoving
    refine ⟨by simp, hle, ?_, ?_⟩
    · intro k hk
      by_cases hm0 : m = 0
      · simp only [hm0, if_true, List.mem_append, List.mem_singleton] at hk
        rcases hk with hk | hk
        · exact (h.rest k hk).trans hlt.le
        · exact hk.le
      · simp only [hm0, if_false] at hk
        exact (h.rest k hk).trans hlt.le
    · intro _ hrest
      have hm0 : m = 0 := by simpa [hmoving] using hrest
      simp [hm0]

/-! ## One step -/

/-- What a step of the station asks of the Runtime: nothing, or one of its
steps, in which an observer of this adapter's command is told what the cache
says. -/
inductive Drove (s : Station V) (l : StationLabel V) (t : Station V) : Prop
  | idle (runtime : t.runtime = s.runtime)
  | moved (rl : RuntimeLabel V) (fired : s.runtime.step rl = some t.runtime)
      (observe : ∀ c complete, rl = .observe c complete → s.ours c = false ∨
        l = .observe c ∧ ∃ r, s.runtime.getCommand c = some r ∧
          complete = .ok (s.adapter.isActionComplete r.action))

omit [BEq V] in
theorem follow_eq (ops : FloatOps V) (s : Station V) (rt : DeviceRuntime V)
    (l : RuntimeLabel V) :
    (s.follow ops rt l).runtime = rt ∧ (s.follow ops rt l).adapter = s.adapter ∧
      (s.follow ops rt l).poll = s.poll ∧ (s.follow ops rt l).pollsStarted = s.pollsStarted ∧
      (s.follow ops rt l).cacheFrom = s.cacheFrom ∧
      (s.follow ops rt l).restPolls = s.restPolls := by
  unfold follow
  split
  · split <;> exact ⟨rfl, rfl, rfl, rfl, rfl, rfl⟩
  · exact ⟨rfl, rfl, rfl, rfl, rfl, rfl⟩
  · exact ⟨rfl, rfl, rfl, rfl, rfl, rfl⟩

/-- **One step of the station**: a step of the Runtime that leaves the cache
alone, or a step of the poll cycle that leaves the Runtime alone. -/
theorem step_drove {l : StationLabel V} (hs : s.step ops l = some t) :
    Drove s l t ∧ t.adapter.targetId = s.adapter.targetId ∧ (CacheInv s → CacheInv t) := by
  have hmap : ∀ {rl : RuntimeLabel V} {f : DeviceRuntime V → Station V},
      (s.runtime.step rl).map f = some t →
      (∀ rt, (f rt).runtime = rt ∧ (f rt).adapter = s.adapter ∧ (f rt).poll = s.poll ∧
        (f rt).pollsStarted = s.pollsStarted ∧ (f rt).cacheFrom = s.cacheFrom ∧
        (f rt).restPolls = s.restPolls) →
      (∀ c complete, rl = .observe c complete → s.ours c = false ∨
        l = .observe c ∧ ∃ r, s.runtime.getCommand c = some r ∧
          complete = .ok (s.adapter.isActionComplete r.action)) →
      Drove s l t ∧ t.adapter.targetId = s.adapter.targetId ∧ (CacheInv s → CacheInv t) := by
    intro rl f hf hframe hobs
    obtain ⟨rt, hrt, rfl⟩ := Option.map_eq_some_iff.mp hf
    obtain ⟨h1, h2, h3, h4, h5, h6⟩ := hframe rt
    exact ⟨.moved rl (h1.symm ▸ hrt) hobs, by rw [h2], fun h => h.frame h3 h4 h5 h6 (by rw [h2])⟩
  cases l with
  | runtime rl =>
    simp only [step] at hs
    split at hs
    · rename_i hallowed
      refine hmap hs (fun rt => follow_eq ops s rt rl) ?_
      rintro c complete rfl
      exact .inl (by simpa [allows] using hallowed)
    · cases hs
  | executeRaises c =>
    simp only [step] at hs
    split at hs
    · exact hmap hs (fun rt => ⟨rfl, rfl, rfl, rfl, rfl, rfl⟩) (by simp)
    · cases hs
  | writeAcknowledged c =>
    simp only [step] at hs
    split at hs <;> cases hs
    exact ⟨.idle rfl, rfl, fun h => h.frame rfl rfl rfl rfl rfl⟩
  | writeFails c message =>
    simp only [step] at hs
    split at hs
    · exact hmap hs (fun rt => ⟨rfl, rfl, rfl, rfl, rfl, rfl⟩) (by simp)
    · cases hs
  | executeReturns c =>
    simp only [step] at hs
    split at hs
    · exact hmap hs (fun rt => ⟨rfl, rfl, rfl, rfl, rfl, rfl⟩) (by simp)
    · cases hs
  | observe c =>
    simp only [step] at hs
    split at hs
    · rename_i r hr
      split at hs
      · refine hmap hs (fun rt => ⟨rfl, rfl, rfl, rfl, rfl, rfl⟩) ?_
        rintro c' complete ⟨⟩
        exact .inr ⟨rfl, r, hr, rfl⟩
      · cases hs
    · cases hs
  | connect =>
    simp only [step] at hs
    split at hs <;> cases hs
    exact ⟨.idle rfl, rfl, fun h => ⟨by simp, h.started, h.rest, h.block⟩⟩
  | forceOn acknowledged =>
    simp only [step] at hs
    split at hs <;> cases hs
    cases acknowledged with
    | true => exact ⟨.idle rfl, rfl, fun h => h.startPoll true⟩
    | false => exact ⟨.idle rfl, rfl, fun h => ⟨by simp, h.started, h.rest, h.block⟩⟩
  | pollStarts =>
    simp only [step] at hs
    split at hs
    · split at hs <;> cases hs
      exact ⟨.idle rfl, rfl, fun h => h.startPoll false⟩
    · cases hs
  | pollReturns registers =>
    simp only [step] at hs
    split at hs <;> cases hs
    rename_i n first hpoll
    refine ⟨.idle ?_, ?_, fun h => (h.takePoll hpoll registers).endPoll⟩
    · simp only [endPoll, takePoll]
      split <;> rfl
    · simp only [endPoll, takePoll]
      split <;> simp
  | pollFails =>
    simp only [step] at hs
    split at hs <;> cases hs
    exact ⟨.idle rfl, rfl, fun h => ⟨by simp [endPoll], h.started, h.rest, h.block⟩⟩
  | disconnect =>
    simp only [step] at hs
    split at hs <;> cases hs
    · exact ⟨.idle rfl, rfl, fun h => ⟨by simp, h.started, h.rest, h.block⟩⟩
    · exact ⟨.idle rfl, rfl, fun h => ⟨by simp, h.started, h.rest, h.block⟩⟩

/-- The Runtime's owners and the adapter's cache, together. -/
structure StationInv (s : Station V) : Prop where
  owner : OwnerInv s.runtime
  cache : CacheInv s

theorem StationInv.step (h : StationInv s) {l : StationLabel V} (hs : s.step ops l = some t) :
    StationInv t := by
  obtain ⟨hdrove, _, hcache⟩ := step_drove hs
  refine ⟨?_, hcache h.cache⟩
  cases hdrove with
  | idle runtime => exact runtime ▸ h.owner
  | moved rl fired _ => exact h.owner.step fired

omit [BEq V] in
theorem StationInv.init (runtimeId bootId : String) (now : ℚ) (targets : List String)
    (targetId : String) (strokeMm : ℚ) :
    StationInv (Station.init (V := V) runtimeId bootId now targets targetId strokeMm) where
  owner := .init runtimeId bootId now targets false
  cache := ⟨by simp [Station.init], Nat.le_refl _, by simp [Station.init],
    by simp [Station.init]⟩

/-! ## Honest completion -/

/-- A check that meets the condition completes honestly. -/
theorem honest_of_fresh (x : Step (step ops)) (h : StationInv x.src)
    (hok : FreshBlock x.src x.label = true) : HonestCompletion x := by
  intro c r hr hmove hlive
  obtain ⟨htarget, haction, hdone, hsucc, hlevel⟩ := hmove
  obtain ⟨hdrove, hid, _⟩ := step_drove x.fired
  cases hdrove with
  | idle runtime => exact absurd hdone (hlive r (runtime ▸ hr))
  | moved rl fired observe =>
    obtain ⟨task, r₀, task', htask, hr₀, -, rfl, -, hby⟩ :=
      (step_moves h.owner fired).succeeded hr hdone hsucc hlive
    cases hby with
    | executed _ _ level record =>
      rw [record] at hlevel
      exact absurd (Option.some.inj hlevel) level
    | observed label _ asked generation record =>
      subst record
      have htarget₀ : r₀.targetId = x.src.adapter.targetId := htarget.trans hid
      have hours : x.src.ours r₀.commandId = true := by simp [ours, hr₀, htarget₀]
      obtain ⟨hl, r₁, hr₁, hcomplete⟩ :=
        (observe _ _ label).resolve_left (by simp [hours])
      obtain rfl : r₀ = r₁ := Option.some.inj (hr₀.symm.trans hr₁)
      have hrest : x.src.adapter.moving = false := by
        have hact : r₀.action = "move" := haction
        have := Except.ok.inj hcomplete
        simpa [Adapter.isActionComplete, hact] using this.symm
      obtain ⟨runner, hrunner, hgen⟩ := Option.map_eq_some_iff.mp generation
      have howner : x.src.runtime.owner r₀.commandId = some (task, r₀, runner) := by
        simp [owner, htask, hr₀, hrunner]
      have hfresh : (x.src.acknowledgedAt r₀.commandId).any
          (fun a => decide (a < x.src.cacheFrom)) = true := by
        have hact : r₀.action = "move" := haction
        rw [hl] at hok
        simpa [FreshBlock, howner, hact, hrest, hgen, asked] using hok
      obtain ⟨a, ha, hlt⟩ := Option.any_eq_true _ _ |>.mp hfresh
      have hlt : a < x.src.cacheFrom := by simpa using hlt
      exact ⟨a, _, ha, hlt, h.cache.block (by omega) hrest⟩

/-- A check that completes a `move` honestly meets the condition: whatever
was read at rest is no newer than the cache. -/
theorem fresh_of_honest (x : Step (step ops)) (h : StationInv x.src)
    (hx : HonestCompletion x) : FreshBlock x.src x.label = true := by
  obtain ⟨s, l, t, hs⟩ := x
  cases l with
  | observe c =>
    simp only [FreshBlock]
    cases ho : s.runtime.owner c with
    | none => rfl
    | some found =>
      obtain ⟨task, r, runner⟩ := found
      obtain ⟨rfl, htask, hr, hfits⟩ := OwnerInv.owner h.owner ho
      simp only [Bool.or_eq_true, or_assoc, decide_eq_true_eq, ne_eq, Bool.not_eq_true']
      by_contra hnot
      simp only [not_or, not_not, Bool.not_eq_false, Bool.not_eq_true] at hnot
      obtain ⟨haction, hasks, hrest, hstale⟩ := hnot
      -- the check is reached, so the observer reports success
      simp only [step, hr] at hs
      split at hs
      · rename_i htarget
        have hcomplete : s.adapter.isActionComplete r.action = true := by
          simp [Adapter.isActionComplete, haction, hrest]
        rw [hcomplete] at hs
        simp only [DeviceRuntime.step, ho, observe_of_asks r hasks, Option.map_some] at hs
        cases hs
        obtain ⟨a, n, ha, hlt, hn⟩ := hx r.commandId (r.finish .succeeded (some .observed))
          (by simp [getCommand_finish]) ⟨htarget, haction, rfl, rfl, rfl⟩ (fun r₀ hr₀ => by
            obtain rfl : r = r₀ := Option.some.inj (hr.symm.trans hr₀)
            exact hfits.live)
        have hle := h.cache.rest n hn
        have ha : s.acknowledgedAt r.commandId = some a := ha
        rw [ha] at hstale
        exact absurd (lt_of_lt_of_le hlt hle) (by simpa using hstale)
      · cases hs
  | _ => rfl

/-- **A `move` is completed by an observation of its own motion** in exactly
the runs in which each completion check that finds the cache at rest finds
it filled by a poll started after the goal was acknowledged. -/
theorem honest_completion_iff (ops : FloatOps V) (runtimeId bootId : String) (now : ℚ)
    (targets : List String) (targetId : String) (strokeMm : ℚ) {xs : List (Step (step ops))}
    (run : Run (step ops) (init runtimeId bootId now targets targetId strokeMm) xs s) :
    (∀ x ∈ xs, HonestCompletion x) ↔ ∀ x ∈ xs, FreshBlock x.src x.label = true :=
  run.forall_iff fun x hx =>
    have hinv := hx.invariant (StationInv.init runtimeId bootId now targets targetId strokeMm)
      fun _ _ _ hi hs => hi.step hs
    ⟨fresh_of_honest x hinv, honest_of_fresh x hinv⟩

/-! ## A move of 40 mm -/

/-- Integers as parameter values. -/
def intFloat : FloatOps Int := ⟨fun n => .ok n, fun q => toString q.num⟩

/-- The actuator of the tests, alone on its Runtime, at rest. -/
def bench : Station Int := init "motor-test" "boot1" 0 ["motor01"] "motor01" 87

/-- Connected and polled once at rest, then told to move 40 mm, and the goal
acknowledged. -/
private def moveAcknowledged : List (StationLabel Int) :=
  [.connect, .forceOn true, .pollReturns [0, 0, 0, 0, 0, 0, 0, 0, 0, 0, 0, 0],
    .runtime (.acquireControlSession "op" .manual none "cs1"),
    .runtime (.submitCommand (moveRequest "req-1" "cs1" 40 .observed) "c1"
      (.ok (Adapter.new "motor01" 87 0).manifest)),
    .writeAcknowledged "c1", .executeReturns "c1"]

/-- Polled in motion and then at rest before the check that completes it. -/
theorem honest_completion_polled :
    ∃ xs s, Run (step intFloat) bench xs s ∧
      (s.runtime.getCommand "c1").any (fun r => r.outcome = some .succeeded) = true ∧
      ∀ x ∈ xs, HonestCompletion x := by
  obtain ⟨xs, s, run, hok, hs⟩ := execWhile_test
    FreshBlock (step intFloat) bench
    (moveAcknowledged ++
      [.pollStarts, .pollReturns [0, 0, 0, 0, 0, 0, 10, 0, 0, 0, 0, 1], .observe "c1",
        .runtime (.advance 1), .pollStarts,
        .pollReturns [0, 0, 0, 0, 0, 0, 4598, 0, 0, 0, 0, 0], .observe "c1"])
    (fun s => (s.runtime.getCommand "c1").any fun r => r.outcome = some .succeeded)
    (by decide +kernel)
  exact ⟨xs, s, run, hs,
    (honest_completion_iff intFloat "motor-test" "boot1" 0 ["motor01"] "motor01" 87 run).mpr hok⟩

/-- The defect: the first check comes before any poll of the motion and
takes the bit read before the move for its end. -/
theorem honest_completion_stale_cache :
    ¬ ∀ xs s, Run (step intFloat) bench xs s → ∀ x ∈ xs, HonestCompletion x := by
  intro hall
  obtain ⟨xs, s, run, -, hs⟩ := execWhile_test
    (fun _ _ => true) (step intFloat) bench moveAcknowledged
    (fun s => (s.step intFloat (.observe "c1")).isSome && !FreshBlock s (.observe "c1"))
    (by decide +kernel)
  obtain ⟨hfires, hstale⟩ := Bool.and_eq_true_iff.mp hs
  obtain ⟨t, ht⟩ := Option.isSome_iff_exists.mp hfires
  have hinv := run.reachable.invariant
    (StationInv.init "motor-test" "boot1" 0 ["motor01"] "motor01" 87)
    fun _ _ _ hi hs => hi.step hs
  have hhonest := hall _ _ (run.snoc ⟨s, _, t, ht⟩) ⟨s, _, t, ht⟩ (by simp)
  simp [fresh_of_honest _ hinv hhonest] at hstale

end Fusion.Mightyzap.Station
