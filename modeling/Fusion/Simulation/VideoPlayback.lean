import Fusion.Simulation.FakeVideoPlayer
import Mathlib.Tactic.Ring

/-!
# VideoPlayback — what is played, and when it ends

A playback belongs to the newest call of `play` that was let through and was
not paused or stopped since; if the player's generation is still its own, its
medium is what the newest `prepare` asked for.
-/

namespace Fusion

open Transition

namespace VideoBench

open AdapterBench FakeVideoPlayerAdapter

variable {V : Type}

/-- A call of `execute` on a player. -/
abbrev VideoCall (V : Type) := ExecuteCall FakeVideoPlayerAdapter V

/-! ## The newest call of a kind -/

/-- The newest of the calls that are of a kind. -/
def newest (kind : VideoCall V → Bool) (calls : List (VideoCall V)) : Option (VideoCall V) :=
  (calls.filter kind).getLast?

theorem newest_concat (kind : VideoCall V → Bool) (calls : List (VideoCall V))
    (call : VideoCall V) :
    newest kind (calls ++ [call]) = if kind call then some call else newest kind calls := by
  unfold newest
  rw [List.filter_append, List.filter_singleton]
  cases kind call <;> simp

/-- The call asks for a medium. -/
def isPrepare (call : VideoCall V) : Bool := call.action = "prepare"

/-- A call of `play` that was let through. -/
def isPlay (call : VideoCall V) : Bool := call.result.toBool && call.action = "play"

/-- A call that the playback obeyed. -/
def isControl (call : VideoCall V) : Bool :=
  call.result.toBool && (call.action = "play" || call.action = "pause" || call.action = "stop")

/-- A call that moved the position or the playback. -/
def isMove (call : VideoCall V) : Bool :=
  isControl call || call.result.toBool && call.action = "seek"

/-! ## What is prepared -/

/-- The call was let through, and the path is what it asked for. -/
structure Asked (read : ValueReader V) (path : Option String) (call : VideoCall V) : Prop where
  returned : call.result = .ok ()
  path : ∃ v, call.params.get "media_path" = some v ∧ path = some (read.str v)

/-- **What is loaded** is what the newest `prepare` asked for. -/
structure Loading (read : ValueReader V) (a : FakeVideoPlayerAdapter) (calls : List (VideoCall V))
    (now : ℚ) : Prop where
  generation : a.mediaGeneration = calls.countP isPrepare
  loading : ∀ g stage, a.prepareTask = some (g, stage) →
    g ≤ a.mediaGeneration ∧ (g = a.mediaGeneration → ∃ call, newest isPrepare calls = some call ∧
      Asked read a.mediaPath call ∧ call.time ≤ now ∧
      ∀ wakeAt, stage = .sleeping wakeAt → call.time + tick ≤ wakeAt)
  loaded : a.prepared = true → ∃ call, newest isPrepare calls = some call ∧
    Asked read a.mediaPath call ∧ call.time + tick ≤ now

variable {read : ValueReader V} {a b : FakeVideoPlayerAdapter} {calls : List (VideoCall V)}
  {es : List (AdapterEvent Nat)} {now later : ℚ}

theorem Loading.waits (h : Loading read a calls now) (hle : now ≤ later) :
    Loading read a calls later := by
  refine ⟨h.generation, ?_, ?_⟩
  · intro g stage htask
    obtain ⟨hold, hnewest⟩ := h.loading g stage htask
    refine ⟨hold, fun hg => ?_⟩
    obtain ⟨call, hcall, hasked, hsince, hwake⟩ := hnewest hg
    exact ⟨call, hcall, hasked, hsince.trans hle, hwake⟩
  · intro hprepared
    obtain ⟨call, hcall, hasked, hwaited⟩ := h.loaded hprepared
    exact ⟨call, hcall, hasked, hwaited.trans hle⟩

theorem Loading.prepares (h : Loading read a calls now) (hp : Prepares a now b) :
    Loading read b calls now := by
  cases hp with
  | sleeps g created =>
    refine ⟨h.generation, ?_, h.loaded⟩
    rintro g' stage ⟨⟩
    obtain ⟨hold, hnewest⟩ := h.loading g .created created
    refine ⟨hold, fun hg => ?_⟩
    obtain ⟨call, hcall, hasked, hsince, -⟩ := hnewest hg
    refine ⟨call, hcall, hasked, hsince, ?_⟩
    rintro wakeAt ⟨⟩
    linarith
  | loads wakeAt sleeping awake =>
    refine ⟨h.generation, by rintro g stage ⟨⟩, fun _ => ?_⟩
    obtain ⟨call, hcall, hasked, -, hwake⟩ := (h.loading _ _ sleeping).2 rfl
    exact ⟨call, hcall, hasked, (hwake wakeAt rfl).trans awake⟩
  | drops => exact ⟨h.generation, by rintro g stage ⟨⟩, h.loaded⟩

theorem Loading.plays (h : Loading read a calls now) {event : Option (String × Nat)}
    (hp : Plays a now b event) : Loading read b calls now := by
  cases hp with
  | goesOn => exact ⟨h.generation, h.loading, h.loaded⟩
  | ends => exact ⟨h.generation, h.loading, h.loaded⟩

/-- A call that is no `prepare` leaves this alone. -/
theorem Loading.passes {call : VideoCall V} (h : Loading read a calls now)
    (hother : isPrepare call = false) : Loading read a (calls ++ [call]) now := by
  have hnewest : newest isPrepare (calls ++ [call]) = newest isPrepare calls := by
    rw [newest_concat, hother]
    rfl
  refine ⟨?_, ?_, ?_⟩
  · rw [h.generation, List.countP_append, List.countP_singleton, hother]
    rfl
  · rw [hnewest]
    exact h.loading
  · rw [hnewest]
    exact h.loaded

theorem Loading.executes {call : VideoCall V} (h : Loading read call.before calls call.time)
    (hcall : call.before.Executes read call.action call.params call.result call.after) :
    Loading read call.after (calls ++ [call]) call.time := by
  obtain ⟨command, action, params, time, before, result, after⟩ := call
  dsimp only at h hcall ⊢
  have hpass : action ≠ "prepare" → ∀ result after, Loading read before
      (calls ++ [⟨command, action, params, time, before, result, after⟩]) time :=
    fun hother _ _ => h.passes (by simpa [isPrepare] using hother)
  have hcount : action = "prepare" → ∀ result after, before.mediaGeneration + 1 =
      (calls ++ [(⟨command, action, params, time, before, result, after⟩ : VideoCall V)]).countP
        isPrepare := by
    intro hprepare result after
    rw [h.generation, List.countP_append, List.countP_singleton]
    simp [isPrepare, hprepare]
  cases hcall with
  | refuses other => exact hpass other _ _
  | forgets prepare message =>
    refine ⟨hcount prepare _ _, fun g stage htask => ?_, by rintro ⟨⟩⟩
    have hold := (h.loading g stage htask).1
    refine ⟨hold.trans (Nat.le_succ _), fun hg => ?_⟩
    subst hg
    exact absurd hold (Nat.not_succ_le_self _)
  | prepares prepare path asked =>
    refine ⟨hcount prepare _ _, ?_, by rintro ⟨⟩⟩
    rintro g stage ⟨⟩
    refine ⟨le_refl _, fun _ => ?_⟩
    rw [newest_concat, if_pos (by simp [isPrepare, prepare])]
    exact ⟨_, rfl, ⟨rfl, path, asked, rfl⟩, le_refl _, by rintro wakeAt ⟨⟩⟩
  | plays play =>
    have hother : action ≠ "prepare" := by
      rw [play]
      decide
    exact ⟨(hpass hother _ _).generation, (hpass hother _ _).loading, (hpass hother _ _).loaded⟩
  | halts halt =>
    have hother : action ≠ "prepare" := by rcases halt with rfl | rfl <;> decide
    exact ⟨(hpass hother _ _).generation, (hpass hother _ _).loading, (hpass hother _ _).loaded⟩
  | seeks seek =>
    have hother : action ≠ "prepare" := by
      rw [seek]
      decide
    exact ⟨(hpass hother _ _).generation, (hpass hother _ _).loading, (hpass hother _ _).loaded⟩
  | sets other =>
    have hother : action ≠ "prepare" := by rcases other with rfl | rfl <;> decide
    exact ⟨(hpass hother _ _).generation, (hpass hother _ _).loading, (hpass hother _ _).loaded⟩

/-! ## What is playing -/

/-- The newest call that counted let this playback begin. -/
structure Playback (a : FakeVideoPlayerAdapter) (calls : List (VideoCall V)) (call : VideoCall V)
    (g : Nat) (stage : PlayStage) (now : ℚ) : Prop where
  control : newest isControl calls = some call
  play : call.action = "play"
  generation : g = call.before.mediaGeneration
  older : g ≤ a.mediaGeneration
  since : call.time ≤ now
  prepared : g = a.mediaGeneration → a.prepared = true ∧
    ∃ prepare, newest isPrepare calls = some prepare ∧ prepare.time + tick ≤ call.time
  sleeps : ∀ wakeAt step remaining, stage = .sleeping wakeAt step remaining →
    0 < remaining ∧ step = min tick remaining
  /-- unless the position was changed, it tells how long the playback took -/
  way : newest isMove calls = some call →
    (stage = .created → a.positionS = call.before.positionS) ∧
      ∀ wakeAt step remaining, stage = .sleeping wakeAt step remaining →
        a.positionS + remaining = a.fakeDurationS ∧ call.before.positionS ≤ a.positionS ∧
          call.time + (a.positionS + step - call.before.positionS) ≤ wakeAt

/-- **What is playing** belongs to the newest `play`, and has not been
published. -/
structure Playing (a : FakeVideoPlayerAdapter) (calls : List (VideoCall V))
    (es : List (AdapterEvent Nat)) (now : ℚ) : Prop where
  playing : a.playing = a.playTask.isSome
  position : 0 ≤ a.positionS
  volume : 0 ≤ a.volume ∧ a.volume ≤ 100
  playback : ∀ g stage, a.playTask = some (g, stage) → ∃ call, Playback a calls call g stage now
  count : es.length + (if a.playTask.isSome then 1 else 0) ≤ calls.countP isPlay

theorem Playing.waits (h : Playing a calls es now) (hle : now ≤ later) :
    Playing a calls es later := by
  refine ⟨h.playing, h.position, h.volume, fun g stage htask => ?_, h.count⟩
  obtain ⟨call, hcall⟩ := h.playback g stage htask
  exact ⟨call, { hcall with since := hcall.since.trans hle }⟩

theorem Playing.prepares (h : Playing a calls es now) (hp : Prepares a now b) :
    Playing b calls es now := by
  have hsame : b.playTask = a.playTask ∧ b.playing = a.playing ∧ b.positionS = a.positionS ∧
      b.volume = a.volume ∧ b.mediaGeneration = a.mediaGeneration ∧
      b.fakeDurationS = a.fakeDurationS ∧ (a.prepared = true → b.prepared = true) := by
    cases hp with
    | sleeps => exact ⟨rfl, rfl, rfl, rfl, rfl, rfl, id⟩
    | loads => exact ⟨rfl, rfl, rfl, rfl, rfl, rfl, fun _ => rfl⟩
    | drops => exact ⟨rfl, rfl, rfl, rfl, rfl, rfl, id⟩
  obtain ⟨htask, hplaying, hposition, hvolume, hgeneration, hduration, hprepared⟩ := hsame
  refine ⟨?_, ?_, ?_, ?_, ?_⟩
  · rw [hplaying, htask]
    exact h.playing
  · rw [hposition]
    exact h.position
  · rw [hvolume]
    exact h.volume
  · rw [htask]
    intro g stage hstage
    obtain ⟨call, hcall⟩ := h.playback g stage hstage
    refine ⟨call, hcall.control, hcall.play, hcall.generation, ?_, hcall.since, ?_,
      hcall.sleeps, ?_⟩
    · rw [hgeneration]
      exact hcall.older
    · rw [hgeneration]
      exact fun hg => (hcall.prepared hg).imp_left hprepared
    · rw [hposition, hduration]
      exact hcall.way
  · rw [htask]
    exact h.count

/-- Where a playback is when it tests what remains. -/
theorem Playback.reached {g : Nat} {position remaining : ℚ}
    (hr : Reached a now g position remaining) (h : Playing a calls es now) :
    ∃ call stage, a.playTask = some (g, stage) ∧ Playback a calls call g stage now ∧
      0 ≤ position ∧
      (newest isMove calls = some call → position + remaining = a.fakeDurationS ∧
        call.before.positionS ≤ position ∧
        call.time + (position - call.before.positionS) ≤ now ∧
        (0 ≤ remaining ∨ position = call.before.positionS)) := by
  cases hr with
  | begins created =>
    obtain ⟨call, hcall⟩ := h.playback g .created created
    refine ⟨call, .created, created, hcall, h.position, fun hmove => ?_⟩
    have hposition := (hcall.way hmove).1 rfl
    refine ⟨by ring, hposition.ge, ?_, .inr hposition⟩
    rw [hposition, sub_self, add_zero]
    exact hcall.since
  | wakes wakeAt step remaining sleeping awake =>
    obtain ⟨call, hcall⟩ := h.playback g _ sleeping
    obtain ⟨hleft, hstep⟩ := hcall.sleeps _ _ _ rfl
    have hnonneg : 0 ≤ step := by
      rw [hstep]
      exact le_min (by norm_num [tick]) hleft.le
    have hless : step ≤ remaining := by
      rw [hstep]
      exact min_le_right _ _
    refine ⟨call, _, sleeping, hcall, by linarith [h.position], fun hmove => ?_⟩
    obtain ⟨hsum, hfrom, hway⟩ := (hcall.way hmove).2 _ _ _ rfl
    exact ⟨by linarith, by linarith, hway.trans awake, .inl (by linarith)⟩

theorem Playing.plays (h : Playing a calls es now) {event : Option (String × Nat)}
    (hp : Plays a now b event) : Playing b calls (es ++ events now event) now := by
  cases hp with
  | goesOn g position remaining reached left =>
    obtain ⟨call, stage, htask, hcall, hposition, hway⟩ := Playback.reached reached h
    have hlive : a.playTask.isSome = true := by
      rw [htask]
      rfl
    refine ⟨?_, hposition, h.volume, ?_, ?_⟩
    · rw [show a.playing = true from h.playing.trans hlive]
      rfl
    · rintro g' stage' ⟨⟩
      refine ⟨call, hcall.control, hcall.play, hcall.generation, hcall.older, hcall.since,
        hcall.prepared, ?_, fun hmove => ⟨by rintro ⟨⟩, ?_⟩⟩
      · rintro wakeAt step remaining' ⟨⟩
        exact ⟨left, rfl⟩
      · rintro wakeAt step remaining' ⟨⟩
        obtain ⟨hsum, hfrom, htime, -⟩ := hway hmove
        exact ⟨hsum, hfrom, by linarith⟩
    · have hcount := h.count
      rw [hlive] at hcount
      simpa [events] using hcount
  | ends g position remaining reached done =>
    obtain ⟨call, stage, htask, hcall, hposition, -⟩ := Playback.reached reached h
    refine ⟨rfl, hposition, h.volume, by rintro g' stage' ⟨⟩, ?_⟩
    have hcount := h.count
    have hone : ∀ e : Option (String × Nat), (events now e).length ≤ 1 := by
      intro e
      cases e <;> simp [events]
    rw [htask] at hcount
    rw [List.length_append]
    exact (Nat.add_le_add_left (hone _) _).trans hcount

theorem isControl_of_newest {call : VideoCall V} (h : newest isControl calls = some call) :
    isControl call = true :=
  (List.mem_filter.mp (List.mem_of_getLast? h)).2

/-- A playback outlives a call that it does not obey. -/
theorem Playback.outlives {call new : VideoCall V} {g : Nat} {stage : PlayStage}
    (h : Playback a calls call g stage now) (hcontrol : isControl new = false)
    (hmedium : b.mediaGeneration = a.mediaGeneration ∧ b.prepared = a.prepared ∧
      isPrepare new = false ∨ a.mediaGeneration < b.mediaGeneration)
    (hway : isMove new = true ∨
      b.positionS = a.positionS ∧ b.fakeDurationS = a.fakeDurationS) :
    Playback b (calls ++ [new]) call g stage now := by
  refine ⟨?_, h.play, h.generation, ?_, h.since, ?_, h.sleeps, ?_⟩
  · rw [newest_concat, hcontrol]
    exact h.control
  · rcases hmedium with ⟨hsame, -⟩ | hnext
    · rw [hsame]
      exact h.older
    · exact h.older.trans hnext.le
  · intro hg
    rcases hmedium with ⟨hsame, hprepared, hother⟩ | hnext
    · rw [newest_concat, hother, hprepared]
      exact h.prepared (hg.trans hsame)
    · -- the generation has moved on
      exact absurd (hg ▸ h.older) (not_le.mpr hnext)
  · intro hmove
    rw [newest_concat] at hmove
    split at hmove
    · -- the newest move is not the call of the playback
      obtain rfl := Option.some.inj hmove
      exact absurd (isControl_of_newest h.control) (by rw [hcontrol]; exact Bool.false_ne_true)
    · rename_i hstill
      rcases hway with hmoved | ⟨hposition, hduration⟩
      · exact absurd hmoved hstill
      · rw [hposition, hduration]
        exact h.way hmove

theorem Playing.executes {call : VideoCall V} (hl : Loading read call.before calls call.time)
    (h : Playing call.before calls es call.time)
    (hcall : call.before.Executes read call.action call.params call.result call.after) :
    Playing call.after (calls ++ [call]) es call.time := by
  obtain ⟨command, action, params, time, before, result, after⟩ := call
  dsimp only at hl h hcall ⊢
  have hcount : ∀ {result after}, es.length + (if before.playTask.isSome then 1 else 0) ≤
      (calls ++ [(⟨command, action, params, time, before, result, after⟩ : VideoCall V)]).countP
        isPlay := by
    intro result after
    rw [List.countP_append]
    exact h.count.trans (Nat.le_add_right _ _)
  cases hcall with
  | refuses other message =>
    refine ⟨h.playing, h.position, h.volume, fun g stage htask => ?_, hcount⟩
    obtain ⟨call, hcall⟩ := h.playback g stage htask
    exact ⟨call, hcall.outlives rfl (.inl ⟨rfl, rfl, by simpa [isPrepare] using other⟩)
      (.inr ⟨rfl, rfl⟩)⟩
  | forgets prepare message =>
    refine ⟨h.playing, h.position, h.volume, fun g stage htask => ?_, hcount⟩
    obtain ⟨call, hcall⟩ := h.playback g stage htask
    exact ⟨call, hcall.outlives rfl (.inr (Nat.lt_succ_self _)) (.inr ⟨rfl, rfl⟩)⟩
  | prepares prepare path asked =>
    refine ⟨h.playing, h.position, h.volume, fun g stage htask => ?_, hcount⟩
    obtain ⟨call, hcall⟩ := h.playback g stage htask
    exact ⟨call, hcall.outlives (by simp [isControl, prepare]) (.inr (Nat.lt_succ_self _))
      (.inr ⟨rfl, rfl⟩)⟩
  | plays play prepared =>
    obtain ⟨prepare, hprepare, -, hwaited⟩ := hl.loaded prepared
    have hnew : ∀ after, newest isControl
        (calls ++ [⟨command, action, params, time, before, .ok (), after⟩]) =
          some ⟨command, action, params, time, before, .ok (), after⟩ := by
      intro after
      rw [newest_concat, if_pos (by simp [isControl, play, Except.toBool])]
    refine ⟨rfl, h.position, h.volume, ?_, ?_⟩
    · rintro g stage ⟨⟩
      refine ⟨_, hnew _, play, rfl, le_refl _, le_refl _, fun _ => ⟨prepared, prepare, ?_, hwaited⟩,
        by rintro wakeAt step remaining ⟨⟩, fun _ => ⟨fun _ => rfl, by rintro w x y ⟨⟩⟩⟩
      rw [newest_concat, if_neg (by simp [isPrepare, play])]
      exact hprepare
    · show es.length + 1 ≤ _
      rw [List.countP_append, List.countP_singleton,
        if_pos (by simp [isPlay, play, Except.toBool])]
      exact Nat.add_le_add_right ((Nat.le_add_right _ _).trans h.count) 1
  | halts halt position nonneg =>
    refine ⟨rfl, nonneg h.position, h.volume, by rintro g stage ⟨⟩, ?_⟩
    exact (Nat.le_add_right _ _).trans hcount
  | seeks seek position nonneg =>
    refine ⟨h.playing, nonneg, h.volume, fun g stage htask => ?_, hcount⟩
    obtain ⟨call, hcall⟩ := h.playback g stage htask
    exact ⟨call, hcall.outlives (by simp [isControl, seek])
      (.inl ⟨rfl, rfl, by simp [isPrepare, seek]⟩) (.inl (by simp [isMove, seek, Except.toBool]))⟩
  | sets other loop volume range =>
    refine ⟨h.playing, h.position, range h.volume, fun g stage htask => ?_, hcount⟩
    obtain ⟨call, hcall⟩ := h.playback g stage htask
    refine ⟨call, hcall.outlives ?_ (.inl ⟨rfl, rfl, ?_⟩) (.inr ⟨rfl, rfl⟩)⟩
    · rcases other with rfl | rfl <;> simp [isControl]
    · rcases other with rfl | rfl <;> simp [isPrepare]

/-! ## Every run -/

/-- **The law of a player.** -/
theorem playing_law : TargetLaw (adapter read) (fun a calls es now =>
    Loading read a calls now ∧ Playing a calls es now) :=
  player_law (fun hle h => ⟨h.1.waits hle, h.2.waits hle⟩)
    (fun hp h => ⟨h.1.prepares hp, h.2.prepares hp⟩) (fun hp h => ⟨h.1.plays hp, h.2.plays hp⟩)
    (fun _ hcall h => ⟨h.1.executes hcall, Playing.executes h.1 h.2 hcall⟩)

variable [BEq V] {s t : VideoBench V} {l : BenchLabel VideoAct V}

section
variable (runtimeId bootId : String) (start : ℚ) (targets : List String) (fakeDurationS : ℚ)

theorem playing_reachable (target : String)
    (h : Reachable (step (adapter read))
      (VideoBench.init runtimeId bootId start targets fakeDurationS) s) :
    Loading read (s.adapters target) (s.calls target) s.runtime.now ∧
      Playing (s.adapters target) (s.calls target) (s.published target) s.runtime.now := by
  refine playing_law.reachable ⟨⟨rfl, ?_, ?_⟩, rfl, le_refl _, ?_, ?_, le_refl _⟩ h
  · rintro g stage ⟨⟩
  · rintro ⟨⟩
  · exact ⟨by norm_num [VideoBench.init, AdapterBench.init, bindEventPublisher,
      FakeVideoPlayerAdapter.new], le_refl _⟩
  · rintro g stage ⟨⟩

/-- **An observed medium was prepared.** Whenever a `prepare` is finished
SUCCEEDED as observed, it is the latest call on its player, the player holds
the medium that it asked for, and the load time has passed since the call. -/
theorem observed_prepare_loaded
    (hs : Reachable (step (adapter read))
      (VideoBench.init runtimeId bootId start targets fakeDurationS) s)
    (h : s.step (adapter read) l = some t) {c : CommandId} {r : CommandRecord V}
    (hr : t.runtime.getCommand c = some r) (hobserved : Observed r)
    (hprepare : r.action = "prepare")
    (hlive : ∀ r₀, s.runtime.getCommand c = some r₀ → r₀.status ≠ .terminal) :
    ∃ call path, (t.calls r.targetId).getLast? = some call ∧ call.command = c ∧
      r.params.get "media_path" = some path ∧ (t.adapters r.targetId).prepared = true ∧
      (t.adapters r.targetId).mediaPath = some (read.str path) ∧
      (t.adapters r.targetId).mediaGeneration = (t.calls r.targetId).countP isPrepare ∧
      call.time + tick ≤ t.runtime.now := by
  have hacts := step_acts h
  obtain ⟨hcalls, hadapters, hcomplete, call, hcall, hcommand, -, haction, hparams⟩ :=
    hacts.observed (inv_reachable hs) hr hobserved hlive
  obtain ⟨hl, -⟩ := playing_reachable _ _ _ _ _ r.targetId hs
  rw [hprepare] at hcomplete
  have hprepared : (s.adapters r.targetId).prepared = true := Except.ok.inj hcomplete
  obtain ⟨newestCall, hnewest, ⟨-, path, hasked, hpath⟩, hwaited⟩ := hl.loaded hprepared
  -- the latest call is a `prepare`, so it is the newest of them
  have hlast : newest isPrepare (s.calls r.targetId) = some call := by
    obtain ⟨calls, heq⟩ := List.getLast?_eq_some_iff.mp hcall
    rw [heq, newest_concat, if_pos (by simp [isPrepare, ← haction, hprepare])]
  obtain rfl := Option.some.inj (hnewest.symm.trans hlast)
  rw [hcalls, hadapters]
  refine ⟨newestCall, path, hcall, hcommand, ?_, hprepared, hpath, hl.generation,
    hwaited.trans hacts.now_le⟩
  rw [Dict.get_of_sortedItems hparams]
  exact hasked

/-- Texts as parameter values. -/
def readText : ValueReader String where
  float := fun _ => .error "could not convert string to float"
  str := id
  bool := fun text => text ≠ ""
  print := fun _ => ""

/-- One player with a twentieth of a second of medium. -/
def oneOutput : VideoBench String := init "video-test" "boot1" 0 ["output1"] tick

/-- A request under the session "cs1". -/
def videoRequest (requestId action : String) (params : Dict String String)
    (level : CompletionRequirement) : CommandSubmitRequest String where
  requestId := requestId
  controlSessionId := some "cs1"
  runId := none
  cueId := none
  targetId := "output1"
  action := action
  params := params
  completionRequirement := level
  source := "manual"
  actor := none

/-- A `prepare`, up to the end of its load time. -/
def prepared : List (BenchLabel VideoAct String) :=
  [.runtime (.acquireControlSession "op" .manual none "cs1"),
    .submit (videoRequest "req-1" "prepare" (Dict.empty.set "media_path" "a.mp4") .observed) "c1",
    .act "output1" .runPrepare, .runtime (.advance tick), .act "output1" .runPrepare]

/-- Its observer finds it complete. -/
theorem observed_prepare_loaded_output :
    ∃ s t r, Reachable (step (adapter readText)) oneOutput s ∧
      s.step (adapter readText) (.observe "c1") = some t ∧
      t.runtime.getCommand "c1" = some r ∧ Observed r ∧ r.action = "prepare" ∧
      (t.adapters r.targetId).prepared = true := by
  obtain ⟨s, hs, htest⟩ := exec_test (step (adapter readText)) oneOutput prepared
    (fun s => (s.runtime.getCommand "c1").any (fun r => r.status ≠ .terminal) &&
      (s.step (adapter readText) (.observe "c1")).any fun t =>
        (t.runtime.getCommand "c1").any fun r => r.action = "prepare" && r.status = .terminal &&
          r.outcome = some .succeeded && r.achievedCompletion = some .observed)
    (by decide +kernel)
  simp only [Bool.and_eq_true, Option.any_eq_true, decide_eq_true_eq] at htest
  obtain ⟨⟨r₀, hr₀, hlive⟩, t, ht, r, hr, ⟨⟨hprepare, hdone⟩, hsucc⟩, hlevel⟩ := htest
  have hobserved : Observed r := ⟨hdone, hsucc, hlevel⟩
  have hlive' : ∀ r₁, s.runtime.getCommand "c1" = some r₁ → r₁.status ≠ .terminal := by
    intro r₁ hr₁
    obtain rfl := Option.some.inj (hr₀.symm.trans hr₁)
    exact hlive
  obtain ⟨call, path, -, -, -, hprepared, -⟩ := observed_prepare_loaded "video-test" "boot1" 0
    ["output1"] tick hs ht hr hobserved hprepare hlive'
  exact ⟨s, t, r, hs, ht, hr, hobserved, hprepare, hprepared⟩

/-- What was played, when it ended. -/
structure Ended (read : ValueReader V) (a : FakeVideoPlayerAdapter) (calls : List (VideoCall V))
    (g : Nat) (now : ℚ) (call prepare : VideoCall V) : Prop where
  control : newest isControl calls = some call
  play : call.action = "play"
  generation : g = call.before.mediaGeneration
  current : g = a.mediaGeneration
  newest : newest isPrepare calls = some prepare
  asked : Asked read a.mediaPath prepare
  waited : prepare.time + tick ≤ call.time
  rests : a.playing = false
  /-- to the end, at the speed of the clock at most -/
  way : VideoBench.newest isMove calls = some call →
    a.positionS = max a.fakeDurationS call.before.positionS ∧
      call.time + (a.positionS - call.before.positionS) ≤ now

omit [BEq V] in
theorem ended_of_plays (hl : Loading read a calls now) (h : Playing a calls es now) {name : String}
    {g : Nat} (hp : Plays a now b (some (name, g))) :
    name = "playback.ended" ∧ ∃ call prepare, Ended read b calls g now call prepare := by
  generalize hevent : some (name, g) = event at hp
  cases hp with
  | goesOn => cases hevent
  | ends g' position remaining reached done =>
    split at hevent
    · rename_i hcurrent
      cases hevent
      obtain ⟨call, stage, htask, hcall, hposition, hway⟩ := Playback.reached reached h
      obtain ⟨hprepared, prepare, hprepare, hwaited⟩ := hcall.prepared hcurrent.1
      obtain ⟨loaded, hloaded, hasked, -⟩ := hl.loaded hprepared
      obtain rfl := Option.some.inj (hloaded.symm.trans hprepare)
      refine ⟨rfl, call, loaded, hcall.control, hcall.play, hcall.generation, hcurrent.1, hprepare,
        hasked, hwaited, rfl, fun hmove => ?_⟩
      obtain ⟨hsum, hfrom, htime, hend⟩ := hway hmove
      refine ⟨?_, htime⟩
      show position = max a.fakeDurationS call.before.positionS
      rcases hend with hleft | hstill
      · rw [max_eq_left (by linarith)]
        linarith
      · rw [max_eq_right (by linarith)]
        exact hstill
    · cases hevent

/-- **The end of a playback.** Whenever a player publishes, it publishes one
`playback.ended`, which its Runtime publishes, and which is about the newest
call of `play`: nothing was paused, stopped or prepared since, and its medium
is what the newest `prepare` asked for. There is at most one for each call of
`play` that was let through. -/
theorem playback_ended (target : String)
    (hs : Reachable (step (adapter read))
      (VideoBench.init runtimeId bootId start targets fakeDurationS) s)
    (h : s.step (adapter read) l = some t) (hpublished : t.published target ≠ s.published target) :
    ∃ g call prepare,
      t.published target = s.published target ++ [⟨s.runtime.now, "playback.ended", g⟩] ∧
      t.runtime = s.runtime.publishEvent "playback.ended" (some target) ∧
      Ended read (t.adapters target) (t.calls target) g s.runtime.now call prepare ∧
      (t.published target).length ≤ (t.calls target).countP isPlay := by
  obtain ⟨hl, hp⟩ := playing_reachable _ _ _ _ _ target hs
  have hcount := (playing_reachable _ _ _ _ _ target (hs.tail h)).2.count
  cases targetStep (step_acts h) target with
  | idle _ _ _ published => exact absurd published hpublished
  | executes _ _ _ _ _ _ _ published => exact absurd published hpublished
  | acts i event _ _ act runtime calls published =>
    cases event with
    | none =>
      rw [published, events, Option.toList_none, List.map_nil, List.append_nil] at hpublished
      exact absurd rfl hpublished
    | some e =>
      obtain ⟨name, g⟩ := e
      cases i with
      | runPrepare =>
        obtain ⟨b, -, heq⟩ := Option.map_eq_some_iff.mp act
        cases heq
      | runPlayback =>
        obtain ⟨rfl, call, prepare, hended⟩ := ended_of_plays hl hp (runPlayback_cases act)
        refine ⟨g, call, prepare, published, runtime, ?_, (Nat.le_add_right _ _).trans hcount⟩
        rw [calls]
        exact hended

end

/-- The rest, up to the end of the medium. -/
def played : List (BenchLabel VideoAct String) :=
  prepared ++ [.observe "c1", .submit (videoRequest "req-2" "play" .empty .acknowledged) "c2",
    .act "output1" .runPlayback, .runtime (.advance tick)]

/-- The playback ends, and says so. -/
theorem playback_ended_output :
    ∃ s t g call prepare, Reachable (step (adapter readText)) oneOutput s ∧
      s.step (adapter readText) (.act "output1" .runPlayback) = some t ∧
      Ended readText (t.adapters "output1") (t.calls "output1") g s.runtime.now call prepare := by
  obtain ⟨s, hs, htest⟩ := exec_test (step (adapter readText)) oneOutput played
    (fun s => (s.step (adapter readText) (.act "output1" .runPlayback)).any fun t =>
      (t.published "output1").length ≠ (s.published "output1").length)
    (by decide +kernel)
  simp only [Option.any_eq_true, decide_eq_true_eq] at htest
  obtain ⟨t, ht, hlength⟩ := htest
  obtain ⟨g, call, prepare, -, -, hended, -⟩ := playback_ended "video-test" "boot1" 0 ["output1"]
    tick "output1" hs ht (fun heq => hlength (congrArg List.length heq))
  exact ⟨s, t, g, call, prepare, hs, ht, hended⟩

end VideoBench

end Fusion
