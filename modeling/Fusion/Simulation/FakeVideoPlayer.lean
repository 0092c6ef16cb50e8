import Fusion.Core.AdapterBench
import Mathlib.Tactic.Linarith

/-!
# FakeVideoPlayer — a simulated player (simulation/fake_video_player.py)

`prepare` loads a medium for a while, `play` runs to the medium's end unless
it is paused, stopped or begun again. A new `prepare` does not stop what is
playing. Cancelled tasks do not run again, so at most one of each kind is
kept. Positions are in exact arithmetic, and what is asked for is finite.
-/

namespace Fusion

open Transition

/-! ## The adapter -/

/-- Where a `_run_prepare` is. -/
inductive PrepareStage
  | created
  | sleeping (wakeAt : ℚ)
deriving DecidableEq

/-- Where a `_run_playback` is: before its first run, or in the sleep of a
step of what remains. -/
inductive PlayStage
  | created
  | sleeping (wakeAt step remaining : ℚ)
deriving DecidableEq

/-- A simulated player, with its newest tasks. -/
structure FakeVideoPlayerAdapter where
  targetId : String
  fakeDurationS : ℚ
  mediaPath : Option String
  mediaGeneration : Nat
  prepared : Bool
  playing : Bool
  positionS : ℚ
  volume : ℚ
  loop : Bool
  /-- the live task, and the generation it was given -/
  prepareTask : Option (Nat × PrepareStage)
  playTask : Option (Nat × PlayStage)
  /-- `_publish_event is not None` -/
  bound : Bool
deriving DecidableEq

/-- How the language reads a parameter's value. -/
structure ValueReader (V : Type) where
  float : V → Except String ℚ
  str : V → String
  bool : V → Bool
  /-- how it prints a number -/
  print : ℚ → String

namespace FakeVideoPlayerAdapter

/-- The fake load time, and the longest step of a playback. -/
def tick : ℚ := 1 / 20

/-- A player with nothing prepared. -/
def new (targetId : String) (fakeDurationS : ℚ) : FakeVideoPlayerAdapter where
  targetId := targetId
  fakeDurationS := fakeDurationS
  mediaPath := none
  mediaGeneration := 0
  prepared := false
  playing := false
  positionS := 0
  volume := 100
  loop := false
  prepareTask := none
  playTask := none
  bound := false

/-- `bind_event_publisher` -/
def bindEventPublisher (a : FakeVideoPlayerAdapter) : FakeVideoPlayerAdapter :=
  { a with bound := true }

/-- What the player can do. -/
def manifest (targetId : String) : TargetManifest where
  targetId := targetId
  actions := [⟨"prepare", .observed, .normal⟩, ⟨"play", .acknowledged, .normal⟩,
    ⟨"pause", .acknowledged, .normal⟩, ⟨"stop", .acknowledged, .control⟩,
    ⟨"seek", .acknowledged, .normal⟩, ⟨"loop", .acknowledged, .normal⟩,
    ⟨"volume", .acknowledged, .normal⟩]

variable {V : Type} (read : ValueReader V)

/-- `params[name]`, or the text of its `KeyError`. -/
def item (params : Dict String V) (name : String) : Except String V :=
  (params.get name).elim (.error s!"'{name}'") .ok

/-- `_cancel_playback` -/
def cancelPlayback (a : FakeVideoPlayerAdapter) : FakeVideoPlayerAdapter :=
  { a with playTask := none }

/-- A call that raises at its parameter, or goes on with it. -/
def withItem {α : Type} (a : FakeVideoPlayerAdapter) (value : Except String α)
    (go : α → Except String Unit × FakeVideoPlayerAdapter) :
    Except String Unit × FakeVideoPlayerAdapter :=
  match value with
  | .error message => (.error message, a)
  | .ok v => go v

/-- `execute`; a call that raises may have changed something before. -/
def execute (a : FakeVideoPlayerAdapter) (action : String) (params : Dict String V) :
    Except String Unit × FakeVideoPlayerAdapter :=
  if action = "prepare" then
    -- the generation moves even if the path is missing
    let a := { a with mediaGeneration := a.mediaGeneration + 1, prepared := false }
    a.withItem (item params "media_path") fun path =>
      (.ok (), { a with
        mediaPath := some (read.str path)
        prepareTask := some (a.mediaGeneration, .created) })
  else if action = "play" then
    if a.prepared then
      (.ok (), { a with playing := true, playTask := some (a.mediaGeneration, .created) })
    else (.error "no media prepared", a)
  else if action = "pause" then (.ok (), { a with playing := false }.cancelPlayback)
  else if action = "stop" then
    (.ok (), { a with playing := false, positionS := 0 }.cancelPlayback)
  else if action = "seek" then
    a.withItem ((item params "position_s").bind read.float) fun position =>
      (.ok (), { a with positionS := max 0 position })
  else if action = "loop" then
    a.withItem (item params "enabled") fun enabled =>
      (.ok (), { a with loop := read.bool enabled })
  else if action = "volume" then
    a.withItem ((item params "level").bind read.float) fun level =>
      if 0 ≤ level ∧ level ≤ 100 then (.ok (), { a with volume := level })
      else (.error s!"volume {read.print level} out of range 0-100", a)
  else (.error s!"unknown action '{action}'", a)

/-- `prepare` is called complete when any medium is prepared. -/
def isActionComplete (a : FakeVideoPlayerAdapter) (action : String) (_ : Dict String V) :
    Except String Bool :=
  .ok (if action = "prepare" then a.prepared else true)

/-- `_run_prepare`, up to its `sleep` or its end. -/
def runPrepare (a : FakeVideoPlayerAdapter) (now : ℚ) : Option FakeVideoPlayerAdapter :=
  match a.prepareTask with
  | none => none
  | some (generation, .created) =>
      some { a with prepareTask := some (generation, .sleeping (now + tick)) }
  | some (generation, .sleeping wakeAt) =>
      if now < wakeAt then none
      else if generation = a.mediaGeneration then
        some { a with prepared := true, prepareTask := none }
      else some { a with prepareTask := none }

/-- The loop of `_run_playback`, up to its next `sleep` or its end, where it
may publish its generation. -/
def playOn (a : FakeVideoPlayerAdapter) (generation : Nat) (remaining now : ℚ) :
    FakeVideoPlayerAdapter × Option (String × Nat) :=
  if 0 < remaining then
    let step := min tick remaining
    ({ a with playTask := some (generation, .sleeping (now + step) step remaining) }, none)
  else
    ({ a with playing := false, playTask := none },
      if generation = a.mediaGeneration ∧ a.bound = true then
        some ("playback.ended", generation)
      else none)

/-- The next run of `_run_playback`, with the event it publishes. -/
def runPlayback (a : FakeVideoPlayerAdapter) (now : ℚ) :
    Option (FakeVideoPlayerAdapter × Option (String × Nat)) :=
  match a.playTask with
  | none => none
  | some (generation, .created) => some (a.playOn generation (a.fakeDurationS - a.positionS) now)
  | some (generation, .sleeping wakeAt step remaining) =>
      if now < wakeAt then none
      else
        some ({ a with positionS := a.positionS + step }.playOn generation (remaining - step) now)

/-- What a player does apart from its calls. -/
inductive VideoAct
  | runPrepare
  | runPlayback

/-- The player does one thing by itself. -/
def act (a : FakeVideoPlayerAdapter) (now : ℚ) :
    VideoAct → Option (FakeVideoPlayerAdapter × Option (String × Nat))
  | .runPrepare => (a.runPrepare now).map (·, none)
  | .runPlayback => a.runPlayback now

/-- The players as their Runtime sees them. -/
def adapter : TargetAdapter FakeVideoPlayerAdapter VideoAct Nat V where
  manifest := manifest
  execute := execute read
  isActionComplete := isActionComplete
  act := act

/-! ### One run of a task -/

section
variable {a b : FakeVideoPlayerAdapter} {now : ℚ}

/-- **What a run of the prepare task does.** -/
inductive Prepares (a : FakeVideoPlayerAdapter) (now : ℚ) : FakeVideoPlayerAdapter → Prop
  | sleeps (generation : Nat) (created : a.prepareTask = some (generation, .created)) :
      Prepares a now { a with prepareTask := some (generation, .sleeping (now + tick)) }
  | loads (wakeAt : ℚ) (sleeping : a.prepareTask = some (a.mediaGeneration, .sleeping wakeAt))
      (awake : wakeAt ≤ now) : Prepares a now { a with prepared := true, prepareTask := none }
  | drops : Prepares a now { a with prepareTask := none }

theorem runPrepare_cases (h : a.runPrepare now = some b) : Prepares a now b := by
  unfold runPrepare at h
  split at h
  · cases h
  · rename_i generation hcreated
    cases h
    exact .sleeps generation hcreated
  · rename_i generation wakeAt hsleeping
    split at h
    · cases h
    · rename_i hawake
      split at h <;> cases h
      · rename_i hcurrent
        subst hcurrent
        exact .loads wakeAt hsleeping (not_lt.mp hawake)
      · exact .drops

/-- Where the playback task is when it tests what remains. -/
inductive Reached (a : FakeVideoPlayerAdapter) (now : ℚ) (generation : Nat) : ℚ → ℚ → Prop
  | begins (created : a.playTask = some (generation, .created)) :
      Reached a now generation a.positionS (a.fakeDurationS - a.positionS)
  | wakes (wakeAt step remaining : ℚ)
      (sleeping : a.playTask = some (generation, .sleeping wakeAt step remaining))
      (awake : wakeAt ≤ now) : Reached a now generation (a.positionS + step) (remaining - step)

/-- **What a run of the playback task does.** -/
inductive Plays (a : FakeVideoPlayerAdapter) (now : ℚ) :
    FakeVideoPlayerAdapter → Option (String × Nat) → Prop
  | goesOn (generation : Nat) (position remaining : ℚ)
      (reached : Reached a now generation position remaining) (left : 0 < remaining) :
      Plays a now
        { a with
          positionS := position
          playTask := some (generation,
            .sleeping (now + min tick remaining) (min tick remaining) remaining) } none
  | ends (generation : Nat) (position remaining : ℚ)
      (reached : Reached a now generation position remaining) (done : remaining ≤ 0) :
      Plays a now { a with positionS := position, playing := false, playTask := none }
        (if generation = a.mediaGeneration ∧ a.bound = true then
          some ("playback.ended", generation)
        else none)

theorem playOn_plays {generation : Nat} {position remaining : ℚ}
    (h : Reached a now generation position remaining) :
    Plays a now ({ a with positionS := position }.playOn generation remaining now).1
      ({ a with positionS := position }.playOn generation remaining now).2 := by
  unfold playOn
  split
  · rename_i hleft
    exact .goesOn generation position remaining h hleft
  · rename_i hdone
    exact .ends generation position remaining h (not_lt.mp hdone)

theorem runPlayback_cases {event : Option (String × Nat)}
    (h : a.runPlayback now = some (b, event)) : Plays a now b event := by
  unfold runPlayback at h
  split at h
  · cases h
  · rename_i generation hcreated
    have hreached : Reached a now generation a.positionS (a.fakeDurationS - a.positionS) :=
      .begins hcreated
    have hplays := playOn_plays hreached
    rw [show { a with positionS := a.positionS } = a from rfl, Option.some.inj h] at hplays
    exact hplays
  · rename_i generation wakeAt step remaining hsleeping
    split at h
    · cases h
    · rename_i hawake
      have hplays := playOn_plays (Reached.wakes wakeAt step remaining hsleeping (not_lt.mp hawake))
      rw [Option.some.inj h] at hplays
      exact hplays

end

/-! ### What a call does -/

/-- **What a call does**, and what it leaves alone. -/
inductive Executes (a : FakeVideoPlayerAdapter) (action : String) (params : Dict String V) :
    Except String Unit → FakeVideoPlayerAdapter → Prop
  | refuses (other : action ≠ "prepare") (message : String) :
      Executes a action params (.error message) a
  /-- the path is missing: what was prepared is lost -/
  | forgets (prepare : action = "prepare") (message : String) :
      Executes a action params (.error message)
        { a with mediaGeneration := a.mediaGeneration + 1, prepared := false }
  | prepares (prepare : action = "prepare") (path : V)
      (asked : params.get "media_path" = some path) :
      Executes a action params (.ok ())
        { a with
          mediaGeneration := a.mediaGeneration + 1
          prepared := false
          mediaPath := some (read.str path)
          prepareTask := some (a.mediaGeneration + 1, .created) }
  | plays (play : action = "play") (prepared : a.prepared = true) :
      Executes a action params (.ok ())
        { a with playing := true, playTask := some (a.mediaGeneration, .created) }
  | halts (halt : action = "pause" ∨ action = "stop") (position : ℚ)
      (nonneg : 0 ≤ a.positionS → 0 ≤ position) :
      Executes a action params (.ok ())
        { a with playing := false, positionS := position, playTask := none }
  | seeks (seek : action = "seek") (position : ℚ) (nonneg : 0 ≤ position) :
      Executes a action params (.ok ()) { a with positionS := position }
  | sets (other : action = "loop" ∨ action = "volume") (loop : Bool) (volume : ℚ)
      (range : 0 ≤ a.volume ∧ a.volume ≤ 100 → 0 ≤ volume ∧ volume ≤ 100) :
      Executes a action params (.ok ()) { a with loop := loop, volume := volume }

theorem item_ok {params : Dict String V} {name : String} {v : V} (h : item params name = .ok v) :
    params.get name = some v := by
  unfold item at h
  cases hget : params.get name with
  | none =>
    rw [hget] at h
    cases h
  | some w =>
    rw [hget] at h
    cases h
    rfl

theorem execute_cases (a : FakeVideoPlayerAdapter) (action : String) (params : Dict String V) :
    Executes read a action params (a.execute read action params).1
      (a.execute read action params).2 := by
  unfold execute withItem
  split
  · rename_i hprepare
    cases hitem : item params "media_path" with
    | error message => exact .forgets hprepare message
    | ok path => exact .prepares hprepare path (item_ok hitem)
  · rename_i hother
    split
    · rename_i hplay
      split
      · rename_i hprepared
        exact .plays hplay hprepared
      · exact .refuses hother _
    · split
      · rename_i hpause
        exact .halts (.inl hpause) a.positionS id
      · split
        · rename_i hstop
          exact .halts (.inr hstop) 0 fun _ => le_refl _
        · split
          · rename_i hseek
            cases (item params "position_s").bind read.float with
            | error message => exact .refuses hother message
            | ok position => exact .seeks hseek _ (le_max_left _ _)
          · split
            · rename_i hloop
              cases item params "enabled" with
              | error message => exact .refuses hother message
              | ok enabled => exact .sets (.inl hloop) _ a.volume id
            · split
              · rename_i hvolume
                cases (item params "level").bind read.float with
                | error message => exact .refuses hother message
                | ok level =>
                  dsimp only
                  split
                  · rename_i hrange
                    exact .sets (.inr hvolume) a.loop level fun _ => hrange
                  · exact .refuses hother _
              · exact .refuses hother _

end FakeVideoPlayerAdapter

/-! ## The players beside their Runtime -/

/-- A Runtime whose targets are fake players. -/
abbrev VideoBench (V : Type) := AdapterBench FakeVideoPlayerAdapter Nat V

namespace VideoBench

open AdapterBench FakeVideoPlayerAdapter

variable {V : Type}

/-- Players whose events reach the Runtime. -/
def init (runtimeId bootId : String) (now : ℚ) (targets : List String) (fakeDurationS : ℚ) :
    VideoBench V :=
  AdapterBench.init runtimeId bootId now targets fun target =>
    (FakeVideoPlayerAdapter.new target fakeDurationS).bindEventPublisher

variable {read : ValueReader V}

/-- **The law of a player**: kept while time passes, by runs of its tasks and
by a call. -/
theorem player_law
    {L : FakeVideoPlayerAdapter → List (ExecuteCall FakeVideoPlayerAdapter V) →
      List (AdapterEvent Nat) → ℚ → Prop}
    (waits : ∀ {a calls es now later}, now ≤ later → L a calls es now → L a calls es later)
    (prepares : ∀ {a b calls es now}, Prepares a now b → L a calls es now → L b calls es now)
    (plays : ∀ {a b calls es now event}, Plays a now b event → L a calls es now →
      L b calls (es ++ events now event) now)
    (executes : ∀ {calls es} (call : ExecuteCall FakeVideoPlayerAdapter V),
      call.before.Executes read call.action call.params call.result call.after →
      L call.before calls es call.time → L call.after (calls ++ [call]) es call.time) :
    TargetLaw (adapter read) L where
  waits := waits
  acts := by
    intro a b calls es now i event hact h
    cases i with
    | runPrepare =>
      obtain ⟨b', hb, heq⟩ := Option.map_eq_some_iff.mp hact
      cases heq
      rw [events, Option.toList_none, List.map_nil, List.append_nil]
      exact prepares (runPrepare_cases hb) h
    | runPlayback => exact plays (runPlayback_cases hact) h
  executes := by
    intro calls es call hexecute h
    have hcases := execute_cases read call.before call.action call.params
    rw [show call.before.execute read call.action call.params = _ from hexecute] at hcases
    exact executes call hcases h

end VideoBench

end Fusion
