import Fusion.Lib.Dict
import Fusion.Lib.Transition
import Mathlib.Algebra.Order.Ring.Rat

/-!
# MpvPlayer — the video player behind a Runtime (apps/video/mpv_adapter.py)

`execute` runs on the thread of the server, `_on_idle_active` on a thread of
mpv's. The generation of a `playback.ended` is the one that is in force when
mpv reports that it is idle, not the one that was played.
-/

namespace Fusion.Mpv

open Transition

/-! ## The adapter -/

/-- The language's `str(v)`, `float(v)` or the text it raises with, and its
printing of a float. -/
structure ParamOps (V : Type) where
  str : V → String
  float : V → Except String ℚ
  print : ℚ → String

/-- What mpv answers while an action is executed: its `duration`, and how the
commands and the property assignments end. -/
structure Player where
  duration : Option ℚ
  answer : Except String Unit

/-- What the adapter keeps beside the player. -/
structure MpvPlayerAdapter where
  mediaPath : Option String
  mediaGeneration : Nat
  wasPlaying : Bool
  /-- `connect` has been called: the loop is known, and mpv reports to us -/
  connected : Bool
  /-- an event publisher is bound -/
  bound : Bool

namespace MpvPlayerAdapter

variable {V : Type}

/-- The adapter before anything is prepared. -/
def new : MpvPlayerAdapter := ⟨none, 0, false, false, false⟩

/-- `execute`. The assignments of the adapter's own fields come before the
calls of the player. -/
def execute (ops : ParamOps V) (a : MpvPlayerAdapter) (action : String) (params : Dict String V)
    (player : Player) : Except String Unit × MpvPlayerAdapter :=
  if action = "prepare" then
    let a := { a with mediaGeneration := a.mediaGeneration + 1 }
    match params.get "media_path" with
    | none => (.error "'media_path'", a)
    | some path => (player.answer, { a with mediaPath := some (ops.str path) })
  else if action = "play" then
    if player.duration.isNone then (.error "no media prepared", a)
    else (player.answer, { a with wasPlaying := true })
  else if action = "pause" then (player.answer, a)
  else if action = "stop" then (player.answer, { a with wasPlaying := false })
  else if action = "seek" then
    match params.get "position_s" with
    | none => (.error "'position_s'", a)
    | some position => ((ops.float position).bind fun _ => player.answer, a)
  else if action = "loop" then
    match params.get "enabled" with
    | none => (.error "'enabled'", a)
    | some _ => (player.answer, a)
  else if action = "volume" then
    match params.get "level" with
    | none => (.error "'level'", a)
    | some v =>
        match ops.float v with
        | .error message => (.error message, a)
        | .ok level =>
            if ¬ (0 ≤ level ∧ level ≤ 100) then
              (.error s!"volume {ops.print level} out of range 0-100", a)
            else (player.answer, a)
  else (.error s!"unknown action '{action}'", a)

/-- `_on_idle_active`, with the generation of the event that it posts. -/
def onIdleActive (a : MpvPlayerAdapter) (value : Bool) : Option Nat × MpvPlayerAdapter :=
  if value && a.wasPlaying then
    (if a.connected && a.bound then some a.mediaGeneration else none,
      { a with wasPlaying := false })
  else (none, a)

/-- Whether the action is a `play` that gets past its check. -/
def plays (action : String) (player : Player) : Bool :=
  action = "play" && player.duration.isSome

/-- What an action makes of the generation and the flag; the index says
whether it is a play that gets past its check. -/
inductive Executes (a a' : MpvPlayerAdapter) : Bool → Prop
  | prepares (generation : a'.mediaGeneration = a.mediaGeneration + 1)
      (flag : a'.wasPlaying = a.wasPlaying) : Executes a a' false
  | plays (generation : a'.mediaGeneration = a.mediaGeneration) (flag : a'.wasPlaying = true) :
      Executes a a' true
  /-- `stop` clears the flag, the others leave it -/
  | rests (generation : a'.mediaGeneration = a.mediaGeneration)
      (flag : a'.wasPlaying = true → a.wasPlaying = true) : Executes a a' false

theorem execute_executes (ops : ParamOps V) (a : MpvPlayerAdapter) (action : String)
    (params : Dict String V) (player : Player) :
    Executes a (a.execute ops action params player).2 (plays action player) := by
  by_cases hplay : action = "play"
  · subst hplay
    cases hduration : player.duration with
    | none =>
      rw [show plays "play" player = false by simp [plays, hduration]]
      rw [show a.execute ops "play" params player = (.error "no media prepared", a) by
        simp [execute, hduration]]
      exact .rests rfl id
    | some d =>
      rw [show plays "play" player = true by simp [plays, hduration]]
      rw [show a.execute ops "play" params player =
          (player.answer, { a with wasPlaying := true }) by simp [execute, hduration]]
      exact .plays rfl rfl
  · have hplays : plays action player = false := by simp [plays, hplay]
    rw [hplays]
    simp only [execute, if_neg hplay]
    split
    · split <;> exact .prepares rfl rfl
    · split
      · exact .rests rfl id
      · split
        · exact .rests rfl fun hflag => absurd hflag Bool.false_ne_true
        · -- the other actions only talk to the player
          repeat' split
          all_goals exact .rests rfl id

end MpvPlayerAdapter

/-! ## Runs -/

/-- An adapter with its history: the generation of every play that was
executed, and of every `playback.ended`. -/
structure Playback where
  adapter : MpvPlayerAdapter
  plays : List Nat
  ended : List Nat

/-- What reaches the adapter: calls of its Runtime, and mpv's reports. -/
inductive PlaybackLabel (V : Type)
  | bindEventPublisher
  | connect
  | execute (action : String) (params : Dict String V) (player : Player)
  /-- mpv reports; it does so once it is observed -/
  | idleActive (value : Bool)

namespace Playback

variable {V : Type} {ops : ParamOps V} {s t : Playback} {l : PlaybackLabel V}

/-- Nothing was played yet. -/
def init : Playback := ⟨.new, [], []⟩

/-- One call or report, with what it adds to the history. -/
def step (ops : ParamOps V) (s : Playback) : PlaybackLabel V → Option Playback
  | .bindEventPublisher => some { s with adapter := { s.adapter with bound := true } }
  | .connect => some { s with adapter := { s.adapter with connected := true } }
  | .execute action params player =>
      some { s with
        adapter := (s.adapter.execute ops action params player).2
        plays := s.plays ++
          if MpvPlayerAdapter.plays action player then [s.adapter.mediaGeneration] else [] }
  | .idleActive value =>
      if s.adapter.connected then
        let r := s.adapter.onIdleActive value
        some { s with adapter := r.2, ended := s.ended ++ r.1.toList }
      else none

/-- Every `playback.ended` has the generation of a play, each of a play of its
own. -/
structure Attributed (s : Playback) : Prop where
  played : ∀ g ∈ s.ended, g ∈ s.plays
  once : ∀ g, s.ended.count g ≤ s.plays.count g

/-- When mpv reports that it is idle and an event is due, no `prepare` has been
executed since the last play. -/
def Current (s : Playback) : PlaybackLabel V → Prop
  | .idleActive true => s.adapter.bound = true → s.adapter.wasPlaying = true →
      s.plays.getLast? = some s.adapter.mediaGeneration
  | _ => True

instance (s : Playback) (l : PlaybackLabel V) : Decidable (s.Current l) :=
  match l with
  | .idleActive true => inferInstanceAs (Decidable (_ → _ → _))
  | .idleActive false | .bindEventPublisher | .connect | .execute .. => .isTrue trivial

/-! ## The generation of an end -/

/-- The generations of the plays grow, and while the flag is set the last of
them still owes its end. -/
structure Inv (s : Playback) : Prop where
  sorted : s.plays.Pairwise (· ≤ ·)
  past : ∀ g ∈ s.plays, g ≤ s.adapter.mediaGeneration
  due : s.adapter.wasPlaying = true →
    ∃ g, s.plays.getLast? = some g ∧ s.ended.count g < s.plays.count g

theorem inv_init : Inv init :=
  ⟨.nil, nofun, nofun⟩

theorem attributed_init : Attributed init :=
  ⟨nofun, fun _ => le_rfl⟩

/-- A generation that was played and is in force is the last one played. -/
theorem Inv.last_of_mem (hi : Inv s) {g : Nat} (hlast : s.plays.getLast? = some g)
    (hmem : s.adapter.mediaGeneration ∈ s.plays) : g = s.adapter.mediaGeneration := by
  obtain ⟨before, hplays⟩ : ∃ before, s.plays = before ++ [g] := by
    obtain ⟨hne, rfl⟩ := List.mem_getLast?_eq_getLast hlast
    exact ⟨_, (List.dropLast_append_getLast hne).symm⟩
  have hsorted := hi.sorted
  have hle := hi.past g (by simp [hplays])
  rw [hplays] at hsorted hmem
  rcases List.mem_append.mp hmem with hmem | hmem
  · have := (List.pairwise_append.mp hsorted).2.2 _ hmem g (by simp)
    omega
  · exact (List.mem_singleton.mp hmem).symm

theorem Inv.execute (hi : Inv s) (ha : s.Attributed) {a' : MpvPlayerAdapter} {plays : Bool}
    (h : MpvPlayerAdapter.Executes s.adapter a' plays) :
    Inv { s with
      adapter := a'
      plays := s.plays ++ if plays then [s.adapter.mediaGeneration] else [] } := by
  cases h with
  | prepares generation flag =>
    rw [if_neg (by decide), List.append_nil]
    refine ⟨hi.sorted, ?_, fun hflag => hi.due (flag ▸ hflag)⟩
    intro g hg
    exact (hi.past g hg).trans (generation ▸ Nat.le_succ _)
  | plays generation flag =>
    rw [if_pos rfl]
    refine ⟨?_, ?_, ?_⟩
    · refine List.pairwise_append.mpr ⟨hi.sorted, List.pairwise_singleton _ _, ?_⟩
      intro g hg g' hg'
      exact List.mem_singleton.mp hg' ▸ hi.past g hg
    · intro g hg
      rw [generation]
      rcases List.mem_append.mp hg with hg | hg
      · exact hi.past g hg
      · exact (List.mem_singleton.mp hg).le
    · intro _
      refine ⟨s.adapter.mediaGeneration, by simp, ?_⟩
      have := ha.once s.adapter.mediaGeneration
      simp only [List.count_append, List.count_singleton_self]
      omega
  | rests generation flag =>
    rw [if_neg (by decide), List.append_nil]
    refine ⟨hi.sorted, ?_, fun hflag => hi.due (flag hflag)⟩
    intro g hg
    exact (hi.past g hg).trans generation.ge

/-- More plays keep every end attributed. -/
theorem Attributed.execute (ha : s.Attributed) (a' : MpvPlayerAdapter) (more : List Nat) :
    Attributed { s with adapter := a', plays := s.plays ++ more } where
  played := fun g hg => List.mem_append_left _ (ha.played g hg)
  once := by
    intro g
    have := ha.once g
    simp only [List.count_append]
    omega

/-- The report that ends the last play, at its own generation. -/
theorem Attributed.ends (hi : Inv s) (ha : s.Attributed) (hflag : s.adapter.wasPlaying = true)
    (hcurrent : s.plays.getLast? = some s.adapter.mediaGeneration) (a' : MpvPlayerAdapter) :
    Attributed { s with adapter := a', ended := s.ended ++ [s.adapter.mediaGeneration] } := by
  obtain ⟨g, hlast, howed⟩ := hi.due hflag
  cases hcurrent.symm.trans hlast
  refine ⟨?_, ?_⟩
  · intro g hg
    rcases List.mem_append.mp hg with hg | hg
    · exact ha.played g hg
    · rw [List.mem_singleton.mp hg]
      exact List.mem_of_getLast? hcurrent
  · intro g
    have := ha.once g
    simp only [List.count_append]
    by_cases hg : g = s.adapter.mediaGeneration
    · subst hg
      rw [List.count_singleton_self]
      omega
    · rw [List.count_singleton, if_neg (by simpa using Ne.symm hg)]
      omega

/-- The flag is cleared, with or without an event. -/
theorem Inv.idle (hi : Inv s) {ended : List Nat} :
    Inv { s with adapter := { s.adapter with wasPlaying := false }, ended } :=
  ⟨hi.sorted, hi.past, nofun⟩

/-- What a report does, when the flag is set and an event is due. -/
def reported (s : Playback) : Playback :=
  { s with
    adapter := { s.adapter with wasPlaying := false }
    ended := s.ended ++ [s.adapter.mediaGeneration] }

/-- A report that mpv is idle, or is not. -/
inductive Reports (s : Playback) (value : Bool) : Playback → Prop
  | publishes (idle : value = true) (flag : s.adapter.wasPlaying = true)
      (bound : s.adapter.bound = true) : Reports s value s.reported
  | clears (bound : s.adapter.bound = false) :
      Reports s value { s with adapter := { s.adapter with wasPlaying := false } }
  | ignored (quiet : ¬ (value = true ∧ s.adapter.wasPlaying = true)) : Reports s value s

theorem step_reports {value : Bool}
    (h : s.step ops (.idleActive value : PlaybackLabel V) = some t) : Reports s value t := by
  simp only [step, MpvPlayerAdapter.onIdleActive] at h
  split at h
  · rename_i hconnected
    split at h
    · rename_i hdue
      obtain ⟨hidle, hflag⟩ := (Bool.and_eq_true ..).mp hdue
      cases hbound : s.adapter.bound with
      | true =>
        rw [if_pos (by rw [hconnected, hbound]; rfl)] at h
        cases h
        exact .publishes hidle hflag hbound
      | false =>
        rw [if_neg (by rw [hbound, Bool.and_false]; decide)] at h
        cases h
        simpa using Reports.clears hbound
    · rename_i hquiet
      cases h
      simpa using Reports.ignored fun h => hquiet ((Bool.and_eq_true ..).mpr h)
  · cases h

/-- One step keeps the invariant, where the ends stay attributed. -/
theorem Inv.step (hi : Inv s) (ha : s.Attributed) (h : s.step ops l = some t) : Inv t := by
  cases l with
  | bindEventPublisher | connect =>
    cases h
    exact ⟨hi.sorted, hi.past, hi.due⟩
  | execute action params player =>
    cases h
    exact hi.execute ha (MpvPlayerAdapter.execute_executes ops s.adapter action params player)
  | idleActive value =>
    cases step_reports h with
    | publishes _ _ _ | clears _ => exact ⟨hi.sorted, hi.past, nofun⟩
    | ignored _ => exact hi

/-- **One step keeps the ends attributed exactly if it reports none for a
generation that is not the last one played.** -/
theorem attributed_step (hi : Inv s) (ha : s.Attributed) (h : s.step ops l = some t) :
    t.Attributed ↔ s.Current l := by
  cases l with
  | bindEventPublisher | connect =>
    cases h
    exact iff_of_true ⟨ha.played, ha.once⟩ trivial
  | execute action params player =>
    cases h
    exact iff_of_true (ha.execute _ _) trivial
  | idleActive value =>
    cases step_reports h with
    | publishes hidle hflag hbound =>
      subst hidle
      constructor
      · intro ht _ _
        have hmem : s.adapter.mediaGeneration ∈ s.plays :=
          ht.played s.adapter.mediaGeneration (by simp [reported])
        obtain ⟨g, hlast, -⟩ := hi.due hflag
        rw [hlast, hi.last_of_mem hlast hmem]
      · intro hcurrent
        exact ha.ends hi hflag (hcurrent hbound hflag) _
    | clears hbound =>
      refine iff_of_true ⟨ha.played, ha.once⟩ ?_
      cases value with
      | true => exact fun hb => absurd (hbound.symm.trans hb) (by decide)
      | false => trivial
    | ignored hquiet =>
      refine iff_of_true ha ?_
      cases value with
      | true => exact fun _ hflag => absurd ⟨rfl, hflag⟩ hquiet
      | false => trivial

/-- **`playback.ended` is attributed to what was played** throughout a run
exactly when mpv never reports the end of a playing media after the next one
was prepared and before it is played. -/
theorem playback_attributed_iff (ops : ParamOps V) {xs : List (Step (step ops))}
    (run : Run (step ops) init xs s) :
    (∀ x ∈ xs, x.dst.Attributed) ↔ ∀ x ∈ xs, x.src.Current x.label := by
  apply run.forall_iff_of_kept (J := fun s => Inv s ∧ s.Attributed) ⟨inv_init, attributed_init⟩
  · intro x hx hok
    exact ⟨hx.1.step hx.2 x.fired, (attributed_step hx.1 hx.2 x.fired).mpr hok⟩
  · intro x hx
    exact attributed_step hx.1 hx.2 x.fired

/-! ## The number of ends -/

/-- The ends, and the one that is owed while the flag is set, are no more than
the plays. -/
def Owed (s : Playback) : Prop :=
  s.ended.length + (if s.adapter.wasPlaying then 1 else 0) ≤ s.plays.length

theorem Owed.execute (hs : s.Owed) {a' : MpvPlayerAdapter} {plays : Bool}
    (h : MpvPlayerAdapter.Executes s.adapter a' plays) :
    Owed { s with
      adapter := a'
      plays := s.plays ++ if plays then [s.adapter.mediaGeneration] else [] } := by
  unfold Owed at *
  dsimp only
  cases h with
  | prepares _ flag => simpa [flag] using hs
  | plays _ flag =>
    simp only [flag, if_true, List.length_append, List.length_singleton]
    split at hs <;> omega
  | rests _ flag =>
    simp only [Bool.false_eq_true, if_false, List.append_nil]
    split
    · rename_i hflag
      simpa [flag hflag] using hs
    · omega

theorem Owed.step (hs : s.Owed) (h : s.step ops l = some t) : t.Owed := by
  cases l with
  | bindEventPublisher | connect =>
    cases h
    exact hs
  | execute action params player =>
    cases h
    exact hs.execute (MpvPlayerAdapter.execute_executes ops s.adapter action params player)
  | idleActive value =>
    unfold Owed at *
    cases step_reports h with
    | publishes _ flag _ =>
      rw [if_pos flag] at hs
      simpa [reported] using hs
    | clears _ =>
      dsimp only
      split at hs <;> simp <;> omega
    | ignored _ => exact hs

/-- There are never more ends than plays, whatever their generations. -/
theorem ended_length_le (hr : Reachable (step ops) init s) : s.ended.length ≤ s.plays.length := by
  have howed : s.Owed := hr.invariant (I := Owed) le_rfl fun _ _ _ hs h => hs.step h
  unfold Owed at howed
  omega

/-- Parameters that are texts. -/
def textOps : ParamOps String where
  str := id
  float := fun s => .error s!"could not convert string to float: '{s}'"
  print := toString

def loaded : Player := ⟨some 120, .ok ()⟩

def prepare (path : String) : PlaybackLabel String :=
  .execute "prepare" (Dict.empty.set "media_path" path) ⟨none, .ok ()⟩

def play : PlaybackLabel String := .execute "play" .empty loaded

def stop : PlaybackLabel String := .execute "stop" .empty loaded

/-- A media that ends, and one that is stopped before mpv is idle. -/
theorem playback_attributed_iff_ended : ∃ (xs : List (Step (step textOps))) (s : Playback),
    Run (step textOps) init xs s ∧ s.plays = [1, 2] ∧ s.ended = [1] ∧
    ∀ x ∈ xs, x.dst.Attributed := by
  obtain ⟨xs, s, run, hs⟩ := execSteps_test (step textOps) init
    [.bindEventPublisher, .connect, prepare "a.mp4", .idleActive true, play, .idleActive false,
      .idleActive true, prepare "b.mp4", play, stop, .idleActive true]
    (fun r => r.1.all (fun x => x.src.Current x.label) &&
      decide (r.2.plays = [1, 2] ∧ r.2.ended = [1])) (by decide +kernel)
  obtain ⟨hcurrent, hend⟩ := (Bool.and_eq_true ..).mp hs
  obtain ⟨hplays, hended⟩ := of_decide_eq_true hend
  refine ⟨xs, s, run, hplays, hended, (playback_attributed_iff textOps run).mpr ?_⟩
  intro x hx
  exact of_decide_eq_true (List.all_eq_true.mp hcurrent x hx)

/-- The next media is prepared while the first one plays, and its file cannot
be loaded: the end is published for the media that was never played. -/
theorem playback_wrong_generation : ¬ ∀ (xs : List (Step (step textOps))) (s : Playback),
    Run (step textOps) init xs s → ∀ x ∈ xs, x.dst.Attributed := by
  intro hall
  obtain ⟨xs, s, run, hs⟩ := execSteps_test (step textOps) init
    [.bindEventPublisher, .connect, prepare "a.mp4", play, prepare "b.mp4", .idleActive true]
    (fun r => r.1.any fun x => decide (2 ∈ x.dst.ended ∧ 2 ∉ x.dst.plays)) (by decide +kernel)
  obtain ⟨x, hx, hwrong⟩ := List.any_eq_true.mp hs
  obtain ⟨hended, hplays⟩ := of_decide_eq_true hwrong
  exact hplays ((hall xs s run x hx).played 2 hended)

end Playback

end Fusion.Mpv
