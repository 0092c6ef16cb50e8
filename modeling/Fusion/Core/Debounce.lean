import Fusion.Core.TriggerEngine
import Mathlib.Tactic.Linarith

/-!
# Debounce — which events fire a Trigger

Events that are handled one after another, with actions that succeed. The
time of the last match is kept for each Trigger, whatever source the event
came from: where a condition admits several sources, events of one of them
hold back those of another.
-/

namespace Fusion

open Transition

variable {F : Type}

/-- A call of `handle`, at the time it reads. -/
structure Handled where
  now : ℚ
  event : InputEvent

namespace TriggerEngine

variable {ops : ValueOps F} {showState : ShowState} {now : ℚ} {event : InputEvent}
  {e : TriggerEngine} {t : Trigger}

/-- A round of the loop; the action, if it is called, ends without an error. -/
def round (ops : ValueOps F) (showState : ShowState) (now : ℚ) (event : InputEvent)
    (r : TriggerEngine × List Trigger) (t : Trigger) : TriggerEngine × List Trigger :=
  let c := r.1.check ops showState now event t
  if c.2 then (c.1.fired t now, r.2 ++ [t]) else (c.1, r.2)

/-- `handle`, with the Triggers that fire. -/
def handle (ops : ValueOps F) (e : TriggerEngine) (showState : ShowState) (now : ℚ)
    (event : InputEvent) : TriggerEngine × List Trigger :=
  e.triggers.foldl (round ops showState now event) (e, [])

/-- For each event, whether it fires the Trigger. -/
def firings (ops : ValueOps F) (t : Trigger) (showState : ShowState) :
    TriggerEngine → List Handled → List (Handled × Bool)
  | _, [] => []
  | e, p :: rest =>
      let r := e.handle ops showState p.now p.event
      (p, decide (t ∈ r.2)) :: firings ops t showState r.1 rest

/-! ## One event -/

/-- The rounds of other Triggers leave `t` alone. -/
structure Spares (t : Trigger) (r r' : TriggerEngine × List Trigger) : Prop where
  matched : r'.1.lastMatchedAt.get t.triggerId = r.1.lastMatchedAt.get t.triggerId
  fired : r'.1.lastFiredAt.get t.triggerId = r.1.lastFiredAt.get t.triggerId
  fires : t ∈ r'.2 ↔ t ∈ r.2

theorem Spares.refl (r : TriggerEngine × List Trigger) : Spares t r r :=
  ⟨rfl, rfl, .rfl⟩

theorem Spares.trans {r r' r'' : TriggerEngine × List Trigger} (h : Spares t r r')
    (h' : Spares t r' r'') : Spares t r r'' :=
  ⟨h'.matched.trans h.matched, h'.fired.trans h.fired, h'.fires.trans h.fires⟩

theorem round_spares (r : TriggerEngine × List Trigger) {u : Trigger}
    (hne : u.triggerId ≠ t.triggerId) : Spares t r (round ops showState now event r u) := by
  have hmatched : (r.1.check ops showState now event u).1.lastMatchedAt.get t.triggerId =
      r.1.lastMatchedAt.get t.triggerId := by
    rw [check_lastMatchedAt, if_neg fun h => hne h.2]
  unfold round
  dsimp only
  split
  · refine ⟨hmatched, ?_, ?_⟩
    · simp only [TriggerEngine.fired, check_lastFiredAt]
      exact Dict.get_set_ne _ _ hne
    · have htu : t ≠ u := fun h => hne (h ▸ rfl)
      simp [htu]
  · exact ⟨hmatched, by rw [check_lastFiredAt], .rfl⟩

theorem foldl_spares {triggers : List Trigger} (h : t.triggerId ∉ triggers.map Trigger.triggerId)
    (r : TriggerEngine × List Trigger) :
    Spares t r (triggers.foldl (round ops showState now event) r) := by
  induction triggers generalizing r with
  | nil => exact .refl r
  | cons u triggers ih =>
    rw [List.map_cons, List.mem_cons, not_or] at h
    exact (round_spares r (Ne.symm h.1)).trans (ih h.2 _)

@[simp] theorem round_triggers (r : TriggerEngine × List Trigger) :
    (round ops showState now event r t).1.triggers = r.1.triggers := by
  unfold round
  dsimp only
  split <;> exact check_triggers

@[simp] theorem handle_triggers (e : TriggerEngine) :
    (e.handle ops showState now event).1.triggers = e.triggers := by
  have hfold : ∀ (triggers : List Trigger) (r : TriggerEngine × List Trigger),
      (triggers.foldl (round ops showState now event) r).1.triggers = r.1.triggers := by
    intro triggers
    induction triggers with
    | nil => exact fun _ => rfl
    | cons u triggers ih => exact fun r => (ih _).trans (round_triggers r)
  exact hfold e.triggers (e, [])

/-- What a call does to one of the Triggers, whose ids are distinct. -/
theorem handle_spec (ops : ValueOps F) (showState : ShowState) (now : ℚ) (event : InputEvent)
    (ht : t ∈ e.triggers) (hids : (e.triggers.map Trigger.triggerId).Nodup) :
    (e.handle ops showState now event).1.lastMatchedAt.get t.triggerId =
        (if conditionMatches ops t.condition event = true then some now
          else e.lastMatchedAt.get t.triggerId) ∧
      (e.handle ops showState now event).1.lastFiredAt.get t.triggerId =
        (if (e.check ops showState now event t).2 = true then some now
          else e.lastFiredAt.get t.triggerId) ∧
      (t ∈ (e.handle ops showState now event).2 ↔
        (e.check ops showState now event t).2 = true) := by
  obtain ⟨before, after, hsplit⟩ := List.append_of_mem ht
  rw [hsplit, List.map_append, List.map_cons, List.nodup_append] at hids
  obtain ⟨-, hafter, hapart⟩ := hids
  have hb : t.triggerId ∉ before.map Trigger.triggerId := fun hmem =>
    hapart _ hmem _ (by simp) rfl
  have ha : t.triggerId ∉ after.map Trigger.triggerId := (List.nodup_cons.mp hafter).1
  unfold handle
  rw [hsplit, List.foldl_append, List.foldl_cons]
  generalize hr : before.foldl (round ops showState now event) (e, []) = r
  have hspares : Spares t (e, []) r := hr ▸ foldl_spares hb (e, [])
  have hrest : Spares t (round ops showState now event r t)
      (after.foldl (round ops showState now event) (round ops showState now event r t)) :=
    foldl_spares ha _
  -- the round of `t` sees what `e` has on record
  have hgo : (r.1.check ops showState now event t).2 = (e.check ops showState now event t).2 := by
    rw [Bool.eq_iff_iff, check_go, check_go, hspares.matched, hspares.fired]
  have hnot : t ∉ r.2 := fun hmem => by simpa using hspares.fires.mp hmem
  have hmatched : (r.1.check ops showState now event t).1.lastMatchedAt.get t.triggerId = _ :=
    check_lastMatchedAt r.1 t.triggerId
  rw [hspares.matched] at hmatched
  rw [hrest.matched, hrest.fired, hrest.fires]
  unfold round
  dsimp only
  rw [hgo]
  cases (e.check ops showState now event t).2 with
  | true => simp [TriggerEngine.fired, hmatched]
  | false => simpa [hmatched, hnot] using hspares.fired

/-! ## A sequence of events -/

/-- A matching event among those before, from a source that counts, came less
than `debounce_ms` ago. -/
def Chatters (ops : ValueOps F) (t : Trigger) (counts : String → Prop) (before : List Handled)
    (p : Handled) : Prop :=
  ∃ m ∈ before, counts m.event.source ∧ conditionMatches ops t.condition m.event = true ∧
    Within t.debounceMs m.now p.now

instance (ops : ValueOps F) (t : Trigger) (counts : String → Prop) [DecidablePred counts]
    (before : List Handled) (p : Handled) : Decidable (Chatters ops t counts before p) :=
  inferInstanceAs (Decidable (∃ m ∈ before, counts m.event.source ∧
    conditionMatches ops t.condition m.event = true ∧ Within t.debounceMs m.now p.now))

/-- The event fires the Trigger, going by the events before it. -/
def Fires (ops : ValueOps F) (t : Trigger) (showState : ShowState) (before : List Handled)
    (p : Handled) : Prop :=
  conditionMatches ops t.condition p.event = true ∧ t.shut showState = false ∧
    ¬ Chatters ops t (fun _ => True) before p

/-- What the engine has on record of the events before. -/
structure Tracks (ops : ValueOps F) (triggers : List Trigger) (t : Trigger) (e : TriggerEngine)
    (before : List Handled) : Prop where
  triggers : e.triggers = triggers
  matched : ∀ now, (∃ time ∈ e.lastMatchedAt.get t.triggerId, Within t.debounceMs time now) ↔
    ∃ m ∈ before, conditionMatches ops t.condition m.event = true ∧ Within t.debounceMs m.now now
  fired : ∀ time ∈ e.lastFiredAt.get t.triggerId, ∃ m ∈ before, time = m.now

theorem tracks_new (triggers : List Trigger) (t : Trigger) :
    Tracks ops triggers t (new triggers) [] where
  triggers := rfl
  matched := by simp [new]
  fired := by simp [new]

/-- With no cooldown the debounce alone decides. -/
theorem Tracks.check_iff {triggers : List Trigger} {before : List Handled}
    (h : Tracks ops triggers t e before) (hcool : t.cooldownMs = 0) {p : Handled}
    (hp : ∀ m ∈ before, m.now ≤ p.now) :
    (e.check ops showState p.now p.event t).2 = true ↔ Fires ops t showState before p := by
  have hcooled : ∀ time ∈ e.lastFiredAt.get t.triggerId, ¬ Within t.cooldownMs time p.now := by
    intro time htime hwithin
    obtain ⟨m, hm, rfl⟩ := h.fired time htime
    have := hp m hm
    rw [hcool, Within] at hwithin
    linarith
  have hquiet : (∀ time ∈ e.lastMatchedAt.get t.triggerId, ¬ Within t.debounceMs time p.now) ↔
      ¬ Chatters ops t (fun _ => True) before p := by
    have hmatched := h.matched p.now
    simp only [Chatters, true_and]
    rw [← hmatched]
    simp
  rw [check_go, hquiet, and_iff_left hcooled]
  exact and_congr_right fun _ => and_comm

theorem Tracks.handle {triggers : List Trigger} {before : List Handled}
    (h : Tracks ops triggers t e before) (showState : ShowState) (ht : t ∈ triggers)
    (hids : (triggers.map Trigger.triggerId).Nodup) {p : Handled}
    (hp : ∀ m ∈ before, m.now ≤ p.now) :
    Tracks ops triggers t (e.handle ops showState p.now p.event).1 (before ++ [p]) := by
  rw [← h.triggers] at ht hids
  obtain ⟨hmatched, hfired, -⟩ := handle_spec ops showState p.now p.event ht hids
  refine ⟨(handle_triggers e).trans h.triggers, ?_, ?_⟩
  · intro now
    rw [hmatched]
    split
    · rename_i hmatch
      constructor
      · rintro ⟨time, htime, hwithin⟩
        cases htime
        exact ⟨p, by simp, hmatch, hwithin⟩
      · rintro ⟨m, hm, -, hwithin⟩
        -- the last match is the nearest one
        refine ⟨p.now, rfl, ?_⟩
        rcases List.mem_append.mp hm with hm | hm
        · exact hwithin.mono (hp m hm)
        · rwa [List.mem_singleton.mp hm] at hwithin
    · rename_i hmatch
      rw [h.matched now]
      constructor
      · rintro ⟨m, hm, hwithin⟩
        exact ⟨m, List.mem_append_left _ hm, hwithin⟩
      · rintro ⟨m, hm, hmatches, hwithin⟩
        rcases List.mem_append.mp hm with hm | hm
        · exact ⟨m, hm, hmatches, hwithin⟩
        · exact absurd (List.mem_singleton.mp hm ▸ hmatches) hmatch
  · intro time htime
    rw [hfired] at htime
    split at htime
    · cases htime
      exact ⟨p, by simp, rfl⟩
    · obtain ⟨m, hm, heq⟩ := h.fired time htime
      exact ⟨m, List.mem_append_left _ hm, heq⟩

open Classical in
/-- For each event, whether it fires, going by the events before it. -/
noncomputable def marked (ops : ValueOps F) (t : Trigger) (showState : ShowState) :
    List Handled → List Handled → List (Handled × Bool)
  | _, [] => []
  | before, p :: rest =>
      (p, decide (Fires ops t showState before p)) :: marked ops t showState (before ++ [p]) rest

theorem firings_eq_marked {triggers : List Trigger} (ht : t ∈ triggers)
    (hids : (triggers.map Trigger.triggerId).Nodup) (hcool : t.cooldownMs = 0)
    {before events : List Handled} (h : Tracks ops triggers t e before)
    (hbefore : ∀ m ∈ before, ∀ p ∈ events, m.now ≤ p.now)
    (hevents : events.Pairwise (fun m p => m.now ≤ p.now)) :
    firings ops t showState e events = marked ops t showState before events := by
  induction events generalizing e before with
  | nil => rfl
  | cons p events ih =>
    obtain ⟨hlater, hevents⟩ := List.pairwise_cons.mp hevents
    have hp : ∀ m ∈ before, m.now ≤ p.now := fun m hm => hbefore m hm p (by simp)
    have hfires : t ∈ (e.handle ops showState p.now p.event).2 ↔
        Fires ops t showState before p := by
      rw [← h.triggers] at ht hids
      exact (handle_spec ops showState p.now p.event ht hids).2.2.trans (h.check_iff hcool hp)
    have hrest := ih (h.handle showState ht hids hp) ?_ hevents
    · simp only [firings, marked, hrest]
      rw [decide_eq_decide.mpr hfires]
    · intro m hm q hq
      rcases List.mem_append.mp hm with hm | hm
      · exact hbefore m hm q (List.mem_cons_of_mem _ hq)
      · exact List.mem_singleton.mp hm ▸ hlater q hq

/-! ## One source among others -/

/-- A law of every event and of the events before it, event by event. -/
theorem forall_split_cons {α : Type} {P : List α → α → Prop} (x : α) (xs : List α) :
    (∀ before p after, x :: xs = before ++ p :: after → P before p) ↔
      P [] x ∧ ∀ before p after, xs = before ++ p :: after → P (x :: before) p := by
  constructor
  · intro h
    refine ⟨h [] x xs rfl, ?_⟩
    rintro before p after rfl
    exact h (x :: before) p after rfl
  · rintro ⟨hx, hxs⟩ before p after hsplit
    cases before with
    | nil =>
      cases hsplit
      exact hx
    | cons y before =>
      rw [List.cons_append, List.cons.injEq] at hsplit
      obtain ⟨rfl, hsplit⟩ := hsplit
      exact hxs before p after hsplit

/-- The marks of one source are those that its events get by themselves, if
each of these is marked the same with and without the others. -/
theorem marked_filter_iff (ops : ValueOps F) (t : Trigger) (showState : ShowState)
    (source : String) (before events : List Handled) :
    ((marked ops t showState before events).filter fun r => r.1.event.source = source) =
        marked ops t showState (before.filter fun m => m.event.source = source)
          (events.filter fun p => p.event.source = source) ↔
      ∀ earlier p after, events = earlier ++ p :: after → p.event.source = source →
        (Fires ops t showState (before ++ earlier) p ↔
          Fires ops t showState
            ((before ++ earlier).filter fun m => m.event.source = source) p) := by
  induction events generalizing before with
  | nil => simp [marked]
  | cons p events ih =>
    rw [forall_split_cons, marked]
    have hrest := ih (before ++ [p])
    simp only [List.append_assoc, List.singleton_append] at hrest
    by_cases hp : p.event.source = source
    · have hkeep : before.filter (fun m => decide (m.event.source = source)) ++ [p] =
          (before ++ [p]).filter fun m => decide (m.event.source = source) := by simp [hp]
      rw [List.filter_cons_of_pos (by simpa using hp), List.filter_cons_of_pos (by simpa using hp),
        marked, List.cons.injEq, Prod.mk.injEq, decide_eq_decide, hkeep, hrest,
        List.append_nil]
      exact and_congr ⟨fun h _ => h.2, fun h => ⟨rfl, h hp⟩⟩ Iff.rfl
    · have hdrop : before.filter (fun m => decide (m.event.source = source)) =
          (before ++ [p]).filter fun m => decide (m.event.source = source) := by simp [hp]
      rw [List.filter_cons_of_neg (by simpa using hp), List.filter_cons_of_neg (by simpa using hp),
        hdrop, hrest]
      exact (and_iff_right fun h => absurd h hp).symm

/-- Leaving out the other sources changes the mark of an event only if it
hides the chatter. -/
theorem fires_filter_iff (source : String) (before : List Handled) (p : Handled) :
    (Fires ops t showState before p ↔
        Fires ops t showState (before.filter fun m => m.event.source = source) p) ↔
      t.shut showState = true ∨ (conditionMatches ops t.condition p.event = true →
        Chatters ops t (fun _ => True) before p → Chatters ops t (· = source) before p) := by
  have hown : Chatters ops t (fun _ => True) (before.filter fun m => m.event.source = source) p ↔
      Chatters ops t (· = source) before p := by
    simp only [Chatters, List.mem_filter, decide_eq_true_eq, true_and]
    exact exists_congr fun m => and_assoc
  have hfewer : Chatters ops t (· = source) before p → Chatters ops t (fun _ => True) before p :=
    fun ⟨m, hm, _, hrest⟩ => ⟨m, hm, trivial, hrest⟩
  unfold Fires
  rw [hown]
  cases t.shut showState with
  | true => simp
  | false =>
    simp only [Bool.false_eq_true, false_or, true_and]
    constructor
    · intro h hmatch hchatter
      by_contra hquiet
      exact (h.mpr ⟨hmatch, hquiet⟩).2 hchatter
    · intro h
      constructor
      · rintro ⟨hmatch, hquiet⟩
        exact ⟨hmatch, fun hchatter => hquiet (hfewer hchatter)⟩
      · rintro ⟨hmatch, hquiet⟩
        exact ⟨hmatch, fun hchatter => hquiet (h hmatch hchatter)⟩

/-- **The debounce is per source**, for the events of one source, exactly when
the Trigger is shut or each of these events that comes less than
`debounce_ms` after a matching one also comes that soon after one of its own
source. -/
theorem debounce_per_source_iff (ops : ValueOps F) {triggers : List Trigger} {t : Trigger}
    (ht : t ∈ triggers) (hids : (triggers.map Trigger.triggerId).Nodup) (hcool : t.cooldownMs = 0)
    (showState : ShowState) {events : List Handled}
    (hevents : events.Pairwise fun m p => m.now ≤ p.now) (source : String) :
    ((firings ops t showState (new triggers) events).filter fun r => r.1.event.source = source) =
        firings ops t showState (new triggers)
          (events.filter fun p => p.event.source = source) ↔
      t.shut showState = true ∨ ∀ before p after, events = before ++ p :: after →
        p.event.source = source → conditionMatches ops t.condition p.event = true →
          Chatters ops t (fun _ => True) before p → Chatters ops t (· = source) before p := by
  rw [firings_eq_marked ht hids hcool (tracks_new triggers t) (by simp) hevents,
    firings_eq_marked ht hids hcool (tracks_new triggers t) (by simp) (hevents.filter _)]
  have hfilter := marked_filter_iff ops t showState source [] events
  rw [List.filter_nil] at hfilter
  rw [hfilter]
  simp only [List.nil_append, fires_filter_iff]
  cases t.shut showState <;> simp

/-- A start button with a debounce of a tenth of a second. -/
def startButton (source : Option String) : Trigger where
  triggerId := "t1"
  condition := ⟨source, Text.of "start_button", .eq, .bool true⟩
  action := .start
  showStates := none
  debounceMs := 100
  cooldownMs := 0

/-- A press of the button that `source` sends, at the time `now`. -/
def pressed (source : String) (now : ℚ) : Handled :=
  ⟨now, ⟨source, Text.of "start_button", .bool true, now⟩⟩

/-- Presses on two inputs: the second one on the serial input bounces, and the
one on the network input that follows is lost with it. -/
def presses : List Handled :=
  [pressed "udp" 0, pressed "serial" (1 / 2), pressed "serial" (11 / 20), pressed "udp" (3 / 5),
    pressed "serial" 1]

theorem debounce_per_source_iff_panel :
    (firings .plain (startButton none) .armed (new [startButton none]) presses).filter
      (fun r => r.1.event.source = "serial") =
    firings .plain (startButton none) .armed (new [startButton none])
      (presses.filter fun p => p.event.source = "serial") := by
  refine (debounce_per_source_iff .plain (by simp) (by simp) rfl .armed ?_ "serial").mpr (.inr ?_)
  · simp only [presses, List.pairwise_cons]
    simp [pressed]
    norm_num
  · have hall : ∀ k < presses.length, ∀ p ∈ presses[k]?, p.event.source = "serial" →
        Chatters .plain (startButton none) (fun _ => True) (presses.take k) p →
          Chatters .plain (startButton none) (· = "serial") (presses.take k) p := by
      decide +kernel
    intro before p after heq hsource _ hchatter
    have hget : presses[before.length]? = some p := by rw [heq]; simp
    have htake : presses.take before.length = before := by rw [heq]; simp
    have hone := hall before.length (List.getElem?_eq_some_iff.mp hget).1 p hget hsource
    rw [htake] at hone
    exact hone hchatter

/-- A press on the serial input is lost because of one on the network input a
twentieth of a second before. -/
theorem debounce_across_sources : ¬ ∀ (triggers : List Trigger) (t : Trigger), t ∈ triggers →
    (triggers.map Trigger.triggerId).Nodup → t.cooldownMs = 0 → ∀ (showState : ShowState)
    (events : List Handled), (events.Pairwise fun m p => m.now ≤ p.now) → ∀ source : String,
      (firings .plain t showState (new triggers) events).filter
          (fun r => r.1.event.source = source) =
        firings .plain t showState (new triggers)
          (events.filter fun p => p.event.source = source) := by
  intro hall
  have heq := hall [startButton none] (startButton none) (by simp) (by simp) rfl .armed
    [pressed "udp" 0, pressed "serial" (1 / 20)] (by simp [pressed]) "serial"
  have hmarks := congrArg (List.map Prod.snd) heq
  revert hmarks
  decide +kernel

/-! ## A call that nothing interrupts -/

/-- The rounds that are left of a call whose actions return at once. -/
theorem rounds_exec (ops : ValueOps F) {s : TriggerCalls} {i : Nat} {c : HandleCall}
    {rest : List Trigger} (hi : s.running = some i) (hc : s.calls i = some c)
    (hpc : c.pc = .visiting rest) :
    ∃ s', exec (TriggerCalls.step ops) s
        (List.replicate (rest.length + 1) (.visit (.ends .returns) s.showState)) = some s' ∧
      s'.running = none ∧
      (s'.engine, s'.invocations.map Invocation.trigger) =
        rest.foldl (round ops s.showState c.now c.event)
          (s.engine, s.invocations.map Invocation.trigger) := by
  induction rest generalizing s c with
  | nil =>
    have hstep : s.step ops (.visit (.ends .returns) s.showState) =
        some { s.setCall i { c with pc := .returned } with running := none } := by
      simp [TriggerCalls.step, hi, hc, hpc]
    refine ⟨{ s.setCall i { c with pc := .returned } with running := none }, ?_, rfl, rfl⟩
    simp [exec, execWhile, hstep]
  | cons t rest ih =>
    obtain ⟨u, hu, hrun, hcall, hshow, hpair⟩ : ∃ u : TriggerCalls,
        s.step ops (.visit (.ends .returns) s.showState) = some u ∧ u.running = some i ∧
        u.calls i = some { c with pc := .visiting rest } ∧ u.showState = s.showState ∧
        (u.engine, u.invocations.map Invocation.trigger) =
          round ops s.showState c.now c.event
            (s.engine, s.invocations.map Invocation.trigger) t := by
      have hstep : s.step ops (.visit (.ends .returns) s.showState) =
          s.visit ops i c t rest (.ends .returns) s.showState := by
        simp [TriggerCalls.step, hi, hc, hpc]
      rw [hstep]
      unfold TriggerCalls.visit round
      dsimp only
      split
      · exact ⟨_, rfl, rfl, Function.update_self .., rfl, by simp [TriggerCalls.settle,
          TriggerCalls.setCall, TriggerCalls.setState]⟩
      · exact ⟨_, rfl, hi, Function.update_self .., rfl, rfl⟩
    obtain ⟨s', hexec, hdone, hresult⟩ := ih hrun hcall rfl
    rw [hshow] at hexec hresult
    refine ⟨s', ?_, hdone, ?_⟩
    · rw [List.length_cons, List.replicate_succ]
      simpa [exec, execWhile, hu] using hexec
    · rw [hresult, List.foldl_cons, hpair]

theorem foldl_round_append (triggers : List Trigger) (e : TriggerEngine) (fired : List Trigger) :
    triggers.foldl (round ops showState now event) (e, fired) =
      ((triggers.foldl (round ops showState now event) (e, [])).1,
        fired ++ (triggers.foldl (round ops showState now event) (e, [])).2) := by
  induction triggers generalizing e fired with
  | nil => simp
  | cons t triggers ih =>
    simp only [List.foldl_cons, round]
    split
    · rw [ih _ (fired ++ [t]), ih _ ([] ++ [t])]
      simp
    · exact ih _ fired

/-- **A call that nothing interrupts does what `handle` says.** -/
theorem handle_exec (ops : ValueOps F) {s : TriggerCalls} {i : Nat} (hidle : s.running = none)
    (hnew : s.calls i = none) (event : InputEvent) :
    ∃ s', exec (TriggerCalls.step ops) s
        (.arrive i event :: List.replicate (s.engine.triggers.length + 1)
          (.visit (.ends .returns) s.showState)) = some s' ∧
      s'.running = none ∧ s'.engine = (s.engine.handle ops s.showState s.clock event).1 ∧
      s'.invocations.map Invocation.trigger = s.invocations.map Invocation.trigger ++
        (s.engine.handle ops s.showState s.clock event).2 := by
  let c : HandleCall := ⟨event, s.clock, .visiting s.engine.triggers⟩
  have harrive : s.step ops (.arrive i event) = some { s.setCall i c with running := some i } := by
    simp [TriggerCalls.step, hidle, hnew, c]
  obtain ⟨s', hexec, hdone, hpair⟩ := rounds_exec ops
    (s := { s.setCall i c with running := some i }) (i := i) (c := c) rfl
    (Function.update_self ..) rfl
  have hresult := hpair.trans (foldl_round_append _ _ _)
  rw [Prod.mk.injEq] at hresult
  refine ⟨s', ?_, hdone, hresult⟩
  simp only [exec, execWhile, harrive, if_true, Option.bind_some]
  exact hexec

end TriggerEngine

end Fusion
