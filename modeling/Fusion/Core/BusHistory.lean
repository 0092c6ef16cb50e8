import Fusion.Core.EventBus
import Fusion.Lib.Mailbox
import Fusion.Lib.Transition

/-!
# BusHistory — the bus under any interleaving of its callers

The bus beside the history of its calls: what was published, where each
subscription starts, what each reader took. Every call of the bus is
synchronous, so one call is one step, and a queue may be read as long as its
reader holds it, after `unsubscribe` and after an overflow too. A subscriber
sees the bus as a mailbox of its own: one step of the bus is, for each
subscriber, one operation on that subscriber's mailbox and on no other.
-/

namespace Fusion

open Transition

/-- The bus, with what was published and what each subscriber took. -/
structure BusHistory where
  bus : EventBus
  /-- every event published so far, oldest first -/
  published : List Event
  /-- how many events had been published when the subscription was made -/
  since : Nat → Nat
  /-- what the subscriber took from its queue, in order -/
  taken : Nat → List QueueItem
  /-- some publish found the subscriber's queue full -/
  overflowed : Nat → Bool

/-- A call of the bus. -/
inductive BusLabel
  | publish (f : EventFields)
  | subscribe
  | unsubscribe (subId : Nat)
  /-- the subscriber's `queue.get` returns -/
  | get (subId : Nat)

namespace BusHistory

/-- A bus at start. -/
def init (runtimeId runtimeBootId : String) (replayBufferSize subscriberQueueSize : Nat) :
    BusHistory where
  bus := .new runtimeId runtimeBootId replayBufferSize subscriberQueueSize
  published := []
  since := fun _ => 0
  taken := fun _ => []
  overflowed := fun _ => false

/-- The publish about to run finds the subscriber's queue full. -/
def overflows (s : BusHistory) (subId : Nat) : Bool :=
  decide (subId ∈ s.bus.subscribers) && s.bus.queueFull (s.bus.queues subId)

/-- `publish`, and the queues it finds full. -/
def publish (s : BusHistory) (f : EventFields) : BusHistory :=
  { s with
    bus := s.bus.publish f
    published := s.published ++ [s.bus.stamp f]
    overflowed := fun id => s.overflowed id || s.overflows id }

/-- `subscribe`: what comes from here on is the subscriber's. -/
def subscribe (s : BusHistory) : BusHistory :=
  { s with
    bus := s.bus.subscribe
    since := Function.update s.since s.bus.nextSubId s.published.length
    taken := Function.update s.taken s.bus.nextSubId []
    overflowed := Function.update s.overflowed s.bus.nextSubId false }

/-- One call. -/
def step (s : BusHistory) : BusLabel → Option BusHistory
  | .publish f => some (s.publish f)
  | .subscribe => some s.subscribe
  | .unsubscribe id => some { s with bus := s.bus.unsubscribe id }
  | .get id => (s.bus.queueGet id).map fun r =>
      { s with bus := r.2, taken := Function.update s.taken id (s.taken id ++ [r.1]) }

/-- The bus as one subscriber sees it. -/
def mailbox (s : BusHistory) (id : Nat) : Mailbox Event where
  capacity := s.bus.subscriberQueueSize
  attached := decide (id ∈ s.bus.subscribers)
  queue := s.bus.queues id
  offered := s.published.drop (s.since id)
  taken := s.taken id
  overflowed := s.overflowed id

/-- What a call of the bus is to one subscriber. -/
def op (s : BusHistory) (l : BusLabel) (id : Nat) : Mailbox.Op Event :=
  match l with
  | .publish f => .offer (s.bus.stamp f)
  | .subscribe => .keep
  | .unsubscribe id' => if id' = id then .detach else .keep
  | .get id' => if id' = id then .take else .keep

/-! ## One step, seen by one subscriber -/

/-- The history so far is one the bus can have had. -/
structure Inv (s : BusHistory) : Prop where
  bus : s.bus.Inv s.published
  since : ∀ id, s.since id ≤ s.published.length
  issued : ∀ id ∈ s.bus.subscribers, id < s.bus.nextSubId

theorem inv_init (rid boot : String) (n m : Nat) : Inv (init rid boot n m) where
  bus := EventBus.inv_new rid boot n m
  since := fun _ => Nat.le_refl _
  issued := by simp [init, EventBus.new]

theorem Inv.step {s t : BusHistory} {l : BusLabel} (h : Inv s) (hs : s.step l = some t) :
    Inv t := by
  cases l with
  | publish f =>
    cases hs
    refine ⟨h.bus.publish f, fun id => ?_, fun id hid => ?_⟩
    · have := h.since id
      simp only [publish, List.length_append]
      omega
    · exact h.issued id (List.mem_of_mem_filter hid)
  | subscribe =>
    cases hs
    refine ⟨h.bus.subscribe, fun id => ?_, fun id hid => ?_⟩
    · simp only [subscribe, Function.update_apply]
      split
      · exact Nat.le_refl _
      · exact h.since id
    · rcases List.mem_append.mp hid with hid | hid
      · exact Nat.lt_succ_of_lt (h.issued id hid)
      · rw [List.mem_singleton.mp hid]
        exact Nat.lt_succ_self _
  | unsubscribe id' =>
    cases hs
    exact ⟨h.bus.unsubscribe id', h.since, fun id hid => h.issued id (List.mem_of_mem_filter hid)⟩
  | get id' =>
    obtain ⟨⟨item, b⟩, hg, rfl⟩ := Option.map_eq_some_iff.mp hs
    have hbus := h.bus.queueGet hg
    obtain ⟨rest, _, rfl⟩ := EventBus.queueGet_eq_some hg
    exact ⟨hbus, h.since, h.issued⟩

theorem mailbox_publish {s : BusHistory} (h : Inv s) (f : EventFields) (id : Nat) :
    (s.publish f).mailbox id = (s.mailbox id).offer (s.bus.stamp f) := by
  have hdrop : (s.published ++ [s.bus.stamp f]).drop (s.since id)
      = s.published.drop (s.since id) ++ [s.bus.stamp f] :=
    List.drop_append_of_le_length (h.since id)
  by_cases hmem : id ∈ s.bus.subscribers
  · have ha : (s.mailbox id).attached = true := by simp [mailbox, hmem]
    cases hfull : s.bus.queueFull (s.bus.queues id) with
    | false =>
      rw [Mailbox.offer_room ha hfull]
      simp [mailbox, publish, overflows, EventBus.publish, EventBus.offer, hmem, hfull, hdrop]
    | true =>
      rw [Mailbox.offer_full ha hfull]
      simp [mailbox, publish, overflows, EventBus.publish, EventBus.offer, hmem, hfull, hdrop]
  · have ha : (s.mailbox id).attached = false := by simp [mailbox, hmem]
    rw [Mailbox.offer_detached ha]
    simp [mailbox, publish, overflows, EventBus.publish, hmem, hdrop]

/-- **Each call of the bus acts on each subscriber's mailbox by itself**: what
a subscriber has afterwards depends on nothing another subscriber has. -/
theorem step_mailbox {s t : BusHistory} {l : BusLabel} (h : Inv s) (hs : s.step l = some t)
    {id : Nat} (hid : id < s.bus.nextSubId) :
    t.mailbox id = (s.mailbox id).apply (s.op l id) := by
  cases l with
  | publish f =>
    cases hs
    exact mailbox_publish h f id
  | subscribe =>
    cases hs
    have hne : id ≠ s.bus.nextSubId := Nat.ne_of_lt hid
    simp [mailbox, subscribe, EventBus.subscribe, op, Mailbox.apply, hne]
  | unsubscribe id' =>
    cases hs
    by_cases heq : id' = id
    · simp [mailbox, EventBus.unsubscribe, op, Mailbox.apply, Mailbox.detach, heq]
    · simp [mailbox, EventBus.unsubscribe, op, Mailbox.apply, heq, Ne.symm heq]
  | get id' =>
    obtain ⟨⟨item, b⟩, hg, rfl⟩ := Option.map_eq_some_iff.mp hs
    obtain ⟨rest, hq, rfl⟩ := EventBus.queueGet_eq_some hg
    by_cases heq : id' = id
    · subst heq
      simp [mailbox, op, Mailbox.apply, Mailbox.take, hq]
    · simp [mailbox, op, Mailbox.apply, heq, Ne.symm heq]

/-- A new subscriber starts with an empty mailbox. -/
theorem mailbox_subscribe (s : BusHistory) :
    s.subscribe.mailbox s.bus.nextSubId = .fresh s.bus.subscriberQueueSize := by
  simp [mailbox, subscribe, EventBus.subscribe, Mailbox.fresh]

/-! ## The subscriber queues -/

/-- **The queue law, for one step**: afterwards every subscriber has taken,
and will take from its queue, the events published since its subscribe, one
after the other from the first on, and then one `None` if and only if a
publish found its queue full; and each mailbox has changed by its own
operation alone, whatever happened to the others. -/
structure QueueLaw (x : Step step) : Prop where
  lawful : ∀ id < x.dst.bus.nextSubId, (x.dst.mailbox id).Lawful
  isolated : ∀ id < x.src.bus.nextSubId,
    x.dst.mailbox id = (x.src.mailbox id).apply (x.src.op x.label id)

/-- No publish finds the queue of a registered subscriber full, if the queue
has room for two items or more. -/
def Lossless (s : BusHistory) : BusLabel → Bool
  | .publish _ =>
      s.bus.subscriberQueueSize < 2 ||
        s.bus.subscribers.all fun id => !s.bus.queueFull (s.bus.queues id)
  | _ => true

/-- What the queue law rests on and keeps. -/
structure QueueInv (s : BusHistory) : Prop extends Inv s where
  boxes : ∀ id < s.bus.nextSubId, (s.mailbox id).Inv

/-- Ids are handed out by `subscribe` only. -/
theorem step_nextSubId {s t : BusHistory} {l : BusLabel} (hs : s.step l = some t) :
    t.bus.nextSubId = s.bus.nextSubId ∨
      t = s.subscribe ∧ t.bus.nextSubId = s.bus.nextSubId + 1 := by
  cases l with
  | publish f =>
    cases hs
    exact .inl rfl
  | subscribe =>
    cases hs
    exact .inr ⟨rfl, rfl⟩
  | unsubscribe id =>
    cases hs
    exact .inl rfl
  | get id =>
    obtain ⟨⟨item, b⟩, hg, rfl⟩ := Option.map_eq_some_iff.mp hs
    obtain ⟨rest, _, rfl⟩ := EventBus.queueGet_eq_some hg
    exact .inl rfl

/-- Every mailbox comes from an old one, by its own operation, or is new. -/
theorem mailbox_cases {s t : BusHistory} {l : BusLabel} (h : Inv s) (hs : s.step l = some t)
    {id : Nat} (hid : id < t.bus.nextSubId) :
    id < s.bus.nextSubId ∧ t.mailbox id = (s.mailbox id).apply (s.op l id) ∨
      t.mailbox id = .fresh s.bus.subscriberQueueSize := by
  by_cases hold : id < s.bus.nextSubId
  · exact .inl ⟨hold, step_mailbox h hs hold⟩
  · rcases step_nextSubId hs with hsame | ⟨rfl, hnext⟩
    · omega
    · have heq : id = s.bus.nextSubId := by omega
      rw [heq]
      exact .inr (mailbox_subscribe s)

theorem QueueInv.init (rid boot : String) (n m : Nat) : QueueInv (init rid boot n m) :=
  ⟨inv_init rid boot n m, fun _ hid => nomatch hid⟩

theorem QueueInv.step {s t : BusHistory} {l : BusLabel} (h : QueueInv s)
    (hs : s.step l = some t) : QueueInv t := by
  refine ⟨h.toInv.step hs, fun id hid => ?_⟩
  rcases mailbox_cases h.toInv hs hid with ⟨hold, heq⟩ | heq
  · rw [heq]
    exact (h.boxes id hold).apply _
  · rw [heq]
    exact Mailbox.Inv.fresh _

theorem Inv.offered_nodup {s : BusHistory} (h : Inv s) (id : Nat) :
    (s.mailbox id).offered.Nodup := by
  have hseq : (s.published.map Event.sequence).Nodup := by
    rw [h.bus.numbered]
    exact List.nodup_range'
  exact (List.drop_sublist _ _).nodup (hseq.of_map _)

/-- The operation a publish is to a subscriber drops an item from its queue
and keeps a later one. -/
theorem drops_publish_iff {s : BusHistory} (f : EventFields) (id : Nat) :
    (s.mailbox id).Drops (s.op (.publish f) id) ↔
      id ∈ s.bus.subscribers ∧ s.bus.queueFull (s.bus.queues id) = true ∧
        2 ≤ s.bus.subscriberQueueSize := by
  simp only [op, Mailbox.Drops, mailbox, decide_eq_true_eq]
  exact Iff.rfl

theorem lossless_iff {s : BusHistory} (h : Inv s) (l : BusLabel) :
    Lossless s l = true ↔ ∀ id < s.bus.nextSubId, ¬ (s.mailbox id).Drops (s.op l id) := by
  cases l with
  | publish f =>
    simp only [drops_publish_iff, Lossless, Bool.or_eq_true, decide_eq_true_eq, List.all_eq_true,
      Bool.not_eq_true']
    constructor
    · rintro (hsize | hall) id _ ⟨hmem, hfull, htwo⟩
      · omega
      · rw [hall id hmem] at hfull
        cases hfull
    · intro hno
      by_cases hsize : s.bus.subscriberQueueSize < 2
      · exact .inl hsize
      · refine .inr fun id hmem => ?_
        cases hfull : s.bus.queueFull (s.bus.queues id) with
        | false => rfl
        | true => exact absurd ⟨hmem, hfull, by omega⟩ (hno id (h.issued id hmem))
  | subscribe => exact ⟨fun _ _ _ hd => hd, fun _ => rfl⟩
  | unsubscribe id' =>
    refine ⟨fun _ id _ hd => ?_, fun _ => rfl⟩
    simp only [op] at hd
    split at hd <;> exact hd
  | get id' =>
    refine ⟨fun _ id _ hd => ?_, fun _ => rfl⟩
    simp only [op] at hd
    split at hd <;> exact hd

/-- **One step keeps the law for all subscribers exactly if it drops no event
that has a successor in its queue.** -/
theorem lawful_step_iff {x : Step step} (h : QueueInv x.src)
    (hl : ∀ id < x.src.bus.nextSubId, (x.src.mailbox id).Lawful) :
    (∀ id < x.dst.bus.nextSubId, (x.dst.mailbox id).Lawful) ↔
      Lossless x.src x.label = true := by
  have hkeeps : ∀ id, id < x.src.bus.nextSubId →
      (((x.src.mailbox id).apply (x.src.op x.label id)).Lawful ↔
        ¬ (x.src.mailbox id).Drops (x.src.op x.label id)) :=
    fun id hid => (hl id hid).apply_iff (h.boxes id hid) (h.offered_nodup id) _
  rw [lossless_iff h.toInv]
  constructor
  · intro hdst id hid
    have hid' : id < x.dst.bus.nextSubId := by
      rcases step_nextSubId x.fired with hsame | ⟨_, hnext⟩ <;> omega
    rw [← hkeeps id hid, ← step_mailbox h.toInv x.fired hid]
    exact hdst id hid'
  · intro hno id hid
    rcases mailbox_cases h.toInv x.fired hid with ⟨hold, heq⟩ | heq
    · rw [heq]
      exact (hkeeps id hold).mpr (hno id hold)
    · rw [heq]
      exact Mailbox.Lawful.fresh _

/-- **The queue law holds at every step of a run exactly if no publish of
the run finds full a queue that has room for two items or more.** -/
theorem subscriber_queue_law_iff (rid boot : String) (n m : Nat) {xs : List (Step step)}
    {s : BusHistory} (run : Run step (init rid boot n m) xs s) :
    (∀ x ∈ xs, QueueLaw x) ↔ ∀ x ∈ xs, Lossless x.src x.label = true := by
  have hreach : ∀ x ∈ xs, QueueInv x.src := fun x hx =>
    Reachable.invariant (QueueInv.init rid boot n m) (fun _ _ _ h hs => h.step hs)
      (run.src_reachable hx)
  have hstep : ∀ x : Step step,
      (QueueInv x.src ∧ ∀ id < x.src.bus.nextSubId, (x.src.mailbox id).Lawful) →
        ((QueueInv x.dst ∧ ∀ id < x.dst.bus.nextSubId, (x.dst.mailbox id).Lawful) ↔
          Lossless x.src x.label = true) := by
    intro x hx
    rw [← lawful_step_iff hx.1 hx.2]
    exact and_iff_right (hx.1.step x.fired)
  have hlaw := run.forall_dst_iff
    (I := fun s => QueueInv s ∧ ∀ id < s.bus.nextSubId, (s.mailbox id).Lawful)
    ⟨QueueInv.init rid boot n m, fun _ hid => nomatch hid⟩ hstep
  rw [← hlaw]
  constructor
  · intro hall x hx
    exact ⟨(hreach x hx).step x.fired, (hall x hx).lawful⟩
  · intro hall x hx
    exact ⟨(hall x hx).2, fun id hid => step_mailbox (hreach x hx).toInv x.fired hid⟩

/-- An event as the Runtime publishes one for a command. -/
private def statusChanged : EventFields :=
  ⟨.commandStatusChanged, none, none, none, none, .status .queued⟩

/-- With room for one item an overflow is told: the reader takes event 1,
then `None`. -/
theorem subscriber_queue_law_iff_told :
    ∃ xs s, Run step (init "r1" "boot1" 500 1) xs s ∧
      (s.taken 0).map (Option.map Event.sequence) = [some 1, none] ∧ ∀ x ∈ xs, QueueLaw x := by
  obtain ⟨xs, s, run, hok, hs⟩ := execWhile_test Lossless step (init "r1" "boot1" 500 1)
    [.subscribe, .publish statusChanged, .get 0, .publish statusChanged,
      .publish statusChanged, .get 0]
    (fun s => (s.taken 0).map (Option.map Event.sequence) = [some 1, none]) (by decide)
  exact ⟨xs, s, run, by simpa using hs,
    (subscriber_queue_law_iff "r1" "boot1" 500 1 run).mpr hok⟩

/-- The defect: with room for two items, event 1 is dropped and event 2 is
still handed over, so the reader sees a history that starts at 2. -/
theorem subscriber_queue_silent_hole :
    ¬ ∀ xs s, Run step (init "r1" "boot1" 500 2) xs s → ∀ x ∈ xs, QueueLaw x := by
  intro hall
  obtain ⟨s, ⟨xs, run⟩, hs⟩ := exec_test step (init "r1" "boot1" 500 2)
    [.subscribe, .publish statusChanged, .publish statusChanged, .publish statusChanged,
      .get 0, .get 0]
    (fun s => s.bus.nextSubId = 1 ∧ s.published.map Event.sequence = [1, 2, 3] ∧
      s.since 0 = 0 ∧ (s.taken 0).reduceOption.map Event.sequence = [2]) (by decide)
  obtain ⟨hnext, hpub, hsince, htaken⟩ : s.bus.nextSubId = 1 ∧
      s.published.map Event.sequence = [1, 2, 3] ∧ s.since 0 = 0 ∧
      (s.taken 0).reduceOption.map Event.sequence = [2] := by simpa using hs
  cases run with
  | nil => cases hnext
  | snoc x run =>
    have hlaw := ((hall _ _ (run.snoc x) x (by simp)).lawful 0 (by omega)).taken.1
    have hseq := hlaw.map Event.sequence
    rw [show (x.dst.mailbox 0).offered = x.dst.published from by simp [mailbox, hsince]] at hseq
    rw [hpub] at hseq
    change (x.dst.taken 0).reduceOption.map Event.sequence <+: _ at hseq
    rw [htaken] at hseq
    exact absurd hseq (by decide)

/-! ## Replay -/

/-- **What a replay promises** at the position `k`: a granted one is exactly
the events numbered `k + 1` up to the current sequence, and it is refused if
the position lies beyond that or one of these events has left the buffer. -/
structure ReplayExact (s : BusHistory) (k : Nat) : Prop where
  granted : ∀ evs, s.bus.replaySince k = some evs →
    k ≤ s.bus.sequence ∧ evs = s.published.drop k ∧
      evs.map Event.sequence = List.range' (k + 1) (s.bus.sequence - k)
  refused : s.bus.replaySince k = none ↔
    s.bus.sequence < k ∨ ∃ e ∈ s.published.drop k, e ∉ s.bus.buffer

/-- An event after `k` has left the buffer if the buffer starts later. -/
theorem Inv.left_buffer_iff {s : BusHistory} (h : Inv s) (k : Nat) :
    (∃ e ∈ s.published.drop k, e ∉ s.bus.buffer) ↔
      k < s.published.length - s.bus.replayBufferSize := by
  rw [h.bus.buffer, EventBus.newest]
  constructor
  · rintro ⟨e, he, hout⟩
    by_contra hle
    exact hout (List.drop_subset_drop_left _ (Nat.le_of_not_lt hle) he)
  · intro hlt
    have hk : k < s.published.length := by omega
    refine ⟨s.published[k], ?_, fun hmem => ?_⟩
    · rw [List.drop_eq_getElem_cons hk]
      exact List.mem_cons_self
    · -- what the buffer holds carries a later number
      obtain ⟨i, hi, heq⟩ := List.mem_iff_getElem.mp hmem
      rw [List.length_drop] at hi
      rw [List.getElem_drop] at heq
      have hseq := congrArg Event.sequence heq
      rw [h.bus.getElem_sequence, h.bus.getElem_sequence] at hseq
      omega

theorem step_replayBufferSize {s t : BusHistory} {l : BusLabel} (hs : s.step l = some t) :
    t.bus.replayBufferSize = s.bus.replayBufferSize := by
  cases l with
  | publish f => cases hs; rfl
  | subscribe => cases hs; rfl
  | unsubscribe id => cases hs; rfl
  | get id =>
    obtain ⟨⟨item, b⟩, hg, rfl⟩ := Option.map_eq_some_iff.mp hs
    obtain ⟨rest, _, rfl⟩ := EventBus.queueGet_eq_some hg
    rfl

/-- **Replay is exact at every position the bus has reached, and at every
position while nothing has been published; nowhere else.** -/
theorem replaySince_exact_iff (rid boot : String) {n : Nat} (m : Nat) (hn : 0 < n)
    {s : BusHistory} (hs : Reachable step (init rid boot n m) s) (k : Nat) :
    ReplayExact s k ↔ k ≤ s.bus.sequence ∨ s.bus.sequence = 0 := by
  obtain ⟨hinv, hsize⟩ : Inv s ∧ s.bus.replayBufferSize = n :=
    hs.invariant (I := fun s => Inv s ∧ s.bus.replayBufferSize = n)
      ⟨inv_init rid boot n m, rfl⟩
      (fun _ _ _ h hl => ⟨h.1.step hl, (step_replayBufferSize hl).trans h.2⟩)
  have hpos : 0 < s.bus.replayBufferSize := hsize ▸ hn
  have hseq := hinv.bus.sequence
  constructor
  · intro hexact
    by_contra hno
    have hbeyond := hinv.bus.replaySince_beyond hpos (k := k) (by omega)
    rw [if_neg (fun hnil => by simp [hnil] at hseq; omega)] at hbeyond
    have := (hexact.granted [] hbeyond).1
    omega
  · intro hk
    by_cases hle : k ≤ s.published.length
    · refine ⟨fun evs hr => ?_, ?_⟩
      · have hkseq : (k : Int) ≤ (s.bus.sequence : Int) := by omega
        obtain ⟨_, rfl⟩ := hinv.bus.replaySince_eq hpos hkseq hr
        refine ⟨by omega, hinv.bus.eventsAfter_eq k, ?_⟩
        rw [hinv.bus.eventsAfter_numbered k, hseq]
      · rw [hinv.bus.replaySince_none_iff hpos hle, hinv.left_buffer_iff]
        omega
    · have hnil : s.published = [] := List.length_eq_zero_iff.mp (by omega)
      have hbeyond := hinv.bus.replaySince_beyond hpos (k := k) (by omega)
      rw [if_pos hnil] at hbeyond
      refine ⟨fun evs hr => ?_, ?_⟩
      · rw [hbeyond] at hr
        cases hr
      · rw [hbeyond]
        simp only [true_iff]
        left
        omega

/-- A reader that asks again from position 1 after three events. -/
theorem replaySince_exact_iff_three :
    ∃ s, Reachable step (init "r1" "boot1" 500 200) s ∧ s.bus.sequence = 3 ∧
      ReplayExact s 1 := by
  obtain ⟨s, hreach, hs⟩ := exec_test step (init "r1" "boot1" 500 200)
    [.publish statusChanged, .publish statusChanged, .publish statusChanged]
    (fun s => s.bus.sequence = 3) (by decide)
  have hseq : s.bus.sequence = 3 := by simpa using hs
  exact ⟨s, hreach, hseq,
    (replaySince_exact_iff "r1" "boot1" 200 (by decide) hreach 1).mpr (.inl (by omega))⟩

/-- The defect: a position from before a restart that lies beyond the new
count is granted an empty replay. -/
theorem replaySince_beyond_granted :
    ¬ ∀ s, Reachable step (init "r1" "boot1" 500 200) s → ∀ k, ReplayExact s k := by
  intro hall
  obtain ⟨s, hreach, hs⟩ := exec_test step (init "r1" "boot1" 500 200)
    [.publish statusChanged]
    (fun s => s.bus.sequence = 1 ∧ s.bus.replaySince 2 = some []) (by decide)
  obtain ⟨hseq, hr⟩ : s.bus.sequence = 1 ∧ s.bus.replaySince 2 = some [] := by simpa using hs
  have := ((hall s hreach 2).granted [] hr).1
  omega

end BusHistory

end Fusion
