import Fusion.Core.EventBus
import Fusion.Lib.Transition
import Mathlib.Data.List.Infix

/-!
# EventsWs — the event stream handler (transport/server.py, `events_ws`)

One client's `events_ws` coroutine beside the bus it reads from. The handler
computes its replay, sends it one `send_json` at a time, and only then
subscribes; every `send_json` and every `queue.get` suspends it, and between
two of its steps the rest of the Runtime may publish, and other clients may
subscribe, read and leave.
-/

namespace Fusion.EventsWs

open Transition

/-- What the handler sends. -/
inductive WsMessage
  | event (e : Event)
  | resyncRequired
deriving DecidableEq

/-- The event of a message. -/
def WsMessage.event? : WsMessage → Option Event
  | event e => some e
  | resyncRequired => none

/-- Where the handler is suspended. -/
inductive WsPc
  /-- in `receive_json`, before the client's init message -/
  | connecting
  /-- in the `send_json` of a replayed event; `rest` is still to be sent -/
  | replaying (rest : List Event)
  /-- in `queue.get` -/
  | waiting (subId : Nat)
  /-- in the `send_json` of a live event -/
  | sendingLive (subId : Nat)
  /-- in the `send_json` of `resync_required` -/
  | sendingResync (subId : Option Nat)
  | closed
deriving DecidableEq

/-- The handler's own subscription, while it holds one. -/
def WsPc.subscription : WsPc → Option Nat
  | waiting id | sendingLive id => some id
  | sendingResync id => id
  | connecting | replaying _ | closed => none

/-- The bus and one handler of its events. -/
structure Stream where
  bus : EventBus
  /-- every event published so far, oldest first -/
  published : List Event
  pc : WsPc
  /-- the `after_sequence` in force -/
  afterSequence : Int
  /-- what was handed to `send_json`, in order -/
  messages : List WsMessage

/-- A call of the bus by others, or the next stretch of the handler. -/
inductive StreamLabel
  | publish (f : EventFields)
  | otherSubscribe
  | otherUnsubscribe (subId : Nat)
  | otherGet (subId : Nat)
  /-- the init message arrives with an `after_sequence`, or without one, or
  `receive_json` fails -/
  | connect (afterSequence : Option Int)
  /-- the suspended `send_json` returns -/
  | sent
  /-- the suspended `queue.get` returns -/
  | get
  /-- the connection ends: the suspended await raises -/
  | disconnect

namespace Stream

/-- A bus at start, and a connection that was just accepted. -/
def init (runtimeId runtimeBootId : String) (replayBufferSize subscriberQueueSize : Nat) :
    Stream where
  bus := .new runtimeId runtimeBootId replayBufferSize subscriberQueueSize
  published := []
  pc := .connecting
  afterSequence := 0
  messages := []

/-- `send_json` -/
def send (s : Stream) (m : WsMessage) : Stream := { s with messages := s.messages ++ [m] }

/-- The code from `subscribe_events` to the first `queue.get`. -/
def subscribe (s : Stream) : Stream :=
  { s with bus := s.bus.subscribe, pc := .waiting s.bus.nextSubId }

/-- The replay loop: the next `send_json`, or the subscription after the last. -/
def replay (s : Stream) : List Event → Stream
  | [] => s.subscribe
  | e :: rest => { s.send (.event e) with pc := .replaying rest }

/-- From the init message to the first suspension after it. -/
def connect (s : Stream) (afterSequence : Option Int) : Stream :=
  let k := afterSequence.getD s.bus.sequence
  let s := { s with afterSequence := k }
  match s.bus.replaySince k with
  | none => { s.send .resyncRequired with pc := .sendingResync none }
  | some evs => s.replay evs

/-- The `finally` of the handler. -/
def leave (s : Stream) : Stream :=
  match s.pc.subscription with
  | none => { s with pc := .closed }
  | some id => { s with bus := s.bus.unsubscribe id, pc := .closed }

/-- One call or stretch. -/
def step (s : Stream) : StreamLabel → Option Stream
  | .publish f => some
      { s with
        bus := s.bus.publish f
        published := s.published ++ [s.bus.stamp f] }
  | .otherSubscribe => some { s with bus := s.bus.subscribe }
  | .otherUnsubscribe id =>
      if s.pc.subscription = some id then none
      else some { s with bus := s.bus.unsubscribe id }
  | .otherGet id =>
      if s.pc.subscription = some id then none
      else (s.bus.queueGet id).map fun r => { s with bus := r.2 }
  | .connect k =>
      match s.pc with
      | .connecting => some (s.connect k)
      | _ => none
  | .sent =>
      match s.pc with
      | .replaying rest => some (s.replay rest)
      | .sendingLive id => some { s with pc := .waiting id }
      | .sendingResync _ => some s.leave
      | _ => none
  | .get =>
      match s.pc with
      | .waiting id =>
          match s.bus.queueGet id with
          | none => none
          | some (some e, bus) => some
              { s.send (.event e) with bus := bus, pc := .sendingLive id }
          | some (none, bus) => some
              { s.send .resyncRequired with bus := bus, pc := .sendingResync (some id) }
      | _ => none
  | .disconnect =>
      match s.pc with
      | .connecting | .closed => none
      | _ => some s.leave

/-- The events sent to the client, in order. -/
def events (s : Stream) : List Event := s.messages.filterMap WsMessage.event?

end Stream

/-! ## The law and when it holds -/

/-- The client saw `k + 1`, `k + 2`, …: the published events after its
position, without gap or repetition, and nothing after a `resync_required`. -/
structure Gapless (s : Stream) : Prop where
  numbers : s.events.map (fun e => (e.sequence : Int))
    = (List.range s.events.length).map fun i : Nat => s.afterSequence + 1 + (i : Int)
  content : s.events <+: EventBus.eventsAfter s.afterSequence s.published
  last : .resyncRequired ∉ s.messages.dropLast

/-- The client asks for a position the bus has reached. -/
def InRange (s : Stream) : StreamLabel → Bool
  | .connect k => k.getD s.bus.sequence ≤ (s.bus.sequence : Int)
  | _ => true

/-- No publish lands where the handler loses it: between the replay and the
subscription, or on this client's full queue while that holds more than the
one event the sentinel replaces. -/
def Undisturbed (s : Stream) : StreamLabel → Bool
  | .publish _ =>
      match s.pc with
      | .replaying _ => false
      | pc => pc.subscription.all fun id =>
          !(decide (id ∈ s.bus.subscribers) && s.bus.queueFull (s.bus.queues id)
            && 2 ≤ (s.bus.queues id).length)
  | _ => true

/-! ## The invariant -/

/-- What is still to come for a handler that reads its queue: all events the
queue owes it, or, after an overflow, the sentinel alone. -/
def Owed (s : Stream) (id : Nat) (evs : List Event) : Prop :=
  (id ∈ s.bus.subscribers ∧ ∃ queued, s.bus.queues id = queued.map some ∧
      evs ++ queued = EventBus.eventsAfter s.afterSequence s.published) ∨
    (id ∉ s.bus.subscribers ∧ s.bus.queues id = [none] ∧
      evs <+: EventBus.eventsAfter s.afterSequence s.published)

/-- The messages so far, by where the handler is. -/
def Shape (s : Stream) : WsPc → Prop
  | .connecting => s.messages = []
  | .replaying rest => 0 ≤ s.afterSequence ∧ ∃ evs, s.messages = evs.map .event ∧
      evs ++ rest = EventBus.eventsAfter s.afterSequence s.published
  | .waiting id | .sendingLive id => 0 ≤ s.afterSequence ∧
      ∃ evs, s.messages = evs.map .event ∧ Owed s id evs
  | .sendingResync _ | .closed => ∃ evs tail, s.messages = evs.map .event ++ tail ∧
      (tail = [] ∨ tail = [.resyncRequired]) ∧
      evs <+: EventBus.eventsAfter s.afterSequence s.published ∧
      (0 ≤ s.afterSequence ∨ evs = [])

/-- What the handler has sent, in line with where it is. -/
structure StreamInv (s : Stream) : Prop where
  bus : s.bus.Inv s.published
  size : 0 < s.bus.replayBufferSize
  /-- ids are handed out once -/
  fresh : ∀ id, s.pc.subscription = some id → id < s.bus.nextSubId
  /-- the position is one the bus has reached -/
  position : s.afterSequence ≤ s.published.length
  shape : Shape s s.pc

theorem events_of_messages {s : Stream} {evs : List Event} {tail : List WsMessage}
    (h : s.messages = evs.map .event ++ tail) (ht : tail = [] ∨ tail = [.resyncRequired]) :
    s.events = evs := by
  have hmap : ∀ xs : List Event, (xs.map WsMessage.event).filterMap WsMessage.event? = xs := by
    intro xs
    simp [List.filterMap_map, Function.comp_def, WsMessage.event?]
  rcases ht with rfl | rfl <;>
    simp [Stream.events, h, List.filterMap_append, hmap, WsMessage.event?]

theorem eventsAfter_publish {b : EventBus} {published : List Event} (h : b.Inv published)
    (f : EventFields) {k : Int} (hk : k ≤ published.length) :
    EventBus.eventsAfter k (published ++ [b.stamp f])
      = EventBus.eventsAfter k published ++ [b.stamp f] := by
  rw [EventBus.eventsAfter_append]
  congr 1
  have : k < ((b.stamp f).sequence : Int) := by
    simp only [EventBus.stamp, h.sequence]
    omega
  simp [EventBus.eventsAfter, this]

/-- `Owed` reads the bus only at the client's own id. -/
theorem Owed.congr {s t : Stream} {id : Nat} {evs : List Event} (h : Owed s id evs)
    (hmem : id ∈ t.bus.subscribers ↔ id ∈ s.bus.subscribers)
    (hq : t.bus.queues id = s.bus.queues id) (hp : t.published = s.published)
    (hk : t.afterSequence = s.afterSequence) : Owed t id evs := by
  simpa only [Owed, hmem, hq, hp, hk] using h

/-- A publish that meets the condition leaves the client owed exactly the
new history. -/
theorem Owed.publish {s : Stream} {id : Nat} {evs : List Event} (h : Owed s id evs)
    (hbus : s.bus.Inv s.published) (hk : s.afterSequence ≤ s.published.length)
    (f : EventFields)
    (hok : id ∈ s.bus.subscribers → s.bus.queueFull (s.bus.queues id) = true →
      (s.bus.queues id).length < 2) :
    Owed { s with bus := s.bus.publish f, published := s.published ++ [s.bus.stamp f] }
      id evs := by
  have hafter := eventsAfter_publish hbus f hk
  rcases h with ⟨hmem, queued, hq, hevs⟩ | ⟨hmem, hq, hevs⟩
  · cases hfull : s.bus.queueFull (s.bus.queues id) with
    | false =>
      refine .inl ⟨?_, queued ++ [s.bus.stamp f], ?_, ?_⟩
      · simp [EventBus.publish, hmem, hfull]
      · simp only [EventBus.publish, if_pos hmem, EventBus.offer, hfull]
        simp [hq]
      · rw [hafter, ← hevs, List.append_assoc]
    | true =>
      -- one event was queued; the sentinel takes its place
      refine .inr ⟨?_, ?_, ?_⟩
      · simp [EventBus.publish, hfull]
      · have hlen := hok hmem hfull
        have hone : (s.bus.queues id).tail = [] := by
          rw [← List.length_eq_zero_iff, List.length_tail]
          omega
        simp only [EventBus.publish, if_pos hmem, EventBus.offer, hfull]
        simp [hone]
      · rw [hafter, ← hevs, List.append_assoc]
        exact List.prefix_append _ _
  · refine .inr ⟨?_, ?_, ?_⟩
    · simp [EventBus.publish, hmem]
    · simpa only [EventBus.publish, if_neg hmem] using hq
    · rw [hafter]
      exact hevs.trans (List.prefix_append _ _)

/-- A fresh subscription owes what is published from now on. -/
theorem Owed.subscribe {s : Stream} {evs : List Event}
    (h : evs = EventBus.eventsAfter s.afterSequence s.published) :
    Owed s.subscribe s.bus.nextSubId evs := by
  refine .inl ⟨?_, [], ?_, ?_⟩
  · simp [Stream.subscribe, EventBus.subscribe]
  · simp [Stream.subscribe, EventBus.subscribe]
  · simpa [Stream.subscribe] using h

/-- Whatever the handler was doing, what it has sent is a legal end. -/
theorem Shape.ended {s : Stream} {pc : WsPc} (h : Shape s pc) : Shape s .closed := by
  cases pc with
  | connecting => exact ⟨[], [], by simpa [Shape] using h, .inl rfl, List.nil_prefix, .inr rfl⟩
  | replaying rest =>
    obtain ⟨hpos, evs, hm, hevs⟩ := h
    exact ⟨evs, [], by simpa using hm, .inl rfl, hevs ▸ List.prefix_append _ _, .inl hpos⟩
  | waiting id | sendingLive id =>
    obtain ⟨hpos, evs, hm, howed⟩ := h
    refine ⟨evs, [], by simpa using hm, .inl rfl, ?_, .inl hpos⟩
    rcases howed with ⟨_, queued, _, hevs⟩ | ⟨_, _, hevs⟩
    · exact hevs ▸ List.prefix_append _ _
    · exact hevs
  | sendingResync id | closed => exact h

theorem Shape.gapless {s : Stream} (hbus : s.bus.Inv s.published)
    (h : Shape s .closed) : Gapless s := by
  obtain ⟨evs, tail, hm, ht, hevs, hpos⟩ := h
  have he : s.events = evs := events_of_messages hm ht
  refine ⟨?_, he ▸ hevs, ?_⟩
  · rcases hpos with hpos | hnil
    · obtain ⟨k, hk⟩ : ∃ k : Nat, s.afterSequence = k := ⟨s.afterSequence.toNat, by omega⟩
      have hnum := hbus.eventsAfter_numbered k
      rw [hk] at hevs
      have hseq : evs.map Event.sequence = List.range' (k + 1) evs.length := by
        have hp := hevs.map Event.sequence
        rw [hnum] at hp
        have hlen : evs.length ≤ s.published.length - k := by simpa using hp.length_le
        have := List.prefix_iff_eq_take.mp hp
        rw [this, List.length_map, List.take_range'_of_length_ge hlen]
      rw [he, hk, ← Function.comp_def (fun n : Nat => (n : Int)) Event.sequence, ← List.map_map,
        hseq, List.range'_eq_map_range, List.map_map]
      refine List.map_congr_left fun i _ => ?_
      simp only [Function.comp_apply]
      omega
    · simp [he, hnil]
  · rw [hm]
    rcases ht with rfl | rfl
    · intro hmem
      simpa using List.mem_of_mem_dropLast hmem
    · simp

/-! ## One step -/

theorem StreamInv.init (rid boot : String) {n : Nat} (m : Nat) (hn : 0 < n) :
    StreamInv (Stream.init rid boot n m) where
  bus := EventBus.inv_new rid boot n m
  size := hn
  fresh := by simp [Stream.init, WsPc.subscription]
  position := by simp [Stream.init]
  shape := rfl

/-- A step that only changes the bus, away from the client's queue. -/
theorem StreamInv.bus_frame {s : Stream} (h : StreamInv s) {b : EventBus}
    (hbus : b.Inv s.published) (hsize : b.replayBufferSize = s.bus.replayBufferSize)
    (hnext : s.bus.nextSubId ≤ b.nextSubId)
    (hown : ∀ id, s.pc.subscription = some id →
      (id ∈ b.subscribers ↔ id ∈ s.bus.subscribers) ∧ b.queues id = s.bus.queues id) :
    StreamInv { s with bus := b } where
  bus := hbus
  size := hsize ▸ h.size
  fresh := fun id hid => Nat.lt_of_lt_of_le (h.fresh id hid) hnext
  position := h.position
  shape := by
    have hs := h.shape
    cases hpc : s.pc with
    | waiting id | sendingLive id =>
      rw [hpc] at hs
      obtain ⟨hpos, evs, hm, howed⟩ := hs
      obtain ⟨hmem, hq⟩ := hown id (by rw [hpc]; rfl)
      exact ⟨hpos, evs, hm, howed.congr hmem hq rfl rfl⟩
    | connecting | replaying rest | sendingResync id | closed =>
      rw [hpc] at hs
      exact hs

theorem StreamInv.publish {s : Stream} (h : StreamInv s) (f : EventFields)
    (hok : Undisturbed s (.publish f) = true) :
    StreamInv { s with bus := s.bus.publish f, published := s.published ++ [s.bus.stamp f] } where
  bus := h.bus.publish f
  size := h.size
  fresh := h.fresh
  position := by
    have := h.position
    simp only [List.length_append, List.length_singleton]
    omega
  shape := by
    have hs := h.shape
    cases hpc : s.pc with
    | connecting =>
      rw [hpc] at hs
      exact hs
    | replaying rest => simp [Undisturbed, hpc] at hok
    | waiting id | sendingLive id =>
      rw [hpc] at hs
      obtain ⟨hpos, evs, hm, howed⟩ := hs
      refine ⟨hpos, evs, hm, howed.publish h.bus h.position f ?_⟩
      intro hmem hfull
      simpa [Undisturbed, hpc, WsPc.subscription, hmem, hfull] using hok
    | sendingResync id | closed =>
      rw [hpc] at hs
      obtain ⟨evs, tail, hm, ht, hevs, hpos⟩ := hs
      refine ⟨evs, tail, hm, ht, ?_, hpos⟩
      rw [eventsAfter_publish h.bus f h.position]
      exact hevs.trans (List.prefix_append _ _)

/-- After the handler leaves, only what was sent matters. -/
theorem StreamInv.leave {s : Stream} (h : StreamInv s) : StreamInv s.leave := by
  have hclosed : Shape s .closed := h.shape.ended
  unfold Stream.leave
  split
  · exact ⟨h.bus, h.size, by simp [WsPc.subscription], h.position, hclosed⟩
  · exact ⟨h.bus.unsubscribe _, h.size, by simp [WsPc.subscription], h.position, hclosed⟩

/-- The replay loop, from any point of it. -/
theorem StreamInv.replay {s : Stream} {evs rest : List Event} (hbus : s.bus.Inv s.published)
    (hsize : 0 < s.bus.replayBufferSize) (hk : s.afterSequence ≤ s.published.length)
    (hpos : 0 ≤ s.afterSequence) (hm : s.messages = evs.map .event)
    (hevs : evs ++ rest = EventBus.eventsAfter s.afterSequence s.published) :
    StreamInv (s.replay rest) := by
  cases rest with
  | nil =>
    refine ⟨hbus.subscribe, hsize, ?_, hk, hpos, evs, hm,
      Owed.subscribe (by simpa using hevs)⟩
    rintro id hid
    cases hid
    exact Nat.lt_succ_self _
  | cons e rest =>
    refine ⟨hbus, hsize, by simp [Stream.replay, WsPc.subscription], hk,
      hpos, evs ++ [e], ?_, ?_⟩
    · simp [Stream.replay, Stream.send, hm]
    · simpa [Stream.replay, Stream.send] using hevs

theorem StreamInv.connect {s : Stream} (h : StreamInv s) (hpc : s.pc = .connecting)
    {k : Option Int} (hk : InRange s (.connect k) = true) : StreamInv (s.connect k) := by
  have hm : s.messages = [] := by simpa [hpc, Shape] using h.shape
  have hrange : k.getD s.bus.sequence ≤ (s.bus.sequence : Int) := by simpa [InRange] using hk
  have hlen : k.getD s.bus.sequence ≤ (s.published.length : Int) := h.bus.sequence ▸ hrange
  simp only [Stream.connect]
  split
  · -- the buffer cannot cover the gap: only `resync_required` is sent
    refine ⟨h.bus, h.size, by simp [WsPc.subscription], hlen, [],
      [.resyncRequired], ?_, .inr rfl, List.nil_prefix, .inr rfl⟩
    simp [Stream.send, hm]
  · rename_i evs hr
    obtain ⟨hpos, hevs⟩ := h.bus.replaySince_eq h.size hrange hr
    have hnil : s.messages = ([] : List Event).map .event := hm
    exact StreamInv.replay h.bus h.size hlen hpos hnil hevs

theorem StreamInv.sent {s t : Stream} (h : StreamInv s) (hs : s.step .sent = some t) :
    StreamInv t := by
  have hshape := h.shape
  simp only [Stream.step] at hs
  split at hs
  · rename_i rest hpc
    cases hs
    rw [hpc] at hshape
    obtain ⟨hpos, evs, hm, hevs⟩ := hshape
    exact .replay h.bus h.size h.position hpos hm hevs
  · rename_i id hpc
    cases hs
    rw [hpc] at hshape
    exact ⟨h.bus, h.size, by simpa [hpc, WsPc.subscription] using h.fresh, h.position, hshape⟩
  · cases hs
    exact h.leave
  · cases hs

/-- `queue.get` hands over the next event owed, or the sentinel. -/
theorem StreamInv.get {s t : Stream} (h : StreamInv s) (hs : s.step .get = some t) :
    StreamInv t := by
  have hshape := h.shape
  simp only [Stream.step] at hs
  split at hs
  · rename_i id hpc
    rw [hpc] at hshape
    obtain ⟨hpos, evs, hm, howed⟩ := hshape
    have hfresh : id < s.bus.nextSubId := h.fresh id (by rw [hpc]; rfl)
    split at hs
    · cases hs
    · -- an event: the handler now sends it
      rename_i e bus hg
      cases hs
      obtain ⟨rest, hq, rfl⟩ := EventBus.queueGet_eq_some hg
      rcases howed with ⟨hmem, queued, hqueued, hevs⟩ | ⟨_, hqueued, _⟩
      · obtain ⟨q, qs, rfl, hq', rfl⟩ := List.map_eq_cons_iff.mp (hqueued.symm.trans hq)
        cases hq'
        refine ⟨h.bus.queueGet hg, h.size, ?_, h.position, hpos, evs ++ [e], ?_,
          .inl ⟨hmem, qs, ?_, ?_⟩⟩
        · rintro id' hid
          cases hid
          exact hfresh
        · simp [Stream.send, hm]
        · simp
        · simpa [Stream.send] using hevs
      · simp [hqueued] at hq
    · -- the sentinel: what was sent is a legal end
      rename_i bus hg
      cases hs
      obtain ⟨rest, hq, rfl⟩ := EventBus.queueGet_eq_some hg
      refine ⟨h.bus.queueGet hg, h.size, ?_, h.position, evs, [.resyncRequired], ?_,
        .inr rfl, ?_, .inl hpos⟩
      · rintro id' hid
        cases hid
        exact hfresh
      · simp [Stream.send, hm]
      · rcases howed with ⟨_, queued, hqueued, _⟩ | ⟨_, _, hevs⟩
        · obtain ⟨q, qs, _, hq', _⟩ := List.map_eq_cons_iff.mp (hqueued.symm.trans hq)
          cases hq'
        · exact hevs
  · cases hs

/-- Another client's subscription, read or departure. -/
theorem StreamInv.other {s t : Stream} (h : StreamInv s) {l : StreamLabel}
    (hl : l = .otherSubscribe ∨ (∃ id, l = .otherUnsubscribe id) ∨ ∃ id, l = .otherGet id)
    (hs : s.step l = some t) : StreamInv t := by
  rcases hl with rfl | ⟨id, rfl⟩ | ⟨id, rfl⟩ <;> simp only [Stream.step] at hs
  · cases hs
    refine h.bus_frame h.bus.subscribe rfl (Nat.le_succ _) ?_
    intro own hown
    have hne : own ≠ s.bus.nextSubId := Nat.ne_of_lt (h.fresh own hown)
    simp [EventBus.subscribe, hne]
  · split at hs
    · cases hs
    · rename_i hid
      cases hs
      refine h.bus_frame (h.bus.unsubscribe id) rfl (Nat.le_refl _) ?_
      intro own hown
      have hne : own ≠ id := fun h => hid (h ▸ hown)
      simp [EventBus.unsubscribe, hne]
  · split at hs
    · cases hs
    · rename_i hid
      obtain ⟨⟨item, b⟩, hg, rfl⟩ := Option.map_eq_some_iff.mp hs
      have hbus := h.bus.queueGet hg
      obtain ⟨rest, hq, rfl⟩ := EventBus.queueGet_eq_some hg
      refine h.bus_frame hbus rfl (Nat.le_refl _) ?_
      intro own hown
      have hne : own ≠ id := fun h => hid (h ▸ hown)
      simp [hne]

/-- **One step keeps the stream invariant**, if it asks for a position in
range and publishes nothing where the handler would lose it. -/
theorem StreamInv.step {s t : Stream} {l : StreamLabel} (h : StreamInv s)
    (hrange : InRange s l = true) (hok : Undisturbed s l = true)
    (hs : s.step l = some t) : StreamInv t := by
  cases l with
  | publish f =>
    cases hs
    exact h.publish f hok
  | otherSubscribe => exact h.other (.inl rfl) hs
  | otherUnsubscribe id => exact h.other (.inr (.inl ⟨id, rfl⟩)) hs
  | otherGet id => exact h.other (.inr (.inr ⟨id, rfl⟩)) hs
  | connect k =>
    simp only [Stream.step] at hs
    split at hs
    · rename_i hpc
      cases hs
      exact h.connect hpc hrange
    · cases hs
  | sent => exact h.sent hs
  | get => exact h.get hs
  | disconnect =>
    simp only [Stream.step] at hs
    split at hs
    · cases hs
    · cases hs
    · cases hs
      exact h.leave

/-! ## Runs -/

/-- **The stream is gapless on every undisturbed run.** -/
theorem events_ws_gapless (rid boot : String) (n m : Nat) (hn : 0 < n)
    {xs : List (Step Stream.step)} {s : Stream}
    (run : Run Stream.step (Stream.init rid boot n m) xs s)
    (hrange : ∀ x ∈ xs, InRange x.src x.label = true)
    (hok : ∀ x ∈ xs, Undisturbed x.src x.label = true) : Gapless s := by
  have hinv : StreamInv s :=
    (run.invariant_of (fun x => InRange x.src x.label = true ∧
        Undisturbed x.src x.label = true)
      (StreamInv.init rid boot m hn)
      (fun x hx hx' => hx.step hx'.1 hx'.2 x.fired)
      (fun x hx => ⟨hrange x hx, hok x hx⟩)).2
  exact hinv.shape.ended.gapless hinv.bus

/-- An event as the Runtime publishes one for a command. -/
private def changed : EventFields :=
  ⟨.commandStatusChanged, none, none, none, none, .status .queued⟩

/-- A replay of one event and a live event after it. -/
theorem events_ws_gapless_replay_then_live :
    ∃ xs s, Run Stream.step (Stream.init "r1" "boot1" 500 200) xs s ∧
      s.events.map Event.sequence = [1, 2] ∧ Gapless s := by
  obtain ⟨xs, s, run, hok, hs⟩ := execWhile_test
    (fun s l => InRange s l && Undisturbed s l) Stream.step
    (Stream.init "r1" "boot1" 500 200)
    ([.publish changed, .connect (some 0), .sent, .publish changed, .get])
    (fun s => s.events.map Event.sequence = [1, 2]) (by decide)
  refine ⟨xs, s, run, by simpa using hs, ?_⟩
  exact events_ws_gapless "r1" "boot1" 500 200 (by decide) run
    (fun x hx => (Bool.and_eq_true_iff.mp (hok x hx)).1)
    (fun x hx => (Bool.and_eq_true_iff.mp (hok x hx)).2)

/-- The defect: event 2 is published while event 1 is being replayed, so it
is neither in the replay nor in the queue, and the client sees 1, 3. -/
theorem events_ws_skips_event :
    ¬ ∀ xs s, Run Stream.step (Stream.init "r1" "boot1" 500 200) xs s →
      (∀ x ∈ xs, InRange x.src x.label = true) → Gapless s := by
  intro hall
  obtain ⟨xs, s, run, hok, hs⟩ := execWhile_test
    InRange Stream.step (Stream.init "r1" "boot1" 500 200)
    ([.publish changed, .connect (some 0), .publish changed, .sent,
      .publish changed, .get])
    (fun s => s.afterSequence = 0 ∧ s.events.map Event.sequence = [1, 3]) (by decide)
  obtain ⟨hk, hev⟩ : s.afterSequence = 0 ∧ s.events.map Event.sequence = [1, 3] := by
    simpa using hs
  have hnum := (hall xs s run hok).numbers
  have hlen : s.events.length = 2 := by simpa using congrArg List.length hev
  have hint : s.events.map (fun e => (e.sequence : Int)) = [1, 3] := by
    simpa [Function.comp_def] using congrArg (List.map fun n : Nat => (n : Int)) hev
  rw [hint, hk, hlen] at hnum
  exact absurd hnum (by decide)

end Fusion.EventsWs
