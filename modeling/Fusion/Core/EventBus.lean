import Fusion.Contracts.Command

/-!
# EventBus — sequence-ordered publish (contracts/event.py, core/event_bus.py)

The event contract and the bus: consecutive sequence numbers, a replay
buffer that keeps the newest events, one bounded queue for each subscriber.
A queue outlives its registration (the reader still holds it after an
overflow), so queues live in a store addressed by subscriber id, and
`subscribers` lists the ids that are registered. Event ids and wall-clock
stamps are left out: nothing reads them.
-/

namespace Fusion

/-- The types that the Runtime itself publishes, and those of adapters. -/
inductive EventType
  | commandCompleted
  | commandStatusChanged
  | adapter (name : String)
deriving DecidableEq, Repr

/-- What an event carries. An adapter's own payload is passed through
unread, so it has no content here. -/
inductive Payload
  | completed (outcome : Option CommandOutcome) (achieved : Option CompletionRequirement)
  | status (status : CommandStatus)
  | adapter
deriving DecidableEq, Repr

/-- The arguments of `publish`. -/
structure EventFields where
  type : EventType
  targetId : Option String
  commandId : Option CommandId
  runId : Option String
  cueId : Option String
  payload : Payload
deriving DecidableEq, Repr

/-- A published event. -/
structure Event extends EventFields where
  runtimeId : String
  runtimeBootId : String
  sequence : Nat
deriving DecidableEq, Repr

/-- An entry of a subscriber queue: an event, or the `None` that tells the
reader to stop and resync. -/
abbrev QueueItem := Option Event

/-- The bus: the events kept for replay and the queues of the subscribers. -/
structure EventBus where
  runtimeId : String
  runtimeBootId : String
  sequence : Nat
  buffer : List Event
  replayBufferSize : Nat
  subscribers : List Nat
  queues : Nat → List QueueItem
  nextSubId : Nat
  subscriberQueueSize : Nat

namespace EventBus

/-- `DEFAULT_REPLAY_BUFFER_SIZE` -/
def defaultReplayBufferSize : Nat := 500
def defaultSubscriberQueueSize : Nat := 200

/-- A bus without events or subscribers. -/
def new (runtimeId runtimeBootId : String) (replayBufferSize subscriberQueueSize : Nat) :
    EventBus where
  runtimeId := runtimeId
  runtimeBootId := runtimeBootId
  sequence := 0
  buffer := []
  replayBufferSize := replayBufferSize
  subscribers := []
  queues := fun _ => []
  nextSubId := 0
  subscriberQueueSize := subscriberQueueSize

/-- The event the next `publish` makes of its arguments. -/
def stamp (b : EventBus) (f : EventFields) : Event :=
  { f with
    runtimeId := b.runtimeId
    runtimeBootId := b.runtimeBootId
    sequence := b.sequence + 1 }

/-- The newest `n` entries. -/
def newest {α : Type} (n : Nat) (xs : List α) : List α := xs.drop (xs.length - n)

/-- `put_nowait` would raise `QueueFull`; a `maxsize` of 0 means no bound. -/
def queueFull (b : EventBus) (q : List QueueItem) : Bool :=
  0 < b.subscriberQueueSize && b.subscriberQueueSize ≤ q.length

/-- What `publish` does to one subscriber's queue: append the event, or, when
the queue is full, drop its oldest item to make room for the sentinel. -/
def offer (b : EventBus) (e : Event) (q : List QueueItem) : List QueueItem :=
  if b.queueFull q then q.tail ++ [none] else q ++ [some e]

/-- `publish`: an overflowing subscriber is unregistered, its queue is not
touched again. -/
def publish (b : EventBus) (f : EventFields) : EventBus :=
  { b with
    sequence := b.sequence + 1
    buffer := newest b.replayBufferSize (b.buffer ++ [b.stamp f])
    queues := fun id =>
      if id ∈ b.subscribers then b.offer (b.stamp f) (b.queues id) else b.queues id
    subscribers := b.subscribers.filter fun id => !b.queueFull (b.queues id) }

/-- Events with a sequence above `afterSequence`, or `none` if the buffer
cannot cover the gap. -/
def replaySince (b : EventBus) (afterSequence : Int) : Option (List Event) :=
  if afterSequence = b.sequence then some []
  else
    match b.buffer with
    | [] => if afterSequence = 0 then some [] else none
    | oldest :: _ =>
        if afterSequence < (oldest.sequence : Int) - 1 then none
        else some (b.buffer.filter fun e => afterSequence < (e.sequence : Int))

/-- `subscribe`: a new id with an empty queue. -/
def subscribe (b : EventBus) : EventBus :=
  { b with
    nextSubId := b.nextSubId + 1
    queues := Function.update b.queues b.nextSubId []
    subscribers := b.subscribers ++ [b.nextSubId] }

/-- `unsubscribe`: the queue stays with its reader. -/
def unsubscribe (b : EventBus) (subId : Nat) : EventBus :=
  { b with subscribers := b.subscribers.filter (· ≠ subId) }

/-- `queue.get()` once the queue is not empty. -/
def queueGet (b : EventBus) (subId : Nat) : Option (QueueItem × EventBus) :=
  match b.queues subId with
  | [] => none
  | item :: rest => some (item, { b with queues := Function.update b.queues subId rest })

theorem queueGet_eq_some {b b' : EventBus} {id : Nat} {item : QueueItem}
    (h : b.queueGet id = some (item, b')) :
    ∃ rest, b.queues id = item :: rest ∧
      b' = { b with queues := Function.update b.queues id rest } := by
  unfold queueGet at h
  split at h
  · cases h
  · rename_i item' rest hq
    cases h
    exact ⟨rest, hq, rfl⟩

/-! ## The bus and the history of its publishes

`published` is the list of all events ever published, oldest first. The bus
itself forgets; its counter and its buffer are functions of that list. -/

/-- **The bus invariant**: event number `i` of the history carries sequence
`i + 1`, and the buffer is the newest part of the history. -/
structure Inv (b : EventBus) (published : List Event) : Prop where
  sequence : b.sequence = published.length
  numbered : published.map Event.sequence = List.range' 1 published.length
  buffer : b.buffer = newest b.replayBufferSize published

theorem inv_new (rid boot : String) (n m : Nat) : Inv (new rid boot n m) [] :=
  ⟨rfl, rfl, by simp [new, newest]⟩

theorem newest_append_newest {α : Type} (n : Nat) (xs : List α) (x : α) :
    newest n (newest n xs ++ [x]) = newest n (xs ++ [x]) := by
  simp only [newest, List.length_append, List.length_drop, List.length_singleton]
  by_cases h : xs.length ≤ n
  · simp [Nat.sub_eq_zero_of_le h]
  · rcases Nat.eq_zero_or_pos n with rfl | hn
    · simp
    · rw [List.drop_append_of_le_length (by simp; omega),
        List.drop_append_of_le_length (by omega), List.drop_drop]
      congr 2
      omega

theorem Inv.publish {b : EventBus} {published : List Event} (h : Inv b published)
    (f : EventFields) : Inv (b.publish f) (published ++ [b.stamp f]) where
  sequence := by simp [EventBus.publish, h.sequence]
  numbered := by
    simp [h.numbered, stamp, h.sequence, List.range'_concat, Nat.add_comm]
  buffer := by
    simp only [EventBus.publish, h.buffer, newest_append_newest]

theorem Inv.subscribe {b : EventBus} {published : List Event} (h : Inv b published) :
    Inv b.subscribe published :=
  ⟨h.sequence, h.numbered, h.buffer⟩

theorem Inv.unsubscribe {b : EventBus} {published : List Event} (h : Inv b published)
    (id : Nat) : Inv (b.unsubscribe id) published :=
  ⟨h.sequence, h.numbered, h.buffer⟩

theorem Inv.queueGet {b b' : EventBus} {item : QueueItem} {published : List Event}
    (h : Inv b published) {id : Nat} (hg : b.queueGet id = some (item, b')) :
    Inv b' published := by
  obtain ⟨rest, _, rfl⟩ := queueGet_eq_some hg
  exact ⟨h.sequence, h.numbered, h.buffer⟩

/-- Sequence numbers are positions in the history. -/
theorem Inv.getElem_sequence {b : EventBus} {published : List Event}
    (h : Inv b published) {i : Nat} (hi : i < published.length) :
    published[i].sequence = i + 1 := by
  have := congrArg (fun l => l[i]?) h.numbered
  simp only [List.getElem?_map, List.getElem?_eq_getElem hi, Option.map_some] at this
  rw [List.getElem?_range' (by omega)] at this
  simpa [Nat.add_comm] using this

/-- In the numbered history, filtering by sequence is dropping a prefix. -/
theorem filter_sequence_drop {published : List Event} {m : Nat}
    (h : published.map Event.sequence = List.range' (m + 1) published.length) (k : Nat)
    (hk : m ≤ k) :
    published.filter (fun e => (k : Int) < (e.sequence : Int)) = published.drop (k - m) := by
  induction published generalizing m with
  | nil => simp
  | cons e es ih =>
    simp only [List.map_cons, List.length_cons, List.range'_succ, List.cons.injEq] at h
    obtain ⟨he, hes⟩ := h
    rcases Nat.eq_or_lt_of_le hk with rfl | hlt
    · -- nothing is dropped: every sequence here is above `m`
      have hall : ∀ x ∈ es, (m : Int) < (x.sequence : Int) := by
        intro x hx
        have : x.sequence ∈ List.range' (m + 1 + 1) es.length :=
          hes ▸ List.mem_map_of_mem hx
        have := (List.mem_range'_1.mp this).1
        omega
      simp only [Nat.sub_self, List.drop_zero]
      exact List.filter_eq_self.mpr fun x hx => by
        rcases List.mem_cons.mp hx with rfl | hx
        · simp only [he, decide_eq_true_eq]
          omega
        · simpa using hall x hx
    · have hdrop : k - m = (k - (m + 1)) + 1 := by omega
      rw [List.filter_cons_of_neg (by simp [he]; omega), ih hes hlt, hdrop, List.drop_succ_cons]

/-- The events numbered above `k`. -/
def eventsAfter (k : Int) (published : List Event) : List Event :=
  published.filter fun e => k < (e.sequence : Int)

theorem Inv.eventsAfter_eq {b : EventBus} {published : List Event}
    (h : Inv b published) (k : Nat) : eventsAfter k published = published.drop k := by
  simpa [eventsAfter] using filter_sequence_drop (m := 0) (by simpa using h.numbered) k (by omega)

/-- The events after `k` carry the numbers `k + 1`, `k + 2`, … -/
theorem Inv.eventsAfter_numbered {b : EventBus} {published : List Event}
    (h : Inv b published) (k : Nat) :
    (eventsAfter k published).map Event.sequence
      = List.range' (k + 1) (published.length - k) := by
  rw [h.eventsAfter_eq, List.map_drop, h.numbered, List.drop_range']
  simp [Nat.add_comm]

theorem eventsAfter_append (k : Int) (xs ys : List Event) :
    eventsAfter k (xs ++ ys) = eventsAfter k xs ++ eventsAfter k ys :=
  List.filter_append ..

theorem Inv.buffer_length {b : EventBus} {published : List Event} (h : Inv b published) :
    b.buffer.length = min b.replayBufferSize published.length := by
  rw [h.buffer, newest, List.length_drop]
  omega

/-- The buffer starts where the history that has been forgotten ends. -/
theorem Inv.oldest_sequence {b : EventBus} {published : List Event} (h : Inv b published)
    {oldest : Event} {rest : List Event} (hb : b.buffer = oldest :: rest) :
    oldest.sequence = published.length - b.replayBufferSize + 1 := by
  have hlen := h.buffer_length
  rw [hb, List.length_cons] at hlen
  have hlt : published.length - b.replayBufferSize < published.length := by omega
  have hbuf : published.drop (published.length - b.replayBufferSize) = oldest :: rest :=
    h.buffer.symm.trans hb
  rw [List.drop_eq_getElem_cons hlt, List.cons.injEq] at hbuf
  rw [← hbuf.1, h.getElem_sequence hlt]

/-- From a position that the buffer still covers, the events after it are
those the buffer holds. -/
theorem Inv.buffer_filter {b : EventBus} {published : List Event} (h : Inv b published)
    {k : Nat} (hk : published.length - b.replayBufferSize ≤ k) :
    b.buffer.filter (fun e => (k : Int) < (e.sequence : Int)) = published.drop k := by
  have hnum : (published.drop (published.length - b.replayBufferSize)).map Event.sequence
      = List.range' (published.length - b.replayBufferSize + 1)
        (published.drop (published.length - b.replayBufferSize)).length := by
    rw [List.map_drop, h.numbered, List.drop_range', List.length_drop]
    simp [Nat.add_comm]
  rw [h.buffer, newest, filter_sequence_drop hnum k hk, List.drop_drop]
  congr 1
  omega

/-- **Replay is complete**: for a position the bus has reached, a replay that
is granted holds every event after it, and the position is not negative. -/
theorem Inv.replaySince_eq {b : EventBus} {published evs : List Event}
    (h : Inv b published) (hsize : 0 < b.replayBufferSize) {k : Int}
    (hk : k ≤ b.sequence) (hr : b.replaySince k = some evs) :
    0 ≤ k ∧ evs = eventsAfter k published := by
  have hnil : eventsAfter (published.length : Nat) published = [] := by
    rw [h.eventsAfter_eq]
    simp
  unfold replaySince at hr
  split at hr
  · rename_i hks
    cases hr
    rw [hks, h.sequence, hnil]
    exact ⟨by omega, rfl⟩
  · rename_i hne
    have hpos : k < published.length := by
      rw [h.sequence] at hk hne
      omega
    split at hr
    · -- an empty buffer means nothing was ever published
      rename_i hb
      have hlen := h.buffer_length
      rw [hb, List.length_nil] at hlen
      split at hr
      · cases hr
        omega
      · cases hr
    · rename_i oldest rest hb
      have hold := h.oldest_sequence hb
      split at hr
      · cases hr
      · cases hr
        obtain ⟨n, rfl⟩ : ∃ n : Nat, k = n := ⟨k.toNat, by omega⟩
        rw [h.eventsAfter_eq]
        exact ⟨by omega, h.buffer_filter (by omega)⟩

/-- A position the bus has reached is refused exactly when an event after it
has left the buffer. -/
theorem Inv.replaySince_none_iff {b : EventBus} {published : List Event}
    (h : Inv b published) (hsize : 0 < b.replayBufferSize) {k : Nat}
    (hk : k ≤ published.length) :
    b.replaySince k = none ↔ k < published.length - b.replayBufferSize := by
  unfold replaySince
  rw [h.sequence]
  by_cases hks : (k : Int) = (published.length : Nat)
  · rw [if_pos hks]
    simp only [reduceCtorEq, false_iff]
    omega
  · rw [if_neg hks]
    have hlen := h.buffer_length
    cases hb : b.buffer with
    | nil =>
      rw [hb, List.length_nil] at hlen
      omega
    | cons oldest rest =>
      have hold := h.oldest_sequence hb
      simp only [hold]
      split <;> simp <;> omega

/-- Beyond the current sequence every position is granted the empty replay,
once something has been published. -/
theorem Inv.replaySince_beyond {b : EventBus} {published : List Event}
    (h : Inv b published) (hsize : 0 < b.replayBufferSize) {k : Nat}
    (hk : published.length < k) :
    b.replaySince k = if published = [] then none else some [] := by
  unfold replaySince
  rw [h.sequence, if_neg (by omega)]
  have hlen := h.buffer_length
  cases published with
  | nil =>
    have hb : b.buffer = [] := List.length_eq_zero_iff.mp (by simpa using hlen)
    simp only [List.length_nil] at hk
    simp only [hb, if_true]
    rw [if_neg (by omega)]
  | cons e es =>
    cases hb : b.buffer with
    | nil =>
      rw [hb, List.length_nil, List.length_cons] at hlen
      omega
    | cons oldest rest =>
      have hold := h.oldest_sequence hb
      have hfilter := h.buffer_filter (k := k) (by omega)
      rw [hb] at hfilter
      simp only [hold]
      rw [if_neg (by omega), hfilter, List.drop_eq_nil_of_le (by omega), if_neg (by simp)]

end EventBus

end Fusion
