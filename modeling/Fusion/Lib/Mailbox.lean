import Mathlib.Data.List.Infix
import Mathlib.Data.List.Nodup
import Mathlib.Data.List.ReduceOption

/-!
# Mailbox — a bounded queue that is closed when it overflows

One reader's queue, beside the history of what was offered to it and what
the reader took. An offer that finds the queue full drops the oldest waiting
item, puts an end marker (`none`) in and detaches the mailbox: no later offer
reaches it. Whether the reader is then told the truth depends on the
capacity: the dropped item leaves a hole unless it was the only one waiting.
-/

/-- A queue between one writer and one reader, with their history. -/
structure Mailbox (α : Type*) where
  /-- a capacity of 0 means no bound -/
  capacity : Nat
  attached : Bool
  queue : List (Option α)
  /-- everything offered since the mailbox was made, oldest first -/
  offered : List α
  /-- what the reader took, oldest first -/
  taken : List (Option α)
  /-- some offer found the queue full -/
  overflowed : Bool

namespace Mailbox

variable {α : Type*}

/-- An empty mailbox. -/
def fresh (capacity : Nat) : Mailbox α where
  capacity := capacity
  attached := true
  queue := []
  offered := []
  taken := []
  overflowed := false

/-- No item fits in. -/
def full (m : Mailbox α) : Bool := 0 < m.capacity && m.capacity ≤ m.queue.length

/-- An item is put in, or the reader is cut off. -/
def offer (m : Mailbox α) (a : α) : Mailbox α :=
  { m with
    attached := m.attached && !m.full
    queue :=
      if m.attached then if m.full then m.queue.tail ++ [none] else m.queue ++ [some a]
      else m.queue
    offered := m.offered ++ [a]
    overflowed := m.overflowed || m.attached && m.full }

/-- The reader takes the first item; on an empty queue it waits. -/
def take (m : Mailbox α) : Mailbox α :=
  match m.queue with
  | [] => m
  | item :: rest => { m with queue := rest, taken := m.taken ++ [item] }

/-- No offer reaches the mailbox from here on. -/
def detach (m : Mailbox α) : Mailbox α := { m with attached := false }

/-- What can happen to a mailbox. -/
inductive Op (α : Type*)
  | offer (a : α)
  | take
  | detach
  | keep

/-- One operation. -/
def apply (m : Mailbox α) : Op α → Mailbox α
  | .offer a => m.offer a
  | .take => m.take
  | .detach => m.detach
  | .keep => m

/-- What the reader has taken, followed by what waits for it: all it will
ever take, if nothing more is offered. -/
def items (m : Mailbox α) : List (Option α) := m.taken ++ m.queue

/-- The items that are not the end marker. -/
def events (m : Mailbox α) : List α := m.items.reduceOption

/-! ## The law -/

/-- **The reader is told the truth**: it gets what was offered, from the
first on and without a hole, and one end marker after that exactly if an
offer found the queue full. While the mailbox is attached nothing is missing
at the end either. -/
structure Lawful (m : Mailbox α) : Prop where
  events : m.events <+: m.offered
  items : m.items = m.events.map some ++ (if m.overflowed then [none] else [])
  complete : m.attached = true → m.events = m.offered

/-- What the operations keep whatever the capacity. -/
structure Inv (m : Mailbox α) : Prop where
  bounded : 0 < m.capacity → m.queue.length ≤ m.capacity
  closed : m.attached = true → m.overflowed = false

/-- The operation drops an item and keeps a later one. -/
def Drops (m : Mailbox α) : Op α → Prop
  | .offer _ => m.attached = true ∧ m.full = true ∧ 2 ≤ m.capacity
  | _ => False

theorem Lawful.fresh (capacity : Nat) : (fresh capacity : Mailbox α).Lawful :=
  ⟨List.nil_prefix, rfl, fun _ => rfl⟩

theorem Inv.fresh (capacity : Nat) : (fresh capacity : Mailbox α).Inv :=
  ⟨fun _ => Nat.zero_le _, fun _ => rfl⟩

theorem reduceOption_map_some (xs : List α) : (xs.map some).reduceOption = xs := by
  simp [List.reduceOption, List.filterMap_map]

/-- A part of a marked list: it has the marker only at its end, and then it
is the whole list. -/
theorem marked_append {xs ys : List (Option α)} {es : List α} {marked : Bool}
    (h : xs ++ ys = es.map some ++ (if marked then [none] else [])) :
    xs = xs.reduceOption.map some ∨
      xs = xs.reduceOption.map some ++ [none] ∧ marked = true ∧ ys = [] := by
  rcases List.append_eq_append_iff.mp h with ⟨as, hes, _⟩ | ⟨as, hxs, htail⟩
  · obtain ⟨l₁, l₂, _, rfl, _⟩ := List.map_eq_append_iff.mp hes
    rw [reduceOption_map_some]
    exact .inl rfl
  · cases marked with
    | false =>
      obtain ⟨rfl, _⟩ := List.nil_eq_append_iff.mp htail
      rw [hxs, List.append_nil, reduceOption_map_some]
      exact .inl rfl
    | true =>
      rcases List.append_eq_singleton_iff.mp htail.symm with ⟨rfl, _⟩ | ⟨rfl, rfl⟩
      · rw [hxs, List.append_nil, reduceOption_map_some]
        exact .inl rfl
      · refine .inr ⟨?_, rfl, rfl⟩
        rw [hxs, List.reduceOption_append, reduceOption_map_some]
        simp

/-- What a lawful reader has taken so far. -/
theorem Lawful.taken {m : Mailbox α} (h : m.Lawful) :
    m.taken.reduceOption <+: m.offered ∧
      (m.taken = m.taken.reduceOption.map some ∨
        m.taken = m.taken.reduceOption.map some ++ [none] ∧
          m.overflowed = true ∧ m.queue = []) := by
  have hev : m.events = m.taken.reduceOption ++ m.queue.reduceOption :=
    List.reduceOption_append _ _
  constructor
  · have htaken : m.taken.reduceOption <+: m.events := hev ▸ List.prefix_append _ _
    exact htaken.trans h.events
  · exact marked_append h.items

theorem take_items (m : Mailbox α) : m.take.items = m.items := by
  unfold take
  split
  · rfl
  · rename_i item rest hq
    simp [items, hq]

theorem Lawful.take {m : Mailbox α} (h : m.Lawful) : m.take.Lawful := by
  have hi := take_items m
  have he : m.take.events = m.events := congrArg List.reduceOption hi
  have hsame : m.take.offered = m.offered ∧ m.take.overflowed = m.overflowed ∧
      m.take.attached = m.attached := by
    unfold Mailbox.take
    split <;> exact ⟨rfl, rfl, rfl⟩
  obtain ⟨ho, hv, ha⟩ := hsame
  refine ⟨?_, ?_, ?_⟩
  · rw [he, ho]
    exact h.events
  · rw [hi, he, hv]
    exact h.items
  · rw [he, ho, ha]
    exact h.complete

theorem Inv.take {m : Mailbox α} (h : m.Inv) : m.take.Inv := by
  unfold Mailbox.take
  split
  · exact h
  · rename_i item rest hq
    refine ⟨fun hc => ?_, h.closed⟩
    have := h.bounded hc
    rw [hq, List.length_cons] at this
    exact Nat.le_of_succ_le this

theorem Lawful.detach {m : Mailbox α} (h : m.Lawful) : m.detach.Lawful :=
  ⟨h.events, h.items, fun ha => nomatch ha⟩

theorem Inv.detach {m : Mailbox α} (h : m.Inv) : m.detach.Inv :=
  ⟨h.bounded, fun ha => nomatch ha⟩

/-! ## An offer, by what it finds -/

theorem offer_detached {m : Mailbox α} (ha : m.attached = false) (a : α) :
    m.offer a = { m with offered := m.offered ++ [a] } := by
  cases m
  simp_all [offer]

theorem offer_room {m : Mailbox α} (ha : m.attached = true) (hf : m.full = false) (a : α) :
    m.offer a = { m with queue := m.queue ++ [some a], offered := m.offered ++ [a] } := by
  cases m
  simp_all [offer]

theorem offer_full {m : Mailbox α} (ha : m.attached = true) (hf : m.full = true) (a : α) :
    m.offer a =
      { m with
        attached := false
        queue := m.queue.tail ++ [none]
        offered := m.offered ++ [a]
        overflowed := true } := by
  cases m
  simp_all [offer]

theorem full_iff {m : Mailbox α} :
    m.full = true ↔ 0 < m.capacity ∧ m.capacity ≤ m.queue.length := by
  simp [full]

theorem Inv.offer {m : Mailbox α} (h : m.Inv) (a : α) : (m.offer a).Inv := by
  cases ha : m.attached with
  | false =>
    rw [offer_detached ha]
    exact ⟨h.bounded, h.closed⟩
  | true =>
    cases hf : m.full with
    | false =>
      rw [offer_room ha hf]
      refine ⟨fun hc => ?_, h.closed⟩
      have hlt : ¬ (0 < m.capacity ∧ m.capacity ≤ m.queue.length) := by
        rw [← full_iff, hf]
        exact Bool.false_ne_true
      have hc' : 0 < m.capacity := hc
      simp only [List.length_append, List.length_singleton]
      omega
    | true =>
      rw [offer_full ha hf]
      refine ⟨fun hc => ?_, fun hcon => nomatch hcon⟩
      have hlen := h.bounded hc
      obtain ⟨_, hge⟩ := full_iff.mp hf
      have hc' : 0 < m.capacity := hc
      simp only [List.length_append, List.length_tail, List.length_singleton]
      omega

/-- Before it overflows, an attached lawful mailbox holds every event. -/
theorem Lawful.items_attached {m : Mailbox α} (h : m.Lawful) (hi : m.Inv)
    (ha : m.attached = true) : m.items = m.offered.map some := by
  rw [h.items, hi.closed ha, h.complete ha]
  simp

/-- An offer to a detached mailbox, or to one with room, is no trouble. -/
theorem Lawful.offer_accepted {m : Mailbox α} (h : m.Lawful) (hi : m.Inv) (a : α)
    (hroom : ¬ (m.attached = true ∧ m.full = true)) : (m.offer a).Lawful := by
  cases ha : m.attached with
  | false =>
    rw [offer_detached ha]
    refine ⟨h.events.trans (List.prefix_append _ _), h.items, fun hcon => ?_⟩
    exact absurd (ha.symm.trans hcon) Bool.false_ne_true
  | true =>
    have hf : m.full = false := by
      cases hf : m.full with
      | false => rfl
      | true => exact absurd ⟨ha, hf⟩ hroom
    have hnew : m.taken ++ (m.queue ++ [some a]) = (m.offered ++ [a]).map some := by
      rw [← List.append_assoc, ← Mailbox.items, h.items_attached hi ha]
      simp
    have hev : (m.taken ++ (m.queue ++ [some a])).reduceOption = m.offered ++ [a] := by
      rw [hnew, reduceOption_map_some]
    rw [offer_room ha hf]
    refine ⟨?_, ?_, fun _ => hev⟩
    · show (m.taken ++ (m.queue ++ [some a])).reduceOption <+: m.offered ++ [a]
      rw [hev]
    · show m.taken ++ (m.queue ++ [some a]) =
        (m.taken ++ (m.queue ++ [some a])).reduceOption.map some ++
          (if m.overflowed then [none] else [])
      rw [hev, hnew, hi.closed ha]
      simp

/-- A full lawful mailbox: `y` is the item an overflow drops. -/
theorem Lawful.split_full {m : Mailbox α} (h : m.Lawful) (hi : m.Inv)
    (ha : m.attached = true) (hf : m.full = true) :
    ∃ ts y rs, m.taken = ts.map some ∧ m.queue = some y :: rs.map some ∧
      m.offered = ts ++ y :: rs := by
  have hitems := h.items_attached hi ha
  obtain ⟨ts, qs, ho, ht, hq⟩ := List.map_eq_append_iff.mp hitems.symm
  cases qs with
  | nil =>
    obtain ⟨hpos, hge⟩ := full_iff.mp hf
    rw [← hq, List.map_nil, List.length_nil] at hge
    omega
  | cons y rs => exact ⟨ts, y, rs, ht.symm, hq.symm, ho⟩

/-- What an overflow leaves to the reader: everything but the dropped item. -/
theorem Lawful.offer_full_iff {m : Mailbox α} {ts rs : List α} {y : α}
    (ha : m.attached = true) (hf : m.full = true) (ht : m.taken = ts.map some)
    (hq : m.queue = some y :: rs.map some) (a : α) :
    (m.offer a).Lawful ↔ ts ++ rs <+: m.offered ++ [a] := by
  have hitems : m.taken ++ (m.queue.tail ++ [none]) = (ts ++ rs).map some ++ [none] := by
    simp [ht, hq]
  have hev : (m.taken ++ (m.queue.tail ++ [none])).reduceOption = ts ++ rs := by
    rw [hitems, List.reduceOption_append, reduceOption_map_some]
    simp
  rw [offer_full ha hf]
  constructor
  · intro h
    rw [← hev]
    exact h.events
  · intro h
    refine ⟨?_, ?_, fun hcon => nomatch hcon⟩
    · show (m.taken ++ (m.queue.tail ++ [none])).reduceOption <+: m.offered ++ [a]
      rw [hev]
      exact h
    · show m.taken ++ (m.queue.tail ++ [none]) =
        (m.taken ++ (m.queue.tail ++ [none])).reduceOption.map some ++ [none]
      rw [hev, hitems]

/-- **An offer keeps the law exactly if it drops nothing that has a
successor in the queue.** -/
theorem Lawful.offer_iff {m : Mailbox α} (h : m.Lawful) (hi : m.Inv) {a : α}
    (hnodup : m.offered.Nodup) :
    (m.offer a).Lawful ↔ ¬ m.Drops (.offer a) := by
  by_cases hfull : m.attached = true ∧ m.full = true
  · obtain ⟨ha, hf⟩ := hfull
    obtain ⟨ts, y, rs, ht, hq, ho⟩ := h.split_full hi ha hf
    obtain ⟨hpos, hge⟩ := full_iff.mp hf
    have hle := hi.bounded hpos
    rw [hq, List.length_cons, List.length_map] at hle hge
    rw [Lawful.offer_full_iff ha hf ht hq, ho]
    cases rs with
    | nil =>
      -- the dropped item was the last before the marker
      refine ⟨fun _ hd => ?_, fun _ => ?_⟩
      · have := hd.2.2
        simp only [List.length_nil] at hge
        omega
      · rw [List.append_assoc]
        exact List.prefix_append_right_inj ts |>.mpr List.nil_prefix
    | cons r rs =>
      refine ⟨fun hp => ?_, fun hd => ?_⟩
      · -- the reader would find `r` where `y` belongs
        rw [List.append_assoc, List.prefix_append_right_inj, List.cons_append,
          List.cons_prefix_cons] at hp
        obtain ⟨rfl, _⟩ := hp
        rw [ho, List.nodup_append] at hnodup
        exact absurd hnodup.2.1 (by simp)
      · refine absurd ⟨ha, hf, ?_⟩ hd
        simp only [List.length_cons] at hle
        omega
  · refine ⟨fun _ hd => hfull ⟨hd.1, hd.2.1⟩, fun _ => h.offer_accepted hi a hfull⟩

/-! ## One operation -/

theorem Inv.apply {m : Mailbox α} (h : m.Inv) (op : Op α) : (m.apply op).Inv := by
  cases op with
  | offer a => exact h.offer a
  | take => exact h.take
  | detach => exact h.detach
  | keep => exact h

/-- **One operation keeps the law exactly if it drops nothing that has a
successor in the queue.** -/
theorem Lawful.apply_iff {m : Mailbox α} (h : m.Lawful) (hi : m.Inv)
    (hnodup : m.offered.Nodup) (op : Op α) : (m.apply op).Lawful ↔ ¬ m.Drops op := by
  cases op with
  | offer a => exact h.offer_iff hi hnodup
  | take => exact ⟨fun _ hd => hd, fun _ => h.take⟩
  | detach => exact ⟨fun _ hd => hd, fun _ => h.detach⟩
  | keep => exact ⟨fun _ hd => hd, fun _ => h⟩

end Mailbox
