import Fusion.Plugins.Mightyzap

/-!
# MightyzapPolls — what the adapter's snapshot says of its polls

`snapshot` shows the cached values with one time of observation and a quality
that goes with the age of that time. The system here is the adapter under any
sequence of poll outcomes, with the time moving on between them; beside it the
history keeps what the last poll that was read whole has read.
-/

namespace Fusion

/-! ## The state contract (contracts/state.py) -/

/-- How far an observed value can be trusted. -/
inductive Quality
  | good
  | stale
  | unknown
deriving DecidableEq

/-- Whether the device answers. -/
inductive Connection
  | connected
  | disconnected
deriving DecidableEq

/-- The values the adapter puts into a field. -/
inductive FieldValue
  | number (x : ℚ)
  | flag (b : Bool)
deriving DecidableEq

/-- A value, and when it was observed. -/
structure ObservedValue where
  value : FieldValue
  observedAt : ℚ
  quality : Quality

/-- What `snapshot` returns. -/
structure TargetState where
  targetId : String
  connection : Connection
  fields : Dict String ObservedValue

namespace Mightyzap

open Transition

/-- `STALE_AFTER_S` -/
def staleAfter : ℚ := pollInterval * 5

namespace Adapter

/-- The three fields, all with one time and one quality. -/
def fields (positionMm : ℚ) (moving alarm : Bool) (observedAt : ℚ) (quality : Quality) :
    Dict String ObservedValue :=
  ⟨[("position", ⟨.number positionMm, observedAt, quality⟩),
    ("moving", ⟨.flag moving, observedAt, quality⟩),
    ("alarm", ⟨.flag alarm, observedAt, quality⟩)], by simp⟩

/-- The quality `snapshot` gives to every field. -/
def quality (a : Adapter) (now : ℚ) : Quality :=
  let ageS := now - a.observedAt
  if ¬ a.connected then .unknown else if ageS < staleAfter then .good else .stale

/-- `snapshot` at the time `now`. -/
def snapshot (a : Adapter) (now : ℚ) : TargetState where
  targetId := a.targetId
  connection := if a.connected then .connected else .disconnected
  fields := fields a.positionMm a.moving a.alarm a.observedAt (a.quality now)

theorem fields_inj {p q : ℚ} {m n b c : Bool} {t u : ℚ} {k l : Quality}
    (h : fields p m b t k = fields q n c u l) : p = q ∧ m = n ∧ b = c ∧ t = u ∧ k = l := by
  have hitems := congrArg Dict.items h
  simp only [fields, List.cons.injEq, Prod.mk.injEq, ObservedValue.mk.injEq,
    FieldValue.number.injEq, FieldValue.flag.injEq] at hitems
  obtain ⟨⟨-, hp, ht, hk⟩, ⟨-, hm, -⟩, ⟨-, hb, -⟩, -⟩ := hitems
  exact ⟨hp, hm, hb, ht, hk⟩

theorem quality_eq_good (a : Adapter) (now : ℚ) :
    a.quality now = .good ↔ a.connected = true ∧ now - a.observedAt < staleAfter := by
  unfold quality
  cases a.connected
  · simp
  · by_cases hage : now - a.observedAt < staleAfter
    · simp [hage]
    · simp [hage]

/-- A list that covers the polled block is taken whole. -/
theorem pollReturned_whole (a : Adapter) (now : ℚ) {registers : List Nat}
    (h : pollBlockCount ≤ registers.length) :
    a.pollReturned now registers =
      { a with
        positionMm := registers.getD offsetPresentPosition 0 / fullStrokeCounts * a.strokeMm
        moving := registers.getD offsetMoving 0 ≠ 0
        alarm := registers.getD offsetHwError 0 ≠ 0
        connected := true
        observedAt := now } := by
  have hlen : 12 ≤ registers.length := h
  have hget : ∀ i < 12, registers[i]? = some (registers.getD i 0) := by
    intro i hi
    rw [List.getD_eq_getElem?_getD, List.getElem?_eq_getElem (by omega)]
    rfl
  unfold pollReturned
  rw [hget offsetPresentPosition (by decide), hget offsetMoving (by decide),
    hget offsetHwError (by decide)]

/-- A shorter list ends the poll as a failed one; the position register, if
the list has it, was taken before that. -/
theorem pollReturned_short (a : Adapter) (now : ℚ) {registers : List Nat}
    (h : registers.length < pollBlockCount) :
    a.pollReturned now registers =
      pollFailed { a with
        positionMm := (registers[offsetPresentPosition]?).elim a.positionMm
          fun position => position / fullStrokeCounts * a.strokeMm } now := by
  have hlen : registers.length < 12 := h
  have hmoving : registers[offsetMoving]? = none :=
    List.getElem?_eq_none (show registers.length ≤ 11 by omega)
  unfold pollReturned
  rw [hmoving]
  cases registers[offsetPresentPosition]? with
  | none => rfl
  | some position => rfl

end Adapter

/-! ## The adapter under its polls -/

/-- What one poll has read: the three values and when. -/
structure Reading where
  positionMm : ℚ
  moving : Bool
  alarm : Bool
  takenAt : ℚ

/-- What a list that covers the polled block says. -/
def Reading.ofRegisters (strokeMm now : ℚ) (registers : List Nat) : Reading where
  positionMm := registers.getD offsetPresentPosition 0 / fullStrokeCounts * strokeMm
  moving := registers.getD offsetMoving 0 ≠ 0
  alarm := registers.getD offsetHwError 0 ≠ 0
  takenAt := now

/-- The adapter beside what its polls have read. -/
structure Polled where
  adapter : Adapter
  now : ℚ
  /-- history: what the last poll that succeeded has read, or the initial
  values -/
  whole : Reading
  /-- history: the last poll succeeded -/
  succeeded : Bool

/-- Time passes, or a poll ends. -/
inductive PollLabel
  | advance (t : ℚ)
  /-- the read of a poll returns a register list -/
  | returned (registers : List Nat)
  /-- the read of a poll raises -/
  | raised
  /-- the poll is cancelled in its read (`disconnect`): no outcome, since
  `except Exception` lets it pass -/
  | cancelled

namespace Polled

/-- Nothing was polled. -/
def init (targetId : String) (strokeMm created : ℚ) : Polled where
  adapter := .new targetId strokeMm created
  now := created
  whole := ⟨0, false, false, created⟩
  succeeded := false

/-- One poll, at the time of the clock. -/
def step (s : Polled) : PollLabel → Option Polled
  | .advance t => if t < s.now then none else some { s with now := t }
  | .returned registers =>
      let s := { s with adapter := s.adapter.pollReturned s.now registers }
      if pollBlockCount ≤ registers.length then
        some { s with
          whole := .ofRegisters s.adapter.strokeMm s.now registers
          succeeded := true }
      else some { s with succeeded := false }
  | .raised => some { s with adapter := s.adapter.pollFailed s.now, succeeded := false }
  | .cancelled => some s

/-- The snapshot shows the last whole poll, with the time of it, and calls it
good only while it is the last poll and young enough. -/
structure TakenWhole (s : Polled) : Prop where
  shown : ∃ quality, (s.adapter.snapshot s.now).fields =
    Adapter.fields s.whole.positionMm s.whole.moving s.whole.alarm s.whole.takenAt quality
  good : ∀ name field, (s.adapter.snapshot s.now).fields.get name = some field →
    field.quality = .good → s.succeeded = true ∧ s.now - s.whole.takenAt < staleAfter

/-- The outcome leaves the snapshot alone or replaces it whole: the list
covers the polled block, or the poll fails in the instant of the last
observation and brings no other position. -/
def Harmless (s : Polled) : PollLabel → Prop
  | .advance _ | .cancelled => True
  | .returned registers =>
      pollBlockCount ≤ registers.length ∨
        s.adapter.observedAt = s.now ∧
          ∀ position, registers[offsetPresentPosition]? = some position →
            (position / fullStrokeCounts * s.adapter.strokeMm : ℚ) = s.adapter.positionMm
  | .raised => s.adapter.observedAt = s.now

/-! ## One outcome -/

theorem get_fields {p t : ℚ} {m b : Bool} {q : Quality} {name : String} {field : ObservedValue}
    (h : (Adapter.fields p m b t q).get name = some field) : field.quality = q := by
  simp only [Adapter.fields, Dict.get, Dict.lookup] at h
  split at h
  · cases h
    rfl
  · split at h
    · cases h
      rfl
    · split at h
      · cases h
        rfl
      · cases h

variable {s t : Polled}

/-- The same, about the adapter itself. -/
theorem takenWhole_iff : s.TakenWhole ↔
    (s.adapter.positionMm = s.whole.positionMm ∧ s.adapter.moving = s.whole.moving ∧
      s.adapter.alarm = s.whole.alarm ∧ s.adapter.observedAt = s.whole.takenAt) ∧
    (s.adapter.quality s.now = .good →
      s.succeeded = true ∧ s.now - s.whole.takenAt < staleAfter) := by
  constructor
  · intro h
    obtain ⟨quality, hshown⟩ := h.shown
    obtain ⟨hp, hm, hb, ht, -⟩ := Adapter.fields_inj hshown
    refine ⟨⟨hp, hm, hb, ht⟩, ?_⟩
    intro hgood
    have hposition : (s.adapter.snapshot s.now).fields.get "position" =
        some ⟨.number s.adapter.positionMm, s.adapter.observedAt, s.adapter.quality s.now⟩ := rfl
    exact h.good _ _ hposition hgood
  · intro ⟨⟨hp, hm, hb, ht⟩, hgood⟩
    constructor
    · exact ⟨s.adapter.quality s.now, by rw [Adapter.snapshot, hp, hm, hb, ht]⟩
    · intro name field hget hquality
      have hfield : field.quality = s.adapter.quality s.now := get_fields hget
      exact hgood (hfield ▸ hquality)

theorem init_takenWhole (targetId : String) (strokeMm created : ℚ) :
    (init targetId strokeMm created).TakenWhole := by
  rw [takenWhole_iff]
  constructor
  · exact ⟨rfl, rfl, rfl, rfl⟩
  · intro hgood
    obtain ⟨hconnected, -⟩ := (Adapter.quality_eq_good ..).mp hgood
    cases hconnected

/-- A poll that failed: nothing is called good, so what is shown is whole
exactly when neither the time nor the position has moved. -/
theorem takenWhole_failed (h : s.TakenWhole) (position : ℚ) :
    TakenWhole { s with
      adapter := Adapter.pollFailed { s.adapter with positionMm := position } s.now
      succeeded := false } ↔
    s.adapter.observedAt = s.now ∧ position = s.adapter.positionMm := by
  obtain ⟨⟨hp, hm, hb, ht⟩, -⟩ := takenWhole_iff.mp h
  rw [takenWhole_iff]
  constructor
  · intro h'
    obtain ⟨⟨hp', -, -, ht'⟩, -⟩ := h'
    exact ⟨ht.trans ht'.symm, hp'.trans hp.symm⟩
  · intro ⟨hnow, hposition⟩
    refine ⟨⟨hposition.trans hp, hm, hb, hnow.symm.trans ht⟩, ?_⟩
    intro hgood
    obtain ⟨hconnected, -⟩ := (Adapter.quality_eq_good ..).mp hgood
    cases hconnected

/-- What a poll that covers the block leaves is whole, whatever was before. -/
theorem takenWhole_returned {registers : List Nat} (hlen : pollBlockCount ≤ registers.length)
    (h : s.step (.returned registers) = some t) : t.TakenWhole := by
  simp only [step, if_pos hlen, Option.some.injEq] at h
  subst h
  rw [takenWhole_iff]
  simp only [Adapter.pollReturned_whole _ _ hlen, Reading.ofRegisters, sub_self, true_and]
  intro _
  norm_num [staleAfter, pollInterval]

/-- The passing of time makes nothing good. -/
theorem takenWhole_advance (h : s.TakenWhole) {now : ℚ} (hnow : s.now ≤ now) :
    TakenWhole { s with now := now } := by
  obtain ⟨hvalues, hgood⟩ := takenWhole_iff.mp h
  rw [takenWhole_iff]
  refine ⟨hvalues, ?_⟩
  intro hlater
  obtain ⟨hconnected, hage⟩ := (Adapter.quality_eq_good ..).mp hlater
  -- the age only grows, so what is young enough later was so before
  have hearlier : s.now - s.adapter.observedAt < staleAfter := by
    have : s.now - s.adapter.observedAt ≤ now - s.adapter.observedAt := sub_le_sub_right hnow _
    exact this.trans_lt hage
  obtain ⟨hsucceeded, -⟩ := hgood ((Adapter.quality_eq_good ..).mpr ⟨hconnected, hearlier⟩)
  exact ⟨hsucceeded, hvalues.2.2.2 ▸ hage⟩

/-- One step leaves the snapshot whole exactly when it is harmless. -/
theorem takenWhole_step (h : s.TakenWhole) {l : PollLabel} (hl : s.step l = some t) :
    t.TakenWhole ↔ s.Harmless l := by
  cases l with
  | advance now =>
    simp only [step] at hl
    split at hl
    · cases hl
    · rename_i hnow
      cases hl
      exact iff_of_true (takenWhole_advance h (not_lt.mp hnow)) trivial
  | returned registers =>
    rcases Nat.lt_or_ge registers.length pollBlockCount with hshort | hlen
    · have hnot : ¬ pollBlockCount ≤ registers.length := Nat.not_le.mpr hshort
      simp only [step, if_neg hnot, Option.some.injEq] at hl
      subst hl
      -- the position was assigned before the missing register raised
      rw [Adapter.pollReturned_short _ _ hshort, Harmless, or_iff_right hnot]
      apply (takenWhole_failed h _).trans
      cases registers[offsetPresentPosition]? with
      | none => simp
      | some position => simp
    · exact iff_of_true (takenWhole_returned hlen hl) (.inl hlen)
  | raised =>
    cases hl
    apply (takenWhole_failed h s.adapter.positionMm).trans
    exact and_iff_left rfl
  | cancelled =>
    cases hl
    exact iff_of_true h trivial

/-! ## Whole histories -/

/-- **Poll results are taken whole** throughout a history of polls exactly
when each of its outcomes is harmless. -/
theorem polls_whole_iff (targetId : String) (strokeMm created : ℚ) {xs : List (Step step)}
    (run : Run step (init targetId strokeMm created) xs s) :
    (∀ x ∈ xs, x.dst.TakenWhole) ↔ ∀ x ∈ xs, x.src.Harmless x.label := by
  apply Run.forall_dst_iff (init_takenWhole targetId strokeMm created) _ run
  intro x hx
  exact takenWhole_step hx x.fired

/-- A block as the device answers it: at the middle of its stroke, at rest. -/
def halfway : List Nat := [0, 0, 0, 0, 0, 0, 5000, 0, 0, 0, 0, 0]

theorem polls_whole_iff_halfway : ∃ (xs : List (Step step)) (s : Polled),
    Run step (init "rod" 87 0) xs s ∧
    xs.map Step.label = [.returned halfway, .advance (1 / 5), .returned halfway, .cancelled] ∧
    ∀ x ∈ xs, x.dst.TakenWhole := by
  obtain ⟨xs, s, run, hlabels, -⟩ := exec_labels step (init "rod" 87 0)
    [.returned halfway, .advance (1 / 5), .returned halfway, .cancelled] (fun _ => true)
    (by decide +kernel)
  refine ⟨xs, s, run, hlabels, (polls_whole_iff "rod" 87 0 run).mpr ?_⟩
  intro x hx
  have hlabel : x.label ∈ xs.map Step.label := List.mem_map_of_mem hx
  rw [hlabels] at hlabel
  simp only [List.mem_cons, List.not_mem_nil, or_false] at hlabel
  rcases hlabel with hl | hl | hl | hl
  · rw [hl]
    exact .inl (by decide)
  · rw [hl]
    trivial
  · rw [hl]
    exact .inl (by decide)
  · rw [hl]
    trivial

/-- A poll that fails a second after the last good one moves the time of
observation of the values that it did not read. -/
theorem polls_failed_refreshes : ¬ ∀ (targetId : String) (strokeMm created : ℚ)
    (xs : List (Step step)) (s : Polled), Run step (init targetId strokeMm created) xs s →
    ∀ x ∈ xs, x.dst.TakenWhole := by
  intro hall
  obtain ⟨xs, s, run, hmoved⟩ := execSteps_test step (init "rod" 87 0)
    [.returned halfway, .advance 1, .raised]
    (fun r => r.1.any fun x => x.dst.adapter.observedAt ≠ x.dst.whole.takenAt)
    (by decide +kernel)
  obtain ⟨x, hx, hne⟩ := List.any_eq_true.mp hmoved
  obtain ⟨⟨-, -, -, ht⟩, -⟩ := takenWhole_iff.mp (hall _ _ _ xs s run x hx)
  exact of_decide_eq_true hne ht

end Polled

end Mightyzap

end Fusion
