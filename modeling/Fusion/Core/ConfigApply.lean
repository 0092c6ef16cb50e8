import Fusion.Core.DeviceRuntime
import Fusion.Lib.CompareAndSet

/-!
# ConfigApply — concurrent calls of one ConfigService

Any number of `apply` calls wait for the lock, or hold it and await their
guard, while revisions are staged and other calls come and go. Each call
decides in one of two steps: at the lock, when the expected revision is not
the active one, or when its guard answers. In the order of these decisions
the records are a history of an atomic compare-and-set: the lock keeps every
other call from deciding between a check and its write.
-/

namespace Fusion

open Transition CompareAndSet

/-- A record, with the expectation of the call that made it and whether its
guard was asked. -/
structure Decision where
  expected : Option String
  asked : Bool
  record : ApplyRecord

/-- The decision as an operation on the active revision. -/
def Decision.op (d : Decision) : Op String :=
  match d.record.outcome, d.expected, d.asked with
  | .succeeded, expected, _ => .set expected d.record.revisionId
  | _, some expected, false => .miss expected
  | _, _, _ => .refuse

/-- The service and the calls of `apply` on it that overlap. -/
structure ConfigApply where
  now : ℚ
  service : ConfigService
  /-- the calls of `apply` that have not returned -/
  calls : Nat → Option ApplyCall
  /-- history: every record made, oldest first -/
  made : List Decision

namespace ConfigApply

/-- Nothing is staged and no call is made. -/
def init (now : ℚ) (journalLimit : Nat) : ConfigApply where
  now := now
  service := { ConfigService.new with journalLimit := journalLimit }
  calls := fun _ => none
  made := []

/-- Where call `i` is, if it has not returned. -/
def setCall (s : ConfigApply) (i : Nat) (call : Option ApplyCall) : ConfigApply :=
  { s with calls := Function.update s.calls i call }

/-- A call of `stage`, or the next stretch of a call of `apply`. -/
inductive Label
  | advance (dt : ℚ)
  | stage (kind freshId : String)
  /-- `apply` is called -/
  | apply (i : Nat) (revisionId : String) (expectedActiveRevision : Option String)
  /-- a waiting call gets the lock -/
  | locked (i : Nat)
  /-- the guard of a call answers -/
  | guarded (i : Nat) (answer : Except Fault Unit)
  /-- a call is cancelled where it is suspended -/
  | cancelled (i : Nat)

/-- The lock is taken: the call is rejected, or asks its guard. -/
def locked (s : ConfigApply) (i : Nat) (call : ApplyCall) : ConfigApply :=
  match s.service.applyLocked s.now call.revisionId call.expectedActiveRevision with
  | (none, service) => { s with service := service }.setCall i (some { call with guarding := true })
  | (some record, service) =>
      { s.setCall i none with
        service := service
        made := s.made ++ [⟨call.expectedActiveRevision, false, record⟩] }

/-- The guard answered: the call writes, or gives up. -/
def guarded (s : ConfigApply) (i : Nat) (call : ApplyCall) (answer : Except Fault Unit) :
    ConfigApply :=
  let (record, service) := s.service.applyGuarded s.now call.revisionId answer
  { s.setCall i none with
    service := service
    made := s.made ++ [⟨call.expectedActiveRevision, true, record⟩] }

/-- One stretch of one call. -/
def step (s : ConfigApply) : Label → Option ConfigApply
  | .advance dt => if 0 ≤ dt then some { s with now := s.now + dt } else none
  | .stage kind freshId => some { s with service := s.service.stage s.now kind freshId }
  | .apply i revisionId expected =>
      match s.calls i with
      | some _ => none
      | none =>
          match s.service.applyCheck revisionId with
          | .error _ => some s
          | .ok () => some (s.setCall i (some ⟨revisionId, expected, false⟩))
  | .locked i =>
      match s.calls i with
      | some call =>
          if !call.guarding && !s.service.applyLock then some (s.locked i call) else none
      | none => none
  | .guarded i answer =>
      match s.calls i with
      | some call => if call.guarding then some (s.guarded i call answer) else none
      | none => none
  | .cancelled i =>
      match s.calls i with
      | some call =>
          some ({ s with service :=
            { s.service with applyLock := s.service.applyLock && !call.guarding } }.setCall i none)
      | none => none

variable {s t : ConfigApply}

/-- The active revision. -/
def active (s : ConfigApply) : Option String := s.service.activeRevisionId

/-- Call `i` holds the lock and awaits its guard. -/
def Guarding (s : ConfigApply) (i : Nat) (call : ApplyCall) : Prop :=
  s.calls i = some call ∧ call.guarding = true

/-! ## Steps -/

/-- A call decided: its record is made, and it is over. -/
structure Decides (s t : ConfigApply) (i : Nat) (d : Decision) : Prop where
  made : t.made = s.made ++ [d]
  journal : t.service.journal = (s.service.journal ++ [d.record]).drop
    ((s.service.journal ++ [d.record]).length - s.service.journalLimit)
  limit : t.service.journalLimit = s.service.journalLimit
  lock : t.service.applyLock = false
  calls : t.calls = Function.update s.calls i none

/-- **What a step does.** -/
inductive Does (s : ConfigApply) : Label → ConfigApply → Prop
  | rests {l : Label} {t : ConfigApply} (active : t.active = s.active)
      (lock : t.service.applyLock = s.service.applyLock)
      (journal : t.service.journal = s.service.journal)
      (limit : t.service.journalLimit = s.service.journalLimit) (made : t.made = s.made)
      (calls : ∀ i call, t.Guarding i call ↔ s.Guarding i call) : Does s l t
  /-- the check passes: the call holds the lock -/
  | takes {i : Nat} {t : ConfigApply} (call : ApplyCall) (free : s.service.applyLock = false)
      (met : ∀ e, call.expectedActiveRevision = some e → s.active = some e)
      (active : t.active = s.active) (lock : t.service.applyLock = true)
      (journal : t.service.journal = s.service.journal)
      (limit : t.service.journalLimit = s.service.journalLimit) (made : t.made = s.made)
      (calls : t.calls = Function.update s.calls i (some call)) : Does s (.locked i) t
  | misses {i : Nat} {t : ConfigApply} (e : String) (record : ApplyRecord)
      (free : s.service.applyLock = false) (missed : s.active ≠ some e)
      (rejected : record.outcome = .rejected) (active : t.active = s.active)
      (decides : Decides s t i ⟨some e, false, record⟩) : Does s (.locked i) t
  | writes {i : Nat} {t : ConfigApply} (call : ApplyCall) (record : ApplyRecord)
      (guarding : s.Guarding i call) (succeeded : record.outcome = .succeeded)
      (revision : record.revisionId = call.revisionId) (active : t.active = some call.revisionId)
      (decides : Decides s t i ⟨call.expectedActiveRevision, true, record⟩) :
      Does s (.guarded i (.ok ())) t
  | refuses {i : Nat} {fault : Fault} {t : ConfigApply} (call : ApplyCall)
      (record : ApplyRecord) (guarding : s.Guarding i call) (kept : record.outcome ≠ .succeeded)
      (active : t.active = s.active)
      (decides : Decides s t i ⟨call.expectedActiveRevision, true, record⟩) :
      Does s (.guarded i (.error fault)) t
  /-- a cancelled call leaves no record, and frees the lock it held -/
  | drops {i : Nat} {t : ConfigApply} (call : ApplyCall) (was : s.calls i = some call)
      (active : t.active = s.active)
      (lock : t.service.applyLock = (s.service.applyLock && !call.guarding))
      (journal : t.service.journal = s.service.journal)
      (limit : t.service.journalLimit = s.service.journalLimit) (made : t.made = s.made)
      (calls : t.calls = Function.update s.calls i none) : Does s (.cancelled i) t

theorem locked_does {i : Nat} {call : ApplyCall} (free : s.service.applyLock = false) :
    Does s (.locked i) (s.locked i call) := by
  obtain ⟨revisionId, expected, guarding⟩ := call
  unfold locked ConfigService.applyLocked
  cases expected with
  | none => exact .takes ⟨revisionId, none, true⟩ free nofun rfl rfl rfl rfl rfl rfl
  | some e =>
    by_cases hmet : some e = s.service.activeRevisionId
    · simp only [if_pos hmet]
      refine .takes ⟨revisionId, some e, true⟩ free ?_ rfl rfl rfl rfl rfl rfl
      rintro _ ⟨⟩
      exact hmet.symm
    · simp only [if_neg hmet]
      exact .misses e _ free (Ne.symm hmet) rfl rfl ⟨rfl, rfl, rfl, free, rfl⟩

theorem guarded_does {i : Nat} {call : ApplyCall} (h : s.Guarding i call)
    (answer : Except Fault Unit) : Does s (.guarded i answer) (s.guarded i call answer) := by
  match answer with
  | .ok () => exact .writes call _ h rfl rfl rfl ⟨rfl, rfl, rfl, rfl, rfl⟩
  | .error (.fusion e) =>
    refine .refuses call _ h ?_ rfl ⟨rfl, rfl, rfl, rfl, rfl⟩
    nofun
  | .error (.other message) =>
    refine .refuses call _ h ?_ rfl ⟨rfl, rfl, rfl, rfl, rfl⟩
    nofun

theorem guarding_setCall_waiting {i : Nat} (hnone : s.calls i = none) {call : ApplyCall}
    (hwaiting : call.guarding = false) (j : Nat) (call' : ApplyCall) :
    (s.setCall i (some call)).Guarding j call' ↔ s.Guarding j call' := by
  by_cases hj : j = i
  · subst hj
    constructor
    · rintro ⟨hcall, hguarding⟩
      obtain rfl : call = call' := by simpa [setCall] using hcall
      rw [hwaiting] at hguarding
      cases hguarding
    · rintro ⟨hcall, -⟩
      rw [hnone] at hcall
      cases hcall
  · simp [Guarding, setCall, hj]

theorem step_does {l : Label} (h : s.step l = some t) : Does s l t := by
  cases l with
  | advance dt =>
    simp only [step] at h
    split at h <;> cases h
    exact .rests rfl rfl rfl rfl rfl fun _ _ => .rfl
  | stage kind freshId =>
    cases h
    exact .rests rfl rfl rfl rfl rfl fun _ _ => .rfl
  | apply i revisionId expected =>
    simp only [step] at h
    split at h
    · cases h
    · rename_i hnone
      split at h <;> cases h
      · exact .rests rfl rfl rfl rfl rfl fun _ _ => .rfl
      · exact .rests rfl rfl rfl rfl rfl (guarding_setCall_waiting hnone rfl)
  | locked i =>
    simp only [step] at h
    split at h
    · split at h <;> cases h
      rename_i hfree
      simp only [Bool.and_eq_true, Bool.not_eq_true'] at hfree
      exact locked_does hfree.2
    · cases h
  | guarded i answer =>
    simp only [step] at h
    split at h
    · rename_i call hcall
      split at h <;> cases h
      rename_i hguarding
      exact guarded_does ⟨hcall, hguarding⟩ answer
    · cases h
  | cancelled i =>
    simp only [step] at h
    split at h <;> cases h
    rename_i call hcall
    exact .drops call hcall rfl rfl rfl rfl rfl rfl

/-! ## The invariant -/

/-- **The invariant of the lock**: the one call that awaits its guard holds
it, and what it checked still holds. -/
structure Inv (s : ConfigApply) : Prop where
  locked : ∀ i call, s.Guarding i call → s.service.applyLock = true
  alone : ∀ i j call call', s.Guarding i call → s.Guarding j call' → i = j
  met : ∀ i call, s.Guarding i call →
    ∀ e, call.expectedActiveRevision = some e → s.active = some e
  journal : s.service.journal =
    (s.made.map Decision.record).drop (s.made.length - s.service.journalLimit)
  legal : Legal none (s.made.map Decision.op) s.active

/-- Keeping the newest of what was kept is keeping the newest. -/
theorem journal_snoc {α : Type*} (xs : List α) (x : α) (limit : Nat) :
    (xs.drop (xs.length - limit) ++ [x]).drop
        ((xs.drop (xs.length - limit) ++ [x]).length - limit) =
      (xs ++ [x]).drop ((xs ++ [x]).length - limit) := by
  have happend : xs.drop (xs.length - limit) ++ [x] = (xs ++ [x]).drop (xs.length - limit) := by
    rw [List.drop_append_of_le_length (by omega)]
  rw [happend, List.drop_drop]
  congr 1
  simp only [List.length_drop, List.length_append, List.length_singleton]
  omega

/-- A call that is over awaits no guard; the others do as before. -/
theorem guarding_over {i j : Nat} {call : ApplyCall}
    (hcalls : t.calls = Function.update s.calls i none) (h : t.Guarding j call) :
    j ≠ i ∧ s.Guarding j call := by
  obtain ⟨hcall, hguarding⟩ := h
  rw [hcalls] at hcall
  by_cases hj : j = i
  · subst hj
    rw [Function.update_self] at hcall
    cases hcall
  · rw [Function.update_of_ne hj] at hcall
    exact ⟨hj, hcall, hguarding⟩

/-- Nobody awaits a guard any more, once the one call that did has decided. -/
theorem Inv.none_guarding (hi : Inv s) {i : Nat} {call : ApplyCall} (h : s.Guarding i call)
    (hcalls : t.calls = Function.update s.calls i none) (j : Nat) (call' : ApplyCall) :
    ¬t.Guarding j call' := by
  intro hg
  obtain ⟨hj, hg⟩ := guarding_over hcalls hg
  exact hj (hi.alone j i call' call hg h)

/-- Nobody awaits a guard while the lock is free. -/
theorem Inv.free (hi : Inv s) (hfree : s.service.applyLock = false) (i : Nat)
    (call : ApplyCall) : ¬s.Guarding i call := by
  intro h
  have := hi.locked i call h
  rw [hfree] at this
  cases this

/-- A decision while no call, or only the deciding one, awaits its guard. -/
theorem Inv.decides (hi : Inv s) {i : Nat} {d : Decision} (h : Decides s t i d)
    (hnone : ∀ j call, ¬t.Guarding j call) (hacts : d.op.Acts s.active t.active) : Inv t where
  locked := fun j call hj => absurd hj (hnone j call)
  alone := fun j _ call _ hj => absurd hj (hnone j call)
  met := fun j call hj => absurd hj (hnone j call)
  journal := by
    have := journal_snoc (s.made.map Decision.record) d.record s.service.journalLimit
    rw [List.length_map] at this
    rw [h.journal, h.limit, hi.journal, this, h.made]
    simp
  legal := by
    rw [h.made, List.map_append]
    exact .snoc hi.legal hacts

theorem Inv.step {l : Label} (hi : Inv s) (h : Does s l t) : Inv t := by
  cases h with
  | rests active lock journal limit made calls =>
    refine ⟨fun i call hg => ?_, fun i j call call' hg hg' => ?_, fun i call hg => ?_, ?_, ?_⟩
    · rw [lock]
      exact hi.locked i call ((calls i call).mp hg)
    · exact hi.alone i j call call' ((calls i call).mp hg) ((calls j call').mp hg')
    · rw [active]
      exact hi.met i call ((calls i call).mp hg)
    · rw [journal, made, limit]
      exact hi.journal
    · rw [made, active]
      exact hi.legal
  | @takes i _ call free met active lock journal limit made calls =>
    -- the lock was free, so this call is the only one to await its guard
    have own : ∀ j call', t.Guarding j call' → j = i ∧ call' = call := by
      rintro j call' ⟨hcall, hguarding⟩
      rw [calls] at hcall
      by_cases hj : j = i
      · subst hj
        rw [Function.update_self] at hcall
        exact ⟨rfl, (Option.some.inj hcall).symm⟩
      · rw [Function.update_of_ne hj] at hcall
        exact absurd ⟨hcall, hguarding⟩ (hi.free free j call')
    refine ⟨fun _ _ _ => lock, fun j k _ _ hg hg' => ?_, fun j call' hg => ?_, ?_, ?_⟩
    · exact (own j _ hg).1.trans (own k _ hg').1.symm
    · rw [(own j call' hg).2, active]
      exact met
    · rw [journal, made, limit]
      exact hi.journal
    · rw [made, active]
      exact hi.legal
  | @misses i _ e record free missed rejected active decides =>
    refine hi.decides decides ?_ ?_
    · intro j call hg
      exact hi.free free j call (guarding_over decides.calls hg).2
    · simp only [Decision.op, rejected, active]
      exact .miss missed
  | writes call record guarding succeeded revision active decides =>
    refine hi.decides decides (hi.none_guarding guarding decides.calls) ?_
    simp only [Decision.op, succeeded, active, revision]
    exact .set (hi.met _ call guarding)
  | refuses call record guarding kept active decides =>
    refine hi.decides decides (hi.none_guarding guarding decides.calls) ?_
    have hop : Decision.op ⟨call.expectedActiveRevision, true, record⟩ = .refuse := by
      unfold Decision.op
      cases houtcome : record.outcome with
      | succeeded => exact absurd houtcome kept
      | rejected | failed => cases call.expectedActiveRevision <;> rfl
    rw [hop, active]
    exact .refuse
  | @drops i _ call was active lock journal limit made calls =>
    refine ⟨fun j call' hg => ?_, fun j k _ _ hg hg' => ?_, fun j call' hg => ?_, ?_, ?_⟩
    · obtain ⟨hj, hg⟩ := guarding_over calls hg
      -- another call awaits its guard, so this one was only waiting for the lock
      have hwaiting : call.guarding = false := by
        by_contra hguarding
        exact hj (hi.alone j i call' call hg ⟨was, by simpa using hguarding⟩)
      rw [lock, hi.locked j call' hg, hwaiting]
      rfl
    · exact hi.alone j k _ _ (guarding_over calls hg).2 (guarding_over calls hg').2
    · rw [active]
      exact hi.met j call' (guarding_over calls hg).2
    · rw [journal, made, limit]
      exact hi.journal
    · rw [made, active]
      exact hi.legal

theorem Inv.init (now : ℚ) (journalLimit : Nat) : Inv (ConfigApply.init now journalLimit) :=
  ⟨nofun, nofun, nofun, List.drop_nil.symm, .nil⟩

theorem Inv.reachable {now : ℚ} {journalLimit : Nat}
    (h : Reachable ConfigApply.step (ConfigApply.init now journalLimit) s) : Inv s :=
  h.invariant (.init now journalLimit) fun _ _ _ hi hs => hi.step (step_does hs)

/-! ## Between a check and its write -/

/-- A call that awaits its guard, and did not just take the lock, awaited it
before; the step did not touch the active revision. -/
theorem Does.guarding {l : Label} (h : Does s l t) (hi : Inv s) {i : Nat} {call : ApplyCall}
    (hl : l ≠ .locked i) (hg : t.Guarding i call) :
    s.Guarding i call ∧ t.active = s.active := by
  have other : ∀ {k : Nat} {new : Option ApplyCall}, i ≠ k →
      t.calls = Function.update s.calls k new → s.Guarding i call := by
    intro k new hk hcalls
    refine ⟨?_, hg.2⟩
    have := hg.1
    rw [hcalls, Function.update_of_ne hk] at this
    exact this
  cases h with
  | rests active _ _ _ _ calls => exact ⟨(calls i call).mp hg, active⟩
  | takes _ _ _ active _ _ _ _ calls => exact ⟨other (fun hk => hl (hk ▸ rfl)) calls, active⟩
  | misses _ _ _ _ _ active decides =>
    exact ⟨other (fun hk => hl (hk ▸ rfl)) decides.calls, active⟩
  | writes _ _ guarding _ _ _ decides =>
    exact absurd hg (hi.none_guarding guarding decides.calls i call)
  | refuses _ _ guarding _ _ decides =>
    exact absurd hg (hi.none_guarding guarding decides.calls i call)
  | drops _ _ active _ _ _ _ calls => exact ⟨(guarding_over calls hg).2, active⟩

/-- From the check to the guard's answer the active revision stays. -/
theorem guarding_run {i : Nat} {call : ApplyCall} {xs : List (Step step)} (hi : Inv s)
    (run : Run step s xs t) (hxs : ∀ x ∈ xs, x.label ≠ .locked i) (hg : t.Guarding i call) :
    s.Guarding i call ∧ t.active = s.active ∧ ∀ x ∈ xs, x.dst.active = x.src.active := by
  induction run with
  | nil => exact ⟨hg, rfl, by simp⟩
  | snoc y run ih =>
    have hy : Inv y.src :=
      run.reachable.invariant hi fun _ _ _ hi hs => hi.step (step_does hs)
    obtain ⟨hg', hsame⟩ := (step_does y.fired).guarding hy (hxs y (by simp)) hg
    obtain ⟨hstart, hactive, hall⟩ := ih (fun x hx => hxs x (by simp [hx])) hg'
    refine ⟨hstart, hsame.trans hactive, ?_⟩
    intro x hx
    rcases List.mem_append.mp hx with hx | hx
    · exact hall x hx
    · rw [List.mem_singleton] at hx
      exact hx ▸ hsame

/-- The guard passed: the call writes. -/
theorem step_guarded {i : Nat} (h : s.step (.guarded i (.ok ())) = some t) :
    ∃ call, s.Guarding i call ∧ t.active = some call.revisionId := by
  simp only [step] at h
  split at h
  · rename_i call hcall
    split at h <;> cases h
    rename_i hguarding
    exact ⟨call, ⟨hcall, hguarding⟩, rfl⟩
  · cases h

theorem Does.limit {l : Label} (h : Does s l t) :
    t.service.journalLimit = s.service.journalLimit := by
  cases h with
  | rests _ _ _ limit _ _ => exact limit
  | takes _ _ _ _ _ _ limit _ _ => exact limit
  | misses _ _ _ _ _ _ decides => exact decides.limit
  | writes _ _ _ _ _ _ decides => exact decides.limit
  | refuses _ _ _ _ _ decides => exact decides.limit
  | drops _ _ _ _ _ limit _ _ => exact limit

/-- **Optimistic apply is linearizable**, for every run of the calls of one
service. The records, in the order they were made, are a history of an
atomic compare-and-set; the journal is their newest part; the active
revision is the one that was written last. A call that writes finds what its
check found, and no step between the two moves the active revision. -/
theorem optimistic_apply (now : ℚ) (journalLimit : Nat) {xs : List (Step step)}
    (run : Run step (init now journalLimit) xs s) :
    Legal none (s.made.map Decision.op) s.active ∧
    s.service.journal = (s.made.map Decision.record).drop (s.made.length - journalLimit) ∧
    s.active = ((s.made.map Decision.op).filterMap Op.written).getLast? ∧
    ∀ pre x mid y post i, xs = pre ++ x :: (mid ++ y :: post) → x.label = .locked i →
      y.label = .guarded i (.ok ()) → (∀ z ∈ mid, z.label ≠ .locked i) →
      (∀ z ∈ mid, z.dst.active = z.src.active) ∧ y.src.active = x.src.active ∧
      ∃ call, y.src.Guarding i call ∧ y.dst.active = some call.revisionId ∧
        ∀ e, call.expectedActiveRevision = some e → y.src.active = some e := by
  have hi := Inv.reachable run.reachable
  have hlimit : s.service.journalLimit = journalLimit :=
    run.reachable.invariant (I := fun s => s.service.journalLimit = journalLimit) rfl
      fun _ _ _ hl hs => (step_does hs).limit.trans hl
  refine ⟨hi.legal, hlimit ▸ hi.journal, hi.legal.final.trans (Option.or_none ..), ?_⟩
  intro pre x mid y post i hxs hx hy hmid
  -- the run up to the check, from there to the guard's answer, and the rest
  rw [hxs, List.append_cons] at run
  obtain ⟨u, hpre, hrest⟩ := run.split
  obtain ⟨_, hbefore, hcheck⟩ := hpre.split
  obtain ⟨rfl, rfl⟩ := hcheck.of_singleton
  obtain ⟨w, hbetween, hafter⟩ := hrest.split
  rw [← List.singleton_append] at hafter
  obtain ⟨_, hwrite, -⟩ := hafter.split
  obtain ⟨rfl, rfl⟩ := hwrite.of_singleton
  obtain ⟨call, hguarding, hwritten⟩ := step_guarded (hy ▸ y.fired)
  have hsrc : Inv y.src := .reachable (hpre.reachable.trans hbetween.reachable)
  obtain ⟨hchecked, hsame, hall⟩ :=
    guarding_run (.reachable hpre.reachable) hbetween hmid hguarding
  refine ⟨hall, hsame.trans ?_, call, hguarding, hwritten, hsrc.met i call hguarding⟩
  -- the check itself moves nothing
  have hdoes := step_does x.fired
  rw [hx] at hdoes
  cases hdoes with
  | rests active _ _ _ _ _ => exact active
  | takes _ _ _ active _ _ _ _ _ => exact active
  | misses _ _ _ _ _ active _ => exact active

/-- Two calls that expect the same active revision: the one that gets the
lock first writes, the other is rejected. -/
theorem optimistic_apply_race :
    ∃ xs s, Run step (init 0 50) xs s ∧ s.active = some "rev1" ∧
      s.made.map (fun d => (d.record.revisionId, d.record.outcome)) =
        [("rev0", .succeeded), ("rev1", .succeeded), ("rev2", .rejected)] ∧
      Legal none (s.made.map Decision.op) s.active := by
  obtain ⟨xs, s, run, -, hs⟩ := execWhile_test (fun _ _ => true) step (init 0 50)
    [.stage "motor" "rev0", .stage "motor" "rev1", .stage "motor" "rev2",
      .apply 0 "rev0" none, .locked 0, .guarded 0 (.ok ()),
      .apply 1 "rev1" (some "rev0"), .apply 2 "rev2" (some "rev0"), .locked 1, .advance 1,
      .guarded 1 (.ok ()), .locked 2]
    (fun s => s.active = some "rev1" &&
      s.made.map (fun d => (d.record.revisionId, d.record.outcome)) =
        [("rev0", .succeeded), ("rev1", .succeeded), ("rev2", .rejected)])
    (by decide +kernel)
  simp only [Bool.and_eq_true, decide_eq_true_eq] at hs
  exact ⟨xs, s, run, hs.1, hs.2, (optimistic_apply 0 50 run).1⟩

end ConfigApply

end Fusion
