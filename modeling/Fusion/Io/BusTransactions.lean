import Fusion.Io.SerialSession
import Fusion.Lib.Transition
import Mathlib.Data.List.ReduceOption

/-!
# BusTransactions — the worker of a session and the tasks that wait for it
(io/serial_session.py)

Any number of tasks put transactions into the queue of a session and wait for
their futures. One worker thread takes them out and hands what came of each
to the event loop; `close` puts a sentinel into the queue. A step is one of
these, or a cancellation, or a call that the loop runs. What the line
delivers and what the port raises, a closed port included, is the label's.
-/

namespace Fusion.Modbus

open Transition

/-- `_Transaction`; a future goes by its number. -/
structure Transaction where
  frame : Bytes
  isRead : Bool
  future : Nat
deriving DecidableEq

/-- What a future has come to. -/
inductive FutureState
  | pending
  | resolved (answer : Except Raised Bytes)
  | cancelled
deriving DecidableEq

/-- Where the worker thread is. -/
inductive Worker
  /-- in `queue.get` -/
  | waiting
  | transacting (transaction : Transaction)
  | exited
deriving DecidableEq

/-- The transaction the worker has taken. -/
def Worker.current : Worker → List Transaction
  | .transacting transaction => [transaction]
  | .waiting | .exited => []

/-- One call of `_transact`. -/
structure Exchange where
  transaction : Transaction
  before : Port
  /-- the frame went out -/
  sent : Bool
  answer : Except Raised Bytes

/-- The answer of the exchange is what the port gave to its own frame. -/
def Exchange.Own (e : Exchange) : Prop :=
  ∀ response, e.answer = .ok response →
    e.sent = true ∧ response = (transact e.before e.transaction.frame e.transaction.isRead).1

/-- The session: its queue, its thread and the futures of its callers. -/
structure BusSession where
  port : Port
  queue : List (Option Transaction)
  worker : Worker
  /-- by the number of the future -/
  futures : Nat → FutureState
  /-- the calls of `_resolve_result` and `_resolve_exception` that were
  handed to the loop and have not run -/
  callbacks : List (Nat × Except Raised Bytes)
  /-- history: every transaction that was put into the queue -/
  submitted : List Transaction
  /-- history: every call of `_transact` that has ended -/
  exchanges : List Exchange

/-- A move of a caller, of the thread or of the loop. -/
inductive BusLabel
  /-- `_submit`, to its suspension -/
  | submit (frame : Bytes) (isRead : Bool)
  /-- the task that waits for a future is cancelled -/
  | cancel (future : Nat)
  /-- `queue.get` returns -/
  | take
  /-- `_transact` returns; `arriving` is what its reads wait for -/
  | transacts (arriving : List Bytes)
  /-- `_transact` raises, before or after its write -/
  | raises (sent : Bool) (e : Raised)
  /-- the loop runs one of the calls -/
  | callback (k : Nat)
  | close

namespace BusSession

/-- The thread waits at an open port. -/
def init (port : Port) : BusSession where
  port := port
  queue := []
  worker := .waiting
  futures := fun _ => .pending
  callbacks := []
  submitted := []
  exchanges := []

/-- `_submit`: a new future, and the transaction goes to the queue. -/
def submit (s : BusSession) (frame : Bytes) (isRead : Bool) : BusSession :=
  let transaction : Transaction := ⟨frame, isRead, s.submitted.length⟩
  { s with
    queue := s.queue ++ [some transaction]
    futures := Function.update s.futures transaction.future .pending
    submitted := s.submitted ++ [transaction] }

/-- A future that is not done is set; `cancel` leaves a done one alone, and
so do `_resolve_result` and `_resolve_exception`. -/
def settle (s : BusSession) (future : Nat) (state : FutureState) : BusSession :=
  if s.futures future = .pending then
    { s with futures := Function.update s.futures future state }
  else s

/-- The worker hands the outcome over and goes back to the queue. -/
def handOver (s : BusSession) (port : Port) (e : Exchange) : BusSession :=
  { s with
    port := port
    worker := .waiting
    callbacks := s.callbacks ++ [(e.transaction.future, e.answer)]
    exchanges := s.exchanges ++ [e] }

/-- One move. -/
def step (s : BusSession) : BusLabel → Option BusSession
  | .submit frame isRead => some (s.submit frame isRead)
  | .cancel future =>
      if future < s.submitted.length then some (s.settle future .cancelled) else none
  | .take =>
      match s.worker, s.queue with
      | .waiting, some transaction :: queue =>
          some { s with queue := queue, worker := .transacting transaction }
      -- the sentinel: what is behind it stays in the queue
      | .waiting, none :: queue => some { s with queue := queue, worker := .exited }
      | _, _ => none
  | .transacts arriving =>
      match s.worker with
      | .transacting transaction =>
          let before := { s.port with arriving := arriving }
          let r := transact before transaction.frame transaction.isRead
          some (s.handOver r.2 ⟨transaction, before, true, .ok r.1⟩)
      | _ => none
  | .raises sent e =>
      match s.worker with
      | .transacting transaction =>
          let port := s.port.resetInputBuffer
          -- the write itself may be what raised
          let port := if sent then port.write transaction.frame else port
          some (s.handOver port ⟨transaction, s.port, sent, .error e⟩)
      | _ => none
  | .callback k =>
      match s.callbacks[k]? with
      | some (future, answer) =>
          some { s.settle future (.resolved answer) with callbacks := s.callbacks.eraseIdx k }
      | none => none
  | .close => some { s with queue := s.queue ++ [none] }

/-! ## What is to hold -/

/-- The frames on the wire are those of submitted transactions, each at most
once and in the order of submission, and a future is resolved only with the
outcome of the one exchange of its own frame. -/
structure Orderly (port : Port) (s : BusSession) : Prop where
  numbered : s.submitted.map Transaction.future = List.range s.submitted.length
  wire : ∃ sent : List Transaction, sent.Sublist s.submitted ∧
    s.port.written = port.written ++ sent.map Transaction.frame
  once : s.exchanges.map Exchange.transaction <+: s.submitted
  own : ∀ e ∈ s.exchanges, e.Own
  resolved : ∀ future answer, s.futures future = .resolved answer →
    ∃ e ∈ s.exchanges, e.transaction.future = future ∧ e.answer = answer

/-- Once the worker has exited, every future is done. -/
def AllDone (s : BusSession) : Prop :=
  s.worker = .exited → ∀ transaction ∈ s.submitted, s.futures transaction.future ≠ .pending

/-- Once the worker has exited, every future is done or about to be: the loop
has been handed its outcome. -/
def NoneStranded (s : BusSession) : Prop :=
  s.worker = .exited → ∀ transaction ∈ s.submitted,
    s.futures transaction.future ≠ .pending ∨
      ∃ answer, (transaction.future, answer) ∈ s.callbacks

/-- A submission that no worker will take: it comes after the exit, or the
worker exits before it. -/
def Abandons (s : BusSession) : BusLabel → Prop
  | .submit _ _ => s.worker = .exited
  | .take => s.queue.head? = some none ∧
      ∃ transaction ∈ s.queue.reduceOption, s.futures transaction.future = .pending
  | _ => False

/-- The worker exits before the loop has run what it was handed. -/
def Outruns (s : BusSession) : BusLabel → Prop
  | .take => s.queue.head? = some none ∧ ∃ c ∈ s.callbacks, s.futures c.1 = .pending
  | _ => False

instance (s : BusSession) (l : BusLabel) : Decidable (s.Abandons l) :=
  match l with
  | .submit _ _ => inferInstanceAs (Decidable (s.worker = .exited))
  | .take => inferInstanceAs (Decidable (s.queue.head? = some none ∧
      ∃ transaction ∈ s.queue.reduceOption, s.futures transaction.future = .pending))
  | .cancel _ | .transacts _ | .raises _ _ | .callback _ | .close =>
      inferInstanceAs (Decidable False)

instance (s : BusSession) (l : BusLabel) : Decidable (s.Outruns l) :=
  match l with
  | .take => inferInstanceAs (Decidable (s.queue.head? = some none ∧
      ∃ c ∈ s.callbacks, s.futures c.1 = .pending))
  | .submit _ _ | .cancel _ | .transacts _ | .raises _ _ | .callback _ | .close =>
      inferInstanceAs (Decidable False)

/-! ## The line of transactions -/

/-- Every transaction is, in the order of submission, done with, in the
worker's hands, or in the queue; what was handed to the loop is what the
exchanges gave, and none of it is lost before its future is done. -/
structure Inv (port : Port) (s : BusSession) : Prop where
  numbered : s.submitted.map Transaction.future = List.range s.submitted.length
  line : s.exchanges.map Exchange.transaction ++ s.worker.current ++ s.queue.reduceOption =
    s.submitted
  wire : s.port.written = port.written ++
    ((s.exchanges.filter Exchange.sent).map Exchange.transaction).map Transaction.frame
  own : ∀ e ∈ s.exchanges, e.Own
  resolved : ∀ future answer, s.futures future = .resolved answer →
    ∃ e ∈ s.exchanges, e.transaction.future = future ∧ e.answer = answer
  owed : ∀ e ∈ s.exchanges, s.futures e.transaction.future = .pending →
    (e.transaction.future, e.answer) ∈ s.callbacks
  called : ∀ c ∈ s.callbacks, ∃ e ∈ s.exchanges, e.transaction.future = c.1 ∧ e.answer = c.2

theorem Inv.init (port : Port) : Inv port (init port) where
  numbered := rfl
  line := rfl
  wire := (List.append_nil _).symm
  own := by simp [BusSession.init]
  resolved := by simp [BusSession.init]
  owed := by simp [BusSession.init]
  called := by simp [BusSession.init]

variable {port : Port} {s t : BusSession}

theorem Inv.orderly (h : Inv port s) : Orderly port s where
  numbered := h.numbered
  wire := by
    refine ⟨_, ?_, h.wire⟩
    rw [← h.line, List.append_assoc]
    exact (List.filter_sublist.map _).trans (List.sublist_append_left ..)
  once := by
    rw [← h.line, List.append_assoc]
    exact List.prefix_append ..
  own := h.own
  resolved := h.resolved

theorem Inv.future_lt (h : Inv port s) {transaction : Transaction}
    (hmem : transaction ∈ s.submitted) : transaction.future < s.submitted.length := by
  rw [← List.mem_range, ← h.numbered]
  exact List.mem_map_of_mem hmem

theorem Inv.exchanged (h : Inv port s) {e : Exchange} (he : e ∈ s.exchanges) :
    e.transaction ∈ s.submitted := by
  rw [← h.line, List.append_assoc]
  exact List.mem_append_left _ (List.mem_map_of_mem he)

theorem Inv.queued (h : Inv port s) {transaction : Transaction}
    (hmem : transaction ∈ s.queue.reduceOption) : transaction ∈ s.submitted := by
  rw [← h.line]
  exact List.mem_append_right _ hmem

/-- A transaction in the queue has had no exchange, so the loop has nothing
for it. -/
theorem Inv.not_called (h : Inv port s) {transaction : Transaction}
    (hmem : transaction ∈ s.queue.reduceOption) {answer : Except Raised Bytes} :
    (transaction.future, answer) ∉ s.callbacks := by
  intro hcalled
  obtain ⟨e, he, hfuture, -⟩ := h.called _ hcalled
  have hnodup : (s.submitted.map Transaction.future).Nodup := by
    rw [h.numbered]
    exact List.nodup_range
  rw [← h.line, List.append_assoc, List.map_append, List.nodup_append] at hnodup
  obtain ⟨-, -, hdisjoint⟩ := hnodup
  apply hdisjoint e.transaction.future _ transaction.future _ hfuture
  · exact List.mem_map_of_mem (List.mem_map_of_mem he)
  · apply List.mem_map_of_mem
    exact List.mem_append_right _ hmem

/-! ## Single steps -/

theorem futures_settle (s : BusSession) (future i : Nat) (state : FutureState) :
    (s.settle future state).futures i =
      if s.futures future = .pending ∧ i = future then state else s.futures i := by
  unfold settle
  by_cases hpending : s.futures future = .pending
  · by_cases hi : i = future
    · subst hi
      simp [hpending]
    · simp [hpending, hi]
  · simp [hpending]

theorem settle_pending {future i : Nat} {state : FutureState} (hstate : state ≠ .pending)
    (h : (s.settle future state).futures i = .pending) : s.futures i = .pending ∧ i ≠ future := by
  rw [futures_settle] at h
  split at h
  · exact absurd h hstate
  · rename_i hno
    refine ⟨h, ?_⟩
    intro hi
    exact hno ⟨hi ▸ h, hi⟩

theorem settle_resolved {future i : Nat} {state : FutureState} {answer : Except Raised Bytes}
    (h : (s.settle future state).futures i = .resolved answer) :
    s.futures i = .resolved answer ∨ i = future ∧ state = .resolved answer := by
  rw [futures_settle] at h
  split at h
  · rename_i hset
    exact .inr ⟨hset.2, h⟩
  · exact .inl h

theorem mem_eraseIdx_of_ne {α : Type*} {l : List α} {a b : α} {k : Nat} (ha : a ∈ l)
    (hb : l[k]? = some b) (hne : a ≠ b) : a ∈ l.eraseIdx k := by
  obtain ⟨i, hi⟩ := List.mem_iff_getElem?.mp ha
  have hik : i ≠ k := by
    intro hik
    subst hik
    exact hne (Option.some.inj (hi.symm.trans hb))
  exact List.mem_eraseIdx_iff_getElem?.mpr ⟨i, hik, hi⟩

/-- Setting a future touches nothing else. -/
theorem settle_eq (s : BusSession) (future : Nat) (state : FutureState) :
    s.settle future state = { s with futures := (s.settle future state).futures } := by
  unfold settle
  split
  · rfl
  · rfl

theorem Inv.submit (h : Inv port s) (frame : Bytes) (isRead : Bool) :
    Inv port (s.submit frame isRead) where
  numbered := by
    show (s.submitted ++ [_]).map Transaction.future = List.range (s.submitted ++ [_]).length
    rw [List.map_append, h.numbered, List.length_append, List.length_singleton,
      List.range_succ]
    rfl
  line := by
    show _ ++ (s.queue ++ [some _]).reduceOption = s.submitted ++ [_]
    rw [List.reduceOption_append, ← List.append_assoc]
    exact congrArg (· ++ _) h.line
  wire := h.wire
  own := h.own
  resolved := by
    intro future answer hresolved
    by_cases hfuture : future = s.submitted.length
    · subst hfuture
      cases (Function.update_self ..).symm.trans hresolved
    · exact h.resolved future answer ((Function.update_of_ne hfuture ..).symm.trans hresolved)
  owed := by
    intro e he hpending
    have hold : e.transaction.future ≠ s.submitted.length := (h.future_lt (h.exchanged he)).ne
    exact h.owed e he ((Function.update_of_ne hold ..).symm.trans hpending)
  called := h.called

theorem Inv.cancel (h : Inv port s) (future : Nat) : Inv port (s.settle future .cancelled) := by
  have hresolved : ∀ i answer, (s.settle future .cancelled).futures i = .resolved answer →
      s.futures i = .resolved answer := by
    intro i answer hi
    rcases settle_resolved hi with hi | ⟨-, hstate⟩
    · exact hi
    · cases hstate
  have hpending : ∀ i, (s.settle future .cancelled).futures i = .pending →
      s.futures i = .pending := by
    intro i hi
    exact (settle_pending FutureState.noConfusion hi).1
  rw [settle_eq]
  exact { h with
    resolved := fun i answer hi => h.resolved i answer (hresolved i answer hi)
    owed := fun e he hi => h.owed e he (hpending _ hi) }

/-- The worker hands over what came of the transaction it has. -/
theorem Inv.handOver (h : Inv port s) {e : Exchange} {after : Port}
    (hworker : s.worker = .transacting e.transaction) (hown : e.Own)
    (hwritten : after.written =
      s.port.written ++ (if e.sent then [e.transaction.frame] else [])) :
    Inv port (s.handOver after e) where
  numbered := h.numbered
  line := by
    have hline := h.line
    rw [hworker] at hline
    show (s.exchanges ++ [e]).map Exchange.transaction ++ [] ++ s.queue.reduceOption = s.submitted
    rw [List.map_append, List.append_nil]
    exact hline
  wire := by
    show after.written = port.written ++
      (((s.exchanges ++ [e]).filter Exchange.sent).map Exchange.transaction).map Transaction.frame
    rw [hwritten, h.wire, List.filter_append, List.map_append, List.map_append, List.append_assoc]
    cases hsent : e.sent with
    | false => simp [hsent]
    | true => simp [hsent]
  own := by
    intro e' he
    rcases List.mem_append.mp he with he | he
    · exact h.own e' he
    · rw [List.mem_singleton.mp he]
      exact hown
  resolved := by
    intro future answer hresolved
    obtain ⟨e', he, hfuture⟩ := h.resolved future answer hresolved
    exact ⟨e', List.mem_append_left _ he, hfuture⟩
  owed := by
    intro e' he hpending
    rcases List.mem_append.mp he with he | he
    · exact List.mem_append_left _ (h.owed e' he hpending)
    · rw [List.mem_singleton.mp he]
      exact List.mem_append_right _ (List.mem_singleton_self _)
  called := by
    intro c hc
    rcases List.mem_append.mp hc with hc | hc
    · obtain ⟨e', he, hanswer⟩ := h.called c hc
      exact ⟨e', List.mem_append_left _ he, hanswer⟩
    · rw [List.mem_singleton.mp hc]
      exact ⟨e, List.mem_append_right _ (List.mem_singleton_self _), rfl, rfl⟩

/-- The loop runs a call: a future that is done already stays as it is. -/
theorem Inv.callback (h : Inv port s) {k future : Nat} {answer : Except Raised Bytes}
    (hk : s.callbacks[k]? = some (future, answer)) :
    Inv port { s.settle future (.resolved answer) with callbacks := s.callbacks.eraseIdx k } := by
  have hresolved : ∀ i answer', (s.settle future (.resolved answer)).futures i =
      .resolved answer' → ∃ e ∈ s.exchanges, e.transaction.future = i ∧ e.answer = answer' := by
    intro i answer' hi
    rcases settle_resolved hi with hi | ⟨rfl, hanswer⟩
    · exact h.resolved i answer' hi
    · cases hanswer
      exact h.called _ (List.mem_of_getElem? hk)
  have howed : ∀ e ∈ s.exchanges,
      (s.settle future (.resolved answer)).futures e.transaction.future = .pending →
      (e.transaction.future, e.answer) ∈ s.callbacks.eraseIdx k := by
    intro e he hi
    obtain ⟨hpending, hne⟩ := settle_pending FutureState.noConfusion hi
    -- another call of the same future would be for one that is done now
    apply mem_eraseIdx_of_ne (h.owed e he hpending) hk
    intro heq
    exact hne (congrArg Prod.fst heq)
  rw [settle_eq]
  exact { h with
    resolved := hresolved
    owed := howed
    called := fun c hc => h.called c (List.mem_of_mem_eraseIdx hc) }

theorem written_transact (p : Port) (frame : Bytes) (isRead : Bool) :
    (transact p frame isRead).2.written = p.written ++ [frame] := by
  unfold transact
  dsimp only
  split
  · rfl
  · rfl

theorem Inv.step {l : BusLabel} (h : Inv port s) (hs : s.step l = some t) : Inv port t := by
  cases l with
  | submit frame isRead =>
    cases hs
    exact h.submit frame isRead
  | cancel future =>
    simp only [BusSession.step] at hs
    split at hs
    · cases hs
      exact h.cancel future
    · cases hs
  | take =>
    simp only [BusSession.step] at hs
    split at hs
    · rename_i transaction queue hworker hqueue
      cases hs
      have hline := h.line
      rw [hworker, hqueue] at hline
      exact { h with line := by simpa [Worker.current] using hline }
    · rename_i queue hworker hqueue
      cases hs
      have hline := h.line
      rw [hworker, hqueue] at hline
      exact { h with line := by simpa [Worker.current] using hline }
    · cases hs
  | transacts arriving =>
    simp only [BusSession.step] at hs
    split at hs
    · rename_i transaction hworker
      cases hs
      apply h.handOver hworker
      · intro response hresponse
        cases hresponse
        exact ⟨rfl, rfl⟩
      · exact written_transact ..
    · cases hs
  | raises sent e =>
    simp only [BusSession.step] at hs
    split at hs
    · rename_i transaction hworker
      cases hs
      apply h.handOver hworker
      · intro response hresponse
        cases hresponse
      · cases sent with
        | false => exact (List.append_nil _).symm
        | true => rfl
    · cases hs
  | callback k =>
    simp only [BusSession.step] at hs
    split at hs
    · rename_i future answer hk
      cases hs
      exact h.callback hk
    · cases hs
  | close =>
    cases hs
    have hline := h.line
    exact { h with line := by simpa [List.reduceOption_append] using hline }

/-! ## The end of the worker -/

/-- A step that takes nothing from the queue and puts no transaction there:
what was done stays done, and what is pending keeps its call. -/
structure Keeps (s t : BusSession) : Prop where
  worker : t.worker = .exited → s.worker = .exited
  submitted : t.submitted = s.submitted
  pending : ∀ i, t.futures i = .pending → s.futures i = .pending ∧
    ∀ answer, (i, answer) ∈ s.callbacks → (i, answer) ∈ t.callbacks

theorem keeps_handOver {after : Port} {e : Exchange} : Keeps s (s.handOver after e) where
  worker := by
    intro hexit
    cases hexit
  submitted := rfl
  pending := by
    intro i hi
    exact ⟨hi, fun answer hmem => List.mem_append_left _ hmem⟩

theorem step_keeps {l : BusLabel} (hsubmit : ∀ frame isRead, l ≠ .submit frame isRead)
    (htake : l ≠ .take) (hs : s.step l = some t) : Keeps s t := by
  cases l with
  | submit frame isRead => exact absurd rfl (hsubmit frame isRead)
  | take => exact absurd rfl htake
  | cancel future =>
    simp only [BusSession.step] at hs
    split at hs
    · cases hs
      rw [settle_eq]
      refine ⟨id, rfl, ?_⟩
      intro i hi
      exact ⟨(settle_pending FutureState.noConfusion hi).1, fun _ hmem => hmem⟩
    · cases hs
  | transacts arriving =>
    simp only [BusSession.step] at hs
    split at hs
    · cases hs
      exact keeps_handOver
    · cases hs
  | raises sent e =>
    simp only [BusSession.step] at hs
    split at hs
    · cases hs
      exact keeps_handOver
    · cases hs
  | callback k =>
    simp only [BusSession.step] at hs
    split at hs
    · rename_i future answer hk
      cases hs
      rw [settle_eq]
      refine ⟨id, rfl, ?_⟩
      intro i hi
      obtain ⟨hpending, hne⟩ := settle_pending FutureState.noConfusion hi
      refine ⟨hpending, ?_⟩
      intro answer' hmem
      apply mem_eraseIdx_of_ne hmem hk
      intro heq
      exact hne (congrArg Prod.fst heq)
    · cases hs
  | close =>
    cases hs
    refine ⟨id, rfl, ?_⟩
    intro i hi
    exact ⟨hi, fun _ hmem => hmem⟩

theorem AllDone.keeps (h : s.AllDone) (hk : Keeps s t) : t.AllDone := by
  intro hexit transaction hmem hpending
  rw [hk.submitted] at hmem
  exact h (hk.worker hexit) transaction hmem (hk.pending _ hpending).1

theorem NoneStranded.keeps (h : s.NoneStranded) (hk : Keeps s t) : t.NoneStranded := by
  intro hexit transaction hmem
  rw [hk.submitted] at hmem
  by_cases hpending : t.futures transaction.future = .pending
  · obtain ⟨hbefore, hcalled⟩ := hk.pending _ hpending
    rcases h (hk.worker hexit) transaction hmem with hdone | ⟨answer, hanswer⟩
    · exact absurd hbefore hdone
    · exact .inr ⟨answer, hcalled answer hanswer⟩
  · exact .inl hpending

/-- The worker takes a transaction, or the sentinel. -/
theorem take_cases (hs : s.step .take = some t) :
    (∃ transaction queue, s.queue = some transaction :: queue ∧
        t.worker = .transacting transaction) ∨
      ∃ queue, s.worker = .waiting ∧ s.queue = none :: queue ∧
        t = { s with queue := queue, worker := .exited } := by
  simp only [BusSession.step] at hs
  split at hs
  · rename_i transaction queue hworker hqueue
    cases hs
    exact .inl ⟨transaction, queue, hqueue, rfl⟩
  · rename_i queue hworker hqueue
    cases hs
    exact .inr ⟨queue, hworker, hqueue, rfl⟩
  · cases hs

/-- With the worker at the queue, a transaction has had its exchange or is
still in the queue. -/
theorem Inv.waiting_cases (h : Inv port s) (hworker : s.worker = .waiting)
    {transaction : Transaction} (hmem : transaction ∈ s.submitted) :
    (∃ e ∈ s.exchanges, e.transaction = transaction) ∨
      transaction ∈ s.queue.reduceOption := by
  have hline := h.line
  rw [hworker, Worker.current, List.append_nil] at hline
  rw [← hline] at hmem
  rcases List.mem_append.mp hmem with hmem | hmem
  · exact .inl (List.mem_map.mp hmem)
  · exact .inr hmem

/-- A submission after the exit has a pending future and no call. -/
theorem submit_pending (s : BusSession) (frame : Bytes) (isRead : Bool) :
    ⟨frame, isRead, s.submitted.length⟩ ∈ (s.submit frame isRead).submitted ∧
      (s.submit frame isRead).futures s.submitted.length = .pending :=
  ⟨List.mem_append_right _ (List.mem_singleton_self _), Function.update_self ..⟩

/-- The futures stay done after the exit exactly when the step neither leaves
a transaction behind nor gets ahead of the loop. -/
theorem allDone_step {l : BusLabel} (hi : Inv port s) (h : s.AllDone)
    (hs : s.step l = some t) : t.AllDone ↔ ¬ s.Abandons l ∧ ¬ s.Outruns l := by
  cases l with
  | submit frame isRead =>
    cases hs
    obtain ⟨hmem, hpending⟩ := submit_pending s frame isRead
    constructor
    · intro hdone
      refine ⟨?_, id⟩
      intro hexit
      exact hdone hexit _ hmem hpending
    · intro hno hexit
      exact absurd hexit hno.1
  | take =>
    rcases take_cases hs with ⟨transaction, queue, hqueue, hworker⟩ | ⟨queue, hworker, hqueue, rfl⟩
    · have hhead : s.queue.head? ≠ some none := by simp [hqueue]
      apply iff_of_true
      · intro hexit
        cases hworker.symm.trans hexit
      · exact ⟨fun h => hhead h.1, fun h => hhead h.1⟩
    · have hhead : s.queue.head? = some none := by rw [hqueue, List.head?_cons]
      constructor
      · intro hdone
        constructor
        · intro hleft
          obtain ⟨-, transaction, hmem, hpending⟩ := hleft
          exact hdone rfl transaction (hi.queued hmem) hpending
        · intro hleft
          obtain ⟨-, c, hc, hpending⟩ := hleft
          obtain ⟨e, he, hfuture, -⟩ := hi.called c hc
          exact hdone rfl e.transaction (hi.exchanged he) (hfuture ▸ hpending)
      · -- what is pending is with the loop or behind the sentinel
        intro hno _ transaction hmem hpending
        rcases hi.waiting_cases hworker hmem with ⟨e, he, rfl⟩ | hmem
        · exact hno.2 ⟨hhead, _, hi.owed e he hpending, hpending⟩
        · exact hno.1 ⟨hhead, transaction, hmem, hpending⟩
  | cancel future | transacts arriving | raises sent e | callback k | close =>
    apply iff_of_true
    · exact h.keeps (step_keeps (fun _ _ => BusLabel.noConfusion) BusLabel.noConfusion hs)
    · exact ⟨id, id⟩

/-- None is stranded exactly when the step leaves no transaction behind. -/
theorem noneStranded_step {l : BusLabel} (hi : Inv port s) (h : s.NoneStranded)
    (hs : s.step l = some t) : t.NoneStranded ↔ ¬ s.Abandons l := by
  cases l with
  | submit frame isRead =>
    cases hs
    obtain ⟨hmem, hpending⟩ := submit_pending s frame isRead
    constructor
    · intro hdone hexit
      rcases hdone hexit _ hmem with hnot | ⟨answer, hcalled⟩
      · exact hnot hpending
      · -- the loop has calls for earlier futures only
        obtain ⟨e, he, hfuture, -⟩ := hi.called _ hcalled
        exact (hi.future_lt (hi.exchanged he)).ne hfuture
    · intro hno hexit
      exact absurd hexit hno
  | take =>
    rcases take_cases hs with ⟨transaction, queue, hqueue, hworker⟩ | ⟨queue, hworker, hqueue, rfl⟩
    · have hhead : s.queue.head? ≠ some none := by simp [hqueue]
      apply iff_of_true
      · intro hexit
        cases hworker.symm.trans hexit
      · exact fun h => hhead h.1
    · have hhead : s.queue.head? = some none := by rw [hqueue, List.head?_cons]
      constructor
      · intro hdone hleft
        obtain ⟨-, transaction, hmem, hpending⟩ := hleft
        rcases hdone rfl transaction (hi.queued hmem) with hnot | ⟨answer, hcalled⟩
        · exact hnot hpending
        · exact hi.not_called hmem hcalled
      · intro hno _ transaction hmem
        by_cases hpending : s.futures transaction.future = .pending
        · rcases hi.waiting_cases hworker hmem with ⟨e, he, rfl⟩ | hmem
          · exact .inr ⟨e.answer, hi.owed e he hpending⟩
          · exact absurd ⟨hhead, transaction, hmem, hpending⟩ hno
        · exact .inl hpending
  | cancel future | transacts arriving | raises sent e | callback k | close =>
    apply iff_of_true
    · exact h.keeps (step_keeps (fun _ _ => BusLabel.noConfusion) BusLabel.noConfusion hs)
    · exact id

/-! ## Whole runs -/

/-- After the exit of the worker, a future with no answer and no call. -/
structure Stranded (s : BusSession) (future : Nat) : Prop where
  exited : s.worker = .exited
  unanswered : ∀ answer, s.futures future ≠ .resolved answer
  uncalled : ∀ answer, (future, answer) ∉ s.callbacks

theorem Stranded.settle {future i : Nat} {state : FutureState} (h : s.Stranded future)
    (hstate : i = future → ∀ answer, state ≠ .resolved answer) :
    (s.settle i state).Stranded future := by
  rw [settle_eq]
  refine ⟨h.exited, ?_, h.uncalled⟩
  intro answer hresolved
  rcases settle_resolved hresolved with hbefore | ⟨hi, hanswer⟩
  · exact h.unanswered answer hbefore
  · exact hstate hi.symm answer hanswer

theorem Stranded.step {future : Nat} {l : BusLabel} (h : s.Stranded future)
    (hs : s.step l = some t) : t.Stranded future := by
  cases l with
  | submit frame isRead =>
    cases hs
    refine ⟨h.exited, ?_, h.uncalled⟩
    intro answer hresolved
    by_cases hnew : future = s.submitted.length
    · subst hnew
      cases (Function.update_self ..).symm.trans hresolved
    · exact h.unanswered answer ((Function.update_of_ne hnew ..).symm.trans hresolved)
  | cancel i =>
    simp only [BusSession.step] at hs
    split at hs
    · cases hs
      exact h.settle fun _ _ => FutureState.noConfusion
    · cases hs
  | callback k =>
    simp only [BusSession.step] at hs
    split at hs
    · rename_i i answer hk
      cases hs
      have hother : i ≠ future := by
        rintro rfl
        exact h.uncalled answer (List.mem_of_getElem? hk)
      have hset : (s.settle i (.resolved answer)).Stranded future :=
        h.settle fun hi => absurd hi hother
      refine ⟨hset.exited, hset.unanswered, ?_⟩
      intro answer' hmem
      exact h.uncalled answer' (List.mem_of_mem_eraseIdx hmem)
    · cases hs
  | close =>
    cases hs
    exact ⟨h.exited, h.unanswered, h.uncalled⟩
  | take | transacts arriving | raises sent e =>
    -- there is no worker to do it
    simp only [BusSession.step, h.exited] at hs
    cases hs

/-- **Whoever is stranded waits for ever**, or is cancelled. -/
theorem stranded_forever {future : Nat} (h : s.Stranded future) (hr : Reachable step s t) :
    t.Stranded future :=
  hr.invariant (I := fun u => u.Stranded future) h fun _ _ _ hu hstep => hu.step hstep

/-- **No lost transaction**: the traffic is orderly whatever happens. The
futures are all done from the exit of the worker on exactly when no step
leaves a transaction behind or gets ahead of the loop; they are done or about
to be exactly when no step leaves a transaction behind. -/
theorem bus_transactions_iff (port : Port) {xs : List (Step step)}
    (run : Run step (init port) xs s) :
    ((∀ x ∈ xs, Orderly port x.dst ∧ x.dst.AllDone) ↔
      ∀ x ∈ xs, ¬ x.src.Abandons x.label ∧ ¬ x.src.Outruns x.label) ∧
    ((∀ x ∈ xs, Orderly port x.dst ∧ x.dst.NoneStranded) ↔
      ∀ x ∈ xs, ¬ x.src.Abandons x.label) := by
  have hdone₀ : (init port).AllDone := by
    intro hexit
    cases hexit
  have hnone₀ : (init port).NoneStranded := by
    intro hexit
    cases hexit
  constructor
  · apply run.forall_iff_of_kept (J := fun s => Inv port s ∧ s.AllDone) ⟨.init port, hdone₀⟩
    · intro x hx hok
      exact ⟨hx.1.step x.fired, (allDone_step hx.1 hx.2 x.fired).mpr hok⟩
    · intro x hx
      rw [and_iff_right (hx.1.step x.fired).orderly]
      exact allDone_step hx.1 hx.2 x.fired
  · apply run.forall_iff_of_kept (J := fun s => Inv port s ∧ s.NoneStranded) ⟨.init port, hnone₀⟩
    · intro x hx hok
      exact ⟨hx.1.step x.fired, (noneStranded_step hx.1 hx.2 x.fired).mpr hok⟩
    · intro x hx
      rw [and_iff_right (hx.1.step x.fired).orderly]
      exact noneStranded_step hx.1 hx.2 x.fired

/-- One read, answered and resolved before the session is closed; a second
one that is cancelled in the queue. -/
theorem bus_transactions_iff_closed : ∃ (xs : List (Step step)) (s : BusSession),
    Run step (init ⟨[], [], []⟩) xs s ∧ s.worker = .exited ∧ s.submitted.length = 2 ∧
    (∀ x ∈ xs, Orderly ⟨[], [], []⟩ x.dst ∧ x.dst.AllDone) ∧
    ∀ x ∈ xs, Orderly ⟨[], [], []⟩ x.dst ∧ x.dst.NoneStranded := by
  obtain ⟨xs, s, run, hs⟩ := execSteps_test step (init ⟨[], [], []⟩)
    [.submit [1, 3, 0, 204, 0, 1] true, .take, .transacts [[1, 3, 2], [0, 7, 249, 134]],
      .callback 0, .close, .submit [1, 6, 0, 200, 0, 1] false, .cancel 1, .take]
    (fun r => r.1.all (fun x => ¬ x.src.Abandons x.label ∧ ¬ x.src.Outruns x.label) &&
      decide (r.2.worker = .exited ∧ r.2.submitted.length = 2)) (by decide +kernel)
  obtain ⟨hok, hend⟩ := (Bool.and_eq_true ..).mp hs
  obtain ⟨hworker, hcount⟩ := of_decide_eq_true hend
  have hall : ∀ x ∈ xs, ¬ x.src.Abandons x.label ∧ ¬ x.src.Outruns x.label := by
    intro x hx
    exact of_decide_eq_true (List.all_eq_true.mp hok x hx)
  obtain ⟨hdone, hnone⟩ := bus_transactions_iff ⟨[], [], []⟩ run
  refine ⟨xs, s, run, hworker, hcount, hdone.mpr hall, hnone.mpr ?_⟩
  intro x hx
  exact (hall x hx).1

/-- A submission after the session was closed waits for ever. -/
theorem bus_submission_after_close : ¬ ∀ (port : Port) (xs : List (Step step)) (s : BusSession),
    Run step (init port) xs s → ∀ x ∈ xs, Orderly port x.dst ∧ x.dst.AllDone := by
  intro hall
  obtain ⟨xs, s, run, hs⟩ := execSteps_test step (init ⟨[], [], []⟩)
    [.close, .take, .submit [1, 3, 0, 204, 0, 1] true]
    (fun r => r.1.any fun x => decide (x.dst.worker = .exited ∧
      ∃ transaction ∈ x.dst.submitted, x.dst.futures transaction.future = .pending))
    (by decide +kernel)
  obtain ⟨x, hx, hleft⟩ := List.any_eq_true.mp hs
  obtain ⟨hexit, transaction, hmem, hpending⟩ := of_decide_eq_true hleft
  exact (hall _ xs s run x hx).2 hexit transaction hmem hpending

end BusSession

end Fusion.Modbus
