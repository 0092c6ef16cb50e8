import Mathlib.Data.List.Basic

/-!
# CompareAndSet — sequential histories of an atomic register

A register that may be empty, and operations that take effect one after the
other: a write under an optional expectation, a write whose expectation was
not met, and one that was refused for another reason. `Legal r ops r'` says
that the history is one of such a register.
-/

namespace CompareAndSet

variable {α : Type*}

/-- An operation, with how it ended. -/
inductive Op (α : Type*)
  /-- written; an expectation was met -/
  | set (expected : Option α) (value : α)
  /-- not written: the register did not hold what was expected -/
  | miss (expected : α)
  | refuse

/-- The value an operation leaves, if it writes. -/
def Op.written : Op α → Option α
  | set _ value => some value
  | miss _ | refuse => none

/-- One operation on the register. -/
inductive Op.Acts : Option α → Op α → Option α → Prop
  | set {r : Option α} {expected : Option α} {value : α}
      (met : ∀ e, expected = some e → r = some e) : Acts r (.set expected value) (some value)
  | miss {r : Option α} {expected : α} (missed : r ≠ some expected) : Acts r (.miss expected) r
  | refuse {r : Option α} : Acts r .refuse r

/-- A legal history from `r` to `r'`. -/
inductive Legal (r : Option α) : List (Op α) → Option α → Prop
  | nil : Legal r [] r
  | snoc {ops : List (Op α)} {op : Op α} {r' r'' : Option α} (legal : Legal r ops r')
      (acts : op.Acts r' r'') : Legal r (ops ++ [op]) r''

theorem Op.Acts.final {r r' : Option α} {op : Op α} (h : op.Acts r r') :
    r' = op.written.or r := by
  cases h with
  | set _ => rfl
  | miss _ => rfl
  | refuse => rfl

/-- The register holds what was written last. -/
theorem Legal.final {r r' : Option α} {ops : List (Op α)} (h : Legal r ops r') :
    r' = ((ops.filterMap Op.written).getLast?).or r := by
  induction h with
  | nil => rfl
  | snoc _ acts ih =>
    rename_i ops op r' r'' _
    rw [acts.final, ih, List.filterMap_append]
    cases hw : op.written with
    | none => simp [hw]
    | some value => simp [hw]

end CompareAndSet
