import Fusion.Lib.Json

/-!
# JsonReader — reading JSON within an interpreter's limits

The decoder of the language raises in three ways: at the first code point
that is not JSON, at an integer literal of too many digits, and at an array
or object inside too many others. Which it is depends on what comes first,
so the text is read one code point at a time, each token where it is
complete. What is read is what `Json.loads` reads.
-/

namespace Json

/-- What an interpreter puts up with. -/
structure Limits where
  /-- the digits of an integer literal -/
  digits : Nat
  /-- the arrays and objects that are open at once -/
  depth : Nat

/-- What the decoder raises. -/
inductive LoadsError
  /-- `JSONDecodeError` -/
  | decode
  /-- the `ValueError` of an integer literal -/
  | digits
  /-- `RecursionError` -/
  | recursion
deriving DecidableEq

/-! ## The reader -/

/-- `.d` after the digits of a number -/
def isFraction : Text → Bool
  | 0x2E :: c :: _ => isDigit c
  | _ => false

/-- `e`, perhaps a sign, and a digit -/
def isExponent : Text → Bool
  | e :: w =>
      let digits := if w.head? = some 0x2B || w.head? = some 0x2D then w.tail else w
      (e = 0x65 || e = 0x45) && digits.head?.any isDigit
  | [] => false

/-- The digits of the integer literal that a word begins with. After a zero
the literal ends. -/
def intDigits (w : Text) : Nat :=
  let unsigned := if w.head? = some 0x2D then w.tail else w
  let digits := unsigned.takeWhile isDigit
  let rest := unsigned.dropWhile isDigit
  if digits.head? = some 0x30 || isFraction rest || isExponent rest then 0 else digits.length

/-- Where a value may begin: how many arrays and objects are open. -/
def Parse.awaits : Parse → Option Nat
  | .value stack => some stack.length
  | .firstItem stack => some (stack.length + 1)
  | _ => none

/-- The token opens an array or an object. -/
def Token.isOpening : Token → Bool
  | beginArray | beginObject => true
  | _ => false

variable (lim : Limits)

/-- One token. -/
def take (p : Parse) (t : Token) : Except LoadsError Parse :=
  if t.isOpening && p.awaits.any (lim.depth ≤ ·) then .error .recursion
  else
    match parse p t with
    | none => .error .decode
    | some p => .ok p

/-- A word is complete. Where no value may begin it is not converted. -/
def takeWord (p : Parse) (w : Text) : Except LoadsError Parse :=
  if p.awaits.isSome && lim.digits < intDigits w then .error .digits
  else
    match readWord w with
    | none => .error .decode
    | some t => take lim p t

/-- One code point that no word goes on with. -/
def readToken (s : Scan) (p : Parse) (c : Nat) : Except LoadsError (Scan × Parse) :=
  match scan s c with
  | none => .error .decode
  | some (ts, s) => do
      let p ← ts.foldlM (take lim) p
      return (s, p)

/-- One code point; where a word ends at it, the word is read first. -/
def readCode : Scan × Parse → Nat → Except LoadsError (Scan × Parse)
  | (.word read, p), c =>
      if isWord c then return (.word (c :: read), p)
      else do
        let p ← takeWord lim p read.reverse
        readToken lim .gap p c
  | (s, p), c => readToken lim s p c

/-- The value, or an error if the text may not end here. -/
def finish (p : Parse) : Except LoadsError Json :=
  match parsed p with
  | none => .error .decode
  | some v => .ok v

/-- The end of the text. -/
def readEnd : Scan × Parse → Except LoadsError Json
  | (.gap, p) => finish p
  | (.word read, p) => do
      let p ← takeWord lim p read.reverse
      finish p
  | _ => .error .decode

/-- From the middle of a text to its end. -/
def readFrom (sp : Scan × Parse) (text : Text) : Except LoadsError Json := do
  let sp ← text.foldlM (readCode lim) sp
  readEnd lim sp

/-- The value of a JSON text, or what the decoder raises. -/
def read (text : Text) : Except LoadsError Json :=
  readFrom lim (.gap, .value []) text

/-! ## It reads what `loads` reads -/

/-- The same result, unless a limit was in the way. -/
def Agrees {α : Type} : Except LoadsError α → Option α → Prop
  | .ok a, r => r = some a
  | .error .decode, r => r = none
  | .error _, _ => True

theorem Agrees.bind {α β : Type} {e : Except LoadsError α} {r : Option α}
    {f : α → Except LoadsError β} {g : α → Option β} (h : Agrees e r)
    (hf : ∀ a, Agrees (f a) (g a)) : Agrees (e >>= f) (r >>= g) := by
  match e with
  | .ok a =>
    obtain rfl : r = some a := h
    exact hf a
  | .error .decode =>
    obtain rfl : r = none := h
    rfl
  | .error .digits | .error .recursion => trivial

theorem Agrees.foldlM {α β : Type} {f : β → α → Except LoadsError β} {g : β → α → Option β}
    (hf : ∀ b a, Agrees (f b a) (g b a)) (xs : List α) (b : β) :
    Agrees (xs.foldlM f b) (xs.foldlM g b) := by
  induction xs generalizing b with
  | nil => rfl
  | cons x xs ih => exact (hf b x).bind ih

/-- What `loads` does from the middle of a text. -/
def loadsFrom (s : Scan) (p : Parse) (text : Text) : Option Json := do
  let tokens ← lex s text
  let p ← tokens.foldlM parse p
  parsed p

theorem loadsFrom_cons (s : Scan) (p : Parse) (c : Nat) (text : Text) :
    loadsFrom s p (c :: text) = (do
      let (ts, s) ← scan s c
      let p ← ts.foldlM parse p
      loadsFrom s p text) := by
  cases hscan : scan s c with
  | none => simp [loadsFrom, lex, hscan]
  | some r =>
    obtain ⟨ts, s'⟩ := r
    cases hlex : lex s' text with
    | none => simp [loadsFrom, lex, hscan, hlex]
    | some rest => simp [loadsFrom, lex, hscan, hlex, Option.bind_assoc]

theorem take_agrees (p : Parse) (t : Token) : Agrees (take lim p t) (parse p t) := by
  unfold take
  split
  · trivial
  · split <;> assumption

theorem takeWord_agrees (p : Parse) (w : Text) :
    Agrees (takeWord lim p w) (readWord w >>= parse p) := by
  unfold takeWord
  split
  · trivial
  · split
    · rename_i hword
      rw [hword]
      rfl
    · rename_i t hword
      rw [hword]
      exact take_agrees lim p t

theorem finish_agrees (p : Parse) : Agrees (finish p) (parsed p) := by
  unfold finish
  split <;> assumption

theorem readToken_agrees (s : Scan) (p : Parse) (c : Nat) {β : Type}
    {f : Scan × Parse → Except LoadsError β} {g : Scan × Parse → Option β}
    (hf : ∀ sp, Agrees (f sp) (g sp)) :
    Agrees (readToken lim s p c >>= f) (do
      let (ts, s) ← scan s c
      let p ← ts.foldlM parse p
      g (s, p)) := by
  unfold readToken
  cases hscan : scan s c with
  | none => rfl
  | some r =>
    obtain ⟨ts, s'⟩ := r
    have hfold : Agrees (ts.foldlM (take lim) p) (ts.foldlM parse p) :=
      Agrees.foldlM (take_agrees lim) ts p
    simpa using hfold.bind fun p => hf (s', p)

/-- A word that does not go on: its token comes before the code point's. -/
theorem loadsFrom_word {read : Text} {c : Nat} (hc : isWord c = false) (p : Parse) (text : Text) :
    loadsFrom (.word read) p (c :: text) =
      (readWord read.reverse >>= parse p) >>= fun p => loadsFrom .gap p (c :: text) := by
  have hscan : scan (.word read) c = (do
      let t ← readWord read.reverse
      let (ts, s) ← scan .gap c
      pure (t :: ts, s)) := by
    simp [scan, hc]
  simp only [loadsFrom_cons, hscan]
  cases hword : readWord read.reverse with
  | none => simp
  | some t =>
    cases hgap : scan .gap c with
    | none => simp
    | some r => simp [Option.bind_assoc]

theorem readEnd_agrees (s : Scan) (p : Parse) :
    Agrees (readEnd lim (s, p)) (loadsFrom s p []) := by
  cases s with
  | gap => exact finish_agrees p
  | word read =>
    have hword := (takeWord_agrees lim p read.reverse).bind finish_agrees
    simpa [readEnd, loadsFrom, lex, Option.bind_map, Function.comp_def, Option.bind_assoc] using
      hword
  | _ => rfl

theorem readFrom_cons (sp : Scan × Parse) (c : Nat) (text : Text) :
    readFrom lim sp (c :: text) = readCode lim sp c >>= fun sp => readFrom lim sp text := by
  simp [readFrom]

theorem readFrom_agrees (s : Scan) (p : Parse) (text : Text) :
    Agrees (readFrom lim (s, p) text) (loadsFrom s p text) := by
  induction text generalizing s p with
  | nil => exact readEnd_agrees lim s p
  | cons c text ih =>
    have ih : ∀ sp : Scan × Parse, Agrees (readFrom lim sp text) (loadsFrom sp.1 sp.2 text) :=
      fun sp => ih sp.1 sp.2
    have hcode : ∀ s p, Agrees (readToken lim s p c >>= fun sp => readFrom lim sp text)
        (loadsFrom s p (c :: text)) := by
      intro s p
      rw [loadsFrom_cons]
      exact readToken_agrees lim s p c ih
    rw [readFrom_cons]
    cases s with
    | word read =>
      cases hc : isWord c with
      | true => simpa [readCode, loadsFrom_cons, scan, hc] using ih (.word (c :: read), p)
      | false =>
        have hword := (takeWord_agrees lim p read.reverse).bind fun p => hcode .gap p
        rw [loadsFrom_word hc]
        simpa [readCode, hc] using hword
    | _ => exact hcode _ p

/-- **The reader reads what `loads` reads**, within its limits. -/
theorem read_agrees (text : Text) : Agrees (read lim text) (loads text) :=
  readFrom_agrees lim .gap (.value []) text

theorem loads_of_read {lim : Limits} {text : Text} {v : Json} (h : read lim text = .ok v) :
    loads text = some v := by
  have hagrees := read_agrees lim text
  rwa [h] at hagrees

end Json
