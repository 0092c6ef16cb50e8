import Mathlib.Data.List.DropRight

/-!
# Json — reading JSON text

Text is a list of code points, surrogates included. The text is cut into
tokens one code point at a time; the tokens are then read against a stack of
the arrays and objects that are open. As in the language's decoder, `NaN`,
`Infinity` and `-Infinity` are numbers, control characters are refused
inside strings, and an object keeps all its members, the last of a name
being the one that counts. Integers may be of any length and values nested to
any depth here; `JsonReader` has an interpreter's limits.
-/

/-- The code points of a text. -/
abbrev Text := List Nat

/-- A text written out. -/
def Text.of (s : String) : Text :=
  s.toList.map Char.toNat

namespace Json

/-- A number as it is written: an integer, or the literal of a float. -/
inductive Number
  | int (n : ℤ)
  | float (literal : Text)
deriving DecidableEq

end Json

/-- A JSON value; an object keeps its members in order. -/
inductive Json
  | null
  | bool (b : Bool)
  | number (n : Json.Number)
  | string (s : Text)
  | array (items : List Json)
  | object (members : List (Text × Json))

namespace Json

/-- The member of an object under a name: the last one counts. -/
def lookup (members : List (Text × Json)) (name : Text) : Option Json :=
  (members.reverse.find? fun m => m.1 = name).map Prod.snd

/-! ## Tokens -/

/-- What the text is cut into. -/
inductive Token
  | beginArray
  | endArray
  | beginObject
  | endObject
  | comma
  | colon
  /-- a string, a number or a literal name -/
  | scalar (v : Json)

/-- Space, tab, line feed, carriage return. -/
def isBlank (c : Nat) : Bool :=
  c = 0x20 || c = 0x09 || c = 0x0A || c = 0x0D

/-- `0` to `9` -/
def isDigit (c : Nat) : Bool :=
  0x30 ≤ c && c ≤ 0x39

/-- A letter of ASCII. -/
def isLetter (c : Nat) : Bool :=
  (0x41 ≤ c && c ≤ 0x5A) || (0x61 ≤ c && c ≤ 0x7A)

/-- A code point of a number or of a literal name. -/
def isWord (c : Nat) : Bool :=
  isDigit c || isLetter c || c = 0x2B || c = 0x2D || c = 0x2E

/-- The tokens of one code point. -/
def punctuation : List (Nat × Token) :=
  [(0x5B, .beginArray), (0x5D, .endArray), (0x7B, .beginObject), (0x7D, .endObject),
    (0x2C, .comma), (0x3A, .colon)]

/-- What a backslash before these code points stands for. -/
def escapes : List (Nat × Nat) :=
  [(0x22, 0x22), (0x5C, 0x5C), (0x2F, 0x2F), (0x62, 0x08), (0x66, 0x0C), (0x6E, 0x0A),
    (0x72, 0x0D), (0x74, 0x09)]

/-- The value of a hexadecimal digit. -/
def hexDigit (c : Nat) : Option Nat :=
  if isDigit c then some (c - 0x30)
  else if 0x41 ≤ c ∧ c ≤ 0x46 then some (c - 0x37)
  else if 0x61 ≤ c ∧ c ≤ 0x66 then some (c - 0x57)
  else none

/-- A high surrogate. -/
def isHigh (c : Nat) : Bool :=
  0xD800 ≤ c && c ≤ 0xDBFF

/-- A low surrogate. -/
def isLow (c : Nat) : Bool :=
  0xDC00 ≤ c && c ≤ 0xDFFF

/-- A code point that is no surrogate. -/
def isScalar (c : Nat) : Bool :=
  c ≤ 0x10FFFF && !isHigh c && !isLow c

/-- The digits of a natural number, most significant first. -/
def ofDigits (digits : Text) : Nat :=
  digits.foldl (fun n c => 10 * n + (c - 0x30)) 0

/-- The rest after a fraction `.ddd`, if there is one. -/
def dropFraction (w : Text) : Option Text :=
  match w with
  | 0x2E :: w => if (w.takeWhile isDigit).isEmpty then none else some (w.dropWhile isDigit)
  | w => some w

/-- The rest after an exponent `e+ddd`, if there is one. -/
def dropExponent (w : Text) : Option Text :=
  match w with
  | [] => some []
  | c :: w =>
      if c = 0x65 ∨ c = 0x45 then
        let digits :=
          match w with
          | s :: ds => if s = 0x2B ∨ s = 0x2D then ds else w
          | [] => []
        if (digits.takeWhile isDigit).isEmpty then none else some (digits.dropWhile isDigit)
      else none

/-- `-?(0|[1-9]\d*)(\.\d+)?([eE][-+]?\d+)?` -/
def readNumber (w : Text) : Option Number :=
  let unsigned := if w.head? = some 0x2D then w.tail else w
  let digits := unsigned.takeWhile isDigit
  let rest := unsigned.dropWhile isDigit
  if digits.isEmpty || (digits.head? = some 0x30 && digits.length ≠ 1) then none
  else if rest.isEmpty then
    let n : ℤ := ofDigits digits
    some (.int (if w.head? = some 0x2D then -n else n))
  else
    match (dropFraction rest).bind dropExponent with
    | some [] => some (.float w)
    | _ => none

/-- A word: a literal name or a number. -/
def readWord (w : Text) : Option Token :=
  if w = Text.of "true" then some (.scalar (.bool true))
  else if w = Text.of "false" then some (.scalar (.bool false))
  else if w = Text.of "null" then some (.scalar .null)
  else if w = Text.of "NaN" ∨ w = Text.of "Infinity" ∨ w = Text.of "-Infinity" then
    some (.scalar (.number (.float w)))
  else (readNumber w).map fun n => .scalar (.number n)

/-- Where the scanner stands. The code points read so far are reversed;
`high` says that the last one was an escaped high surrogate. -/
inductive Scan
  | gap
  | word (read : Text)
  | string (read : Text) (high : Bool)
  /-- after a backslash -/
  | escape (read : Text) (high : Bool)
  /-- `left + 1` more digits of a `\u` escape -/
  | hex (read : Text) (high : Bool) (left code : Nat)

/-- One code point where a token may begin. -/
def begins (c : Nat) : Option (List Token × Scan) :=
  if isBlank c then some ([], .gap)
  else if c = 0x22 then some ([], .string [] false)
  else if isWord c then some ([], .word [c])
  else (punctuation.lookup c).map fun t => ([t], .gap)

/-- An escaped code point; it joins a high surrogate escaped just before. -/
def escaped (read : Text) (high : Bool) (code : Nat) : Scan :=
  match read with
  | last :: read' =>
      if high && isLow code then
        .string ((0x10000 + (last - 0xD800) * 0x400 + (code - 0xDC00)) :: read') false
      else .string (code :: read) (isHigh code)
  | [] => .string [code] (isHigh code)

/-- One code point: the tokens it completes, or `none` where the text is not
JSON. -/
def scan : Scan → Nat → Option (List Token × Scan)
  | .gap, c => begins c
  | .word read, c =>
      if isWord c then some ([], .word (c :: read))
      else do
        let t ← readWord read.reverse
        let (ts, s) ← begins c
        pure (t :: ts, s)
  | .string read high, c =>
      if c = 0x22 then some ([.scalar (.string read.reverse)], .gap)
      else if c = 0x5C then some ([], .escape read high)
      else if c < 0x20 then none
      else some ([], .string (c :: read) false)
  | .escape read high, c =>
      if c = 0x75 then some ([], .hex read high 3 0)
      else (escapes.lookup c).map fun d => ([], .string (d :: read) false)
  | .hex read high left code, c => do
      let d ← hexDigit c
      match left with
      | 0 => pure ([], escaped read high (16 * code + d))
      | left + 1 => pure ([], .hex read high left (16 * code + d))

/-- The tokens of a text, from a state of the scanner on. -/
def lex : Scan → Text → Option (List Token)
  | .gap, [] => some []
  | .word read, [] => (readWord read.reverse).map fun t => [t]
  | _, [] => none
  | s, c :: text => do
      let (ts, s) ← scan s c
      let rest ← lex s text
      pure (ts ++ rest)

/-! ## Values -/

/-- An open array, or an open object with the name its next value is for. -/
inductive Frame
  | array (items : List Json)
  | member (members : List (Text × Json)) (name : Text)

/-- What the text must go on with. -/
inductive Parse
  | value (stack : List Frame)
  /-- a value or `]` -/
  | firstItem (stack : List Frame)
  /-- a name or the end of the object -/
  | firstName (stack : List Frame)
  | name (members : List (Text × Json)) (stack : List Frame)
  | colon (members : List (Text × Json)) (name : Text) (stack : List Frame)
  /-- `,` or `]` -/
  | nextItem (items : List Json) (stack : List Frame)
  /-- `,` or the end of the object -/
  | nextMember (members : List (Text × Json)) (stack : List Frame)
  | done (v : Json)

/-- A value is complete. -/
def complete (v : Json) : List Frame → Parse
  | [] => .done v
  | .array items :: stack => .nextItem (items ++ [v]) stack
  | .member members name :: stack => .nextMember (members ++ [(name, v)]) stack

/-- The first token of a value. -/
def open? (stack : List Frame) : Token → Option Parse
  | .scalar v => some (complete v stack)
  | .beginArray => some (.firstItem stack)
  | .beginObject => some (.firstName stack)
  | _ => none

/-- One token, against what is open. -/
def parse : Parse → Token → Option Parse
  | .value stack, t => open? stack t
  | .firstItem stack, .endArray => some (complete (.array []) stack)
  | .firstItem stack, t => open? (.array [] :: stack) t
  | .firstName stack, .endObject => some (complete (.object []) stack)
  | .firstName stack, .scalar (.string name) => some (.colon [] name stack)
  | .name members stack, .scalar (.string name) => some (.colon members name stack)
  | .colon members name stack, .colon => some (.value (.member members name :: stack))
  | .nextItem items stack, .comma => some (.value (.array items :: stack))
  | .nextItem items stack, .endArray => some (complete (.array items) stack)
  | .nextMember members stack, .comma => some (.name members stack)
  | .nextMember members stack, .endObject => some (complete (.object members) stack)
  | _, _ => none

/-- The value, if the text may end here. -/
def parsed : Parse → Option Json
  | .done v => some v
  | _ => none

/-- The value of a JSON text, or `none` where the decoder raises. -/
def loads (text : Text) : Option Json := do
  let tokens ← lex .gap text
  let p ← tokens.foldlM parse (.value [])
  parsed p

/-! ## Every value is read

The tokens of a value, written out, parse to that value wherever a value may
stand.
-/

mutual

/-- The tokens of a value. -/
def tokens : Json → List Token
  | .array items => .beginArray :: itemTokens items ++ [.endArray]
  | .object members => .beginObject :: memberTokens members ++ [.endObject]
  | v => [.scalar v]

def itemTokens : List Json → List Token
  | [] => []
  | [v] => tokens v
  | v :: w :: items => tokens v ++ .comma :: itemTokens (w :: items)

def memberTokens : List (Text × Json) → List Token
  | [] => []
  | [(name, v)] => .scalar (.string name) :: .colon :: tokens v
  | (name, v) :: m :: members =>
      .scalar (.string name) :: .colon :: tokens v ++ .comma :: memberTokens (m :: members)

end

/-- The tokens of `v` parse to it, wherever a value may stand. -/
def Reads (v : Json) : Prop :=
  ∀ stack rest,
    (tokens v ++ rest).foldlM parse (.value stack) = rest.foldlM parse (complete v stack)

/-- An item is read the same when the array could have ended. -/
theorem firstItem_tokens (v : Json) (items : List Json) (stack : List Frame) (rest : List Token) :
    (itemTokens (v :: items) ++ rest).foldlM parse (.firstItem stack) =
      (itemTokens (v :: items) ++ rest).foldlM parse (.value (.array [] :: stack)) := by
  cases items <;> cases v <;> simp [itemTokens, tokens, parse]

theorem reads_items {v : Json} {items : List Json} (h : ∀ w ∈ v :: items, Reads w)
    (before : List Json) (stack : List Frame) (rest : List Token) :
    (itemTokens (v :: items) ++ rest).foldlM parse (.value (.array before :: stack)) =
      rest.foldlM parse (.nextItem (before ++ v :: items) stack) := by
  induction items generalizing v before with
  | nil => exact h v (by simp) (.array before :: stack) rest
  | cons w items ih =>
    have hv := h v (by simp) (.array before :: stack) (.comma :: (itemTokens (w :: items) ++ rest))
    have hitems := ih (fun u hu => h u (List.mem_cons_of_mem v hu)) (before ++ [v])
    simp only [itemTokens, List.append_assoc, List.cons_append]
    rw [hv]
    simpa [complete, parse] using hitems

theorem reads_members {m : Text × Json} {members : List (Text × Json)}
    (h : ∀ n ∈ m :: members, Reads n.2) (before : List (Text × Json)) (stack : List Frame)
    (rest : List Token) :
    (memberTokens (m :: members) ++ rest).foldlM parse (.name before stack) =
      rest.foldlM parse (.nextMember (before ++ m :: members) stack) := by
  induction members generalizing m before with
  | nil =>
    have hm := h m (by simp) (.member before m.1 :: stack) rest
    simpa [memberTokens, complete, parse] using hm
  | cons n members ih =>
    have hm := h m (by simp) (.member before m.1 :: stack)
      (.comma :: (memberTokens (n :: members) ++ rest))
    have hmembers := ih (fun u hu => h u (List.mem_cons_of_mem m hu)) (before ++ [m])
    simp only [memberTokens, List.append_assoc, List.cons_append, List.foldlM_cons, parse,
      Option.bind_eq_bind, Option.bind_some]
    rw [hm]
    simpa [complete, parse] using hmembers

/-- A name is read the same when the object could have ended. -/
theorem firstName_tokens (m : Text × Json) (members : List (Text × Json)) (stack : List Frame)
    (rest : List Token) :
    (memberTokens (m :: members) ++ rest).foldlM parse (.firstName stack) =
      (memberTokens (m :: members) ++ rest).foldlM parse (.name [] stack) := by
  cases members <;> simp [memberTokens, parse]

/-- **Every value is read** from its tokens, whatever is open around it. -/
theorem reads (v : Json) : Reads v := by
  intro stack rest
  cases v with
  | null | bool b | number n | string s => simp [tokens, parse, open?]
  | array items =>
    -- the items are smaller values
    have ih : ∀ w ∈ items, Reads w := fun w hw => reads w
    cases items with
    | nil => simp [tokens, itemTokens, parse, open?]
    | cons v items =>
      have hitems := reads_items ih [] stack (.endArray :: rest)
      rw [← firstItem_tokens] at hitems
      simpa [tokens, parse, open?, complete] using hitems
  | object members =>
    have ih : ∀ m ∈ members, Reads m.2 := fun m hm => reads m.2
    cases members with
    | nil => simp [tokens, memberTokens, parse, open?]
    | cons m members =>
      have hmembers := reads_members ih [] stack (.endObject :: rest)
      rw [← firstName_tokens] at hmembers
      simpa [tokens, parse, open?, complete] using hmembers
termination_by sizeOf v
decreasing_by
  · have := List.sizeOf_lt_of_mem hw
    simp only [array.sizeOf_spec]
    omega
  · have hsize := List.sizeOf_lt_of_mem hm
    have hpair : sizeOf m = 1 + sizeOf m.1 + sizeOf m.2 := by cases m; rfl
    simp only [object.sizeOf_spec]
    omega

/-- A text that lexes to the tokens of a value is read as that value. -/
theorem loads_of_lex {text : Text} {v : Json} (h : lex .gap text = some (tokens v)) :
    loads text = some v := by
  have hread := reads v [] []
  rw [List.append_nil] at hread
  rw [loads, h]
  simp only [Option.bind_eq_bind, Option.bind_some, hread]
  rfl

end Json
