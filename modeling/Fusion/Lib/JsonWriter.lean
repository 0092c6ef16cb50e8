import Fusion.Lib.Json
import Mathlib.Data.Nat.Digits.Lemmas

/-!
# JsonWriter — writing JSON text

`json.dumps`: the text of a value, with the separators of the call and with
or without `ensure_ascii`. A float is written as the literal it holds. What
is written is read back, with one exception: where the text is to be ASCII, a
string in which a low surrogate follows a high one is read as the code point
that the two encode.
-/

namespace Json

/-- The arguments of a call. -/
structure Style where
  /-- between two items or members -/
  item : Text
  /-- between a name and its value -/
  key : Text
  /-- `ensure_ascii` -/
  ascii : Bool

/-- `separators=(",", ":")` -/
def Style.compact (ascii : Bool) : Style := ⟨[0x2C], [0x3A], ascii⟩

/-! ## Scalars -/

/-- A hexadecimal digit, in lower case. -/
def hexChar (d : Nat) : Nat :=
  if d < 10 then 0x30 + d else 0x57 + d

/-- `\uXXXX` -/
def unicodeEscape (code : Nat) : Text :=
  [0x5C, 0x75, hexChar (code / 0x1000 % 16), hexChar (code / 0x100 % 16),
    hexChar (code / 0x10 % 16), hexChar (code % 16)]

/-- The code points with an escape of their own. -/
def shortEscapes : List (Nat × Nat) :=
  [(0x22, 0x22), (0x5C, 0x5C), (0x08, 0x62), (0x0C, 0x66), (0x0A, 0x6E), (0x0D, 0x72),
    (0x09, 0x74)]

/-- The surrogates of a code point above `0xFFFF`. -/
def highOf (c : Nat) : Nat := 0xD800 + (c - 0x10000) / 0x400
def lowOf (c : Nat) : Nat := 0xDC00 + (c - 0x10000) % 0x400

/-- A code point of a string, escaped where it has to be. -/
def writeCode (ascii : Bool) (c : Nat) : Text :=
  match shortEscapes.lookup c with
  | some d => [0x5C, d]
  | none =>
      if c < 0x20 then unicodeEscape c
      else if !ascii || c < 0x7F then [c]
      else if c < 0x10000 then unicodeEscape c
      else unicodeEscape (highOf c) ++ unicodeEscape (lowOf c)

/-- A string in its quotes. -/
def writeString (ascii : Bool) (s : Text) : Text :=
  0x22 :: s.flatMap (writeCode ascii) ++ [0x22]

/-- The decimal digits, most significant first. -/
def writeNat (n : Nat) : Text :=
  if n = 0 then [0x30] else (Nat.digits 10 n).reverse.map (0x30 + ·)

/-- A number; a float is the literal it holds. -/
def writeNumber : Number → Text
  | .int n => if n < 0 then 0x2D :: writeNat n.natAbs else writeNat n.natAbs
  | .float literal => literal

/-! ## Values -/

mutual

/-- The text of a value. -/
def dumps (st : Style) : Json → Text
  | .null => Text.of "null"
  | .bool true => Text.of "true"
  | .bool false => Text.of "false"
  | .number n => writeNumber n
  | .string s => writeString st.ascii s
  | .array items => 0x5B :: dumpItems st items ++ [0x5D]
  | .object members => 0x7B :: dumpMembers st members ++ [0x7D]

def dumpItems (st : Style) : List Json → Text
  | [] => []
  | [v] => dumps st v
  | v :: w :: items => dumps st v ++ st.item ++ dumpItems st (w :: items)

def dumpMembers (st : Style) : List (Text × Json) → Text
  | [] => []
  | [(name, v)] => writeString st.ascii name ++ st.key ++ dumps st v
  | (name, v) :: m :: members =>
      writeString st.ascii name ++ st.key ++ dumps st v ++ st.item ++ dumpMembers st (m :: members)

end

/-! ## What can be written -/

/-- A string of code points; where the text is to be ASCII, no low surrogate
follows a high one. -/
structure Plain (ascii : Bool) (s : Text) : Prop where
  codes : ∀ c ∈ s, c ≤ 0x10FFFF
  apart : ascii = true → s.IsChain fun c d => ¬(isHigh c = true ∧ isLow d = true)

/-- The literal of a float. -/
structure IsFloat (literal : Text) : Prop where
  word : ∀ c ∈ literal, isWord c = true
  read : readWord literal = some (.scalar (.number (.float literal)))

/-- What the writer may be given. -/
inductive Writable (ascii : Bool) : Json → Prop
  | null : Writable ascii .null
  | bool (b : Bool) : Writable ascii (.bool b)
  | int (n : ℤ) : Writable ascii (.number (.int n))
  | float {literal : Text} (h : IsFloat literal) : Writable ascii (.number (.float literal))
  | string {s : Text} (h : Plain ascii s) : Writable ascii (.string s)
  | array {items : List Json} (h : ∀ v ∈ items, Writable ascii v) : Writable ascii (.array items)
  | object {members : List (Text × Json)} (hnames : ∀ m ∈ members, Plain ascii m.1)
      (h : ∀ m ∈ members, Writable ascii m.2) : Writable ascii (.object members)

/-! ## Strings are read back -/

theorem lex_cons (s : Scan) (c : Nat) (text : Text) :
    lex s (c :: text) = (scan s c).bind fun p => (lex p.2 text).map (p.1 ++ ·) := by
  cases s <;> simp only [lex, Option.map_eq_bind] <;> rfl

/-- A code point that completes no token. -/
theorem lex_quiet {s t : Scan} {c : Nat} (h : scan s c = some ([], t)) (text : Text) :
    lex s (c :: text) = lex t text := by
  rw [lex_cons, h]
  simp

theorem hexDigit_hexChar {d : Nat} (h : d < 16) : hexDigit (hexChar d) = some d :=
  have hall : ∀ d < 16, hexDigit (hexChar d) = some d := by decide
  hall d h

theorem lex_hex {read : Text} {high : Bool} {left code d : Nat} (h : d < 16) (rest : Text) :
    lex (.hex read high (left + 1) code) (hexChar d :: rest) =
      lex (.hex read high left (16 * code + d)) rest :=
  lex_quiet (by simp [scan, hexDigit_hexChar h]) rest

theorem lex_lastHex {read : Text} {high : Bool} {code d : Nat} (h : d < 16) (rest : Text) :
    lex (.hex read high 0 code) (hexChar d :: rest) =
      lex (escaped read high (16 * code + d)) rest :=
  lex_quiet (by simp [scan, hexDigit_hexChar h]) rest

theorem lex_unicodeEscape (read : Text) (high : Bool) {code : Nat} (h : code < 0x10000)
    (rest : Text) :
    lex (.string read high) (unicodeEscape code ++ rest) = lex (escaped read high code) rest := by
  have hcode : 16 * (16 * (16 * (16 * 0 + code / 0x1000 % 16) + code / 0x100 % 16) +
      code / 0x10 % 16) + code % 16 = code := by omega
  show lex (.string read high) (0x5C :: 0x75 :: hexChar _ :: hexChar _ :: hexChar _ ::
    hexChar _ :: rest) = _
  rw [lex_quiet (t := .escape read high) rfl, lex_quiet (t := .hex read high 3 0) rfl,
    lex_hex (by omega), lex_hex (by omega), lex_hex (by omega), lex_lastHex (by omega), hcode]

theorem isHigh_iff {c : Nat} : isHigh c = true ↔ 0xD800 ≤ c ∧ c ≤ 0xDBFF := by
  simp [isHigh]

theorem isLow_iff {c : Nat} : isLow c = true ↔ 0xDC00 ≤ c ∧ c ≤ 0xDFFF := by
  simp [isLow]

theorem isLow_eq_false {c : Nat} : isLow c = false ↔ ¬(0xDC00 ≤ c ∧ c ≤ 0xDFFF) := by
  rw [← isLow_iff, Bool.not_eq_true]

/-- A text written out holds characters, and these are no surrogates. -/
theorem plain_of (ascii : Bool) (s : String) : Plain ascii (Text.of s) := by
  have hvalid : ∀ c ∈ Text.of s, c < 0xD800 ∨ 0xDFFF < c ∧ c < 0x110000 := by
    intro c hc
    obtain ⟨ch, -, rfl⟩ := List.mem_map.mp hc
    exact ch.valid
  constructor
  · intro c hc
    have hc := hvalid c hc
    omega
  · intro _
    have hno : ∀ c ∈ Text.of s, ¬isHigh c = true := by
      intro c hc hhigh
      have hc := hvalid c hc
      rw [isHigh_iff] at hhigh
      omega
    generalize Text.of s = text at hno
    induction text with
    | nil => exact .nil
    | cons c text ih =>
      refine List.isChain_cons.mpr ⟨fun d _ hcd => hno c (by simp) hcd.1, ih fun d hd => ?_⟩
      exact hno d (List.mem_cons_of_mem c hd)

/-- An escaped code point that does not join the one before. -/
theorem escaped_apart {read : Text} {high : Bool} {code : Nat}
    (h : high = true → isLow code = false) :
    escaped read high code = .string (code :: read) (isHigh code) := by
  cases read with
  | nil => rfl
  | cons last read =>
    have hand : (high && isLow code) = false := by
      cases high with
      | false => rfl
      | true => exact h rfl
    simp [escaped, hand]

/-- The two surrogates of a code point join. -/
theorem escaped_pair {c : Nat} (hlow : 0x10000 ≤ c) (hhigh : c ≤ 0x10FFFF) (read : Text) :
    escaped (highOf c :: read) true (lowOf c) = .string (c :: read) false := by
  have hisLow : isLow (lowOf c) = true := by
    rw [isLow_iff, lowOf]
    omega
  have hjoin : 0x10000 + (highOf c - 0xD800) * 0x400 + (lowOf c - 0xDC00) = c := by
    simp only [highOf, lowOf]
    omega
  simp [escaped, hisLow, hjoin]

theorem isHigh_highOf {c : Nat} (hlow : 0x10000 ≤ c) (hhigh : c ≤ 0x10FFFF) :
    isHigh (highOf c) = true ∧ isLow (highOf c) = false ∧ highOf c < 0x10000 ∧
      lowOf c < 0x10000 := by
  simp only [isHigh_iff, isLow_eq_false, highOf, lowOf]
  omega

theorem lookup_shortEscapes {c d : Nat} (h : shortEscapes.lookup c = some d) :
    d ≠ 0x75 ∧ escapes.lookup d = some c ∧ isHigh c = false := by
  obtain ⟨before, after, hmem, -⟩ := List.lookup_eq_some_iff.mp h
  have hmem : (c, d) ∈ shortEscapes := by simp [hmem]
  simp only [shortEscapes, List.mem_cons, List.not_mem_nil, or_false, Prod.mk.injEq] at hmem
  rcases hmem with ⟨rfl, rfl⟩ | ⟨rfl, rfl⟩ | ⟨rfl, rfl⟩ | ⟨rfl, rfl⟩ | ⟨rfl, rfl⟩ | ⟨rfl, rfl⟩ |
    ⟨rfl, rfl⟩ <;> decide

/-- **A code point is read back**; after it the scanner knows whether an
escaped high surrogate was the last. -/
theorem lex_writeCode (ascii : Bool) {high : Bool} {c : Nat} (hcode : c ≤ 0x10FFFF)
    (hapart : high = true → isLow c = false) (read : Text) :
    ∃ high', (high' = true → ascii = true ∧ isHigh c = true) ∧ ∀ rest,
      lex (.string read high) (writeCode ascii c ++ rest) =
        lex (.string (c :: read) high') rest := by
  unfold writeCode
  split
  · rename_i d hd
    obtain ⟨hu, hescape, -⟩ := lookup_shortEscapes hd
    refine ⟨false, by simp, fun rest => ?_⟩
    show lex _ (0x5C :: d :: rest) = _
    rw [lex_quiet (t := .escape read high) rfl, lex_quiet]
    simp [scan, hu, hescape]
  · rename_i hnone
    have hquote : c ≠ 0x22 ∧ c ≠ 0x5C := by
      refine ⟨?_, ?_⟩ <;> rintro rfl <;> cases hnone
    split
    · rename_i hcontrol
      have hhigh : isHigh c = false := by
        rw [← Bool.not_eq_true, isHigh_iff]
        omega
      refine ⟨false, by simp, fun rest => ?_⟩
      rw [lex_unicodeEscape _ _ (by omega), escaped_apart hapart, hhigh]
    · rename_i hprints
      split
      · refine ⟨false, by simp, fun rest => ?_⟩
        exact lex_quiet (by simp [scan, hquote.1, hquote.2, hprints]) rest
      · rename_i hascii
        simp only [Bool.or_eq_true, Bool.not_eq_true', decide_eq_true_eq, not_or,
          Bool.not_eq_false] at hascii
        split
        · rename_i hsmall
          refine ⟨isHigh c, fun h => ⟨hascii.1, h⟩, fun rest => ?_⟩
          rw [lex_unicodeEscape _ _ hsmall, escaped_apart hapart]
        · rename_i hlarge
          obtain ⟨hhigh, hnotLow, hfits, hfits'⟩ := isHigh_highOf (by omega) hcode
          refine ⟨false, by simp, fun rest => ?_⟩
          rw [List.append_assoc, lex_unicodeEscape _ _ hfits, escaped_apart fun _ => hnotLow, hhigh,
            lex_unicodeEscape _ _ hfits', escaped_pair (by omega) hcode]

theorem lex_codes {ascii high : Bool} {s : Text} (hcodes : ∀ c ∈ s, c ≤ 0x10FFFF)
    (hapart : ascii = true → s.IsChain fun c d => ¬(isHigh c = true ∧ isLow d = true))
    (hhigh : high = true → ∀ c ∈ s.head?, isLow c = false) (read rest : Text) :
    lex (.string read high) (s.flatMap (writeCode ascii) ++ 0x22 :: rest) =
      (lex .gap rest).map (.scalar (.string (read.reverse ++ s)) :: ·) := by
  induction s generalizing high read with
  | nil => simp [lex_cons, scan]
  | cons c s ih =>
    obtain ⟨high', hhigh', hread⟩ := lex_writeCode ascii (hcodes c (by simp))
      (fun h => hhigh h c (by simp)) read
    have hnext : high' = true → ∀ d ∈ s.head?, isLow d = false := by
      intro h d hd
      obtain ⟨ha, hc⟩ := hhigh' h
      cases s with
      | nil => cases hd
      | cons e s =>
        obtain rfl : e = d := by simpa using hd
        have hpair := (List.isChain_cons_cons.mp (hapart ha)).1
        simpa [hc] using hpair
    have hrest := ih (fun d hd => hcodes d (List.mem_cons_of_mem c hd))
      (fun ha => (hapart ha).of_cons) hnext (c :: read)
    rw [List.flatMap_cons, List.append_assoc, hread, hrest]
    simp

/-! ## Words are read back -/

/-- The text goes on with no code point of a word. -/
def Delimited (rest : Text) : Prop :=
  ∀ c ∈ rest.head?, isWord c = false

theorem begins_word {c : Nat} (h : isWord c = true) : begins c = some ([], .word [c]) := by
  have hother : isBlank c = false ∧ c ≠ 0x22 := by
    refine ⟨?_, ?_⟩
    · by_contra hblank
      simp only [isBlank, Bool.not_eq_false, Bool.or_eq_true, decide_eq_true_eq] at hblank
      rcases hblank with ((rfl | rfl) | rfl) | rfl <;> cases h
    · rintro rfl
      cases h
  simp [begins, hother.1, hother.2, h]

/-- A word is complete where the text goes on with something else. -/
theorem lex_wordEnd {read rest : Text} {t : Token} (h : readWord read.reverse = some t)
    (hrest : Delimited rest) : lex (.word read) rest = (lex .gap rest).map (t :: ·) := by
  cases rest with
  | nil => simp [lex, h]
  | cons c rest =>
    have hc : isWord c = false := hrest c (by simp)
    rw [lex_cons, lex_cons]
    show ((if isWord c then _ else _ : Option (List Token × Scan))).bind _ = _
    simp only [hc, h, Bool.false_eq_true, if_false, Option.bind_eq_bind, Option.bind_some, scan]
    cases begins c with
    | none => rfl
    | some p => cases hlex : lex p.2 rest <;> simp [hlex]

theorem lex_wordCodes {w : Text} (hword : ∀ c ∈ w, isWord c = true) (read rest : Text) :
    lex (.word read) (w ++ rest) = lex (.word (w.reverse ++ read)) rest := by
  induction w generalizing read with
  | nil => rfl
  | cons c w ih =>
    have hc := hword c (by simp)
    rw [List.cons_append, lex_quiet (t := .word (c :: read)) (by simp [scan, hc]),
      ih fun d hd => hword d (List.mem_cons_of_mem c hd)]
    simp

/-- `text` is read as `ts` where it ends or no word goes on. -/
def Lexes (text : Text) (ts : List Token) : Prop :=
  ∀ rest, Delimited rest → lex .gap (text ++ rest) = (lex .gap rest).map (ts ++ ·)

/-- `text` is read as `ts` whatever follows. -/
def Closed (text : Text) (ts : List Token) : Prop :=
  ∀ rest, lex .gap (text ++ rest) = (lex .gap rest).map (ts ++ ·)

theorem lexes_word {w : Text} {t : Token} (hword : ∀ c ∈ w, isWord c = true)
    (hread : readWord w = some t) : Lexes w [t] := by
  intro rest hrest
  cases w with
  | nil => cases hread
  | cons c w =>
    have hc := hword c (by simp)
    rw [List.cons_append, lex_quiet (s := .gap) (t := .word [c]) (begins_word hc),
      lex_wordCodes fun d hd => hword d (List.mem_cons_of_mem c hd)]
    rw [lex_wordEnd (t := t) (by simpa using hread) hrest]
    rfl

/-! ### Integers -/

theorem writeNat_digits (n : Nat) : ∀ c ∈ writeNat n, isDigit c = true := by
  intro c hc
  unfold writeNat at hc
  split at hc
  · obtain rfl := List.mem_singleton.mp hc
    rfl
  · obtain ⟨d, hd, rfl⟩ := List.mem_map.mp hc
    have := Nat.digits_lt_base (by omega) (List.mem_reverse.mp hd)
    simp only [isDigit, Bool.and_eq_true, decide_eq_true_eq]
    omega

/-- The digits are a literal: the first is a zero only where it is alone. -/
theorem writeNat_head (n : Nat) :
    writeNat n ≠ [] ∧ ((writeNat n).head? = some 0x30 → (writeNat n).length = 1) := by
  unfold writeNat
  split
  · simp
  · rename_i hn
    have hne : Nat.digits 10 n ≠ [] := Nat.digits_ne_nil_iff_ne_zero.mpr hn
    refine ⟨by simpa using hne, ?_⟩
    intro hzero
    rw [List.head?_map, List.head?_reverse, List.getLast?_eq_some_getLast hne] at hzero
    have := Nat.getLast_digit_ne_zero 10 hn
    simp only [Option.map_some, Option.some.injEq] at hzero
    omega

theorem ofDigits_writeNat (n : Nat) : ofDigits (writeNat n) = n := by
  unfold writeNat
  split
  · rename_i hn
    rw [hn]
    rfl
  · have hfold : ∀ ds : List Nat, ofDigits (ds.reverse.map (0x30 + ·)) = Nat.ofDigits 10 ds := by
      intro ds
      rw [ofDigits, List.foldl_map, List.foldl_reverse]
      induction ds with
      | nil => rfl
      | cons d ds ih =>
        rw [List.foldr_cons, ih, Nat.ofDigits_cons, Nat.add_sub_cancel_left]
        omega
    rw [hfold, Nat.ofDigits_digits]

theorem readNumber_digits {digits w : Text} (hdigits : ∀ c ∈ digits, isDigit c = true)
    (hhead : digits ≠ [] ∧ (digits.head? = some 0x30 → digits.length = 1))
    (hw : (if w.head? = some 0x2D then w.tail else w) = digits) :
    readNumber w = some (.int (if w.head? = some 0x2D then -(ofDigits digits : ℤ)
      else ofDigits digits)) := by
  have htake : digits.takeWhile isDigit = digits := List.takeWhile_eq_self_iff.mpr hdigits
  have hdrop : digits.dropWhile isDigit = [] := List.dropWhile_eq_nil_iff.mpr hdigits
  have hliteral : (digits.isEmpty || (decide (digits.head? = some 0x30) &&
      decide (digits.length ≠ 1))) = false := by
    simpa [List.isEmpty_iff, hhead.1] using hhead.2
  simp only [readNumber, hw, htake, hdrop, hliteral]
  simp

/-- A word without a letter is no literal name. -/
theorem readWord_number {w : Text} (h : ∀ c ∈ w, isLetter c = false) :
    readWord w = (readNumber w).map fun n => .scalar (.number n) := by
  have hname : ∀ name : Text, (∃ c ∈ name, isLetter c = true) → w ≠ name := by
    rintro name ⟨c, hc, hletter⟩ rfl
    rw [h c hc] at hletter
    cases hletter
  have htrue := hname (Text.of "true") ⟨0x74, by decide, rfl⟩
  have hfalse := hname (Text.of "false") ⟨0x66, by decide, rfl⟩
  have hnull := hname (Text.of "null") ⟨0x6E, by decide, rfl⟩
  have hnan := hname (Text.of "NaN") ⟨0x4E, by decide, rfl⟩
  have hinf := hname (Text.of "Infinity") ⟨0x49, by decide, rfl⟩
  have hneg := hname (Text.of "-Infinity") ⟨0x49, by decide, rfl⟩
  simp [readWord, htrue, hfalse, hnull, hnan, hinf, hneg]

theorem isDigit_iff {c : Nat} : isDigit c = true ↔ 0x30 ≤ c ∧ c ≤ 0x39 := by
  simp [isDigit]

theorem lexes_int (n : ℤ) : Lexes (writeNumber (.int n)) [.scalar (.number (.int n))] := by
  have hdigits := writeNat_digits n.natAbs
  have hword : ∀ c ∈ writeNumber (.int n), isDigit c = true ∨ c = 0x2D := by
    intro c hc
    simp only [writeNumber] at hc
    split at hc
    · rcases List.mem_cons.mp hc with rfl | hc
      · exact .inr rfl
      · exact .inl (hdigits c hc)
    · exact .inl (hdigits c hc)
  refine lexes_word (fun c hc => ?_) ?_
  · rcases hword c hc with hc | rfl
    · simp [isWord, hc]
    · rfl
  · have hletter : ∀ c ∈ writeNumber (.int n), isLetter c = false := by
      intro c hc
      rcases hword c hc with hc | rfl
      · rw [isDigit_iff] at hc
        simp only [isLetter, Bool.or_eq_false_iff, Bool.and_eq_false_iff, decide_eq_false_iff_not]
        omega
      · rfl
    rw [readWord_number hletter]
    simp only [writeNumber]
    split
    · rename_i hneg
      rw [readNumber_digits hdigits (writeNat_head _) (by simp), ofDigits_writeNat]
      simp only [List.head?_cons, if_true, Option.map_some]
      congr 4
      omega
    · rename_i hneg
      have hfirst : (writeNat n.natAbs).head? ≠ some 0x2D := by
        intro hminus
        have := hdigits 0x2D (List.mem_of_mem_head? hminus)
        cases this
      rw [readNumber_digits hdigits (writeNat_head _) (by simp [hfirst]), ofDigits_writeNat]
      simp only [if_neg hfirst, Option.map_some]
      congr 4
      omega

/-! ## Values are read back -/

/-- Separators that are read as such. -/
structure Style.Valid (st : Style) : Prop where
  item : Closed st.item [.comma]
  itemStart : ∀ rest, Delimited (st.item ++ rest)
  key : Closed st.key [.colon]

theorem Closed.lexes {text : Text} {ts : List Token} (h : Closed text ts) : Lexes text ts :=
  fun rest _ => h rest

theorem Closed.append {text text' : Text} {ts ts' : List Token} (h : Closed text ts)
    (h' : Closed text' ts') : Closed (text ++ text') (ts ++ ts') := by
  intro rest
  rw [List.append_assoc, h, h']
  simp [Function.comp_def]

theorem Closed.append_lexes {text text' : Text} {ts ts' : List Token} (h : Closed text ts)
    (h' : Lexes text' ts') : Lexes (text ++ text') (ts ++ ts') := by
  intro rest hrest
  rw [List.append_assoc, h, h' rest hrest]
  simp [Function.comp_def]

/-- A text closes what goes before it, if it starts no word. -/
theorem Lexes.append_closed {text text' : Text} {ts ts' : List Token} (h : Lexes text ts)
    (h' : Closed text' ts') (hstart : ∀ rest, Delimited (text' ++ rest)) :
    Closed (text ++ text') (ts ++ ts') := by
  intro rest
  rw [List.append_assoc, h _ (hstart rest), h']
  simp [Function.comp_def]

theorem closed_punctuation {c : Nat} {t : Token} (h : begins c = some ([t], .gap)) :
    Closed [c] [t] := by
  intro rest
  rw [List.cons_append, List.nil_append, lex_cons]
  show (begins c).bind _ = _
  rw [h]
  rfl

theorem delimited_cons {c : Nat} (h : isWord c = false) (text : Text) :
    Delimited (c :: text) := by
  intro d hd
  obtain rfl : c = d := by simpa using hd
  exact h

theorem Style.valid_compact (ascii : Bool) : (Style.compact ascii).Valid where
  item := closed_punctuation rfl
  itemStart := delimited_cons rfl
  key := closed_punctuation rfl

theorem closed_string {ascii : Bool} {s : Text} (h : Plain ascii s) :
    Closed (writeString ascii s) [.scalar (.string s)] := by
  intro rest
  show lex .gap (0x22 :: (s.flatMap (writeCode ascii) ++ [0x22]) ++ rest) = _
  rw [List.cons_append, lex_quiet (s := .gap) (t := .string [] false) rfl, List.append_assoc,
    List.singleton_append, lex_codes h.codes h.apart (by simp)]
  rfl

variable {st : Style}

theorem lexes_items (hst : st.Valid) {items : List Json}
    (h : ∀ v ∈ items, Lexes (dumps st v) (tokens v)) :
    Lexes (dumpItems st items) (itemTokens items) := by
  induction items with
  | nil => exact fun rest _ => by simp [dumpItems, itemTokens]
  | cons v items ih =>
    have hv := h v (by simp)
    cases items with
    | nil => exact hv
    | cons w items =>
      have hitems := ih fun u hu => h u (List.mem_cons_of_mem v hu)
      have hclosed := hv.append_closed hst.item hst.itemStart
      simpa [dumpItems, itemTokens] using hclosed.append_lexes hitems

theorem lexes_members (hst : st.Valid) {members : List (Text × Json)}
    (hnames : ∀ m ∈ members, Plain st.ascii m.1)
    (h : ∀ m ∈ members, Lexes (dumps st m.2) (tokens m.2)) :
    Lexes (dumpMembers st members) (memberTokens members) := by
  induction members with
  | nil => exact fun rest _ => by simp [dumpMembers, memberTokens]
  | cons m members ih =>
    obtain ⟨name, v⟩ := m
    have hname := (closed_string (hnames (name, v) (by simp))).append hst.key
    have hv := hname.append_lexes (h (name, v) (by simp))
    cases members with
    | nil => simpa [dumpMembers, memberTokens] using hv
    | cons n members =>
      have hmembers := ih (fun u hu => hnames u (List.mem_cons_of_mem _ hu))
        fun u hu => h u (List.mem_cons_of_mem _ hu)
      have hclosed := hv.append_closed hst.item hst.itemStart
      simpa [dumpMembers, memberTokens] using hclosed.append_lexes hmembers

/-- A text in brackets is closed. -/
theorem closed_brackets {l r : Nat} {text : Text} {ts : List Token} {tl tr : Token}
    (hl : begins l = some ([tl], .gap)) (hr : begins r = some ([tr], .gap))
    (hword : isWord r = false) (h : Lexes text ts) :
    Closed (l :: text ++ [r]) (tl :: ts ++ [tr]) :=
  ((closed_punctuation hl).append_lexes h).append_closed (closed_punctuation hr)
    (delimited_cons hword)

theorem lexes_dumps (hst : st.Valid) {v : Json} (h : Writable st.ascii v) :
    Lexes (dumps st v) (tokens v) := by
  induction h with
  | null => exact lexes_word (w := Text.of "null") (by decide) rfl
  | bool b =>
    cases b with
    | true => exact lexes_word (w := Text.of "true") (by decide) rfl
    | false => exact lexes_word (w := Text.of "false") (by decide) rfl
  | int n => exact lexes_int n
  | float h => exact lexes_word h.word h.read
  | string h => exact (closed_string h).lexes
  | array h ih => exact (closed_brackets rfl rfl rfl (lexes_items hst ih)).lexes
  | object hnames h ih =>
    exact (closed_brackets rfl rfl rfl (lexes_members hst hnames ih)).lexes

/-- **What is written is read back.** -/
theorem loads_dumps (hst : st.Valid) {v : Json} (h : Writable st.ascii v) :
    loads (dumps st v) = some v := by
  refine loads_of_lex ?_
  have hlex := lexes_dumps hst h [] (by simp [Delimited])
  rw [List.append_nil] at hlex
  rw [hlex]
  simp [lex]

/-- Values of the same text are the same. -/
theorem dumps_inj (hst : st.Valid) {v w : Json} (hv : Writable st.ascii v)
    (hw : Writable st.ascii w) (h : dumps st v = dumps st w) : v = w := by
  have hread := loads_dumps hst hv
  rw [h, loads_dumps hst hw] at hread
  exact (Option.some.inj hread).symm

/-! ## ASCII text -/

/-- All code points are below `0x80`. -/
def IsAscii (text : Text) : Prop :=
  ∀ c ∈ text, c < 0x80

theorem IsAscii.append {t u : Text} (ht : IsAscii t) (hu : IsAscii u) : IsAscii (t ++ u) := by
  intro c hc
  rcases List.mem_append.mp hc with hc | hc
  · exact ht c hc
  · exact hu c hc

theorem isAscii_word {w : Text} (h : ∀ c ∈ w, isWord c = true) : IsAscii w := by
  intro c hc
  have hword := h c hc
  simp only [isWord, isDigit, isLetter, Bool.or_eq_true, Bool.and_eq_true,
    decide_eq_true_eq] at hword
  omega

theorem isAscii_unicodeEscape (code : Nat) : IsAscii (unicodeEscape code) := by
  have hhex : ∀ d, d < 16 → hexChar d < 0x80 := by decide
  intro c hc
  simp only [unicodeEscape, List.mem_cons, List.not_mem_nil, or_false] at hc
  rcases hc with rfl | rfl | rfl | rfl | rfl | rfl
  · omega
  · omega
  all_goals exact hhex _ (by omega)

theorem isAscii_writeCode (c : Nat) : IsAscii (writeCode true c) := by
  unfold writeCode
  split
  · rename_i d hd
    obtain ⟨before, after, hmem, -⟩ := List.lookup_eq_some_iff.mp hd
    have hmem : (c, d) ∈ shortEscapes := by simp [hmem]
    have hsmall : ∀ e ∈ shortEscapes, e.2 < 0x80 := by decide
    have hd := hsmall _ hmem
    intro b hb
    rcases List.mem_cons.mp hb with rfl | hb
    · omega
    · obtain rfl := List.mem_singleton.mp hb
      exact hd
  · split
    · exact isAscii_unicodeEscape c
    · split
      · rename_i hprints
        intro b hb
        obtain rfl := List.mem_singleton.mp hb
        have : b < 0x7F := by simpa using hprints
        omega
      · split
        · exact isAscii_unicodeEscape c
        · exact (isAscii_unicodeEscape _).append (isAscii_unicodeEscape _)

theorem isAscii_writeString (s : Text) : IsAscii (writeString true s) := by
  intro c hc
  simp only [writeString, List.mem_append, List.mem_cons, List.mem_flatMap, List.not_mem_nil,
    or_false] at hc
  rcases hc with (rfl | ⟨b, -, hc⟩) | rfl
  · omega
  · exact isAscii_writeCode b c hc
  · omega

theorem isAscii_writeNumber {n : Number} (h : Writable true (.number n)) :
    IsAscii (writeNumber n) := by
  cases h with
  | int n =>
    have hdigits : IsAscii (writeNat n.natAbs) :=
      isAscii_word fun c hc => by simp [isWord, writeNat_digits _ c hc]
    simp only [writeNumber]
    split
    · exact IsAscii.append (t := [0x2D]) (by simp [IsAscii]) hdigits
    · exact hdigits
  | float h => exact isAscii_word h.word

/-- **`ensure_ascii`**: the text is ASCII, if the separators are. -/
theorem isAscii_dumps {st : Style} (hst : st.ascii = true) (hitem : IsAscii st.item)
    (hkey : IsAscii st.key) {v : Json} (h : Writable true v) : IsAscii (dumps st v) := by
  have hone : ∀ c, c < 0x80 → IsAscii [c] := by
    intro c hc b hb
    obtain rfl := List.mem_singleton.mp hb
    exact hc
  induction h with
  | null => exact isAscii_word (w := Text.of "null") (by decide)
  | bool b =>
    cases b with
    | true => exact isAscii_word (w := Text.of "true") (by decide)
    | false => exact isAscii_word (w := Text.of "false") (by decide)
  | int n => exact isAscii_writeNumber (.int n)
  | float h => exact isAscii_writeNumber (.float h)
  | string h =>
    rw [dumps, hst]
    exact isAscii_writeString _
  | array h ih =>
    rename_i items
    refine IsAscii.append (IsAscii.append (hone 0x5B (by omega)) ?_) (hone 0x5D (by omega))
    induction items with
    | nil => simp [dumpItems, IsAscii]
    | cons v items ihitems =>
      have hv := ih v (by simp)
      have hitems := ihitems (fun w hw => h w (List.mem_cons_of_mem v hw))
        fun w hw => ih w (List.mem_cons_of_mem v hw)
      cases items with
      | nil => exact hv
      | cons w items => exact (hv.append hitem).append hitems
  | object hnames h ih =>
    rename_i members
    refine IsAscii.append (IsAscii.append (hone 0x7B (by omega)) ?_) (hone 0x7D (by omega))
    induction members with
    | nil => simp [dumpMembers, IsAscii]
    | cons m members ihmembers =>
      obtain ⟨name, v⟩ := m
      have hv := ((isAscii_writeString name).append hkey).append (ih (name, v) (by simp))
      have hmembers := ihmembers (fun w hw => hnames w (List.mem_cons_of_mem _ hw))
        (fun w hw => h w (List.mem_cons_of_mem _ hw)) fun w hw => ih w (List.mem_cons_of_mem _ hw)
      rw [← hst] at hv
      cases members with
      | nil => exact hv
      | cons n members => exact (hv.append hitem).append hmembers

end Json
