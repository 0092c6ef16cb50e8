import Fusion.Lib.JsonWriter

/-!
# JsonReread — what was read can be written

In a text without surrogates a surrogate of a string can only come from an
escape, and the scanner joins the two of a pair. So the one kind of string
that is not read back as it was written is never read.
-/

namespace Json

/-! ## The scanner -/

/-- The string read so far, reversed; `high` says that it ends in a high
surrogate. -/
structure ReadOk (read : Text) (high : Bool) : Prop where
  codes : ∀ c ∈ read, c ≤ 0x10FFFF
  apart : read.IsChain fun d c => ¬(isHigh c = true ∧ isLow d = true)
  high : high = true ↔ ∃ last ∈ read.head?, isHigh last = true

/-- What the scanner holds can be written. -/
def ScanOk : Scan → Prop
  | .gap => True
  | .word read => ∀ c ∈ read, isWord c = true
  | .string read high => ReadOk read high
  | .escape read high => ReadOk read high
  | .hex read high left code => ReadOk read high ∧ (code + 1) * 16 ^ (left + 1) ≤ 0x10000

/-- What a token holds can be written. -/
def TokenOk : Token → Prop
  | .scalar v => Writable true v
  | _ => True

theorem ReadOk.nil : ReadOk [] false := ⟨by simp, .nil, by simp⟩

theorem ReadOk.plain {read : Text} {high : Bool} (h : ReadOk read high) :
    Plain true read.reverse where
  codes c hc := h.codes c (List.mem_reverse.mp hc)
  apart _ := List.isChain_reverse.mpr h.apart

/-- One more code point, which does not pair with the one before. -/
theorem ReadOk.cons {read : Text} {high : Bool} (h : ReadOk read high) {c : Nat}
    (hc : c ≤ 0x10FFFF) (hapart : high = true → isLow c = false) :
    ReadOk (c :: read) (isHigh c) where
  codes := by
    intro d hd
    rcases List.mem_cons.mp hd with rfl | hd
    · exact hc
    · exact h.codes d hd
  apart := by
    cases read with
    | nil => exact .singleton c
    | cons last read =>
      refine .cons_cons ?_ h.apart
      rintro ⟨hlast, hlow⟩
      rw [hapart (h.high.mpr ⟨last, rfl, hlast⟩)] at hlow
      cases hlow
  high := by simp

/-- A code point that is no surrogate is never paired. -/
theorem ReadOk.scalar {read : Text} {high : Bool} (h : ReadOk read high) {c : Nat}
    (hc : isScalar c = true) : ReadOk (c :: read) false := by
  simp only [isScalar, Bool.and_eq_true, Bool.not_eq_true', decide_eq_true_eq] at hc
  have hcons := h.cons (c := c) hc.1.1 fun _ => hc.2
  rwa [hc.1.2] at hcons

theorem ReadOk.tail {read : Text} {high : Bool} {last : Nat} (h : ReadOk (last :: read) high) :
    ReadOk read (read.head?.any isHigh) where
  codes c hc := h.codes c (List.mem_cons_of_mem last hc)
  apart := h.apart.of_cons
  high := by cases read <;> simp

theorem scanOk_escaped {read : Text} {high : Bool} (h : ReadOk read high) {code : Nat}
    (hcode : code ≤ 0xFFFF) : ScanOk (escaped read high code) := by
  by_cases hpair : high = true ∧ isLow code = true
  · -- the code points join: the pair is above every surrogate
    obtain ⟨rfl, hlow⟩ := hpair
    obtain ⟨last, hlast, hhigh⟩ := h.high.mp rfl
    cases read with
    | nil => cases hlast
    | cons last' read =>
      obtain rfl : last' = last := by simpa using hlast
      rw [isHigh_iff] at hhigh
      have hlow' := isLow_iff.mp hlow
      have hjoined : isScalar (0x10000 + (last' - 0xD800) * 0x400 + (code - 0xDC00)) = true := by
        simp only [isScalar, Bool.and_eq_true, Bool.not_eq_true', decide_eq_true_eq,
          isLow_eq_false, ← Bool.not_eq_true (isHigh _), isHigh_iff]
        omega
      simp only [escaped, hlow, Bool.and_self, if_true]
      exact h.tail.scalar hjoined
  · rw [escaped_apart (by simpa using hpair)]
    exact h.cons (by omega) (by simpa using hpair)

theorem hexDigit_lt {c d : Nat} (h : hexDigit c = some d) : d < 16 := by
  unfold hexDigit at h
  split at h
  · rename_i hdigit
    rw [isDigit_iff] at hdigit
    cases h
    omega
  · split at h
    · cases h
      omega
    · split at h <;> cases h
      omega

theorem isScalar_escapes {c d : Nat} (h : escapes.lookup c = some d) : isScalar d = true := by
  obtain ⟨before, after, hmem, -⟩ := List.lookup_eq_some_iff.mp h
  have hmem : (c, d) ∈ escapes := by simp [hmem]
  simp only [escapes, List.mem_cons, List.not_mem_nil, or_false, Prod.mk.injEq] at hmem
  rcases hmem with ⟨rfl, rfl⟩ | ⟨rfl, rfl⟩ | ⟨rfl, rfl⟩ | ⟨rfl, rfl⟩ | ⟨rfl, rfl⟩ | ⟨rfl, rfl⟩ |
    ⟨rfl, rfl⟩ | ⟨rfl, rfl⟩ <;> rfl

/-- The literal of a float is the word it was read from. -/
theorem readNumber_float {w literal : Text} (h : readNumber w = some (.float literal)) :
    literal = w := by
  unfold readNumber at h
  extract_lets unsigned digits rest at h
  split at h
  · cases h
  · split at h
    · cases h
    · split at h <;> cases h
      rfl

theorem tokenOk_readWord {w : Text} (hword : ∀ c ∈ w, isWord c = true) {t : Token}
    (h : readWord w = some t) : TokenOk t := by
  have hread := h
  unfold readWord at h
  split at h
  · cases h
    exact .bool true
  · split at h
    · cases h
      exact .bool false
    · split at h
      · cases h
        exact .null
      · split at h
        · cases h
          exact .float ⟨hword, hread⟩
        · obtain ⟨n, hn, rfl⟩ := Option.map_eq_some_iff.mp h
          cases n with
          | int n => exact .int n
          | float literal =>
            obtain rfl := readNumber_float hn
            exact .float ⟨hword, hread⟩

theorem begins_ok {c : Nat} {ts : List Token} {s : Scan} (h : begins c = some (ts, s)) :
    (∀ t ∈ ts, TokenOk t) ∧ ScanOk s := by
  unfold begins at h
  split at h
  · cases h
    exact ⟨by simp, trivial⟩
  · split at h
    · cases h
      exact ⟨by simp, .nil⟩
    · split at h
      · rename_i hword
        cases h
        exact ⟨by simp, by simpa [ScanOk] using hword⟩
      · obtain ⟨t, ht, hts⟩ := Option.map_eq_some_iff.mp h
        cases hts
        obtain ⟨before, after, hmem, -⟩ := List.lookup_eq_some_iff.mp ht
        have hmem : (c, t) ∈ punctuation := by simp [hmem]
        simp only [punctuation, List.mem_cons, List.not_mem_nil, or_false, Prod.mk.injEq] at hmem
        rcases hmem with ⟨-, rfl⟩ | ⟨-, rfl⟩ | ⟨-, rfl⟩ | ⟨-, rfl⟩ | ⟨-, rfl⟩ | ⟨-, rfl⟩ <;>
          exact ⟨by simp [TokenOk], trivial⟩

/-- One code point of a text without surrogates. -/
theorem scan_ok {s s' : Scan} {c : Nat} {ts : List Token} (hs : ScanOk s)
    (hc : isScalar c = true) (h : scan s c = some (ts, s')) :
    (∀ t ∈ ts, TokenOk t) ∧ ScanOk s' := by
  cases s with
  | gap => exact begins_ok h
  | word read =>
    simp only [scan] at h
    split at h
    · rename_i hword
      cases h
      refine ⟨by simp, ?_⟩
      intro d hd
      rcases List.mem_cons.mp hd with rfl | hd
      · exact hword
      · exact hs d hd
    · simp only [Option.bind_eq_bind, Option.bind_eq_some_iff] at h
      obtain ⟨t, ht, ⟨ts', s''⟩, hbegins, hts⟩ := h
      cases hts
      have hok := begins_ok hbegins
      have htoken := tokenOk_readWord (fun d hd => hs d (List.mem_reverse.mp hd)) ht
      exact ⟨by simpa using ⟨htoken, hok.1⟩, hok.2⟩
  | string read high =>
    simp only [scan] at h
    split at h
    · cases h
      exact ⟨by simpa [TokenOk] using Writable.string hs.plain, trivial⟩
    · split at h
      · cases h
        exact ⟨by simp, hs⟩
      · split at h <;> cases h
        exact ⟨by simp, hs.scalar hc⟩
  | escape read high =>
    simp only [scan] at h
    split at h
    · cases h
      exact ⟨by simp, hs, by decide⟩
    · obtain ⟨d, hd, hts⟩ := Option.map_eq_some_iff.mp h
      cases hts
      exact ⟨by simp, hs.scalar (isScalar_escapes hd)⟩
  | hex read high left code =>
    obtain ⟨hread, hbound⟩ := hs
    simp only [scan, Option.bind_eq_bind, Option.bind_eq_some_iff] at h
    obtain ⟨d, hd, h⟩ := h
    have hlt := hexDigit_lt hd
    cases left with
    | zero =>
      cases h
      refine ⟨by simp, scanOk_escaped hread ?_⟩
      omega
    | succ left =>
      cases h
      refine ⟨by simp, hread, ?_⟩
      calc (16 * code + d + 1) * 16 ^ (left + 1)
          ≤ (16 * (code + 1)) * 16 ^ (left + 1) := Nat.mul_le_mul_right _ (by omega)
        _ = (code + 1) * 16 ^ (left + 1 + 1) := by ring
        _ ≤ 0x10000 := hbound

theorem lex_ok {s : Scan} {text : Text} {ts : List Token} (hs : ScanOk s)
    (htext : ∀ c ∈ text, isScalar c = true) (h : lex s text = some ts) :
    ∀ t ∈ ts, TokenOk t := by
  induction text generalizing s ts with
  | nil =>
    cases s with
    | gap =>
      cases h
      simp
    | word read =>
      simp only [lex, Option.map_eq_some_iff] at h
      obtain ⟨t, ht, rfl⟩ := h
      simpa using tokenOk_readWord (fun d hd => hs d (List.mem_reverse.mp hd)) ht
    | string read high | escape read high | hex read high left code => cases h
  | cons c text ih =>
    rw [lex_cons] at h
    obtain ⟨⟨ts', s'⟩, hscan, h⟩ := Option.bind_eq_some_iff.mp h
    obtain ⟨rest, hrest, rfl⟩ := Option.map_eq_some_iff.mp h
    have hok := scan_ok hs (htext c (by simp)) hscan
    have hrestOk := ih hok.2 (fun d hd => htext d (List.mem_cons_of_mem c hd)) hrest
    intro t ht
    rcases List.mem_append.mp ht with ht | ht
    · exact hok.1 t ht
    · exact hrestOk t ht

/-! ## The parser -/

/-- The members of an object that is open can be written. -/
def MembersOk (members : List (Text × Json)) : Prop :=
  ∀ m ∈ members, Plain true m.1 ∧ Writable true m.2

/-- What is open can be written. -/
def FrameOk : Frame → Prop
  | .array items => ∀ v ∈ items, Writable true v
  | .member members name => MembersOk members ∧ Plain true name

/-- All that is open can be written. -/
def StackOk (stack : List Frame) : Prop :=
  ∀ f ∈ stack, FrameOk f

/-- All that was read can be written. -/
def ParseOk : Parse → Prop
  | .value stack => StackOk stack
  | .firstItem stack => StackOk stack
  | .firstName stack => StackOk stack
  | .name members stack => MembersOk members ∧ StackOk stack
  | .colon members name stack => MembersOk members ∧ Plain true name ∧ StackOk stack
  | .nextItem items stack => (∀ v ∈ items, Writable true v) ∧ StackOk stack
  | .nextMember members stack => MembersOk members ∧ StackOk stack
  | .done v => Writable true v

theorem MembersOk.writable {members : List (Text × Json)} (h : MembersOk members) :
    Writable true (.object members) :=
  .object (fun m hm => (h m hm).1) fun m hm => (h m hm).2

theorem StackOk.push {f : Frame} {stack : List Frame} (hf : FrameOk f) (h : StackOk stack) :
    StackOk (f :: stack) := by
  intro g hg
  rcases List.mem_cons.mp hg with rfl | hg
  · exact hf
  · exact h g hg

theorem complete_ok {v : Json} {stack : List Frame} (hv : Writable true v)
    (h : StackOk stack) : ParseOk (complete v stack) := by
  cases stack with
  | nil => exact hv
  | cons f stack =>
    have hf := h f (by simp)
    have hstack : StackOk stack := fun g hg => h g (List.mem_cons_of_mem f hg)
    cases f with
    | array items =>
      refine ⟨fun w hw => ?_, hstack⟩
      rcases List.mem_append.mp hw with hw | hw
      · exact hf w hw
      · obtain rfl := List.mem_singleton.mp hw
        exact hv
    | member members name =>
      refine ⟨fun m hm => ?_, hstack⟩
      rcases List.mem_append.mp hm with hm | hm
      · exact hf.1 m hm
      · obtain rfl := List.mem_singleton.mp hm
        exact ⟨hf.2, hv⟩

theorem open_ok {stack : List Frame} {t : Token} {p : Parse} (hstack : StackOk stack)
    (ht : TokenOk t) (h : open? stack t = some p) : ParseOk p := by
  cases t <;> cases h
  · exact hstack
  · exact hstack
  · exact complete_ok ht hstack

theorem Writable.plain {s : Text} (h : Writable true (.string s)) : Plain true s := by
  cases h
  assumption

theorem parse_ok {p p' : Parse} {t : Token} (hp : ParseOk p) (ht : TokenOk t)
    (h : parse p t = some p') : ParseOk p' := by
  unfold parse at h
  split at h
  · exact open_ok hp ht h
  · cases h
    exact complete_ok (.array (by simp)) hp
  · exact open_ok (StackOk.push (by simp [FrameOk]) hp) ht h
  · cases h
    exact complete_ok (.object (by simp) (by simp)) hp
  · cases h
    exact ⟨by simp [MembersOk], Writable.plain ht, hp⟩
  · cases h
    exact ⟨hp.1, Writable.plain ht, hp.2⟩
  · cases h
    exact StackOk.push ⟨hp.1, hp.2.1⟩ hp.2.2
  · cases h
    exact StackOk.push hp.1 hp.2
  · cases h
    exact complete_ok (.array hp.1) hp.2
  · cases h
    exact hp
  · cases h
    exact complete_ok hp.1.writable hp.2
  · cases h

/-- **What is read from a text without surrogates can be written.** -/
theorem writable_of_loads {text : Text} {v : Json} (htext : ∀ c ∈ text, isScalar c = true)
    (h : loads text = some v) : Writable true v := by
  simp only [loads, Option.bind_eq_bind, Option.bind_eq_some_iff] at h
  obtain ⟨ts, hlex, p, hparse, hv⟩ := h
  have hts := lex_ok (s := .gap) trivial htext hlex
  have hp : ParseOk p := by
    clear hlex hv
    have hstart : ParseOk (.value []) := by simp [ParseOk, StackOk]
    generalize Parse.value [] = start at hparse hstart
    induction ts generalizing start with
    | nil =>
      cases hparse
      exact hstart
    | cons t ts ih =>
      rw [List.foldlM_cons] at hparse
      obtain ⟨q, hq, hparse⟩ := Option.bind_eq_some_iff.mp hparse
      exact ih (fun u hu => hts u (List.mem_cons_of_mem t hu)) q hparse
        (parse_ok hstart (hts t (by simp)) hq)
  cases p <;> cases hv
  exact hp

/-- A member of an object that can be written. -/
theorem Writable.of_lookup {ascii : Bool} {members : List (Text × Json)} {name : Text} {v : Json}
    (h : Writable ascii (.object members)) (hv : lookup members name = some v) :
    Writable ascii v := by
  cases h with
  | object _ hmembers =>
    obtain ⟨m, hm, rfl⟩ := Option.map_eq_some_iff.mp hv
    exact hmembers m (List.mem_reverse.mp (List.mem_of_find?_eq_some hm))

theorem Plain.any {s : Text} (h : Plain true s) (ascii : Bool) : Plain ascii s :=
  ⟨h.codes, fun _ => h.apart rfl⟩

theorem Writable.any {v : Json} (h : Writable true v) (ascii : Bool) : Writable ascii v := by
  induction h with
  | null => exact .null
  | bool b => exact .bool b
  | int n => exact .int n
  | float h => exact .float h
  | string h => exact .string (h.any ascii)
  | array _ ih => exact .array ih
  | object hnames _ ih => exact .object (fun m hm => (hnames m hm).any ascii) ih

end Json
