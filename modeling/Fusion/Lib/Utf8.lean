import Fusion.Lib.Json

/-!
# Utf8 — bytes and code points

The language's codec: decoding, where an error replaces or raises, and
encoding, which a surrogate stops. The decoder keeps what the next byte may
be, so that overlong forms, surrogates and code points out of range are no
case of their own. What is encoded is decoded to the same text.
-/

/-- A byte string. -/
abbrev Bytes := List UInt8

/-! ## Decoding -/

/-- Where the decoder stands: between characters, or before `left + 1` more
bytes of one, the next of which lies between `low` and `high`. -/
inductive Utf8
  | start
  | more (left low high code : Nat)

namespace Utf8

/-- The first byte of a character. A byte that can be none is replaced. -/
def first (b : Nat) : Text × Utf8 :=
  if b < 0x80 then ([b], .start)
  else if 0xC2 ≤ b ∧ b ≤ 0xDF then ([], .more 0 0x80 0xBF (b - 0xC0))
  else if b = 0xE0 then ([], .more 1 0xA0 0xBF 0)
  else if b = 0xED then ([], .more 1 0x80 0x9F 0xD)
  else if 0xE1 ≤ b ∧ b ≤ 0xEF then ([], .more 1 0x80 0xBF (b - 0xE0))
  else if b = 0xF0 then ([], .more 2 0x90 0xBF 0)
  else if 0xF1 ≤ b ∧ b ≤ 0xF3 then ([], .more 2 0x80 0xBF (b - 0xF0))
  else if b = 0xF4 then ([], .more 2 0x80 0x8F 4)
  else ([0xFFFD], .start)

/-- `decode("utf-8", errors="replace")`: one U+FFFD for each start of a
character that the next byte cannot continue. -/
def decode : Utf8 → Bytes → Text
  | .start, [] => []
  | .more _ _ _ _, [] => [0xFFFD]
  | .start, b :: bytes =>
      let (text, s) := first b.toNat
      text ++ decode s bytes
  | .more left low high code, b :: bytes =>
      if low ≤ b.toNat ∧ b.toNat ≤ high then
        let code := 64 * code + (b.toNat - 0x80)
        match left with
        | 0 => code :: decode .start bytes
        | left + 1 => decode (.more left 0x80 0xBF code) bytes
      else
        let (text, s) := first b.toNat
        0xFFFD :: text ++ decode s bytes

/-- `decode("utf-8")`: nothing where the replacing decoder would replace. -/
def strict : Utf8 → Bytes → Option Text
  | .start, [] => some []
  | .more _ _ _ _, [] => none
  | .start, b :: bytes =>
      let (text, s) := first b.toNat
      if text = [0xFFFD] then none else (strict s bytes).map (text ++ ·)
  | .more left low high code, b :: bytes =>
      if low ≤ b.toNat ∧ b.toNat ≤ high then
        let code := 64 * code + (b.toNat - 0x80)
        match left with
        | 0 => (strict .start bytes).map (code :: ·)
        | left + 1 => strict (.more left 0x80 0xBF code) bytes
      else none

/-! ## What is decoded -/

theorem isScalar_iff {c : Nat} :
    Json.isScalar c = true ↔ c ≤ 0x10FFFF ∧ (c < 0xD800 ∨ 0xDFFF < c) := by
  simp only [Json.isScalar, Json.isHigh, Json.isLow, Bool.and_eq_true, decide_eq_true_eq,
    Bool.not_eq_true', Bool.and_eq_false_iff, decide_eq_false_iff_not]
  omega

/-- Whatever the next `left + 1` bytes are, the character is no surrogate. -/
def Yields : Nat → Nat → Nat → Nat → Prop
  | 0, low, high, code =>
      ∀ b, low ≤ b → b ≤ high → Json.isScalar (64 * code + (b - 0x80)) = true
  | left + 1, low, high, code =>
      ∀ b, low ≤ b → b ≤ high → Yields left 0x80 0xBF (64 * code + (b - 0x80))

/-- Whatever bytes follow, no surrogate comes of what was read. -/
def Sound : Utf8 → Prop
  | .start => True
  | .more left low high code => Yields left low high code

theorem first_sound (b : Nat) :
    (first b).2.Sound ∧ ((first b).1 = [0xFFFD] ∨ ∀ c ∈ (first b).1, Json.isScalar c = true) := by
  unfold first
  split
  · refine ⟨trivial, .inr ?_⟩
    simp only [List.mem_singleton, forall_eq, isScalar_iff]
    omega
  · repeat' split
    -- the bytes that begin a character leave the range of the next one
    all_goals
      first
      | exact ⟨trivial, .inl rfl⟩
      | refine ⟨?_, .inr (by simp)⟩
        simp only [Sound, Yields, isScalar_iff]
        intros
        omega

/-- What a sound decoder reads holds no surrogate: each byte leaves it sound. -/
theorem Sound.scalar {s : Utf8} (hs : s.Sound) {bytes : Bytes} {text : Text}
    (h : s.strict bytes = some text) : ∀ c ∈ text, Json.isScalar c = true := by
  induction bytes generalizing s text with
  | nil =>
    cases s <;> cases h
    simp
  | cons b bytes ih =>
    cases s with
    | start =>
      obtain ⟨hsound, hfirst⟩ := first_sound b.toNat
      simp only [strict] at h
      split at h
      · cases h
      · rename_i hreplaced
        obtain ⟨rest, hrest, rfl⟩ := Option.map_eq_some_iff.mp h
        intro c hc
        rcases List.mem_append.mp hc with hc | hc
        · exact hfirst.resolve_left hreplaced c hc
        · exact ih hsound hrest c hc
    | more left low high code =>
      simp only [strict] at h
      split at h
      · rename_i hrange
        cases left with
        | zero =>
          obtain ⟨rest, hrest, rfl⟩ := Option.map_eq_some_iff.mp h
          have hcode := hs b.toNat hrange.1 hrange.2
          intro c hc
          rcases List.mem_cons.mp hc with hc | hc
          · exact hc ▸ hcode
          · exact ih (s := .start) trivial hrest c hc
        | succ left =>
          exact ih (s := .more left 0x80 0xBF _) (hs b.toNat hrange.1 hrange.2) h
      · cases h

/-- **What is decoded strictly holds no surrogate.** -/
theorem scalar_of_strict {bytes : Bytes} {text : Text} (h : start.strict bytes = some text) :
    ∀ c ∈ text, Json.isScalar c = true :=
  Sound.scalar (s := start) trivial h

/-! ## Encoding -/

/-- The bytes of a code point. -/
def encodeCode (c : Nat) : Bytes :=
  if c < 0x80 then [.ofNat c]
  else if c < 0x800 then [.ofNat (0xC0 + c / 0x40), .ofNat (0x80 + c % 0x40)]
  else if c < 0x10000 then
    [.ofNat (0xE0 + c / 0x1000), .ofNat (0x80 + c / 0x40 % 0x40), .ofNat (0x80 + c % 0x40)]
  else
    [.ofNat (0xF0 + c / 0x40000), .ofNat (0x80 + c / 0x1000 % 0x40),
      .ofNat (0x80 + c / 0x40 % 0x40), .ofNat (0x80 + c % 0x40)]

/-- `encode("utf-8")`; a surrogate is no character. -/
def encode (text : Text) : Option Bytes :=
  if text.all Json.isScalar then some (text.flatMap encodeCode) else none

/-! ## What is encoded is decoded -/

variable {n low high code : Nat} (bytes : Bytes)

theorem toNat_ofNat (hn : n < 0x100) : (UInt8.ofNat n).toNat = n :=
  UInt8.toNat_ofNat_of_lt' hn

/-- The first byte of more than one. -/
theorem strict_first (hn : n < 0x100) {s : Utf8} (h : first n = ([], s)) :
    start.strict (.ofNat n :: bytes) = s.strict bytes := by
  simp [strict, toNat_ofNat hn, h]

theorem strict_next {left : Nat} (hlow : low ≤ n) (hhigh : n ≤ high) (hn : n < 0x100) :
    (more (left + 1) low high code).strict (.ofNat n :: bytes) =
      (more left 0x80 0xBF (64 * code + (n - 0x80))).strict bytes := by
  simp [strict, toNat_ofNat hn, hlow, hhigh]

theorem strict_last (hlow : low ≤ n) (hhigh : n ≤ high) (hn : n < 0x100) :
    (more 0 low high code).strict (.ofNat n :: bytes) =
      (start.strict bytes).map ((64 * code + (n - 0x80)) :: ·) := by
  simp [strict, toNat_ofNat hn, hlow, hhigh]

/-- The byte that begins three admits the second one of every code point but a
surrogate. -/
theorem first_three {c : Nat} (hlow : 0x800 ≤ c) (hhigh : c < 0x10000)
    (hscalar : c < 0xD800 ∨ 0xDFFF < c) : ∃ low high,
      first (0xE0 + c / 0x1000) = ([], more 1 low high (c / 0x1000)) ∧
        low ≤ 0x80 + c / 0x40 % 0x40 ∧ 0x80 + c / 0x40 % 0x40 ≤ high := by
  unfold first
  rw [if_neg (by omega), if_neg (by omega)]
  split
  · refine ⟨0xA0, 0xBF, ?_, ?_, ?_⟩
    · rw [show c / 0x1000 = 0 by omega]
    all_goals omega
  · split
    · refine ⟨0x80, 0x9F, ?_, ?_, ?_⟩
      · rw [show c / 0x1000 = 0xD by omega]
      all_goals omega
    · rw [if_pos (by omega)]
      refine ⟨0x80, 0xBF, ?_, ?_, ?_⟩
      · rw [Nat.add_sub_cancel_left]
      all_goals omega

/-- The byte that begins four admits the second one of every code point in
range. -/
theorem first_four {c : Nat} (hlow : 0x10000 ≤ c) (hhigh : c ≤ 0x10FFFF) : ∃ low high,
    first (0xF0 + c / 0x40000) = ([], more 2 low high (c / 0x40000)) ∧
      low ≤ 0x80 + c / 0x1000 % 0x40 ∧ 0x80 + c / 0x1000 % 0x40 ≤ high := by
  unfold first
  rw [if_neg (by omega), if_neg (by omega), if_neg (by omega), if_neg (by omega),
    if_neg (by omega)]
  split
  · refine ⟨0x90, 0xBF, ?_, ?_, ?_⟩
    · rw [show c / 0x40000 = 0 by omega]
    all_goals omega
  · split
    · refine ⟨0x80, 0xBF, ?_, ?_, ?_⟩
      · rw [Nat.add_sub_cancel_left]
      all_goals omega
    · rw [if_pos (by omega)]
      refine ⟨0x80, 0x8F, ?_, ?_, ?_⟩
      · rw [show c / 0x40000 = 4 by omega]
      all_goals omega

/-- One character is decoded, and then the rest. -/
theorem strict_encodeCode {c : Nat} (hc : Json.isScalar c = true) :
    start.strict (encodeCode c ++ bytes) = (start.strict bytes).map (c :: ·) := by
  obtain ⟨hmax, hscalar⟩ := isScalar_iff.mp hc
  unfold encodeCode
  split
  · rename_i h1
    have hne : ¬[c] = [0xFFFD] := by
      rw [List.singleton_inj]
      omega
    simp [strict, first, toNat_ofNat (show c < 0x100 by omega), h1, hne]
  · split
    · have hfirst : first (0xC0 + c / 0x40) = ([], more 0 0x80 0xBF (c / 0x40)) := by
        rw [first, if_neg (by omega), if_pos (by omega), Nat.add_sub_cancel_left]
      rw [List.cons_append, List.singleton_append, strict_first _ (by omega) hfirst,
        strict_last _ (by omega) (by omega) (by omega)]
      rw [show 64 * (c / 0x40) + (0x80 + c % 0x40 - 0x80) = c by omega]
    · split
      · obtain ⟨low, high, hfirst, hlow, hhigh⟩ := first_three (by omega) (by assumption) hscalar
        rw [List.cons_append, List.cons_append, List.singleton_append,
          strict_first _ (by omega) hfirst, strict_next _ hlow hhigh (by omega),
          strict_last _ (by omega) (by omega) (by omega)]
        rw [show 64 * (64 * (c / 0x1000) + (0x80 + c / 0x40 % 0x40 - 0x80)) +
          (0x80 + c % 0x40 - 0x80) = c by omega]
      · obtain ⟨low, high, hfirst, hlow, hhigh⟩ := first_four (by omega) hmax
        rw [List.cons_append, List.cons_append, List.cons_append, List.singleton_append,
          strict_first _ (by omega) hfirst, strict_next _ hlow hhigh (by omega),
          strict_next _ (by omega) (by omega) (by omega),
          strict_last _ (by omega) (by omega) (by omega)]
        rw [show 64 * (64 * (64 * (c / 0x40000) + (0x80 + c / 0x1000 % 0x40 - 0x80)) +
          (0x80 + c / 0x40 % 0x40 - 0x80)) + (0x80 + c % 0x40 - 0x80) = c by omega]

/-- **What is encoded is decoded to the same text.** -/
theorem strict_encode {text : Text} {bytes : Bytes} (h : encode text = some bytes) :
    start.strict bytes = some text := by
  unfold encode at h
  split at h <;> cases h
  rename_i hscalar
  rw [List.all_eq_true] at hscalar
  induction text with
  | nil => rfl
  | cons c text ih =>
    rw [List.flatMap_cons, strict_encodeCode _ (hscalar c (by simp)),
      ih fun d hd => hscalar d (List.mem_cons_of_mem c hd)]
    rfl

end Utf8
