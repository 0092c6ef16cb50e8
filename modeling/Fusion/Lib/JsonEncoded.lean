import Fusion.Lib.JsonWriter
import Fusion.Lib.Utf8

/-!
# JsonEncoded — values whose text can be encoded

With `ensure_ascii=False` a string is written as it is, so that the text holds
a surrogate exactly where a string of the value does, and UTF-8 cannot encode
it. With `allow_nan=False` the floats that are no numbers are not written at
all.
-/

namespace Json

mutual

/-- Every number passes, and every string, the names included. -/
def all (number : Number → Bool) (string : Text → Bool) : Json → Bool
  | .null => true
  | .bool _ => true
  | .number n => number n
  | .string s => string s
  | .array items => allItems number string items
  | .object members => allMembers number string members

def allItems (number : Number → Bool) (string : Text → Bool) : List Json → Bool
  | [] => true
  | v :: items => all number string v && allItems number string items

def allMembers (number : Number → Bool) (string : Text → Bool) : List (Text × Json) → Bool
  | [] => true
  | (name, v) :: members =>
      string name && all number string v && allMembers number string members

end

/-- A float is held as the text that is printed for it. -/
def Number.isFinite : Number → Bool
  | .int _ => true
  | .float literal =>
      literal ∉ [Text.of "NaN", Text.of "Infinity", Text.of "-Infinity"]

/-- `dumps(v, ensure_ascii=False, allow_nan=False, separators=(",", ":"))`,
encoded; nothing where either raises. -/
def encoded (v : Json) : Option Bytes :=
  if v.all Number.isFinite (fun _ => true) then Utf8.encode (dumps (.compact false) v)
  else none

/-- All floats are numbers, and no string holds a surrogate. -/
def isEncodable (v : Json) : Bool :=
  v.all Number.isFinite fun s => s.all isScalar

/-! ## The traversal -/

variable {number : Number → Bool} {string : Text → Bool}

@[simp] theorem all_array (items : List Json) :
    all number string (.array items) = items.all (all number string) := by
  rw [all]
  induction items with
  | nil => rfl
  | cons v items ih => rw [allItems, ih, List.all_cons]

@[simp] theorem all_object (members : List (Text × Json)) :
    all number string (.object members) =
      members.all fun m => string m.1 && all number string m.2 := by
  rw [all]
  induction members with
  | nil => rfl
  | cons m members ih => rw [allMembers, ih, List.all_cons]

/-- Two tests pass together. -/
theorem all_and {ascii : Bool} {v : Json} (h : Writable ascii v) :
    (all number (fun _ => true) v && all (fun _ => true) string v) = all number string v := by
  induction h with
  | null | bool => rfl
  | int | float => simp [all]
  | string => simp [all]
  | array _ ih =>
    rw [Bool.eq_iff_iff]
    simp only [all_array, Bool.and_eq_true, List.all_eq_true, ← forall₂_and]
    exact forall₂_congr fun v hv => by rw [← ih v hv, Bool.and_eq_true]
  | object _ _ ih =>
    rw [Bool.eq_iff_iff]
    simp only [all_object, Bool.and_eq_true, List.all_eq_true, true_and, ← forall₂_and]
    refine forall₂_congr fun m hm => ?_
    rw [← ih m hm, Bool.and_eq_true]
    exact and_left_comm

/-! ## What is written -/

theorem isScalar_of_ascii {c : Nat} (h : c < 0x80) : isScalar c = true := by
  rw [Utf8.isScalar_iff]
  omega

theorem IsAscii.scalar {text : Text} (h : IsAscii text) : text.all isScalar = true :=
  List.all_eq_true.mpr fun c hc => isScalar_of_ascii (h c hc)

/-- The escapes are ASCII; what is written as it is is the code point. -/
theorem scalar_writeCode (c : Nat) : (writeCode false c).all isScalar = isScalar c := by
  by_cases hc : c < 0x80
  · rw [isScalar_of_ascii hc]
    have hsame : writeCode false c = writeCode true c ∨ writeCode false c = [c] := by
      unfold writeCode
      cases shortEscapes.lookup c with
      | some d => exact .inl rfl
      | none =>
        by_cases hcontrol : c < 0x20
        · simp [hcontrol]
        · simp [hcontrol]
    rcases hsame with h | h
    · rw [h]
      exact (isAscii_writeCode c).scalar
    · rw [h]
      simp [isScalar_of_ascii hc]
  · have hlookup : shortEscapes.lookup c = none := by
      have hsmall : ∀ e ∈ shortEscapes, e.1 < 0x80 := by decide
      rw [List.lookup_eq_none_iff]
      intro e he
      have hlt := hsmall e he
      rw [bne_iff_ne]
      omega
    have hcontrol : ¬c < 0x20 := by omega
    simp [writeCode, hlookup, hcontrol]

theorem scalar_writeString (s : Text) : (writeString false s).all isScalar = s.all isScalar := by
  have hquote : isScalar 0x22 = true := by decide
  simp [writeString, hquote, List.all_flatMap, scalar_writeCode]

theorem scalar_dumps {st : Style} (hst : st.ascii = false) (hitem : st.item.all isScalar = true)
    (hkey : st.key.all isScalar = true) {v : Json} (h : Writable false v) :
    (dumps st v).all isScalar = v.all (fun _ => true) fun s => s.all isScalar := by
  induction h with
  | null => exact (isAscii_word (w := Text.of "null") (by decide)).scalar
  | bool b =>
    cases b with
    | true => exact (isAscii_word (w := Text.of "true") (by decide)).scalar
    | false => exact (isAscii_word (w := Text.of "false") (by decide)).scalar
  | int n => exact (isAscii_writeNumber (.int n)).scalar
  | float h => exact (isAscii_writeNumber (.float h)).scalar
  | string => rw [dumps, hst, scalar_writeString, all]
  | array h ih =>
    rename_i items
    clear h
    have hopen : isScalar 0x5B = true := by decide
    have hclose : isScalar 0x5D = true := by decide
    have hitems : (dumpItems st items).all isScalar =
        items.all (all (fun _ => true) fun s => s.all isScalar) := by
      induction items with
      | nil => rfl
      | cons v items ihitems =>
        have hv := ih v (by simp)
        have hitems := ihitems fun w hw => ih w (List.mem_cons_of_mem v hw)
        cases items with
        | nil => simpa [dumpItems] using hv
        | cons w items =>
          rw [dumpItems]
          simp only [List.all_append, hv, hitem, hitems, Bool.and_true, List.all_cons]
    simp [dumps, hopen, hclose, hitems]
  | object hnames h ih =>
    rename_i members
    clear hnames h
    have hopen : isScalar 0x7B = true := by decide
    have hclose : isScalar 0x7D = true := by decide
    have hmembers : (dumpMembers st members).all isScalar =
        members.all fun m => (m.1.all isScalar) &&
          all (fun _ => true) (fun s => s.all isScalar) m.2 := by
      induction members with
      | nil => rfl
      | cons m members ihmembers =>
        obtain ⟨name, v⟩ := m
        have hv := ih (name, v) (by simp)
        have hmembers := ihmembers fun w hw => ih w (List.mem_cons_of_mem _ hw)
        cases members with
        | nil => simp [dumpMembers, hst, scalar_writeString, hkey, hv]
        | cons n members =>
          rw [dumpMembers]
          simp only [List.all_append, hst, scalar_writeString, hkey, hv, hitem, hmembers,
            Bool.and_true, List.all_cons]
    simp [dumps, hopen, hclose, hmembers]

/-- **A value is sent exactly if it is encodable.** -/
theorem encoded_isSome {v : Json} (h : Writable false v) : (encoded v).isSome = isEncodable v := by
  have hscalar : (dumps (.compact false) v).all isScalar =
      v.all (fun _ => true) fun s => s.all isScalar := scalar_dumps rfl (by decide) (by decide) h
  rw [isEncodable, ← all_and h, encoded, Utf8.encode, hscalar]
  cases v.all Number.isFinite (fun _ => true) with
  | false => rfl
  | true => cases v.all (fun _ => true) (fun s => s.all isScalar) <;> rfl

/-- **What is sent is read back.** -/
theorem read_encoded {v : Json} (h : Writable false v) {bytes : Bytes}
    (hbytes : encoded v = some bytes) :
    (Utf8.start.strict bytes).bind loads = some v := by
  unfold encoded at hbytes
  split at hbytes
  · rw [Utf8.strict_encode hbytes]
    exact loads_dumps (Style.valid_compact false) h
  · cases hbytes

theorem isEncodable_text (s : String) : isEncodable (.string (Text.of s)) = true := by
  refine List.all_eq_true.mpr fun c hc => ?_
  obtain ⟨ch, -, rfl⟩ := List.mem_map.mp hc
  have hvalid := ch.valid
  rw [Utf8.isScalar_iff]
  change ch.toNat < 0xD800 ∨ 0xDFFF < ch.toNat ∧ ch.toNat < 0x110000 at hvalid
  omega

end Json
