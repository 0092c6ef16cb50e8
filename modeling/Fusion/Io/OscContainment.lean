import Fusion.Io.OscFraming

/-!
# OscContainment — any datagram

Offsets come from terminators and blob sizes, and are rounded past the end
of the data, where slices shorten without an error. Each tag's guard is made
before its slice: whatever the tags before it left, the bytes of an argument
lie inside the datagram, behind those of the arguments before it.
-/

namespace Fusion.Osc

/-- The bytes that the parser reads for the tag at an offset; a tag without
data reads none. -/
def argSpan (data : Bytes) (offset tag : Nat) : Option (Nat × Nat) :=
  if tag = 'i'.toNat ∨ tag = 'f'.toNat then some (offset, offset + 4)
  else if tag = 's'.toNat then (findNul data offset).map fun terminator => (offset, terminator + 1)
  else if tag = 'b'.toNat then
    some (offset, offset + 4 + fromBytes (slice data offset (offset + 4)))
  else none

/-- The same for all tags, from where the parser is after each. -/
def argSpans (data : Bytes) : Nat → Text → List (Option (Nat × Nat))
  | _, [] => []
  | offset, tag :: tags =>
      argSpan data offset tag ::
        match parseArg data offset tag with
        | .ok (_, next) => argSpans data next tags
        | .error _ => []

/-- What a tag makes of the bytes of its argument. -/
inductive Decodes : Nat → Bytes → Arg → Prop
  | int {bytes : Bytes} (hlen : bytes.length = 4) :
      Decodes 'i'.toNat bytes (.int (fromBytesSigned bytes))
  | float {bytes : Bytes} (hlen : bytes.length = 4) :
      Decodes 'f'.toNat bytes (.float (UInt32.ofNat (fromBytes bytes)))
  | str {text : Bytes} (hnul : 0 ∉ text) :
      Decodes 's'.toNat (text ++ [0]) (.str (decodeAscii text))
  | blob {size payload : Bytes} (hfield : size.length = 4)
      (hsize : fromBytes size = payload.length) :
      Decodes 'b'.toNat (size ++ payload) (.blob payload)

/-- What a tag stands for without data. -/
inductive Flag : Nat → Arg → Prop
  | true : Flag 'T'.toNat (.bool true)
  | false : Flag 'F'.toNat (.bool false)
  | none : Flag 'N'.toNat .none
  | infinitum : Flag 'I'.toNat (.bool true)

/-- An argument comes from its bytes, which are in the data. -/
def Reads (data : Bytes) (tag : Nat) (arg : Arg) : Option (Nat × Nat) → Prop
  | some (lo, hi) => lo ≤ hi ∧ hi ≤ data.length ∧ Decodes tag (slice data lo hi) arg
  | none => Flag tag arg

/-- One argument for each tag, each read from its own bytes, in order. -/
structure Contained (data : Bytes) (tags : Text) (spans : List (Option (Nat × Nat)))
    (args : List Arg) : Prop where
  tagged : tags.length = args.length
  read : List.Forall₂ (fun ta span => Reads data ta.1 ta.2 span) (tags.zip args) spans
  apart : (spans.filterMap id).Pairwise fun a b => a.2 ≤ b.1

/-- What the parser makes of a datagram. -/
inductive Accounted (data : Bytes) : Except Raised (Text × List Arg) → Prop
  | refused (message : Text) : Accounted data (.error (.oscError message))
  | bare {address : Text} {offset : Nat} (haddress : readOscString data 0 = .ok (address, offset))
      (hend : data.length ≤ offset) : Accounted data (.ok (address, []))
  | tagged {address tags : Text} {offset next : Nat} {args : List Arg}
      (haddress : readOscString data 0 = .ok (address, offset)) (hmore : offset < data.length)
      (htags : readOscString data offset = .ok (Text.of "," ++ tags, next))
      (hargs : Contained data tags (argSpans data next tags) args) :
      Accounted data (.ok (address, args))

/-! ## Slices -/

theorem length_slice {data : Bytes} {lo hi : Nat} (h : hi ≤ data.length) :
    (slice data lo hi).length = hi - lo := by
  rw [slice, List.length_drop, List.length_take]
  omega

theorem slice_append (data : Bytes) {lo hi : Nat} (mid : Nat) (h : lo ≤ mid) (h' : mid ≤ hi) :
    slice data lo mid ++ slice data mid hi = slice data lo hi := by
  have hleft : slice data lo mid = (slice data lo hi).take (mid - lo) := by
    rw [slice, slice, List.take_drop, List.take_take]
    congr 2
    omega
  have hright : slice data mid hi = (slice data lo hi).drop (mid - lo) := by
    rw [slice, slice, List.drop_drop]
    congr 1
    omega
  rw [hleft, hright, List.take_append_drop]

theorem idxOf?_some {bytes : Bytes} {i : Nat} (h : bytes.idxOf? 0 = some i) :
    ∃ text rest, bytes = text ++ 0 :: rest ∧ text.length = i ∧ 0 ∉ text := by
  induction bytes generalizing i with
  | nil => simp at h
  | cons b bytes ih =>
    rw [List.idxOf?_cons] at h
    split at h
    · rename_i hb
      cases h
      exact ⟨[], bytes, by rw [eq_of_beq hb]; rfl, rfl, by simp⟩
    · rename_i hb
      obtain ⟨j, hj, rfl⟩ := Option.map_eq_some_iff.mp h
      obtain ⟨text, rest, rfl, hlen, hnul⟩ := ih hj
      refine ⟨b :: text, rest, rfl, by rw [List.length_cons, hlen], ?_⟩
      intro hmem
      rcases List.mem_cons.mp hmem with hzero | hmem
      · exact hb (by rw [← hzero]; rfl)
      · exact hnul hmem

/-- A string that was read ends in the data. -/
theorem findNul_some {data : Bytes} {offset terminator : Nat}
    (h : findNul data offset = some terminator) :
    offset ≤ terminator ∧ terminator + 1 ≤ data.length ∧ 0 ∉ slice data offset terminator ∧
      slice data offset (terminator + 1) = slice data offset terminator ++ [0] := by
  obtain ⟨i, hi, rfl⟩ := Option.map_eq_some_iff.mp h
  obtain ⟨text, rest, hdrop, rfl, hnul⟩ := idxOf?_some hi
  have hlen : data.length - offset = text.length + 1 + rest.length := by
    rw [← List.length_drop, hdrop, List.length_append, List.length_cons]
    omega
  have hdata : data = data.take offset ++ (text ++ 0 :: rest) := by
    rw [← hdrop, List.take_append_drop]
  have hoffset : (data.take offset).length = offset := by
    rw [List.length_take]
    omega
  have htext := slice_item (data.take offset) text (0 :: rest)
  have hwhole := slice_item (data.take offset) (text ++ [0]) rest
  rw [← hdata, hoffset] at htext
  rw [List.append_assoc, List.singleton_append, ← hdata, hoffset, List.length_append] at hwhole
  refine ⟨by omega, by omega, by rw [htext]; exact hnul, ?_⟩
  rw [htext]
  exact hwhole

theorem readOscString_refused {data : Bytes} {offset : Nat} {err : Raised}
    (h : readOscString data offset = .error err) : ∃ message, err = .oscError message := by
  unfold readOscString at h
  split at h
  · cases h
    exact ⟨_, rfl⟩
  · cases h

/-! ## One tag -/

/-- What one tag does: it is refused, or stands for a flag and moves nothing,
or reads bytes from the offset on that end in the data, before the next
offset. -/
inductive Outcome (data : Bytes) (offset tag : Nat) : Except Raised (Arg × Nat) → Prop
  | refused (message : Text) : Outcome data offset tag (.error (.oscError message))
  | flag {arg : Arg} (hspan : argSpan data offset tag = none) (hflag : Flag tag arg) :
      Outcome data offset tag (.ok (arg, offset))
  | reads {arg : Arg} {next hi : Nat} (hspan : argSpan data offset tag = some (offset, hi))
      (hle : hi ≤ next) (hread : Reads data tag arg (some (offset, hi))) :
      Outcome data offset tag (.ok (arg, next))

theorem length_word {data : Bytes} {offset : Nat} (h : ¬ offset + 4 > data.length) :
    (slice data offset (offset + 4)).length = 4 := by
  rw [length_slice (by omega)]
  omega

theorem outcome_int (data : Bytes) (offset : Nat) :
    Outcome data offset 'i'.toNat (parseArg data offset 'i'.toNat) := by
  rw [parseArg, if_pos rfl]
  split
  · exact .refused _
  · rename_i hfits
    apply Outcome.reads (if_pos (.inl rfl)) (Nat.le_refl _)
    exact ⟨by omega, by omega, .int (length_word hfits)⟩

theorem outcome_float (data : Bytes) (offset : Nat) :
    Outcome data offset 'f'.toNat (parseArg data offset 'f'.toNat) := by
  rw [parseArg, if_neg (by decide), if_pos rfl]
  split
  · exact .refused _
  · -- four bytes are left, so the unpacking has its buffer
    rename_i hfits
    rw [unpackFloat, if_pos (length_word hfits)]
    apply Outcome.reads (if_pos (.inr rfl)) (Nat.le_refl _)
    exact ⟨by omega, by omega, .float (length_word hfits)⟩

theorem outcome_str (data : Bytes) (offset : Nat) :
    Outcome data offset 's'.toNat (parseArg data offset 's'.toNat) := by
  rw [parseArg, if_neg (by decide), if_neg (by decide), if_pos rfl, readOscString]
  cases hfind : findNul data offset with
  | none => exact .refused _
  | some terminator =>
    obtain ⟨hle, hin, hnul, hwhole⟩ := findNul_some hfind
    have hspan : argSpan data offset 's'.toNat = some (offset, terminator + 1) := by
      rw [argSpan, if_neg (by decide), if_pos rfl, hfind]
      rfl
    apply Outcome.reads hspan (Nat.le_add_right ..)
    refine ⟨by omega, hin, ?_⟩
    rw [hwhole]
    exact .str hnul

theorem outcome_blob (data : Bytes) (offset : Nat) :
    Outcome data offset 'b'.toNat (parseArg data offset 'b'.toNat) := by
  rw [parseArg, if_neg (by decide), if_neg (by decide), if_neg (by decide), if_pos rfl]
  split
  · exact .refused _
  · rename_i hfits
    dsimp only
    split
    · exact .refused _
    · rename_i hsize
      have hspan : argSpan data offset 'b'.toNat =
          some (offset, offset + 4 + fromBytes (slice data offset (offset + 4))) := by
        rw [argSpan, if_neg (by decide), if_neg (by decide), if_pos rfl]
      apply Outcome.reads hspan (Nat.le_add_right ..)
      refine ⟨by omega, by omega, ?_⟩
      rw [← slice_append data (offset + 4) (by omega) (by omega)]
      apply Decodes.blob (length_word hfits)
      rw [length_slice (by omega)]
      omega

/-- A tag that is none of the four with data. -/
theorem outcome_flag (data : Bytes) (offset : Nat) {tag : Nat} (hint : tag ≠ 'i'.toNat)
    (hfloat : tag ≠ 'f'.toNat) (hstr : tag ≠ 's'.toNat) (hblob : tag ≠ 'b'.toNat) :
    Outcome data offset tag (parseArg data offset tag) := by
  have hword : ¬ (tag = 'i'.toNat ∨ tag = 'f'.toNat) := not_or.mpr ⟨hint, hfloat⟩
  have hspan : argSpan data offset tag = none := by
    rw [argSpan, if_neg hword, if_neg hstr, if_neg hblob]
  rw [parseArg, if_neg hint, if_neg hfloat, if_neg hstr, if_neg hblob]
  split
  · rename_i htag
    exact .flag hspan (htag ▸ .true)
  split
  · rename_i htag
    exact .flag hspan (htag ▸ .false)
  split
  · rename_i htag
    exact .flag hspan (htag ▸ .none)
  split
  · rename_i htag
    exact .flag hspan (htag ▸ .infinitum)
  · exact .refused _

theorem outcome_parseArg (data : Bytes) (offset tag : Nat) :
    Outcome data offset tag (parseArg data offset tag) := by
  by_cases hint : tag = 'i'.toNat
  · rw [hint]
    exact outcome_int data offset
  by_cases hfloat : tag = 'f'.toNat
  · rw [hfloat]
    exact outcome_float data offset
  by_cases hstr : tag = 's'.toNat
  · rw [hstr]
    exact outcome_str data offset
  by_cases hblob : tag = 'b'.toNat
  · rw [hblob]
    exact outcome_blob data offset
  · exact outcome_flag data offset hint hfloat hstr hblob

/-! ## All tags -/

/-- **Containment of the arguments**, on the tags: they are refused, or each
has its bytes, and no span begins before the offset that the parser is at. -/
theorem parseArgs_cases (data : Bytes) (offset : Nat) (tags : Text) :
    (∃ message, parseArgs data offset tags = .error (.oscError message)) ∨
      ∃ args, parseArgs data offset tags = .ok args ∧
        Contained data tags (argSpans data offset tags) args ∧
        ∀ span ∈ (argSpans data offset tags).filterMap id, offset ≤ span.1 := by
  induction tags generalizing offset with
  | nil => exact .inr ⟨[], rfl, ⟨rfl, .nil, .nil⟩, by simp [argSpans]⟩
  | cons tag tags ih =>
    have houtcome := outcome_parseArg data offset tag
    rw [parseArgs, argSpans]
    cases harg : parseArg data offset tag with
    | error err =>
      rw [harg] at houtcome
      cases houtcome with
      | refused message => exact .inl ⟨message, rfl⟩
    | ok r =>
      obtain ⟨arg, next⟩ := r
      rw [harg] at houtcome
      rcases ih next with ⟨message, hrest⟩ | ⟨args, hrest, hlater, hfrom⟩
      · refine .inl ⟨message, ?_⟩
        show (parseArgs data next tags).bind _ = _
        rw [hrest]
        rfl
      · refine .inr ⟨arg :: args, ?_, ?_⟩
        · show (parseArgs data next tags).bind _ = _
          rw [hrest]
          rfl
        have htagged : (tag :: tags).length = (arg :: args).length :=
          congrArg (· + 1) hlater.tagged
        cases houtcome with
        | flag hspan hflag =>
          rw [hspan]
          exact ⟨⟨htagged, .cons hflag hlater.read, hlater.apart⟩, hfrom⟩
        | @reads _ _ hi hspan hle hread =>
          rw [hspan]
          have hbounds := hread.1
          refine ⟨⟨htagged, .cons hread hlater.read, ?_⟩, ?_⟩
          · apply List.Pairwise.cons _ hlater.apart
            intro span hmem
            have := hfrom span hmem
            show hi ≤ span.1
            omega
          · intro span hmem
            rcases List.mem_cons.mp hmem with rfl | hmem
            · exact Nat.le_refl _
            · have := hfrom span hmem
              omega

/-! ## The datagram -/

/-- **Containment**: any datagram is refused with the module's own error, or
each argument comes from bytes inside it, in order. -/
theorem parse_accounted (data : Bytes) : Accounted data (parseOscMessage data) := by
  rw [parseOscMessage]
  split
  · exact .refused _
  split
  · exact .refused _
  cases haddress : readOscString data 0 with
  | error err =>
    obtain ⟨message, rfl⟩ := readOscString_refused haddress
    exact .refused message
  | ok r =>
    obtain ⟨address, offset⟩ := r
    show Accounted data (if ¬ (Text.of "/").isPrefixOf address = true then
        (.error (.oscError (Text.of "OSC address must start with '/', got " ++ repr address)) :
          Except Raised (Text × List Arg))
      else if offset ≥ data.length then .ok (address, [])
      else (readOscString data offset).bind _)
    split
    · exact .refused _
    split
    · rename_i hend
      exact .bare haddress hend
    · rename_i hmore
      cases htags : readOscString data offset with
      | error err =>
        obtain ⟨message, rfl⟩ := readOscString_refused htags
        exact .refused message
      | ok r =>
        obtain ⟨typeTags, next⟩ := r
        show Accounted data (if ¬ (Text.of ",").isPrefixOf typeTags = true then
            (.error (.oscError (Text.of "missing OSC type tag string")) :
              Except Raised (Text × List Arg))
          else (parseArgs data next (typeTags.drop 1)).bind _)
        split
        · exact .refused _
        · rename_i hcomma
          obtain ⟨tags, rfl⟩ := List.isPrefixOf_iff_prefix.mp (not_not.mp hcomma)
          show Accounted data ((parseArgs data next tags).bind _)
          rcases parseArgs_cases data next tags with ⟨message, hargs⟩ | ⟨args, hargs, hcontained, -⟩
          · rw [hargs]
            exact .refused message
          · rw [hargs]
            exact .tagged haddress (by omega) htags hcontained

end Fusion.Osc
