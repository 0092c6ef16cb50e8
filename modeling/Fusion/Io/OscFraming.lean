import Fusion.Io.TextEventParsing

/-!
# OscFraming — OSC messages (io/osc_framing.py)

An address, a string of type tags and the arguments, each padded to a
multiple of four bytes. The builder pads by the length of an item and the
parser by its position in the datagram. Strings are code points; a float is
its bit pattern.
-/

namespace Fusion.Osc

/-- What an argument can be; `None` comes out of the parser only. -/
inductive Arg
  | bool (b : Bool)
  | int (n : Int)
  | float (bits : UInt32)
  | str (s : Text)
  | blob (bytes : Bytes)
  | none
deriving DecidableEq

/-- What building or parsing can raise. -/
inductive Raised
  | oscError (message : Text)
  | typeError (message : Text)
  | overflowError (message : Text)
  | unicodeEncodeError
  | structError (message : Text)
deriving DecidableEq

/-- `#bundle` and its NUL. -/
def bundleMarker : Bytes := [35, 98, 117, 110, 100, 108, 101, 0]

/-! ## The language's conversions -/

/-- `value.encode("ascii")` -/
def encodeAscii (value : Text) : Except Raised Bytes :=
  if ∀ c ∈ value, c < 128 then .ok (value.map UInt8.ofNat) else .error .unicodeEncodeError

/-- `bytes.decode("ascii", errors="replace")` -/
def decodeAscii (bytes : Bytes) : Text :=
  bytes.map fun b => if b.toNat < 128 then b.toNat else 0xFFFD

/-- The four bytes of a word, the high one first. -/
def word4 (n : Nat) : Bytes :=
  [UInt8.ofNat (n / 2 ^ 24), UInt8.ofNat (n / 2 ^ 16), UInt8.ofNat (n / 2 ^ 8), UInt8.ofNat n]

/-- `int.from_bytes(bytes, "big")` -/
def fromBytes (bytes : Bytes) : Nat :=
  bytes.foldl (fun n b => 256 * n + b.toNat) 0

/-- `n.to_bytes(4, "big")` -/
def toBytes (n : Nat) : Except Raised Bytes :=
  if n < 2 ^ 32 then .ok (word4 n) else .error (.overflowError (Text.of "int too big to convert"))

/-- `n.to_bytes(4, "big", signed=True)` -/
def toBytesSigned (n : Int) : Except Raised Bytes :=
  if -2 ^ 31 ≤ n ∧ n < 2 ^ 31 then .ok (word4 (n % 2 ^ 32).toNat)
  else .error (.overflowError (Text.of "int too big to convert"))

/-- `int.from_bytes(bytes, "big", signed=True)` of four bytes. -/
def fromBytesSigned (bytes : Bytes) : Int :=
  if fromBytes bytes < 2 ^ 31 then fromBytes bytes else fromBytes bytes - 2 ^ 32

/-- `struct.unpack(">f", bytes)[0]` -/
def unpackFloat (bytes : Bytes) : Except Raised UInt32 :=
  if bytes.length = 4 then .ok (UInt32.ofNat (fromBytes bytes))
  else .error (.structError (Text.of "unpack requires a buffer of 4 bytes"))

/-- `data[lo:hi]` -/
def slice (data : Bytes) (lo hi : Nat) : Bytes :=
  (data.take hi).drop lo

/-- `data.find(b"\x00", offset)` -/
def findNul (data : Bytes) (offset : Nat) : Option Nat :=
  ((data.drop offset).idxOf? 0).map (offset + ·)

/-- `repr` of one character of a string decoded from ASCII. -/
def reprChar (quote c : Nat) : Text :=
  if c = quote ∨ c = 92 then [92, c]
  else if c = 9 then Text.of "\\t"
  else if c = 10 then Text.of "\\n"
  else if c = 13 then Text.of "\\r"
  else if c < 32 ∨ c = 127 then
    Text.of "\\x" ++ [(Nat.digitChar (c / 16)).toNat, (Nat.digitChar (c % 16)).toNat]
  else [c]

/-- `repr` of such a string: double quotes only where it has single ones alone. -/
def repr (s : Text) : Text :=
  let quote := if 39 ∈ s ∧ 34 ∉ s then 34 else 39
  quote :: s.flatMap (reprChar quote) ++ [quote]

/-! ## Messages -/

/-- `(4 - n % 4) % 4` -/
def padding (n : Nat) : Nat :=
  (4 - n % 4) % 4

/-- `_osc_string_bytes` -/
def oscStringBytes (value : Text) : Except Raised Bytes := do
  let data := (← encodeAscii value) ++ [0]
  return data ++ List.replicate (padding data.length) 0

/-- `_read_osc_string` -/
def readOscString (data : Bytes) (offset : Nat) : Except Raised (Text × Nat) :=
  match findNul data offset with
  | none => .error (.oscError (Text.of "unterminated OSC string"))
  | some terminator =>
      let nextOffset := terminator + 1
      .ok (decodeAscii (slice data offset terminator), nextOffset + padding nextOffset)

/-- One round of the loop over the arguments: what it adds to the type tags
and to the bytes. -/
def buildArg : Arg → Except Raised (Text × Bytes)
  | .bool b => .ok (if b then Text.of "T" else Text.of "F", [])
  | .int n => do return (Text.of "i", ← toBytesSigned n)
  | .float bits => .ok (Text.of "f", word4 bits.toNat)
  | .str s => do return (Text.of "s", ← oscStringBytes s)
  | .blob bytes => do
      return (Text.of "b", (← toBytes bytes.length) ++ bytes ++
        List.replicate (padding bytes.length) 0)
  | .none => .error (.typeError (Text.of "unsupported OSC argument type <class 'NoneType'>"))

/-- `build_osc_message` -/
def buildOscMessage (address : Text) (args : List Arg) : Except Raised Bytes := do
  let built ← args.mapM buildArg
  let typeTags := Text.of "," ++ built.flatMap Prod.fst
  return (← oscStringBytes address) ++ (← oscStringBytes typeTags) ++ built.flatMap Prod.snd

/-- One round of the loop over the type tags: the argument, and the offset of
the next one. -/
def parseArg (data : Bytes) (offset tag : Nat) : Except Raised (Arg × Nat) :=
  if tag = 'i'.toNat then
    if offset + 4 > data.length then .error (.oscError (Text.of "truncated int32 argument"))
    else .ok (.int (fromBytesSigned (slice data offset (offset + 4))), offset + 4)
  else if tag = 'f'.toNat then
    if offset + 4 > data.length then .error (.oscError (Text.of "truncated float32 argument"))
    else do
      return (.float (← unpackFloat (slice data offset (offset + 4))), offset + 4)
  else if tag = 's'.toNat then do
    let (value, offset) ← readOscString data offset
    return (.str value, offset)
  else if tag = 'b'.toNat then
    if offset + 4 > data.length then .error (.oscError (Text.of "truncated blob size"))
    else
      let size := fromBytes (slice data offset (offset + 4))
      let offset := offset + 4
      if offset + size > data.length then .error (.oscError (Text.of "truncated blob data"))
      else
        let next := offset + size
        .ok (.blob (slice data offset next), next + padding next)
  else if tag = 'T'.toNat then .ok (.bool true, offset)
  else if tag = 'F'.toNat then .ok (.bool false, offset)
  else if tag = 'N'.toNat then .ok (.none, offset)
  else if tag = 'I'.toNat then .ok (.bool true, offset)
  else .error (.oscError (Text.of "unsupported OSC type tag '" ++ [tag] ++ Text.of "'"))

/-- The loop over the type tags. -/
def parseArgs (data : Bytes) : Nat → Text → Except Raised (List Arg)
  | _, [] => .ok []
  | offset, tag :: tags => do
      let (arg, offset) ← parseArg data offset tag
      return arg :: (← parseArgs data offset tags)

/-- `parse_osc_message` -/
def parseOscMessage (data : Bytes) : Except Raised (Text × List Arg) := do
  if bundleMarker.isPrefixOf data then
    throw (.oscError (Text.of "OSC bundles are not supported"))
  if data.isEmpty then
    throw (.oscError (Text.of "empty OSC packet"))
  let (address, offset) ← readOscString data 0
  if ¬ (Text.of "/").isPrefixOf address then
    throw (.oscError (Text.of "OSC address must start with '/', got " ++ repr address))
  if offset ≥ data.length then
    return (address, [])
  let (typeTags, offset) ← readOscString data offset
  if ¬ (Text.of ",").isPrefixOf typeTags then
    throw (.oscError (Text.of "missing OSC type tag string"))
  return (address, ← parseArgs data offset (typeTags.drop 1))

/-! ## Words and strings -/

theorem fromBytes_word4 {n : Nat} (h : n < 2 ^ 32) : fromBytes (word4 n) = n := by
  simp only [fromBytes, word4, List.foldl_cons, List.foldl_nil, UInt8.toNat_ofNat']
  omega

theorem length_word4 (n : Nat) : (word4 n).length = 4 := rfl

theorem fromBytesSigned_word4 {n : Int} (h : -2 ^ 31 ≤ n ∧ n < 2 ^ 31) :
    fromBytesSigned (word4 (n % 2 ^ 32).toNat) = n := by
  rw [fromBytesSigned, fromBytes_word4 (by omega)]
  split
  · omega
  · omega

/-- The item at an offset, where something stands before and behind it. -/
theorem slice_item (before item after : Bytes) :
    slice (before ++ (item ++ after)) before.length (before.length + item.length) = item := by
  rw [slice, List.take_length_add_append, List.drop_left, List.take_left]

theorem idxOf?_nul {s : Bytes} (h : 0 ∉ s) (after : Bytes) :
    (s ++ 0 :: after).idxOf? 0 = some s.length := by
  induction s with
  | nil => simp [List.idxOf?_cons]
  | cons b s ih =>
    have hb : b ≠ 0 := fun hb => h (by simp [hb])
    have hrest : 0 ∉ s := fun hs => h (by simp [hs])
    rw [List.cons_append, List.idxOf?_cons, ih hrest]
    simp [hb]

/-- ASCII without NUL. -/
def Plain (s : Text) : Prop :=
  ∀ c ∈ s, 0 < c ∧ c < 128

theorem decodeAscii_encoded {s : Text} (h : Plain s) : decodeAscii (s.map UInt8.ofNat) = s := by
  induction s with
  | nil => rfl
  | cons c s ih =>
    have hc := h c List.mem_cons_self
    have hbyte : (UInt8.ofNat c).toNat = c := by
      rw [UInt8.toNat_ofNat']
      omega
    have hrest := ih fun x hx => h x (List.mem_cons_of_mem c hx)
    unfold decodeAscii at hrest ⊢
    rw [List.map_cons, List.map_cons, hrest, hbyte, if_pos hc.2]

theorem nul_notMem_encoded {s : Text} (h : Plain s) : 0 ∉ s.map UInt8.ofNat := by
  intro hmem
  obtain ⟨c, hc, hzero⟩ := List.mem_map.mp hmem
  have hbyte : (UInt8.ofNat c).toNat = 0 := by rw [hzero]; rfl
  rw [UInt8.toNat_ofNat'] at hbyte
  have := h c hc
  omega

/-- The bytes of a string that can be encoded. -/
def stringBytes (s : Text) : Bytes :=
  s.map UInt8.ofNat ++ [0] ++ List.replicate (padding (s.length + 1)) 0

theorem length_stringBytes (s : Text) :
    (stringBytes s).length = s.length + 1 + padding (s.length + 1) := by
  rw [stringBytes, List.length_append, List.length_append, List.length_map, List.length_replicate]
  rfl

theorem length_stringBytes_mod (s : Text) : (stringBytes s).length % 4 = 0 := by
  rw [length_stringBytes, padding]
  omega

theorem oscStringBytes_eq {s : Text} (h : Plain s) : oscStringBytes s = .ok (stringBytes s) := by
  have hascii : ∀ c ∈ s, c < 128 := fun c hc => (h c hc).2
  rw [oscStringBytes, encodeAscii, if_pos hascii]
  show Except.ok (s.map UInt8.ofNat ++ [0] ++ List.replicate (padding _) 0) = _
  rw [List.length_append, List.length_map]
  rfl

/-- **Strings round trip** where they start at a multiple of four. -/
theorem readOscString_stringBytes {s : Text} (h : Plain s) {before : Bytes}
    (halign : before.length % 4 = 0) (after : Bytes) :
    readOscString (before ++ (stringBytes s ++ after)) before.length =
      .ok (s, before.length + (stringBytes s).length) := by
  have hbytes : stringBytes s ++ after =
      s.map UInt8.ofNat ++ 0 :: (List.replicate (padding (s.length + 1)) 0 ++ after) := by
    simp [stringBytes]
  have hfind : findNul (before ++ (stringBytes s ++ after)) before.length =
      some (before.length + (s.map UInt8.ofNat).length) := by
    rw [findNul, List.drop_left, hbytes, idxOf?_nul (nul_notMem_encoded h)]
    rfl
  have hvalue : slice (before ++ (stringBytes s ++ after)) before.length
      (before.length + (s.map UInt8.ofNat).length) = s.map UInt8.ofNat := by
    rw [hbytes, slice_item]
  have hpad : padding (before.length + (s.map UInt8.ofNat).length + 1) =
      padding (s.length + 1) := by
    rw [List.length_map, padding, padding]
    omega
  rw [readOscString, hfind]
  show Except.ok (decodeAscii _, before.length + (s.map UInt8.ofNat).length + 1 + padding _) = _
  rw [hvalue, decodeAscii_encoded h, hpad, length_stringBytes, List.length_map]
  congr 2
  omega

/-! ## One argument -/

/-- The arguments that the format has a type for, blobs of any size. -/
def Arg.Proper : Arg → Prop
  | .bool _ => True
  | .int n => -2 ^ 31 ≤ n ∧ n < 2 ^ 31
  | .float _ => True
  | .str s => Plain s
  | .blob _ => True
  | .none => False

/-- Whether the size field can hold the size of a blob. -/
def Arg.Sized : Arg → Prop
  | .blob bytes => bytes.length < 2 ^ 32
  | _ => True

/-- What building an argument gives, and that it is parsed back wherever it
stands at a multiple of four. -/
structure Encoded (arg : Arg) (tag : Nat) (bytes : Bytes) : Prop where
  built : buildArg arg = .ok ([tag], bytes)
  plain : 0 < tag ∧ tag < 128
  aligned : bytes.length % 4 = 0
  parsed : ∀ before after : Bytes, before.length % 4 = 0 →
    parseArg (before ++ (bytes ++ after)) before.length tag =
      .ok (arg, before.length + bytes.length)

theorem length_item (before item after : Bytes) :
    ¬ before.length + item.length > (before ++ (item ++ after)).length := by
  simp only [List.length_append]
  omega

theorem encoded_int {n : Int} (h : -2 ^ 31 ≤ n ∧ n < 2 ^ 31) :
    Encoded (.int n) 'i'.toNat (word4 (n % 2 ^ 32).toNat) where
  built := by
    rw [buildArg, toBytesSigned, if_pos h]
    rfl
  plain := by decide
  aligned := by rw [length_word4]
  parsed before after _ := by
    have hfits := length_item before (word4 (n % 2 ^ 32).toNat) after
    have hitem := slice_item before (word4 (n % 2 ^ 32).toNat) after
    rw [length_word4] at hfits hitem
    rw [parseArg, if_pos rfl, if_neg hfits, hitem, fromBytesSigned_word4 h, length_word4]

theorem encoded_float (bits : UInt32) : Encoded (.float bits) 'f'.toNat (word4 bits.toNat) where
  built := rfl
  plain := by decide
  aligned := by rw [length_word4]
  parsed before after _ := by
    have hfits := length_item before (word4 bits.toNat) after
    have hitem := slice_item before (word4 bits.toNat) after
    have hbits : UInt32.ofNat (fromBytes (word4 bits.toNat)) = bits := by
      rw [fromBytes_word4 bits.toNat_lt, UInt32.ofNat_toNat]
    rw [length_word4] at hfits hitem
    rw [parseArg, if_neg (by decide), if_pos rfl, if_neg hfits, hitem, unpackFloat,
      if_pos (length_word4 _), hbits, length_word4]
    rfl

theorem encoded_str {s : Text} (h : Plain s) : Encoded (.str s) 's'.toNat (stringBytes s) where
  built := by
    rw [buildArg, oscStringBytes_eq h]
    rfl
  plain := by decide
  aligned := length_stringBytes_mod s
  parsed before after halign := by
    rw [parseArg, if_neg (by decide), if_neg (by decide), if_pos rfl,
      readOscString_stringBytes h halign]
    rfl

/-- The bytes of a blob. -/
def blobBytes (bytes : Bytes) : Bytes :=
  word4 bytes.length ++ bytes ++ List.replicate (padding bytes.length) 0

theorem length_blobBytes (bytes : Bytes) :
    (blobBytes bytes).length = 4 + bytes.length + padding bytes.length := by
  rw [blobBytes, List.length_append, List.length_append, length_word4, List.length_replicate]

theorem encoded_blob {bytes : Bytes} (h : bytes.length < 2 ^ 32) :
    Encoded (.blob bytes) 'b'.toNat (blobBytes bytes) where
  built := by
    rw [buildArg, toBytes, if_pos h]
    rfl
  plain := by decide
  aligned := by
    rw [length_blobBytes, padding]
    omega
  parsed before after halign := by
    have hsplit : before ++ (blobBytes bytes ++ after) = before ++ (word4 bytes.length ++
        (bytes ++ (List.replicate (padding bytes.length) 0 ++ after))) := by
      simp [blobBytes]
    have hsplit' : before ++ (blobBytes bytes ++ after) = before ++ word4 bytes.length ++
        (bytes ++ (List.replicate (padding bytes.length) 0 ++ after)) := by
      simp [blobBytes]
    have hsize := slice_item before (word4 bytes.length)
      (bytes ++ (List.replicate (padding bytes.length) 0 ++ after))
    have hsizeFits := length_item before (word4 bytes.length)
      (bytes ++ (List.replicate (padding bytes.length) 0 ++ after))
    have hdata := slice_item (before ++ word4 bytes.length) bytes
      (List.replicate (padding bytes.length) 0 ++ after)
    have hdataFits := length_item (before ++ word4 bytes.length) bytes
      (List.replicate (padding bytes.length) 0 ++ after)
    rw [← hsplit, length_word4] at hsize hsizeFits
    rw [← hsplit', List.length_append, length_word4] at hdata hdataFits
    have hpad : padding (before.length + 4 + bytes.length) = padding bytes.length := by
      rw [padding, padding]
      omega
    rw [parseArg, if_neg (by decide), if_neg (by decide), if_neg (by decide), if_pos rfl,
      if_neg hsizeFits, hsize, fromBytes_word4 h]
    show (if _ then _ else _ : Except Raised (Arg × Nat)) = _
    rw [if_neg hdataFits]
    show Except.ok (Arg.blob (slice _ (before.length + 4) (before.length + 4 + bytes.length)),
      before.length + 4 + bytes.length + padding _) = _
    rw [hdata, hpad, length_blobBytes]
    congr 2
    omega

theorem Arg.encoded {arg : Arg} (h : arg.Proper) (hsized : arg.Sized) :
    ∃ tag bytes, Encoded arg tag bytes := by
  cases arg with
  | bool b =>
    cases b with
    | true => exact ⟨'T'.toNat, [], rfl, by decide, rfl, fun _ _ _ => rfl⟩
    | false => exact ⟨'F'.toNat, [], rfl, by decide, rfl, fun _ _ _ => rfl⟩
  | int n => exact ⟨_, _, encoded_int h⟩
  | float bits => exact ⟨_, _, encoded_float bits⟩
  | str s => exact ⟨_, _, encoded_str h⟩
  | blob bytes => exact ⟨_, _, encoded_blob hsized⟩
  | none => exact absurd h (fun h => h)

/-! ## The round trip -/

/-- All arguments: the parser follows the builder from any multiple of four. -/
theorem encoded_args {args : List Arg} (h : ∀ arg ∈ args, arg.Proper ∧ arg.Sized) :
    ∃ built, args.mapM buildArg = .ok built ∧ Plain (built.flatMap Prod.fst) ∧
      ∀ before : Bytes, before.length % 4 = 0 →
        parseArgs (before ++ built.flatMap Prod.snd) before.length (built.flatMap Prod.fst) =
          .ok args := by
  induction args with
  | nil => exact ⟨[], rfl, by simp [Plain], fun _ _ => rfl⟩
  | cons arg args ih =>
    obtain ⟨tag, bytes, henc⟩ := Arg.encoded (h arg List.mem_cons_self).1
      (h arg List.mem_cons_self).2
    obtain ⟨built, hbuilt, hplain, hparsed⟩ := ih fun a ha => h a (List.mem_cons_of_mem arg ha)
    refine ⟨([tag], bytes) :: built, ?_, ?_, ?_⟩
    · rw [List.mapM_cons, henc.built, hbuilt]
      rfl
    · intro c hc
      rcases List.mem_cons.mp hc with rfl | hc
      · exact henc.plain
      · exact hplain c hc
    · intro before halign
      have hhead := henc.parsed before (built.flatMap Prod.snd) halign
      have hnext : (before ++ bytes).length = before.length + bytes.length := List.length_append
      have haligned := henc.aligned
      have htail := hparsed (before ++ bytes) (by omega)
      rw [List.append_assoc, hnext] at htail
      show ((parseArg (before ++ (bytes ++ built.flatMap Prod.snd)) before.length tag).bind fun r =>
        (parseArgs _ r.2 (built.flatMap Prod.fst)).bind _) = _
      rw [hhead]
      show ((parseArgs (before ++ (bytes ++ built.flatMap Prod.snd)) (before.length + bytes.length)
        (built.flatMap Prod.fst)).bind _) = _
      rw [htail]
      rfl

/-- A message with a type tag string is its address and the arguments of its
tags. -/
theorem parseOscMessage_tagged {data : Bytes} {address tags : Text} {offset next : Nat}
    (hdata : data[0]? = some 47) (hfirst : readOscString data 0 = .ok (address, offset))
    (hslash : Text.of "/" <+: address) (hoffset : offset < data.length)
    (hsecond : readOscString data offset = .ok (Text.of "," ++ tags, next)) :
    parseOscMessage data = (parseArgs data next tags).map fun args => (address, args) := by
  have hbundle : ¬ bundleMarker.isPrefixOf data = true := by
    intro h
    obtain ⟨rest, rfl⟩ := List.isPrefixOf_iff_prefix.mp h
    cases hdata
  have hempty : ¬ data.isEmpty = true := by
    intro h
    rw [List.isEmpty_iff.mp h] at hdata
    cases hdata
  have hslash : ¬ ¬ (Text.of "/").isPrefixOf address = true :=
    not_not.mpr (List.isPrefixOf_iff_prefix.mpr hslash)
  have hcomma : ¬ ¬ (Text.of ",").isPrefixOf (Text.of "," ++ tags) = true :=
    not_not.mpr (List.isPrefixOf_iff_prefix.mpr (List.prefix_append ..))
  rw [parseOscMessage, if_neg hbundle, if_neg hempty, hfirst]
  show (if ¬ (Text.of "/").isPrefixOf address = true then
      (.error (.oscError (Text.of "OSC address must start with '/', got " ++ repr address)) :
        Except Raised (Text × List Arg))
    else if offset ≥ data.length then .ok (address, [])
    else (readOscString data offset).bind _) = _
  rw [if_neg hslash, if_neg (by omega), hsecond]
  show (if ¬ (Text.of ",").isPrefixOf (Text.of "," ++ tags) = true then
      (.error (.oscError (Text.of "missing OSC type tag string")) :
        Except Raised (Text × List Arg))
    else (parseArgs data next tags).bind _) = _
  rw [if_neg hcomma]
  rfl

/-- **Round trip**: what is built from a plain address and proper arguments,
no blob longer than its size field can say, is parsed back. -/
theorem parse_build {address : Text} (haddress : Plain address)
    (hslash : Text.of "/" <+: address) {args : List Arg}
    (hargs : ∀ arg ∈ args, arg.Proper ∧ arg.Sized) :
    ∃ data, buildOscMessage address args = .ok data ∧
      parseOscMessage data = .ok (address, args) := by
  obtain ⟨built, hbuilt, hplain, hparsed⟩ := encoded_args hargs
  have htags : Plain (Text.of "," ++ built.flatMap Prod.fst) := by
    intro c hc
    rcases List.mem_append.mp hc with hcomma | hc
    · rw [List.mem_singleton.mp hcomma]
      decide
    · exact hplain c hc
  refine ⟨stringBytes address ++ stringBytes (Text.of "," ++ built.flatMap Prod.fst) ++
    built.flatMap Prod.snd, ?_, ?_⟩
  · rw [buildOscMessage, hbuilt, oscStringBytes_eq haddress]
    show ((oscStringBytes _).bind _) = _
    rw [oscStringBytes_eq htags]
    rfl
  · have hfirst := @readOscString_stringBytes _ haddress [] rfl
      (stringBytes (Text.of "," ++ built.flatMap Prod.fst) ++ built.flatMap Prod.snd)
    have hsecond := readOscString_stringBytes htags (length_stringBytes_mod address)
      (built.flatMap Prod.snd)
    have hrest := hparsed (stringBytes address ++ stringBytes (Text.of "," ++
      built.flatMap Prod.fst)) (by
        have := length_stringBytes_mod address
        have := length_stringBytes_mod (Text.of "," ++ built.flatMap Prod.fst)
        rw [List.length_append]
        omega)
    rw [List.nil_append, List.length_nil, Nat.zero_add] at hfirst
    rw [List.append_assoc, List.length_append] at hrest
    rw [List.append_assoc]
    have hbytes : (stringBytes address)[0]? = some 47 := by
      obtain ⟨tail, rfl⟩ := hslash
      rfl
    have hpos : 0 < (stringBytes (Text.of "," ++ built.flatMap Prod.fst)).length := by
      rw [length_stringBytes]
      omega
    rw [parseOscMessage_tagged _ hfirst hslash _ hsecond, hrest]
    · rfl
    · rw [List.getElem?_append_left (by rw [length_stringBytes]; omega)]
      exact hbytes
    · simp only [List.length_append]
      omega

/-- A blob of one byte between a string and a flag. -/
theorem parse_build_mixed :
    ∃ data, buildOscMessage (Text.of "/x") [.str [], .blob [7], .bool true] = .ok data ∧
      parseOscMessage data = .ok (Text.of "/x", [.str [], .blob [7], .bool true]) := by
  have haddress : Plain (Text.of "/x") := by
    unfold Plain
    decide
  apply parse_build haddress (by decide)
  intro arg harg
  simp only [List.mem_cons, List.not_mem_nil, or_false] at harg
  rcases harg with rfl | rfl | rfl
  · exact ⟨by simp [Arg.Proper, Plain], trivial⟩
  · exact ⟨trivial, by simp [Arg.Sized]⟩
  · exact ⟨trivial, trivial⟩

/-- A blob of `2^32` bytes has no size field. -/
theorem parse_build_long_blob :
    ¬ ∀ (address : Text) (args : List Arg), Plain address → Text.of "/" <+: address →
      (∀ arg ∈ args, arg.Proper) →
        ∃ data, buildOscMessage address args = .ok data ∧
          parseOscMessage data = .ok (address, args) := by
  intro h
  obtain ⟨bytes, hlen⟩ : ∃ bytes : Bytes, bytes.length = 2 ^ 32 :=
    ⟨List.replicate (2 ^ 32) 0, List.length_replicate⟩
  have haddress : Plain (Text.of "/") := by
    unfold Plain
    decide
  obtain ⟨data, hbuild, -⟩ := h (Text.of "/") [.blob bytes] haddress (List.prefix_refl _)
    (by simp [Arg.Proper])
  have hrefused : toBytes bytes.length =
      .error (.overflowError (Text.of "int too big to convert")) := by
    rw [toBytes, if_neg (by omega)]
  rw [buildOscMessage, List.mapM_cons, buildArg, hrefused] at hbuild
  cases hbuild

end Fusion.Osc
