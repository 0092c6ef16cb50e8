import Fusion.Io.TextEventParsing
import Fusion.Lib.ShiftRegister

/-!
# ModbusFraming — Modbus RTU frames (io/modbus_framing.py)

A frame is a slave id, a function code, data and a CRC16, the low byte of it
first. The builders and the parsers are those of the source; an index out of
range is an error of its own here, so that its absence is a theorem.
-/

namespace Fusion.Modbus

/-- The function codes, and the bit that marks an exception. -/
def readHoldingRegisters : Nat := 0x03
def writeSingleRegister : Nat := 0x06
def exceptionBit : Nat := 0x80

/-- What an exchange can raise: the module's own errors, the language's, and
the port's. -/
inductive Raised
  | frameError (message : String)
  | deviceError (functionCode exceptionCode : Nat)
  | valueError (message : String)
  | indexError (message : String)
  /-- what the port raised, passed on -/
  | portError (message : String)
deriving DecidableEq

/-- `f"{n:#x}"` -/
def hex (n : Nat) : String :=
  "0x" ++ String.ofList (Nat.toDigits 16 n)

/-- `str` of the exception. -/
def Raised.message : Raised → String
  | .frameError message => message
  | .deviceError functionCode exceptionCode =>
      "device returned exception code " ++ hex exceptionCode ++ " for function " ++
        hex functionCode
  | .valueError message => message
  | .indexError message => message
  | .portError message => message

/-- Whether it is a `ModbusError`. -/
def Raised.isModbusError : Raised → Bool
  | .frameError _ => true
  | .deviceError _ _ => true
  | _ => false

/-! ## The language's byte strings -/

/-- `data[i]` -/
def index (data : Bytes) (i : Nat) : Except Raised Nat :=
  match data[i]? with
  | some b => .ok b.toNat
  | none => .error (.indexError "index out of range")

/-- `bytes(values)` -/
def toBytes (values : List Int) : Except Raised Bytes :=
  if ∀ v ∈ values, 0 ≤ v ∧ v < 256 then .ok (values.map fun v => UInt8.ofNat v.toNat)
  else .error (.valueError "bytes must be in range(0, 256)")

/-- `n & 0xFF` -/
def lowByte (n : Int) : Int :=
  n % 256

/-! ## Frames -/

/-- One round of the bit loop. -/
def crcBit (crc : Nat) : Nat :=
  if crc &&& 1 ≠ 0 then (crc >>> 1) ^^^ 0xA001 else crc >>> 1

/-- One round of the byte loop. -/
def crcByte (crc : Nat) (byte : UInt8) : Nat :=
  crcBit^[8] (crc ^^^ byte.toNat)

/-- `crc16` -/
def crc16 (data : Bytes) : Nat :=
  data.foldl crcByte 0xFFFF

/-- The two bytes that `_with_crc` adds. -/
def crcBytes (frame : Bytes) : Bytes :=
  [UInt8.ofNat (crc16 frame &&& 0xFF), UInt8.ofNat (crc16 frame >>> 8 &&& 0xFF)]

/-- `_with_crc`: the low byte of the CRC comes first. -/
def withCrc (frame : Bytes) : Bytes :=
  frame ++ crcBytes frame

/-- A request: the function code, an address and one more word. -/
def buildRequest (functionCode : Nat) (slaveId address argument : Int) : Except Raised Bytes := do
  let frame ← toBytes [slaveId, functionCode, lowByte (address >>> (8 : Nat)), lowByte address,
    lowByte (argument >>> (8 : Nat)), lowByte argument]
  return withCrc frame

/-- `build_read_holding_registers` -/
def buildReadHoldingRegisters (slaveId address count : Int) : Except Raised Bytes :=
  buildRequest readHoldingRegisters slaveId address count

/-- `build_write_single_register` -/
def buildWriteSingleRegister (slaveId address value : Int) : Except Raised Bytes :=
  buildRequest writeSingleRegister slaveId address value

/-- `_check_frame`: the length, the slave and the CRC. -/
def checkFrame (slaveId : Int) (response : Bytes) : Except Raised Unit := do
  if response.length < 5 then
    throw (.frameError ("response too short (" ++ toString response.length ++ " bytes)"))
  let first ← index response 0
  if (first : Int) ≠ slaveId then
    throw (.frameError ("unexpected slave id " ++ toString first ++ " (expected " ++
      toString slaveId ++ ")"))
  let low ← index response (response.length - 2)
  let high ← index response (response.length - 1)
  if low ||| high <<< 8 ≠ crc16 (response.take (response.length - 2)) then
    throw (.frameError "CRC mismatch")

/-- `(response[i] << 8) | response[i + 1]` -/
def wordAt (response : Bytes) (i : Nat) : Except Raised Nat := do
  return (← index response i) <<< 8 ||| (← index response (i + 1))

/-- What both parsers do first. -/
def checkAnswer (functionCode : Nat) (slaveId : Int) (response : Bytes) : Except Raised Unit := do
  checkFrame slaveId response
  let answered ← index response 1
  if answered = functionCode ||| exceptionBit then
    throw (.deviceError functionCode (← index response 2))
  if answered ≠ functionCode then
    throw (.frameError ("unexpected function code " ++ hex answered))

/-- The registers of a read's answer, as many as it holds. -/
def parseReadHoldingRegistersResponse (slaveId : Int) (response : Bytes) :
    Except Raised (List Nat) := do
  checkAnswer readHoldingRegisters slaveId response
  let byteCount ← index response 2
  if response.length ≠ 3 + byteCount + 2 then
    throw (.frameError "response length does not match its own byte count field")
  -- `range(0, byte_count, 2)`: an odd count has its last byte in a word too
  (List.range ((byteCount + 1) / 2)).mapM fun k => wordAt response (3 + 2 * k)

/-- A write's answer repeats the request. -/
def parseWriteSingleRegisterResponse (slaveId address value : Int) (response : Bytes) :
    Except Raised Unit := do
  checkAnswer writeSingleRegister slaveId response
  if response.length ≠ 8 then
    throw (.frameError ("write response has unexpected length " ++ toString response.length))
  let echoedAddress ← wordAt response 2
  let echoedValue ← wordAt response 4
  if (echoedAddress : Int) ≠ address ∨ (echoedValue : Int) ≠ value then
    throw (.frameError "write response does not echo the request")

/-! ## Bytes and words -/

theorem index_of_lt {data : Bytes} {i : Nat} (h : i < data.length) :
    index data i = .ok data[i].toNat := by
  rw [index, List.getElem?_eq_getElem h]

/-- `low | (high << 8)` of a byte and any word. -/
theorem or_shiftLeft {low : Nat} (hlow : low < 256) (high : Nat) :
    low ||| high <<< 8 = 256 * high + low := by
  rw [Nat.or_comm, ← Nat.shiftLeft_add_eq_or_of_lt hlow, Nat.shiftLeft_eq]
  omega

theorem toBytes_eq {values : List Int} (h : ∀ v ∈ values, 0 ≤ v ∧ v < 256) :
    toBytes values = .ok (values.map fun v => UInt8.ofNat v.toNat) :=
  if_pos h

theorem lowByte_bounds (n : Int) : 0 ≤ lowByte n ∧ lowByte n < 256 := by
  unfold lowByte
  omega

/-! ## The CRC as a shift register -/

/-- The feedback word. -/
def poly : BitVec 16 := 0xA001#16

theorem msb_poly : poly.msb = true := by decide

/-- The bits of a byte, the lowest first. -/
def byteBits (b : UInt8) : List Bool :=
  ShiftRegister.bitsOf 8 b.toNat

/-- The bits of a frame: bytes in order, the lowest bit of each first. -/
def bits (data : Bytes) : List Bool :=
  data.flatMap byteBits

theorem length_bits (data : Bytes) : (bits data).length = 8 * data.length := by
  induction data with
  | nil => rfl
  | cons b data ih =>
    have hbits : bits (b :: data) = byteBits b ++ bits data := List.flatMap_cons
    rw [hbits, List.length_append, ih, byteBits, ShiftRegister.length_bitsOf, List.length_cons]
    omega

theorem bits_injective {data data' : Bytes} (hlen : data.length = data'.length)
    (h : bits data = bits data') : data = data' := by
  induction data generalizing data' with
  | nil => exact (List.eq_nil_of_length_eq_zero hlen.symm).symm
  | cons b data ih =>
    cases data' with
    | nil => cases hlen
    | cons b' data' =>
      simp only [bits, List.flatMap_cons] at h
      obtain ⟨hbyte, hrest⟩ := List.append_inj h (by simp [byteBits])
      have hb : b = b' := UInt8.toNat.inj
        (ShiftRegister.bitsOf_injective b.toNat_lt b'.toNat_lt hbyte)
      rw [hb, ih (Nat.succ.inj hlen) hrest]

theorem crcBit_toNat (c : BitVec 16) :
    crcBit c.toNat = (ShiftRegister.shift poly c).toNat := by
  have hbit : c.toNat &&& 1 ≠ 0 ↔ c.getLsbD 0 = true := by
    rw [BitVec.getLsbD, Nat.testBit_zero, Nat.and_one_is_mod]
    simp
  unfold crcBit ShiftRegister.shift
  by_cases hlow : c.getLsbD 0 = true
  · rw [if_pos (hbit.mpr hlow), if_pos hlow]
    simp [poly]
  · rw [if_neg (fun h => hlow (hbit.mp h)), if_neg hlow]
    simp

theorem iterate_crcBit_toNat (k : Nat) (c : BitVec 16) :
    crcBit^[k] c.toNat = ((ShiftRegister.shift poly)^[k] c).toNat := by
  induction k generalizing c with
  | zero => rfl
  | succ k ih => rw [Function.iterate_succ_apply, Function.iterate_succ_apply, crcBit_toNat, ih]

theorem crcByte_toNat (c : BitVec 16) (b : UInt8) :
    crcByte c.toNat b = (ShiftRegister.feeds poly c (byteBits b)).toNat := by
  have hb : b.toNat < 2 ^ 8 := b.toNat_lt
  have hsmall : b.toNat < 2 ^ 16 := by omega
  rw [byteBits, ShiftRegister.feeds_eq_shift_pack c (by simp), ShiftRegister.pack_bitsOf _ _ hb,
    ShiftRegister.length_bitsOf, ← iterate_crcBit_toNat, BitVec.toNat_xor, BitVec.toNat_ofNat,
    Nat.mod_eq_of_lt hsmall]
  rfl

theorem foldl_crcByte (c : BitVec 16) (data : Bytes) :
    data.foldl crcByte c.toNat = (ShiftRegister.feeds poly c (bits data)).toNat := by
  induction data generalizing c with
  | nil => rfl
  | cons b data ih =>
    have hbits : bits (b :: data) = byteBits b ++ bits data := List.flatMap_cons
    rw [List.foldl_cons, crcByte_toNat, ih, hbits, ShiftRegister.feeds_append]

/-- The register after the bytes. -/
def remainder (data : Bytes) : BitVec 16 :=
  ShiftRegister.feeds poly 0xFFFF#16 (bits data)

/-- **The bit loop** is the shift register over the bits of the data. -/
theorem crc16_eq (data : Bytes) : crc16 data = (remainder data).toNat :=
  foldl_crcByte 0xFFFF#16 data

theorem crc16_lt (data : Bytes) : crc16 data < 2 ^ 16 := by
  rw [crc16_eq]
  exact (remainder data).isLt

theorem bits_crcBytes (frame : Bytes) :
    bits (crcBytes frame) = ShiftRegister.bitsOf 16 (crc16 frame) := by
  have hlt := crc16_lt frame
  have hlow : (UInt8.ofNat (crc16 frame &&& 0xFF)).toNat = crc16 frame % 2 ^ 8 := by
    rw [UInt8.toNat_ofNat', show 0xFF = 2 ^ 8 - 1 by rfl, Nat.and_two_pow_sub_one_eq_mod]
    omega
  have hhigh : (UInt8.ofNat (crc16 frame >>> 8 &&& 0xFF)).toNat = crc16 frame / 2 ^ 8 := by
    rw [UInt8.toNat_ofNat', show 0xFF = 2 ^ 8 - 1 by rfl, Nat.and_two_pow_sub_one_eq_mod,
      Nat.shiftRight_eq_div_pow]
    omega
  rw [crcBytes, bits, List.flatMap_cons, List.flatMap_cons, List.flatMap_nil, List.append_nil,
    byteBits, byteBits, hlow, hhigh, ShiftRegister.bitsOf_append _ _ _ _ (by omega)]
  congr 1
  omega

/-- A frame with its CRC behind it leaves the register at zero. -/
theorem remainder_withCrc (frame : Bytes) : remainder (withCrc frame) = 0#16 := by
  rw [remainder, withCrc, bits, List.flatMap_append]
  show ShiftRegister.feeds poly _ (bits frame ++ bits (crcBytes frame)) = _
  rw [bits_crcBytes, crc16_eq, remainder, ShiftRegister.feeds_remainder]

theorem crcBytes_iff (frame : Bytes) (low high : UInt8) :
    low.toNat ||| high.toNat <<< 8 = crc16 frame ↔ [low, high] = crcBytes frame := by
  have hlow : low.toNat < 2 ^ 8 := low.toNat_lt
  have hhigh : high.toNat < 2 ^ 8 := high.toNat_lt
  have hbits : bits [low, high] = ShiftRegister.bitsOf 16 (2 ^ 8 * high.toNat + low.toNat) := by
    rw [bits, List.flatMap_cons, List.flatMap_cons, List.flatMap_nil, List.append_nil, byteBits,
      byteBits, ShiftRegister.bitsOf_append _ _ _ _ hlow]
  rw [or_shiftLeft hlow]
  constructor
  · intro h
    apply bits_injective (show [low, high].length = (crcBytes frame).length from rfl)
    rw [hbits, bits_crcBytes, ← h]
    rfl
  · intro h
    rw [h, bits_crcBytes] at hbits
    exact (ShiftRegister.bitsOf_injective (crc16_lt frame) (by omega) hbits).symm

/-! ## Checked frames -/

/-- A response that is long enough, by its three first and two last bytes. -/
theorem exists_ends {response : Bytes} (h : 5 ≤ response.length) :
    ∃ a b c rest low high, response = a :: b :: c :: rest ++ [low, high] := by
  rcases response with _ | ⟨a, _ | ⟨b, _ | ⟨c, tail⟩⟩⟩
  · simp at h
  · simp at h
  · simp at h
  · simp only [List.length_cons] at h
    have hlast : (tail.drop (tail.length - 2)).length = 2 := by
      rw [List.length_drop]
      omega
    obtain ⟨low, high, hends⟩ := List.length_eq_two.mp hlast
    refine ⟨a, b, c, tail.take (tail.length - 2), low, high, ?_⟩
    rw [← hends, List.cons_append, List.cons_append, List.cons_append, List.take_append_drop]

theorem checkFrame_short (slaveId : Int) {response : Bytes} (h : response.length < 5) :
    checkFrame slaveId response =
      .error (.frameError ("response too short (" ++ toString response.length ++ " bytes)")) := by
  rw [checkFrame, if_pos h]
  rfl

theorem checkFrame_ends (slaveId : Int) (a b c : UInt8) (rest : Bytes) (low high : UInt8) :
    checkFrame slaveId (a :: b :: c :: rest ++ [low, high]) =
      if (a.toNat : Int) ≠ slaveId then
        .error (.frameError ("unexpected slave id " ++ toString a.toNat ++ " (expected " ++
          toString slaveId ++ ")"))
      else if low.toNat ||| high.toNat <<< 8 ≠ crc16 (a :: b :: c :: rest) then
        .error (.frameError "CRC mismatch")
      else .ok () := by
  have hlen : (a :: b :: c :: rest ++ [low, high]).length = rest.length + 5 := by simp
  have hfirst : index (a :: b :: c :: rest ++ [low, high]) 0 = .ok a.toNat := rfl
  have hlow : index (a :: b :: c :: rest ++ [low, high]) (rest.length + 3) = .ok low.toNat := by
    rw [index_of_lt (by omega), List.getElem_append_right (by simp)]
    simp
  have hhigh : index (a :: b :: c :: rest ++ [low, high]) (rest.length + 4) = .ok high.toNat := by
    rw [index_of_lt (by omega), List.getElem_append_right (by simp)]
    simp
  have htake : (a :: b :: c :: rest ++ [low, high]).take (rest.length + 3) = a :: b :: c :: rest :=
    List.take_left' (by simp)
  rw [checkFrame, hlen, if_neg (by omega), hfirst]
  show (if _ then _ else _ : Except Raised Unit) = _
  split
  · rfl
  · show ((index _ (rest.length + 3)).bind fun low => (index _ (rest.length + 4)).bind fun high =>
      if low ||| high <<< 8 ≠ crc16 (List.take (rest.length + 3) _) then _ else _) = _
    rw [hlow, hhigh, htake]
    rfl

/-- What the check refuses, it refuses as a frame error. -/
theorem checkFrame_frameError {slaveId : Int} {response : Bytes}
    (h : checkFrame slaveId response ≠ .ok ()) :
    ∃ message, checkFrame slaveId response = .error (.frameError message) := by
  rcases Nat.lt_or_ge response.length 5 with hshort | hlong
  · exact ⟨_, checkFrame_short slaveId hshort⟩
  · obtain ⟨a, b, c, rest, low, high, rfl⟩ := exists_ends hlong
    rw [checkFrame_ends] at h ⊢
    split
    · exact ⟨_, rfl⟩
    · split
      · exact ⟨_, rfl⟩
      · rename_i hslave hcrc
        rw [if_neg hslave, if_neg hcrc] at h
        exact absurd rfl h

/-- **What the check accepts**: a frame of the slave with its CRC behind it. -/
theorem checkFrame_ok_iff (slaveId : Int) (response : Bytes) :
    checkFrame slaveId response = .ok () ↔
      ∃ a b c rest, (a.toNat : Int) = slaveId ∧ response = withCrc (a :: b :: c :: rest) := by
  constructor
  · intro h
    rcases Nat.lt_or_ge response.length 5 with hshort | hlong
    · rw [checkFrame_short slaveId hshort] at h
      cases h
    · obtain ⟨a, b, c, rest, low, high, rfl⟩ := exists_ends hlong
      rw [checkFrame_ends] at h
      split at h
      · cases h
      · rename_i hslave
        split at h
        · cases h
        · rename_i hcrc
          refine ⟨a, b, c, rest, not_ne_iff.mp hslave, ?_⟩
          rw [withCrc, ← (crcBytes_iff _ low high).mp (not_ne_iff.mp hcrc)]
  · rintro ⟨a, b, c, rest, hslave, rfl⟩
    have hcrc := (crcBytes_iff (a :: b :: c :: rest) _ _).mpr rfl
    rw [withCrc, crcBytes, checkFrame_ends, if_neg (not_ne_iff.mpr hslave),
      if_neg (not_ne_iff.mpr hcrc)]

/-! ## Bursts -/

/-- **Burst detection**: a response that differs from an accepted one within
sixteen consecutive bits is refused. -/
theorem checkFrame_burst (slaveId : Int) {response response' : Bytes}
    (hok : checkFrame slaveId response = .ok ()) (hlen : response'.length = response.length)
    (hne : response' ≠ response) (k : Nat)
    (hwindow : ∀ i, (bits response')[i]? ≠ (bits response)[i]? → k ≤ i ∧ i < k + 16) :
    ∃ message, checkFrame slaveId response' = .error (.frameError message) := by
  apply checkFrame_frameError
  intro hok'
  obtain ⟨_, _, _, _, -, hframe⟩ := (checkFrame_ok_iff slaveId response).mp hok
  obtain ⟨_, _, _, _, -, hframe'⟩ := (checkFrame_ok_iff slaveId response').mp hok'
  have hsame : remainder response' = remainder response := by
    rw [hframe, hframe', remainder_withCrc, remainder_withCrc]
  -- both leave zero, but what differs within the register's width cannot
  apply ShiftRegister.feeds_ne_of_window msb_poly 0xFFFF#16 (a := bits response')
    (b := bits response) _ _ k _ hsame
  · rw [length_bits, length_bits, hlen]
  · intro h
    exact hne (bits_injective hlen h)
  · intro i hi
    by_contra hdiffer
    have := hwindow i hdiffer
    omega

/-- The echo of a write of 1 to register 200 of slave 1, with the high bits of
one byte and a low bit of the next one flipped. -/
theorem checkFrame_burst_echo : checkFrame 1 [1, 6, 0, 200, 0, 1, 201, 244] = .ok () ∧
    ∃ message, checkFrame 1 [1, 6, 0, 200, 0xF0, 3, 201, 244] = .error (.frameError message) := by
  have hok : checkFrame 1 [1, 6, 0, 200, 0, 1, 201, 244] = .ok () := by decide +kernel
  have hin : ∀ i < 64, (bits [1, 6, 0, 200, 0xF0, 3, 201, 244])[i]? ≠
      (bits [1, 6, 0, 200, 0, 1, 201, 244])[i]? → 34 ≤ i ∧ i < 34 + 16 := by decide +kernel
  refine ⟨hok, checkFrame_burst 1 hok rfl (by decide) 34 ?_⟩
  intro i hi
  apply hin i _ hi
  by_contra hout
  apply hi
  rw [List.getElem?_eq_none (by rw [length_bits]; exact Nat.not_lt.mp hout),
    List.getElem?_eq_none (by rw [length_bits]; exact Nat.not_lt.mp hout)]

end Fusion.Modbus
