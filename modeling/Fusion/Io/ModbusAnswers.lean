import Fusion.Io.ModbusFraming

/-!
# ModbusAnswers — what the builders send and the parsers take

Both parsers take exactly the frames that the standard has for their function
code, and raise the module's own errors for every other response. What they do
not compare with the request is left to the caller.
-/

namespace Fusion.Modbus

/-- A word on the wire, the high byte first. -/
def wordBytes (w : UInt16) : Bytes :=
  [UInt8.ofNat (w.toNat / 256), UInt8.ofNat w.toNat]

/-- The registers of an answer, in order. -/
def registerBytes (registers : List UInt16) : Bytes :=
  registers.flatMap wordBytes

/-- The normal answer to a read. -/
def readAnswer (slave : UInt8) (registers : List UInt16) : Bytes :=
  withCrc (slave :: UInt8.ofNat readHoldingRegisters :: UInt8.ofNat (2 * registers.length) ::
    registerBytes registers)

/-- The exception answer to a request. -/
def exceptionAnswer (slave : UInt8) (functionCode : Nat) (code : UInt8) : Bytes :=
  withCrc [slave, UInt8.ofNat (functionCode ||| exceptionBit), code]

/-- A request, or the echo of one. -/
def requestFrame (slave : UInt8) (functionCode : Nat) (address argument : UInt16) : Bytes :=
  withCrc (slave :: UInt8.ofNat functionCode :: (wordBytes address ++ wordBytes argument))

/-! ## Words -/

@[simp] theorem length_crcBytes (frame : Bytes) : (crcBytes frame).length = 2 := rfl

@[simp] theorem length_withCrc (frame : Bytes) : (withCrc frame).length = frame.length + 2 := by
  rw [withCrc, List.length_append, length_crcBytes]

theorem registerBytes_cons (w : UInt16) (registers : List UInt16) :
    registerBytes (w :: registers) = wordBytes w ++ registerBytes registers :=
  List.flatMap_cons

@[simp] theorem length_registerBytes (registers : List UInt16) :
    (registerBytes registers).length = 2 * registers.length := by
  induction registers with
  | nil => rfl
  | cons w registers ih =>
    rw [registerBytes_cons, List.length_append, ih, List.length_cons]
    show 2 + 2 * registers.length = _
    omega

theorem wordBytes_toNat (high low : UInt8) :
    wordBytes (UInt16.ofNat (256 * high.toNat + low.toNat)) = [high, low] := by
  have hhigh : high.toNat < 256 := high.toNat_lt
  have hlow : low.toNat < 256 := low.toNat_lt
  have hword : (UInt16.ofNat (256 * high.toNat + low.toNat)).toNat =
      256 * high.toNat + low.toNat := by
    rw [UInt16.toNat_ofNat']
    omega
  rw [wordBytes, hword]
  congr 1
  · apply UInt8.toNat.inj
    rw [UInt8.toNat_ofNat']
    omega
  · congr 1
    apply UInt8.toNat.inj
    rw [UInt8.toNat_ofNat']
    omega

theorem wordAt_bytes (before after : Bytes) (high low : UInt8) :
    wordAt (before ++ high :: low :: after) before.length =
      .ok (256 * high.toNat + low.toNat) := by
  have hhigh : index (before ++ high :: low :: after) before.length = .ok high.toNat := by
    rw [index, List.getElem?_append_right (Nat.le_refl _), Nat.sub_self]
    rfl
  have hlow : index (before ++ high :: low :: after) (before.length + 1) = .ok low.toNat := by
    rw [index, List.getElem?_append_right (by omega), Nat.add_sub_cancel_left]
    rfl
  rw [wordAt, hhigh, hlow]
  show Except.ok (high.toNat <<< 8 ||| low.toNat) = _
  rw [Nat.or_comm, or_shiftLeft low.toNat_lt]

theorem wordAt_wordBytes (before after : Bytes) (w : UInt16) :
    wordAt (before ++ (wordBytes w ++ after)) before.length = .ok w.toNat := by
  have hlt : w.toNat < 65536 := w.toNat_lt
  show wordAt (before ++ _ :: _ :: after) _ = _
  rw [wordAt_bytes, UInt8.toNat_ofNat', UInt8.toNat_ofNat']
  congr 1
  omega

/-- Words one after the other are read one after the other. -/
theorem mapM_wordAt (before after : Bytes) (registers : List UInt16) :
    ((List.range registers.length).mapM fun k =>
      wordAt (before ++ (registerBytes registers ++ after)) (before.length + 2 * k)) =
        .ok (registers.map UInt16.toNat) := by
  induction registers generalizing before with
  | nil => rfl
  | cons w registers ih =>
    have hfirst := wordAt_wordBytes before (registerBytes registers ++ after) w
    have hrest := ih (before ++ wordBytes w)
    have hlen : (before ++ wordBytes w).length = before.length + 2 := List.length_append
    have hbytes : before ++ (registerBytes (w :: registers) ++ after) =
        before ++ wordBytes w ++ (registerBytes registers ++ after) := by
      simp [registerBytes_cons]
    rw [List.append_assoc, hlen] at hrest
    rw [List.length_cons, List.range_succ_eq_map, List.mapM_cons, List.mapM_map, hbytes,
      List.append_assoc, Nat.mul_zero, Nat.add_zero, hfirst]
    have hshift (k : Nat) : before.length + 2 * (k + 1) = before.length + 2 + 2 * k := by omega
    show (List.mapM (fun k => wordAt _ (before.length + 2 * (k + 1))) _).bind _ = _
    simp only [hshift, hrest]
    rfl

/-- Any even number of bytes are words. -/
theorem exists_registers (payload : Bytes) (count : Nat) (h : payload.length = 2 * count) :
    ∃ registers, registers.length = count ∧ payload = registerBytes registers := by
  induction count generalizing payload with
  | zero => exact ⟨[], rfl, List.eq_nil_of_length_eq_zero h⟩
  | succ count ih =>
    rcases payload with _ | ⟨high, _ | ⟨low, payload⟩⟩
    · simp at h
    · simp at h
      omega
    · simp only [List.length_cons] at h
      obtain ⟨registers, hcount, rfl⟩ := ih payload (by omega)
      refine ⟨UInt16.ofNat (256 * high.toNat + low.toNat) :: registers, by simp [hcount], ?_⟩
      rw [registerBytes_cons, wordBytes_toNat]
      rfl

/-! ## What the builders send -/

/-- The low 16 bits of an integer. -/
def lowWord (n : Int) : UInt16 :=
  UInt16.ofNat (n % 65536).toNat

theorem toNat_lowWord (n : Int) : ((lowWord n).toNat : Int) = n % 65536 := by
  rw [lowWord, UInt16.toNat_ofNat']
  omega

theorem wordBytes_lowWord (n : Int) : wordBytes (lowWord n) =
    [UInt8.ofNat (lowByte (n >>> (8 : Nat))).toNat, UInt8.ofNat (lowByte n).toNat] := by
  have hword := toNat_lowWord n
  have hshift : n >>> (8 : Nat) = n / 256 := Int.shiftRight_eq_div_pow n 8
  rw [wordBytes, lowByte, lowByte, hshift]
  congr 1
  · apply UInt8.toNat.inj
    rw [UInt8.toNat_ofNat', UInt8.toNat_ofNat']
    omega
  · congr 1
    apply UInt8.toNat.inj
    rw [UInt8.toNat_ofNat', UInt8.toNat_ofNat']
    omega

/-- **A request** carries the low 16 bits of its two arguments. -/
theorem buildRequest_eq {functionCode : Nat} (hcode : functionCode < 256) {slaveId : Int}
    (hslave : 0 ≤ slaveId ∧ slaveId < 256) (address argument : Int) :
    buildRequest functionCode slaveId address argument =
      .ok (requestFrame (UInt8.ofNat slaveId.toNat) functionCode (lowWord address)
        (lowWord argument)) := by
  have hbytes : ∀ v ∈ [slaveId, (functionCode : Int), lowByte (address >>> (8 : Nat)),
      lowByte address, lowByte (argument >>> (8 : Nat)), lowByte argument], 0 ≤ v ∧ v < 256 := by
    simp only [List.mem_cons, List.not_mem_nil, or_false, forall_eq_or_imp, forall_eq]
    exact ⟨hslave, by omega, lowByte_bounds _, lowByte_bounds _, lowByte_bounds _,
      lowByte_bounds _⟩
  rw [buildRequest, toBytes_eq hbytes, requestFrame, wordBytes_lowWord, wordBytes_lowWord]
  rfl

/-- Only the slave id can be refused. -/
theorem slaveId_of_buildRequest {functionCode : Nat} {slaveId address argument : Int}
    {frame : Bytes} (h : buildRequest functionCode slaveId address argument = .ok frame) :
    0 ≤ slaveId ∧ slaveId < 256 := by
  by_contra hslave
  rw [buildRequest, toBytes, if_neg] at h
  · cases h
  · intro hall
    exact hslave (hall slaveId (by simp))

/-! ## What the parsers take -/

/-- Only the module's own errors come out. -/
def Contained {α : Type} (r : Except Raised α) : Prop :=
  ∀ err, r = .error err → err.isModbusError = true

theorem Contained.bind {α β : Type} {r : Except Raised α} {f : α → Except Raised β}
    (h : Contained r) (hf : ∀ a, r = .ok a → Contained (f a)) : Contained (r.bind f) := by
  cases r with
  | ok a => exact hf a rfl
  | error err =>
    intro err' h'
    cases h'
    exact h err rfl

theorem Contained.checkFrame (slaveId : Int) (response : Bytes) :
    Contained (checkFrame slaveId response) := by
  intro err herr
  obtain ⟨message, h⟩ := checkFrame_frameError (by rw [herr]; simp)
  rw [herr] at h
  cases h
  rfl

theorem checkAnswer_withCrc (functionCode : Nat) {slaveId : Int} {a : UInt8} (b c : UInt8)
    (rest : Bytes) (ha : (a.toNat : Int) = slaveId) :
    checkAnswer functionCode slaveId (withCrc (a :: b :: c :: rest)) =
      if b.toNat = functionCode ||| exceptionBit then .error (.deviceError functionCode c.toNat)
      else if b.toNat ≠ functionCode then
        .error (.frameError ("unexpected function code " ++ hex b.toNat))
      else .ok () := by
  have hframe := (checkFrame_ok_iff slaveId _).mpr ⟨a, b, c, rest, ha, rfl⟩
  have hb : index (withCrc (a :: b :: c :: rest)) 1 = .ok b.toNat := rfl
  have hc : index (withCrc (a :: b :: c :: rest)) 2 = .ok c.toNat := rfl
  rw [checkAnswer, hframe, hb, hc]
  show (if _ then _ else _ : Except Raised Unit) = _
  split
  · rfl
  · split
    · rfl
    · rfl

theorem checkAnswer_of_checkFrame {functionCode : Nat} {slaveId : Int} {response : Bytes}
    {err : Raised} (h : checkFrame slaveId response = .error err) :
    checkAnswer functionCode slaveId response = .error err := by
  rw [checkAnswer, h]
  rfl

theorem Contained.checkAnswer (functionCode : Nat) (slaveId : Int) (response : Bytes) :
    Contained (checkAnswer functionCode slaveId response) := by
  cases hframe : Modbus.checkFrame slaveId response with
  | error err =>
    rw [checkAnswer_of_checkFrame hframe]
    intro err' h
    cases h
    exact Contained.checkFrame slaveId response err hframe
  | ok =>
    obtain ⟨a, b, c, rest, ha, rfl⟩ := (checkFrame_ok_iff slaveId response).mp hframe
    rw [checkAnswer_withCrc functionCode b c rest ha]
    intro err h
    split at h
    · cases h
      rfl
    · split at h
      · cases h
        rfl
      · cases h

/-- **The header both parsers take**: the slave's, with the function code. -/
theorem checkAnswer_ok_iff (functionCode : Nat) (hcode : functionCode < 128) (slaveId : Int)
    (response : Bytes) : checkAnswer functionCode slaveId response = .ok () ↔
      ∃ a c rest, (a.toNat : Int) = slaveId ∧
        response = withCrc (a :: UInt8.ofNat functionCode :: c :: rest) := by
  have hbit : functionCode ≠ functionCode ||| exceptionBit := by
    have hle : exceptionBit ≤ functionCode ||| exceptionBit := Nat.right_le_or
    have hval : exceptionBit = 128 := rfl
    omega
  have hbyte : (UInt8.ofNat functionCode).toNat = functionCode := by
    rw [UInt8.toNat_ofNat']
    omega
  constructor
  · intro h
    have hframe : checkFrame slaveId response = .ok () := by
      cases hframe : checkFrame slaveId response with
      | ok => rfl
      | error err =>
        rw [checkAnswer_of_checkFrame hframe] at h
        cases h
    obtain ⟨a, b, c, rest, ha, rfl⟩ := (checkFrame_ok_iff slaveId response).mp hframe
    rw [checkAnswer_withCrc functionCode b c rest ha] at h
    split at h
    · cases h
    · split at h
      · cases h
      · rename_i _ hb
        have hb : b = UInt8.ofNat functionCode := by
          apply UInt8.toNat.inj
          rw [hbyte]
          exact not_ne_iff.mp hb
        exact ⟨a, c, rest, ha, by rw [hb]⟩
  · rintro ⟨a, c, rest, ha, rfl⟩
    rw [checkAnswer_withCrc functionCode _ c rest ha, hbyte, if_neg hbit, if_neg (by simp)]

/-! ## The read response -/

theorem parseRead_withCrc {slaveId : Int} {a : UInt8} (ha : (a.toNat : Int) = slaveId) (c : UInt8)
    (payload : Bytes) :
    parseReadHoldingRegistersResponse slaveId
        (withCrc (a :: UInt8.ofNat readHoldingRegisters :: c :: payload)) =
      if payload.length ≠ c.toNat then
        .error (.frameError "response length does not match its own byte count field")
      else
        (List.range ((c.toNat + 1) / 2)).mapM fun k =>
          wordAt (withCrc (a :: UInt8.ofNat readHoldingRegisters :: c :: payload)) (3 + 2 * k) := by
  have hanswer := (checkAnswer_ok_iff readHoldingRegisters (by decide) slaveId
    _).mpr ⟨a, c, payload, ha, rfl⟩
  have hcount : index (withCrc (a :: UInt8.ofNat readHoldingRegisters :: c :: payload)) 2 =
      .ok c.toNat := rfl
  have hiff : (withCrc (a :: UInt8.ofNat readHoldingRegisters :: c :: payload)).length ≠
      3 + c.toNat + 2 ↔ payload.length ≠ c.toNat := by
    simp only [length_withCrc, List.length_cons]
    omega
  rw [parseReadHoldingRegistersResponse, hanswer, hcount]
  show (if _ then _ else _ : Except Raised (List Nat)) = _
  rw [if_congr hiff rfl rfl]
  rfl

theorem parseRead_readAnswer {slaveId : Int} {a : UInt8} (ha : (a.toNat : Int) = slaveId)
    {registers : List UInt16} (hcount : registers.length < 128) :
    parseReadHoldingRegistersResponse slaveId (readAnswer a registers) =
      .ok (registers.map UInt16.toNat) := by
  have hbyte : (UInt8.ofNat (2 * registers.length)).toNat = 2 * registers.length := by
    rw [UInt8.toNat_ofNat']
    omega
  have hhalf : (2 * registers.length + 1) / 2 = registers.length := by omega
  have hwords := mapM_wordAt [a, UInt8.ofNat readHoldingRegisters,
    UInt8.ofNat (2 * registers.length)] (crcBytes (a :: UInt8.ofNat readHoldingRegisters ::
      UInt8.ofNat (2 * registers.length) :: registerBytes registers)) registers
  rw [readAnswer, parseRead_withCrc ha, hbyte, if_neg (by simp), hhalf]
  exact hwords

theorem mapM_ok {α β : Type} {f : α → Except Raised β} {l : List α}
    (h : ∀ a ∈ l, ∃ b, f a = .ok b) : ∃ bs, l.mapM f = .ok bs := by
  induction l with
  | nil => exact ⟨[], rfl⟩
  | cons a l ih =>
    obtain ⟨b, hb⟩ := h a List.mem_cons_self
    obtain ⟨bs, hbs⟩ := ih fun x hx => h x (List.mem_cons_of_mem a hx)
    exact ⟨b :: bs, by rw [List.mapM_cons, hb, hbs]; rfl⟩

/-- A frame with as many bytes as it says yields words: no index is out of
range, also where the count is odd. -/
theorem parseRead_frame {slaveId : Int} {a c : UInt8} {payload : Bytes}
    (ha : (a.toNat : Int) = slaveId) (hlen : payload.length = c.toNat) :
    ∃ words, parseReadHoldingRegistersResponse slaveId
      (withCrc (a :: UInt8.ofNat readHoldingRegisters :: c :: payload)) = .ok words := by
  rw [parseRead_withCrc ha, if_neg (not_ne_iff.mpr hlen)]
  apply mapM_ok
  intro k hk
  rw [List.mem_range] at hk
  have hbound : 3 + 2 * k + 1 <
      (withCrc (a :: UInt8.ofNat readHoldingRegisters :: c :: payload)).length := by
    simp only [length_withCrc, List.length_cons]
    omega
  rw [wordAt, index_of_lt (by omega), index_of_lt hbound]
  exact ⟨_, rfl⟩

theorem Contained.parseRead (slaveId : Int) (response : Bytes) :
    Contained (parseReadHoldingRegistersResponse slaveId response) := by
  cases hanswer : Modbus.checkAnswer readHoldingRegisters slaveId response with
  | error err =>
    rw [parseReadHoldingRegistersResponse, hanswer]
    intro err' h
    cases h
    exact Contained.checkAnswer _ slaveId response err hanswer
  | ok =>
    obtain ⟨a, c, payload, ha, rfl⟩ :=
      (checkAnswer_ok_iff _ (by decide) slaveId response).mp hanswer
    intro err h
    by_cases hlen : payload.length = c.toNat
    · obtain ⟨words, hwords⟩ := parseRead_frame ha hlen
      rw [hwords] at h
      cases h
    · rw [parseRead_withCrc ha, if_pos hlen] at h
      cases h
      rfl

/-- **What the read parser takes**: any frame of the slave that has as many
bytes as it says. -/
theorem parseRead_ok_iff (slaveId : Int) (response : Bytes) :
    (∃ words, parseReadHoldingRegistersResponse slaveId response = .ok words) ↔
      ∃ a c payload, (a.toNat : Int) = slaveId ∧ payload.length = c.toNat ∧
        response = withCrc (a :: UInt8.ofNat readHoldingRegisters :: c :: payload) := by
  constructor
  · rintro ⟨words, hwords⟩
    cases hanswer : checkAnswer readHoldingRegisters slaveId response with
    | error err =>
      rw [parseReadHoldingRegistersResponse, hanswer] at hwords
      cases hwords
    | ok =>
      obtain ⟨a, c, payload, ha, rfl⟩ :=
        (checkAnswer_ok_iff _ (by decide) slaveId response).mp hanswer
      refine ⟨a, c, payload, ha, ?_, rfl⟩
      by_contra hlen
      rw [parseRead_withCrc ha, if_pos hlen] at hwords
      cases hwords
  · rintro ⟨a, c, payload, ha, hlen, rfl⟩
    exact parseRead_frame ha hlen

/-! ## The write response -/

theorem parseWrite_length {slaveId address value : Int} {response : Bytes}
    (hanswer : checkAnswer writeSingleRegister slaveId response = .ok ())
    (hlen : response.length ≠ 8) :
    parseWriteSingleRegisterResponse slaveId address value response =
      .error (.frameError ("write response has unexpected length " ++
        toString response.length)) := by
  rw [parseWriteSingleRegisterResponse, hanswer]
  exact if_pos hlen

theorem parseWrite_requestFrame {slaveId : Int} {a : UInt8} (ha : (a.toNat : Int) = slaveId)
    (address value : Int) (w v : UInt16) :
    parseWriteSingleRegisterResponse slaveId address value
        (requestFrame a writeSingleRegister w v) =
      if (w.toNat : Int) ≠ address ∨ (v.toNat : Int) ≠ value then
        .error (.frameError "write response does not echo the request")
      else .ok () := by
  have hanswer := (checkAnswer_ok_iff writeSingleRegister (by decide) slaveId
    (requestFrame a writeSingleRegister w v)).mpr ⟨a, _, _, ha, rfl⟩
  have haddress : wordAt (requestFrame a writeSingleRegister w v) 2 = .ok w.toNat :=
    wordAt_wordBytes [a, UInt8.ofNat writeSingleRegister] (wordBytes v ++ _) w
  have hvalue : wordAt (requestFrame a writeSingleRegister w v) 4 = .ok v.toNat :=
    wordAt_wordBytes (a :: UInt8.ofNat writeSingleRegister :: wordBytes w) _ v
  rw [parseWriteSingleRegisterResponse, hanswer, haddress, hvalue]
  rfl

/-- **What the write parser takes**: the echo of an address and a value, when
they are those of the call. -/
theorem parseWrite_ok_iff (slaveId address value : Int) (response : Bytes) :
    parseWriteSingleRegisterResponse slaveId address value response = .ok () ↔
      ∃ (a : UInt8) (w v : UInt16), (a.toNat : Int) = slaveId ∧ (w.toNat : Int) = address ∧
        (v.toNat : Int) = value ∧ response = requestFrame a writeSingleRegister w v := by
  constructor
  · intro h
    cases hanswer : checkAnswer writeSingleRegister slaveId response with
    | error err =>
      rw [parseWriteSingleRegisterResponse, hanswer] at h
      cases h
    | ok =>
      obtain ⟨a, c, rest, ha, hresponse⟩ :=
        (checkAnswer_ok_iff _ (by decide) slaveId response).mp hanswer
      have hlen : response.length = 8 := by
        by_contra hlen
        rw [parseWrite_length hanswer hlen] at h
        cases h
      have hrest : rest.length = 3 := by
        rw [hresponse, length_withCrc] at hlen
        simpa using hlen
      obtain ⟨d, e, f, rfl⟩ := List.length_eq_three.mp hrest
      have hframe : response = requestFrame a writeSingleRegister
          (UInt16.ofNat (256 * c.toNat + d.toNat)) (UInt16.ofNat (256 * e.toNat + f.toNat)) := by
        rw [requestFrame, wordBytes_toNat, wordBytes_toNat]
        exact hresponse
      rw [hframe, parseWrite_requestFrame ha] at h
      split at h
      · cases h
      · rename_i hecho
        rw [not_or, not_ne_iff, not_ne_iff] at hecho
        exact ⟨a, _, _, ha, hecho.1, hecho.2, hframe⟩
  · rintro ⟨a, w, v, ha, hw, hv, rfl⟩
    rw [parseWrite_requestFrame ha, if_neg (by simp [hw, hv])]

/-- **Write echo exactness**: the response is taken exactly when it is the
request. -/
theorem parseWrite_exact {slaveId address value : Int} (hslave : 0 ≤ slaveId ∧ slaveId ≤ 255)
    (haddress : 0 ≤ address ∧ address ≤ 65535) (hvalue : 0 ≤ value ∧ value ≤ 65535)
    (response : Bytes) :
    parseWriteSingleRegisterResponse slaveId address value response = .ok () ↔
      buildWriteSingleRegister slaveId address value = .ok response := by
  have hbuild : buildWriteSingleRegister slaveId address value = .ok (requestFrame
      (UInt8.ofNat slaveId.toNat) writeSingleRegister (lowWord address) (lowWord value)) :=
    buildRequest_eq (by decide) (by omega) address value
  have ha : ((UInt8.ofNat slaveId.toNat).toNat : Int) = slaveId := by
    rw [UInt8.toNat_ofNat']
    omega
  have hw : ((lowWord address).toNat : Int) = address := by
    rw [toNat_lowWord]
    omega
  have hv : ((lowWord value).toNat : Int) = value := by
    rw [toNat_lowWord]
    omega
  rw [parseWrite_ok_iff, hbuild, Except.ok.injEq]
  constructor
  · rintro ⟨a, w, v, ha', hw', hv', rfl⟩
    have haEq : UInt8.ofNat slaveId.toNat = a := UInt8.toNat.inj (by omega)
    have hwEq : lowWord address = w := UInt16.toNat.inj (by omega)
    have hvEq : lowWord value = v := UInt16.toNat.inj (by omega)
    rw [haEq, hwEq, hvEq]
  · intro h
    exact ⟨_, _, _, ha, hw, hv, h.symm⟩

/-- A write of 5000 to register 205 of slave 1. -/
theorem parseWrite_exact_goal :
    parseWriteSingleRegisterResponse 1 205 5000 [1, 6, 0, 205, 19, 136, 21, 99] = .ok () ↔
      buildWriteSingleRegister 1 205 5000 = .ok [1, 6, 0, 205, 19, 136, 21, 99] :=
  parseWrite_exact (by decide) (by decide) (by decide) _

end Fusion.Modbus
