import Fusion.Io.ModbusAnswers

/-!
# SerialSession — one transaction on the bus (io/serial_session.py)

The session infers how much to read from the first three bytes of an answer;
the parser that checks the frame infers its length again. A read blocks until
it has its bytes or times out, so it may come short at any byte.
-/

namespace Fusion.Modbus

/-! ## The port -/

/-- A serial line, with what is on its way. -/
structure Port where
  /-- received and not read -/
  buffer : Bytes
  /-- what arrives while each of the reads to come waits, in order -/
  arriving : List Bytes
  /-- the frames written -/
  written : List Bytes
deriving DecidableEq

/-- `reset_input_buffer` -/
def Port.resetInputBuffer (p : Port) : Port :=
  { p with buffer := [] }

/-- `write` -/
def Port.write (p : Port) (frame : Bytes) : Port :=
  { p with written := p.written ++ [frame] }

/-- What has arrived before the read times out, up to `size` bytes of it. -/
def Port.read (p : Port) (size : Nat) : Bytes × Port :=
  let line := p.buffer ++ p.arriving.headD []
  (line.take size, { p with buffer := line.drop size, arriving := p.arriving.tail })

/-! ## The session -/

/-- How much of the answer is left to read behind its first three bytes. -/
def remaining (isRead : Bool) (header : Bytes) : Nat :=
  let functionCode := (header.getD 1 0).toNat
  if functionCode &&& exceptionBit ≠ 0 then 2
  else if isRead then (header.getD 2 0).toNat + 2
  else 5

/-- `_transact` -/
def transact (p : Port) (frame : Bytes) (isRead : Bool) : Bytes × Port :=
  let r := (p.resetInputBuffer.write frame).read 3
  if r.1.length < 3 then r
  else
    let more := r.2.read (remaining isRead r.1)
    (r.1 ++ more.1, more.2)

namespace ModbusSerialSession

/-- `submit` is what `_submit` comes back with. -/
def readHoldingRegisters (submit : Bytes → Bool → Except Raised Bytes)
    (slaveId address count : Int) : Except Raised (List Nat) := do
  let frame ← buildReadHoldingRegisters slaveId address count
  let response ← submit frame true
  parseReadHoldingRegistersResponse slaveId response

/-- The same for a write; nothing is returned. -/
def writeSingleRegister (submit : Bytes → Bool → Except Raised Bytes)
    (slaveId address value : Int) : Except Raised Unit := do
  let frame ← buildWriteSingleRegister slaveId address value
  let response ← submit frame false
  parseWriteSingleRegisterResponse slaveId address value response

end ModbusSerialSession

/-! ## Answers to another request -/

/-- The slave id as a byte. -/
def slaveByte (slaveId : Int) : UInt8 :=
  UInt8.ofNat slaveId.toNat

theorem toNat_slaveByte {slaveId : Int} (h : 0 ≤ slaveId ∧ slaveId < 256) :
    ((slaveByte slaveId).toNat : Int) = slaveId := by
  rw [slaveByte, UInt8.toNat_ofNat']
  omega

/-- The read returns exactly the registers of an answer with as many as it
asked for, and raises an error of the module's own for every other response. -/
structure ExactRead (slaveId count : Int) (response : Bytes)
    (result : Except Raised (List Nat)) : Prop where
  exact : ∀ words, result = .ok words ↔ ∃ registers : List UInt16,
    (registers.length : Int) = count ∧ response = readAnswer (slaveByte slaveId) registers ∧
      words = registers.map UInt16.toNat
  refused : ∀ err, result = .error err → err.isModbusError = true

/-- A valid frame of the slave with another number of bytes than `count`
registers have. -/
def OtherCount (slaveId count : Int) (response : Bytes) : Prop :=
  ∃ (c : UInt8) (payload : Bytes), (c.toNat : Int) ≠ 2 * count ∧ payload.length = c.toNat ∧
    response = withCrc
      (slaveByte slaveId :: UInt8.ofNat Modbus.readHoldingRegisters :: c :: payload)

theorem withCrc_injective {frame frame' : Bytes} (h : withCrc frame = withCrc frame') :
    frame = frame' :=
  List.append_inj_left' h rfl

theorem readHoldingRegisters_eq {submit : Bytes → Bool → Except Raised Bytes}
    {slaveId : Int} (hslave : 0 ≤ slaveId ∧ slaveId < 256) (address count : Int)
    {response : Bytes} (hsubmit : ∀ frame, submit frame true = .ok response) :
    ModbusSerialSession.readHoldingRegisters submit slaveId address count =
      parseReadHoldingRegistersResponse slaveId response := by
  have hbuild : buildReadHoldingRegisters slaveId address count = _ :=
    buildRequest_eq (by decide) hslave address count
  rw [ModbusSerialSession.readHoldingRegisters, hbuild]
  show (submit _ true).bind _ = _
  rw [hsubmit]
  rfl

/-- **Read exactness**: the response answers the request, or is refused,
exactly when it is not an answer with another number of registers. -/
theorem readHoldingRegisters_exact_iff {submit : Bytes → Bool → Except Raised Bytes}
    {slaveId count : Int} (hslave : 0 ≤ slaveId ∧ slaveId ≤ 255)
    (hcount : 1 ≤ count ∧ count ≤ 127) (address : Int) {response : Bytes}
    (hsubmit : ∀ frame, submit frame true = .ok response) :
    ExactRead slaveId count response
        (ModbusSerialSession.readHoldingRegisters submit slaveId address count) ↔
      ¬ OtherCount slaveId count response := by
  have hbyte : ((slaveByte slaveId).toNat : Int) = slaveId := toNat_slaveByte (by omega)
  rw [readHoldingRegisters_eq (by omega) address count hsubmit]
  constructor
  · rintro h ⟨c, payload, hother, hlen, rfl⟩
    obtain ⟨words, hwords⟩ := parseRead_frame hbyte hlen
    obtain ⟨registers, hregisters, hframe, -⟩ := (h.exact words).mp hwords
    have htail := List.cons.inj (List.cons.inj (withCrc_injective hframe)).2
    have hc := (List.cons.inj htail.2).1
    rw [hc, UInt8.toNat_ofNat'] at hother
    omega
  · intro hno
    refine ⟨?_, Contained.parseRead slaveId response⟩
    intro words
    constructor
    · intro h
      obtain ⟨a, c, payload, ha, hlen, rfl⟩ := (parseRead_ok_iff slaveId response).mp ⟨words, h⟩
      have haEq : a = slaveByte slaveId := UInt8.toNat.inj (by omega)
      have hc : (c.toNat : Int) = 2 * count := by
        by_contra hc
        exact hno ⟨c, payload, hc, hlen, by rw [haEq]⟩
      obtain ⟨registers, hregisters, rfl⟩ := exists_registers payload count.toNat
        (by omega)
      have hframe : withCrc (a :: UInt8.ofNat Modbus.readHoldingRegisters :: c ::
          registerBytes registers) = readAnswer (slaveByte slaveId) registers := by
        have hcEq : c = UInt8.ofNat (2 * registers.length) := by
          apply UInt8.toNat.inj
          rw [UInt8.toNat_ofNat']
          omega
        rw [readAnswer, haEq, hcEq]
      refine ⟨registers, by omega, hframe, ?_⟩
      rw [hframe, parseRead_readAnswer hbyte (by omega)] at h
      exact (Except.ok.inj h).symm
    · rintro ⟨registers, hregisters, rfl, rfl⟩
      exact parseRead_readAnswer hbyte (by omega)

/-- One register is asked for, and it is read. -/
theorem readHoldingRegisters_exact_iff_one :
    ExactRead 1 1 [1, 3, 2, 0, 7, 249, 134]
      (ModbusSerialSession.readHoldingRegisters (fun _ _ => .ok [1, 3, 2, 0, 7, 249, 134]) 1 204
        1) := by
  refine (readHoldingRegisters_exact_iff (by decide) (by decide) 204 fun _ => rfl).mpr ?_
  rintro ⟨c, payload, hother, -, heq⟩
  have hc := (List.cons.inj (List.cons.inj (List.cons.inj heq).2).2).1
  rw [← hc] at hother
  exact hother rfl

/-- Twelve registers are asked for, and the list of one that comes back is
returned. -/
theorem readHoldingRegisters_short_list :
    ¬ ∀ (slaveId address count : Int) (response : Bytes), 0 ≤ slaveId ∧ slaveId ≤ 255 →
      0 ≤ address ∧ address ≤ 65535 → 1 ≤ count ∧ count ≤ 127 →
        ExactRead slaveId count response
          (ModbusSerialSession.readHoldingRegisters (fun _ _ => .ok response) slaveId address
            count) := by
  intro h
  have hexact := h 1 204 12 [1, 3, 2, 0, 7, 249, 134] (by decide) (by decide) (by decide)
  have hread : ModbusSerialSession.readHoldingRegisters
      (fun _ _ => .ok [1, 3, 2, 0, 7, 249, 134]) 1 204 12 = .ok [7] := by decide +kernel
  obtain ⟨registers, hcount, -, hwords⟩ := (hexact.exact [7]).mp hread
  have hlen : 1 = registers.length := by
    rw [← List.length_map UInt16.toNat, ← hwords]
    rfl
  omega

/-! ## Requests and their answers -/

/-- A request of the session. -/
inductive Request
  | read (slaveId address count : Int)
  | write (slaveId address value : Int)

/-- The request asks for registers. -/
def Request.isRead : Request → Bool
  | .read _ _ _ => true
  | .write _ _ _ => false

/-- The slave that is asked. -/
def Request.slaveId : Request → Int
  | .read slaveId _ _ => slaveId
  | .write slaveId _ _ => slaveId

/-- The function code of its frame. -/
def Request.functionCode : Request → Nat
  | .read _ _ _ => Modbus.readHoldingRegisters
  | .write _ _ _ => Modbus.writeSingleRegister

/-- The frame its builder makes. -/
def Request.frame : Request → Except Raised Bytes
  | .read slaveId address count => buildReadHoldingRegisters slaveId address count
  | .write slaveId address value => buildWriteSingleRegister slaveId address value

/-- Its parser; a write returns nothing. -/
def Request.parse : Request → Bytes → Except Raised (Option (List Nat))
  | .read slaveId _ _, response => do
      return some (← parseReadHoldingRegistersResponse slaveId response)
  | .write slaveId address value, response => do
      parseWriteSingleRegisterResponse slaveId address value response
      return none

/-- Whether the arguments of a write are words of the bus. -/
def Request.FitsBus : Request → Prop
  | .read _ _ _ => True
  | .write _ address value => (0 ≤ address ∧ address ≤ 65535) ∧ (0 ≤ value ∧ value ≤ 65535)

/-- The well-formed answers to a request, each with what it says. -/
inductive Answers : Request → Bytes → Except Raised (Option (List Nat)) → Prop
  | registers (slaveId address count : Int) {registers : List UInt16}
      (hcount : registers.length < 128) :
      Answers (.read slaveId address count) (readAnswer (slaveByte slaveId) registers)
        (.ok (some (registers.map UInt16.toNat)))
  | echo (slaveId address value : Int) :
      Answers (.write slaveId address value)
        (requestFrame (slaveByte slaveId) Modbus.writeSingleRegister (lowWord address)
          (lowWord value))
        (.ok none)
  | exception (r : Request) (code : UInt8) :
      Answers r (exceptionAnswer (slaveByte r.slaveId) r.functionCode code)
        (.error (.deviceError r.functionCode code.toNat))

/-- What the line delivers before a read of the transaction times out: with
less than a header in, there is no second read. -/
def Port.delivered (p : Port) : Bytes :=
  if (p.arriving.headD []).length < 3 then p.arriving.headD [] else (p.arriving.take 2).flatten

/-! ## One transaction -/

section
variable {r : Request} {p : Port} {frame answer : Bytes} {said : Except Raised (Option (List Nat))}

theorem Request.slaveId_bounds (hframe : r.frame = .ok frame) :
    0 ≤ r.slaveId ∧ r.slaveId < 256 := by
  cases r with
  | read slaveId address count => exact slaveId_of_buildRequest hframe
  | write slaveId address value => exact slaveId_of_buildRequest hframe

theorem Request.functionCode_eq (r : Request) :
    r.functionCode = Modbus.readHoldingRegisters ∨ r.functionCode = Modbus.writeSingleRegister := by
  cases r with
  | read slaveId address count => exact .inl rfl
  | write slaveId address value => exact .inr rfl

theorem Request.exceptionByte (r : Request) :
    (UInt8.ofNat (r.functionCode ||| exceptionBit)).toNat = r.functionCode ||| exceptionBit := by
  rcases r.functionCode_eq with h | h
  · rw [h]
    decide
  · rw [h]
    decide

theorem remaining_eq (isRead : Bool) (a b c : UInt8) :
    remaining isRead [a, b, c] =
      if b.toNat &&& exceptionBit ≠ 0 then 2 else if isRead then c.toNat + 2 else 5 :=
  rfl

/-- The three first bytes tell the length of each answer. -/
theorem Answers.length_eq (h : Answers r answer said) :
    answer.length = 3 + remaining r.isRead (answer.take 3) := by
  cases h with
  | @registers slaveId address count registers hcount =>
    have hbyte : (UInt8.ofNat (2 * registers.length)).toNat = 2 * registers.length := by
      rw [UInt8.toNat_ofNat']
      omega
    show _ = 3 + remaining true [_, _, _]
    rw [remaining_eq, if_neg (by decide), if_pos rfl, hbyte, readAnswer]
    simp only [length_withCrc, List.length_cons, length_registerBytes]
    omega
  | echo slaveId address value =>
    show 8 = 3 + remaining false [_, _, _]
    rw [remaining_eq, if_neg (by decide), if_neg (by simp)]
  | exception r code =>
    show 5 = 3 + remaining r.isRead [_, _, _]
    have hbit : (UInt8.ofNat (r.functionCode ||| exceptionBit)).toNat &&& exceptionBit ≠ 0 := by
      rw [r.exceptionByte, Nat.and_or_distrib_right, Nat.and_self]
      have hle : exceptionBit ≤ r.functionCode &&& exceptionBit ||| exceptionBit := Nat.right_le_or
      have hval : exceptionBit = 128 := rfl
      omega
    rw [remaining_eq, if_pos hbit]

theorem transact_short (frame : Bytes) (isRead : Bool) (h : (p.arriving.headD []).length < 3) :
    (transact p frame isRead).1 = p.arriving.headD [] := by
  have hread : ((p.resetInputBuffer.write frame).read 3).1 = p.arriving.headD [] := by
    show ([] ++ p.arriving.headD []).take 3 = _
    rw [List.nil_append, List.take_of_length_le (by omega)]
  rw [transact, if_pos (by rw [hread]; exact h), hread]

theorem flatten_take_two (l : List Bytes) :
    (l.take 2).flatten = l.headD [] ++ l.tail.headD [] := by
  rcases l with _ | ⟨first, _ | ⟨second, later⟩⟩
  · rfl
  · simp
  · simp

/-- With the header in, the transaction reads as much as the header says, and
leaves the rest. -/
theorem transact_header (frame : Bytes) (isRead : Bool) (h : 3 ≤ (p.arriving.headD []).length)
    {size : Nat} (hsize : size = 3 + remaining isRead ((p.arriving.headD []).take 3)) :
    transact p frame isRead =
      ((p.arriving.take 2).flatten.take size,
        { buffer := (p.arriving.take 2).flatten.drop size
          arriving := p.arriving.tail.tail
          written := p.written ++ [frame] }) := by
  have hheader : ((p.resetInputBuffer.write frame).read 3).1 = (p.arriving.headD []).take 3 := by
    show ([] ++ p.arriving.headD []).take 3 = _
    rw [List.nil_append]
  have hlen : ((p.arriving.headD []).take 3).length = 3 := by
    rw [List.length_take]
    omega
  have hline : (p.arriving.take 2).flatten =
      (p.arriving.headD []).take 3 ++
        ((p.arriving.headD []).drop 3 ++ p.arriving.tail.headD []) := by
    rw [flatten_take_two, ← List.append_assoc, List.take_append_drop]
  have hsize : size = ((p.arriving.headD []).take 3).length +
      remaining isRead ((p.arriving.headD []).take 3) := by rw [hlen, hsize]
  rw [hline, hsize, List.take_length_add_append, List.drop_length_add_append, transact, hheader]
  exact if_neg (by omega)

/-- What is read is the beginning of what is delivered. -/
theorem transact_prefix (p : Port) (frame : Bytes) (isRead : Bool) :
    (transact p frame isRead).1 <+: p.delivered := by
  unfold Port.delivered
  split
  · rename_i hshort
    simp [transact_short frame isRead hshort]
  · rename_i hlong
    rw [transact_header frame isRead (Nat.not_lt.mp hlong) rfl]
    exact List.take_prefix ..

/-- **Exactly one answer** is read, and what follows it on the line stays. -/
theorem transact_answer (frame : Bytes) (h : Answers r answer said) {rest : Bytes}
    (hline : p.arriving.flatten = answer ++ rest) (htime : answer.length ≤ p.delivered.length) :
    (transact p frame r.isRead).1 = answer ∧
      (transact p frame r.isRead).2.buffer ++
        (transact p frame r.isRead).2.arriving.flatten = rest ∧
      (transact p frame r.isRead).2.written = p.written ++ [frame] := by
  have hlen := h.length_eq
  have hlong : ¬ (p.arriving.headD []).length < 3 := by
    intro hshort
    rw [Port.delivered, if_pos hshort] at htime
    omega
  rw [Port.delivered, if_neg hlong] at htime
  have hflatten : p.arriving.flatten =
      (p.arriving.take 2).flatten ++ p.arriving.tail.tail.flatten := by
    rw [← List.flatten_append, ← List.drop_one, ← List.drop_one, List.drop_drop,
      List.take_append_drop]
  have hheader : (p.arriving.headD []).take 3 = answer.take 3 := by
    have hall : p.arriving.flatten.take 3 = (p.arriving.headD []).take 3 := by
      rw [hflatten, flatten_take_two, List.append_assoc,
        List.take_append_of_le_length (Nat.not_lt.mp hlong)]
    rw [← hall, hline, List.take_append_of_le_length (by omega)]
  -- the answer ends within the two reads
  obtain ⟨more, hmore⟩ : answer <+: (p.arriving.take 2).flatten := by
    apply @List.prefix_of_prefix_length_le _ _ _ p.arriving.flatten _ _ htime
    · rw [hline]
      exact List.prefix_append ..
    · rw [hflatten]
      exact List.prefix_append ..
  have hsize : answer.length = 3 + remaining r.isRead ((p.arriving.headD []).take 3) := by
    rw [hheader]
    exact hlen
  rw [transact_header frame r.isRead (Nat.not_lt.mp hlong) hsize, ← hmore, List.take_left,
    List.drop_left]
  refine ⟨rfl, ?_, rfl⟩
  rw [hflatten, ← hmore, List.append_assoc] at hline
  exact List.append_cancel_left hline

/-! ## What the parser says -/

/-- What the header says is what the parser says. -/
theorem Request.parse_error {response : Bytes} {err : Raised}
    (h : checkAnswer r.functionCode r.slaveId response = .error err) :
    r.parse response = .error err := by
  cases r with
  | read slaveId address count =>
    have h : checkAnswer Modbus.readHoldingRegisters slaveId response = .error err := h
    rw [Request.parse, parseReadHoldingRegistersResponse, h]
    rfl
  | write slaveId address value =>
    have h : checkAnswer Modbus.writeSingleRegister slaveId response = .error err := h
    rw [Request.parse, parseWriteSingleRegisterResponse, h]
    rfl

theorem Answers.parse (h : Answers r answer said) (hframe : r.frame = .ok frame)
    (hfits : said = .ok none → r.FitsBus) : r.parse answer = said := by
  have hbyte := toNat_slaveByte (Request.slaveId_bounds hframe)
  cases h with
  | registers slaveId address count hcount =>
    have hbyte : ((slaveByte slaveId).toNat : Int) = slaveId := hbyte
    rw [Request.parse, parseRead_readAnswer hbyte hcount]
    rfl
  | echo slaveId address value =>
    obtain ⟨haddress, hvalue⟩ := hfits rfl
    have hw := toNat_lowWord address
    have hv := toNat_lowWord value
    have hecho := (parseWrite_ok_iff slaveId address value _).mpr
      ⟨slaveByte slaveId, lowWord address, lowWord value, hbyte, by omega, by omega, rfl⟩
    rw [Request.parse, hecho]
    rfl
  | exception r code =>
    have hraised := checkAnswer_withCrc r.functionCode
      (UInt8.ofNat (r.functionCode ||| exceptionBit)) code [] hbyte
    rw [if_pos r.exceptionByte] at hraised
    exact Request.parse_error hraised

/-- **A part of an answer** is a frame error, also where its last two bytes
are its CRC. -/
theorem Answers.truncated (h : Answers r answer said) {part : Bytes} (hpart : part <+: answer)
    (hne : part ≠ answer) : ∃ message, r.parse part = .error (.frameError message) := by
  have hlt : part.length < answer.length := by
    have hle := hpart.length_le
    have hlen : part.length ≠ answer.length := fun heq => hne (hpart.eq_of_length heq)
    omega
  by_cases hok : checkFrame r.slaveId part = .ok ()
  · obtain ⟨a, b, c, rest, ha, rfl⟩ := (checkFrame_ok_iff r.slaveId part).mp hok
    rw [length_withCrc] at hlt
    simp only [List.length_cons] at hlt
    cases h with
    | @registers slaveId address count registers hcount =>
      obtain ⟨-, htail⟩ := List.cons_prefix_cons.mp hpart
      obtain ⟨rfl, htail⟩ := List.cons_prefix_cons.mp htail
      obtain ⟨rfl, -⟩ := List.cons_prefix_cons.mp htail
      rw [readAnswer, length_withCrc] at hlt
      simp only [List.length_cons, length_registerBytes] at hlt
      have hbytes : rest.length ≠ (UInt8.ofNat (2 * registers.length)).toNat := by
        rw [UInt8.toNat_ofNat']
        omega
      have ha : (a.toNat : Int) = slaveId := ha
      rw [Request.parse, parseRead_withCrc ha, if_pos hbytes]
      exact ⟨_, rfl⟩
    | echo slaveId address value =>
      obtain ⟨-, htail⟩ := List.cons_prefix_cons.mp hpart
      obtain ⟨rfl, -⟩ := List.cons_prefix_cons.mp htail
      have hheader := (checkAnswer_ok_iff Modbus.writeSingleRegister (by decide)
        slaveId _).mpr ⟨a, c, rest, ha, rfl⟩
      have hlen : (withCrc (a :: UInt8.ofNat Modbus.writeSingleRegister :: c :: rest)).length ≠
          8 := by
        have hecho : (requestFrame (slaveByte slaveId) Modbus.writeSingleRegister
          (lowWord address) (lowWord value)).length = 8 := rfl
        rw [length_withCrc]
        simp only [List.length_cons]
        omega
      rw [Request.parse, parseWrite_length hheader hlen]
      exact ⟨_, rfl⟩
    | exception r code =>
      have hfive : (exceptionAnswer (slaveByte r.slaveId) r.functionCode code).length = 5 := rfl
      omega
  · obtain ⟨message, hmessage⟩ := checkFrame_frameError hok
    exact ⟨message, Request.parse_error (checkAnswer_of_checkFrame hmessage)⟩

end

/-! ## Reading exactly one response -/

/-- **Exactly one response**: a transaction reads the answer and nothing
behind it, and its parser says what the answer says, the success of a write as
long as its arguments are words of the bus; of an answer that is cut off
anywhere it makes a frame error. -/
theorem transact_exact {r : Request} {frame answer : Bytes}
    {said : Except Raised (Option (List Nat))} (hframe : r.frame = .ok frame)
    (h : Answers r answer said) (p : Port) :
    (∀ rest, p.arriving.flatten = answer ++ rest → answer.length ≤ p.delivered.length →
      (transact p frame r.isRead).1 = answer ∧
        (transact p frame r.isRead).2.buffer ++
          (transact p frame r.isRead).2.arriving.flatten = rest ∧
        (transact p frame r.isRead).2.written = p.written ++ [frame] ∧
        ((said = .ok none → r.FitsBus) → r.parse answer = said)) ∧
      (p.delivered <+: answer → p.delivered ≠ answer →
        ∃ message, r.parse (transact p frame r.isRead).1 = .error (.frameError message)) := by
  constructor
  · intro rest hline htime
    obtain ⟨hanswer, hrest, hwritten⟩ := transact_answer frame h hline htime
    exact ⟨hanswer, hrest, hwritten, h.parse hframe⟩
  · intro hpart hne
    have hresponse := transact_prefix p frame r.isRead
    apply h.truncated (hresponse.trans hpart)
    intro heq
    have hlen : p.delivered.length = answer.length :=
      Nat.le_antisymm hpart.length_le (heq ▸ hresponse.length_le)
    exact hne (hpart.eq_of_length hlen)

/-- The echo of a write of 5000 to register 205 comes in two parts, a stale
byte before it and another byte behind it. -/
theorem transact_exact_goal :
    (transact ⟨[9], [[1, 6, 0, 205], [19, 136, 21, 99, 7]], []⟩
        [1, 6, 0, 205, 19, 136, 21, 99] false).1 = [1, 6, 0, 205, 19, 136, 21, 99] ∧
      Request.parse (.write 1 205 5000) [1, 6, 0, 205, 19, 136, 21, 99] = .ok none := by
  have hframe : Request.frame (.write 1 205 5000) = .ok [1, 6, 0, 205, 19, 136, 21, 99] := by
    decide +kernel
  have hecho : requestFrame (slaveByte 1) Modbus.writeSingleRegister (lowWord 205)
      (lowWord 5000) = [1, 6, 0, 205, 19, 136, 21, 99] := by decide +kernel
  have hanswer := Answers.echo 1 205 5000
  rw [hecho] at hanswer
  obtain ⟨hread, -, -, hsaid⟩ := (transact_exact hframe hanswer
    ⟨[9], [[1, 6, 0, 205], [19, 136, 21, 99, 7]], []⟩).1 [7] rfl (by decide)
  exact ⟨hread, hsaid fun _ => ⟨by decide, by decide⟩⟩

/-- A write to register 65536 is sent as one to register 0, and its echo is
refused. -/
theorem transact_wide_address :
    ¬ ∀ (r : Request) (frame answer : Bytes) (said : Except Raised (Option (List Nat))) (p : Port)
      (rest : Bytes), r.frame = .ok frame → Answers r answer said →
        p.arriving.flatten = answer ++ rest → answer.length ≤ p.delivered.length →
          r.parse (transact p frame r.isRead).1 = said := by
  intro h
  have hframe : Request.frame (.write 1 65536 1) = .ok [1, 6, 0, 0, 0, 1, 72, 10] := by
    decide +kernel
  have hecho : requestFrame (slaveByte 1) Modbus.writeSingleRegister (lowWord 65536)
      (lowWord 1) = [1, 6, 0, 0, 0, 1, 72, 10] := by decide +kernel
  have hanswer := Answers.echo 1 65536 1
  rw [hecho] at hanswer
  have hsaid := h _ _ _ _ ⟨[], [[1, 6, 0, 0, 0, 1, 72, 10], []], []⟩ [] hframe hanswer rfl
    (by decide)
  have hrefused : Request.parse (.write 1 65536 1) [1, 6, 0, 0, 0, 1, 72, 10] =
      .error (.frameError "write response does not echo the request") := by decide +kernel
  have hread : (transact ⟨[], [[1, 6, 0, 0, 0, 1, 72, 10], []], []⟩ [1, 6, 0, 0, 0, 1, 72, 10]
      false).1 = [1, 6, 0, 0, 0, 1, 72, 10] := by decide +kernel
  have hsaid : Request.parse (.write 1 65536 1) (transact _ _ false).1 = _ := hsaid
  rw [hread, hrefused] at hsaid
  cases hsaid

end Fusion.Modbus
