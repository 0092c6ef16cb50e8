import Fusion.Io.TextEventParsing
import Mathlib.Data.List.Forall2

/-!
# SerialEndpoint — the worker thread of the serial input
(io/serial_endpoint.py)

The worker reads chunks from the port, cuts lines off its buffer and hands
each line to the parser. Nothing in its loop catches what the parser raises:
the thread ends there, and the lines after it are never read. A line is too
short for an integer that the decoder refuses; its limit on the depth of
nesting is left out.
-/

namespace Fusion.SerialInput

/-! ## The worker -/

/-- The sizes of the source, and the end of a line. -/
def readSize : Nat := 256
def maxLineBytes : Nat := 4096
def newline : UInt8 := 0x0A

/-- What one `read(256)` returns; a timeout returns no bytes. -/
abbrev Chunk := {bytes : Bytes // bytes.length ≤ readSize}

/-- What the worker does not change. -/
structure Endpoint where
  source : String
  /-- the language's printing of floats, lists and objects -/
  repr : Json → Text
  /-- the clock, when the line of this number is handled -/
  clock : Nat → ℚ

/-- The thread: its buffer, and what it has done. -/
structure Worker where
  buffer : Bytes
  /-- what ended the thread -/
  raised : Option ValidationError
  /-- the calls of `_handle_line` that returned, each with the event it
  scheduled on the loop -/
  handled : List (Bytes × Option InputEvent)

/-- The thread at its start. -/
def Worker.start : Worker :=
  ⟨[], none, []⟩

/-- `buffer.split(b"\n", 1)`, when there is a newline in it. -/
def splitLine : Bytes → Option (Bytes × Bytes)
  | [] => none
  | b :: bytes =>
      if b = newline then some ([], bytes)
      else (splitLine bytes).map fun r => (b :: r.1, r.2)

/-- `_handle_line`; what the parser raises ends the thread. -/
def Endpoint.handleLine (e : Endpoint) (w : Worker) (line : Bytes) : Worker :=
  match parseTextEvent e.repr e.source (decode line) (e.clock w.handled.length) with
  | .error err => { w with raised := some err }
  | .ok event => { w with handled := w.handled ++ [(line, event)] }

/-- The inner loop. Each round takes a newline off the buffer, so the length
of the buffer bounds the rounds. -/
def Endpoint.handleLines (e : Endpoint) : Nat → Worker → Worker
  | 0, w => w
  | n + 1, w =>
      if w.raised.isSome then w
      else
        match splitLine w.buffer with
        | none => w
        | some (line, rest) => e.handleLines n (e.handleLine { w with buffer := rest } line)

/-- `buffer[-MAX_LINE_BYTES:]`, when the buffer is longer. -/
def cap (buffer : Bytes) : Bytes :=
  if buffer.length > maxLineBytes then buffer.drop (buffer.length - maxLineBytes) else buffer

/-- One round of the outer loop; a thread that has ended reads nothing. -/
def Endpoint.read (e : Endpoint) (w : Worker) (chunk : Chunk) : Worker :=
  if w.raised.isSome || chunk.1.isEmpty then w
  else
    let buffer := cap (w.buffer ++ chunk.1)
    e.handleLines buffer.length { w with buffer }

/-- The worker after the chunks that it reads before `stop`. -/
def Endpoint.worker (e : Endpoint) (chunks : List Chunk) : Worker :=
  chunks.foldl e.read .start

/-! ## The lines of a stream -/

/-- The lines that end in the bytes, after the beginning `part` of the first
one, and the beginning of the next. -/
def splitLines : Bytes → Bytes → List Bytes × Bytes
  | part, [] => ([], part)
  | part, b :: bytes =>
      if b = newline then (part :: (splitLines [] bytes).1, (splitLines [] bytes).2)
      else splitLines (part ++ [b]) bytes

/-- All bytes that were read. -/
def stream (chunks : List Chunk) : Bytes :=
  (chunks.map Subtype.val).flatten

/-- The lines that a newline ends. -/
def completeLines (bytes : Bytes) : List Bytes :=
  (splitLines [] bytes).1

/-- The lines as the worker cuts them: a long line may have lost its
beginning by the time it is complete. -/
def framed (buffer : Bytes) : List Chunk → List Bytes
  | [] => []
  | chunk :: chunks =>
      if chunk.1.isEmpty then framed buffer chunks
      else
        let r := splitLines [] (cap (buffer ++ chunk.1))
        r.1 ++ framed r.2 chunks

theorem splitLines_append (part a b : Bytes) :
    splitLines part (a ++ b) =
      ((splitLines part a).1 ++ (splitLines (splitLines part a).2 b).1,
        (splitLines (splitLines part a).2 b).2) := by
  induction a generalizing part with
  | nil => simp [splitLines]
  | cons x a ih =>
    by_cases hx : x = newline
    · simp [splitLines, hx, ih]
    · simp [splitLines, hx, ih]

/-- Bytes without a newline extend the beginning. -/
theorem splitLines_part {p : Bytes} (hp : newline ∉ p) (part s : Bytes) :
    splitLines part (p ++ s) = splitLines (part ++ p) s := by
  induction p generalizing part with
  | nil => simp
  | cons x p ih =>
    have hx : x ≠ newline := fun h => hp (by simp [h])
    have hrest : newline ∉ p := fun h => hp (by simp [h])
    simp [splitLines, hx, ih hrest]

theorem newline_notMem_rest {part : Bytes} (hp : newline ∉ part) (s : Bytes) :
    newline ∉ (splitLines part s).2 := by
  induction s generalizing part with
  | nil => exact hp
  | cons x s ih =>
    unfold splitLines
    split
    · exact ih (by simp)
    · rename_i hx
      apply ih
      simp only [List.mem_append, List.mem_singleton, not_or]
      exact ⟨hp, fun h => hx h.symm⟩

/-- A lost beginning shortens the first line only. -/
theorem splitLines_suffix {part cut : Bytes} (h : cut <:+ part) (s : Bytes) :
    List.Forall₂ (fun line c => c <:+ line) (splitLines part s).1 (splitLines cut s).1 ∧
      (splitLines cut s).2 <:+ (splitLines part s).2 := by
  induction s generalizing part cut with
  | nil => exact ⟨.nil, h⟩
  | cons x s ih =>
    unfold splitLines
    split
    · obtain ⟨hlines, hrest⟩ := ih (List.suffix_refl [])
      exact ⟨.cons h hlines, hrest⟩
    · apply ih
      obtain ⟨lost, rfl⟩ := h
      exact ⟨lost, by simp⟩

/-- The first line goes on from the beginning. -/
theorem splitLines_head {part s line : Bytes} {lines : List Bytes}
    (h : (splitLines part s).1 = line :: lines) : part <+: line := by
  induction s generalizing part with
  | nil => cases h
  | cons x s ih =>
    unfold splitLines at h
    split at h
    · cases h
      exact List.prefix_refl _
    · exact (List.prefix_append part [x]).trans (ih h)

/-- One chunk drops no more than the beginning of the line it goes on with. -/
theorem cap_append (buffer : Bytes) (chunk : Chunk) :
    ∃ cut, cut <:+ buffer ∧ cap (buffer ++ chunk.1) = cut ++ chunk.1 ∧
      (buffer.length ≤ maxLineBytes - readSize → cut = buffer) := by
  have hchunk : chunk.1.length ≤ 256 := chunk.2
  unfold cap maxLineBytes readSize
  split
  · rename_i hlong
    rw [List.length_append] at hlong ⊢
    refine ⟨buffer.drop (buffer.length + chunk.1.length - 4096), List.drop_suffix .., ?_, ?_⟩
    · rw [List.drop_append_of_le_length (by omega)]
    · omega
  · exact ⟨buffer, List.suffix_refl buffer, rfl, fun _ => rfl⟩

theorem framed_cons {buffer : Bytes} (hclean : newline ∉ buffer) (chunk : Chunk)
    (chunks : List Chunk) :
    ∃ cut, cut <:+ buffer ∧ framed buffer (chunk :: chunks) =
        (splitLines cut chunk.1).1 ++ framed (splitLines cut chunk.1).2 chunks ∧
      (buffer.length ≤ maxLineBytes - readSize → cut = buffer) := by
  by_cases hempty : chunk.1.isEmpty = true
  · refine ⟨buffer, List.suffix_refl buffer, ?_, fun _ => rfl⟩
    rw [framed, if_pos hempty, List.isEmpty_iff.mp hempty]
    rfl
  · obtain ⟨cut, hcut, heq, hwhole⟩ := cap_append buffer chunk
    refine ⟨cut, hcut, ?_, hwhole⟩
    have hpart := splitLines_part (fun h => hclean (hcut.subset h)) [] chunk.1
    rw [framed, if_neg hempty, heq, hpart]
    rfl

/-- **Each complete line is cut once**, in order; what is cut is the line or
an end of it. -/
theorem framed_suffix {part buffer : Bytes} (h : buffer <:+ part) (hclean : newline ∉ buffer)
    (chunks : List Chunk) :
    List.Forall₂ (fun line c => c <:+ line) (splitLines part (stream chunks)).1
      (framed buffer chunks) := by
  induction chunks generalizing part buffer with
  | nil => exact .nil
  | cons chunk chunks ih =>
    obtain ⟨cut, hcut, heq, -⟩ := framed_cons hclean chunk chunks
    obtain ⟨hlines, hrest⟩ := splitLines_suffix (hcut.trans h) chunk.1
    have hcutClean : newline ∉ cut := fun h => hclean (hcut.subset h)
    rw [heq, stream, List.map_cons, List.flatten_cons, splitLines_append]
    exact List.rel_append hlines (ih hrest (newline_notMem_rest hcutClean chunk.1))

/-- Lines of up to 3840 bytes are cut whole. -/
theorem framed_eq_of_short {buffer : Bytes} (hclean : newline ∉ buffer) (chunks : List Chunk)
    (hshort : ∀ line ∈ (splitLines buffer (stream chunks)).1,
      line.length ≤ maxLineBytes - readSize) :
    framed buffer chunks = (splitLines buffer (stream chunks)).1 := by
  induction chunks generalizing buffer with
  | nil => rfl
  | cons chunk chunks ih =>
    rcases Nat.lt_or_ge (maxLineBytes - readSize) buffer.length with hlong | hle
    · -- the line that has begun is longer: no line is complete
      have hnone : (splitLines buffer (stream (chunk :: chunks))).1 = [] := by
        cases hlines : (splitLines buffer (stream (chunk :: chunks))).1 with
        | nil => rfl
        | cons line lines =>
          have hline := hshort line (by rw [hlines]; exact List.mem_cons_self)
          have hhead := (splitLines_head hlines).length_le
          omega
      have hframed := framed_suffix (List.suffix_refl buffer) hclean (chunk :: chunks)
      rw [hnone] at hframed ⊢
      exact List.forall₂_nil_left_iff.mp hframed
    · obtain ⟨cut, -, heq, hwhole⟩ := framed_cons hclean chunk chunks
      obtain rfl := hwhole hle
      rw [stream, List.map_cons, List.flatten_cons, splitLines_append] at hshort ⊢
      have hrest := newline_notMem_rest hclean chunk.1
      rw [heq, ih hrest fun line hline => hshort line (List.mem_append_right _ hline)]
      rfl

/-! ## One line -/

variable {e : Endpoint} {w : Worker}

/-- Whether handling the line returns. -/
def taken (line : Bytes) : Bool :=
  !carriesRefused (decode line)

theorem handleLine_taken {line : Bytes} (h : taken line = true) :
    ∃ event, e.handleLine w line = { w with handled := w.handled ++ [(line, event)] } := by
  have hfine : carriesRefused (decode line) = false := by simpa [taken] using h
  obtain ⟨event, hevent⟩ :=
    (parseTextEvent_ok_iff e.repr e.source (decode line) (e.clock w.handled.length)).mpr hfine
  exact ⟨event, by rw [Endpoint.handleLine, hevent]⟩

theorem handleLine_raises {line : Bytes} (h : taken line = false) :
    ∃ err, e.handleLine w line = { w with raised := some err } := by
  have hbad : carriesRefused (decode line) = true := by simpa [taken] using h
  have hiff := parseTextEvent_ok_iff e.repr e.source (decode line) (e.clock w.handled.length)
  cases hparse : parseTextEvent e.repr e.source (decode line) (e.clock w.handled.length) with
  | error err => exact ⟨err, by rw [Endpoint.handleLine, hparse]⟩
  | ok event =>
    have := hiff.mp ⟨event, hparse⟩
    rw [hbad] at this
    cases this

/-- Every call that returned was for a line that is blank, or was scheduled
as the event its text parses to. -/
def Logged (e : Endpoint) (w : Worker) : Prop :=
  ∀ call ∈ w.handled, ∃ now, parseTextEvent e.repr e.source (decode call.1) now = .ok call.2

theorem Logged.handleLine (h : Logged e w) (line : Bytes) : Logged e (e.handleLine w line) := by
  rw [Endpoint.handleLine]
  cases hparse : parseTextEvent e.repr e.source (decode line) (e.clock w.handled.length) with
  | error err => exact h
  | ok event =>
    intro call hcall
    rcases List.mem_append.mp hcall with hold | hnew
    · exact h call hold
    · rw [List.mem_singleton.mp hnew]
      exact ⟨_, hparse⟩

/-! ## The inner loop -/

theorem splitLines_eq (bytes part : Bytes) :
    (splitLine bytes = none ∧ splitLines part bytes = ([], part ++ bytes)) ∨
      ∃ line rest, splitLine bytes = some (line, rest) ∧ rest.length < bytes.length ∧
        splitLines part bytes =
          ((part ++ line) :: (splitLines [] rest).1, (splitLines [] rest).2) := by
  induction bytes generalizing part with
  | nil => exact .inl ⟨rfl, by simp [splitLines]⟩
  | cons x bytes ih =>
    by_cases hx : x = newline
    · exact .inr ⟨[], bytes, by simp [splitLine, hx], by simp, by simp [splitLines, hx]⟩
    · rcases ih (part ++ [x]) with ⟨hnone, heq⟩ | ⟨line, rest, hsome, hlt, heq⟩
      · exact .inl ⟨by simp [splitLine, hx, hnone], by simp [splitLines, hx, heq]⟩
      · refine .inr ⟨x :: line, rest, by simp [splitLine, hx, hsome], ?_, ?_⟩
        · rw [List.length_cons]
          omega
        · simp [splitLines, hx, heq]

theorem Logged.handleLines (n : Nat) (h : Logged e w) : Logged e (e.handleLines n w) := by
  induction n generalizing w with
  | zero => exact h
  | succ n ih =>
    unfold Endpoint.handleLines
    split
    · exact h
    · split
      · exact h
      · rename_i line rest _
        have hrest : Logged e { w with buffer := rest } := h
        exact ih (hrest.handleLine line)

theorem handleLines_raised (n : Nat) (h : w.raised.isSome = true) : e.handleLines n w = w := by
  cases n with
  | zero => rfl
  | succ n => rw [Endpoint.handleLines, if_pos h]

/-- What a loop does with lines: it handles those before the first one that
raises, and lives if there is none. -/
structure Handles (w t : Worker) (lines : List Bytes) : Prop where
  handled : t.handled.map Prod.fst = w.handled.map Prod.fst ++ lines.takeWhile taken
  alive : t.raised = none ↔ ∀ line ∈ lines, taken line = true

/-- **The inner loop** handles the complete lines of the buffer, and leaves
the beginning of the next one. -/
theorem handleLines_handles (n : Nat) (hn : w.buffer.length ≤ n) (hlive : w.raised = none) :
    Handles w (e.handleLines n w) (splitLines [] w.buffer).1 ∧
      ((e.handleLines n w).raised = none →
        (e.handleLines n w).buffer = (splitLines [] w.buffer).2) := by
  induction n generalizing w with
  | zero =>
    have hnil : w.buffer = [] := List.eq_nil_of_length_eq_zero (by omega)
    simp only [Endpoint.handleLines, hnil, splitLines]
    exact ⟨⟨by simp, by simp [hlive]⟩, fun _ => trivial⟩
  | succ n ih =>
    rw [Endpoint.handleLines, if_neg (by simp [hlive])]
    rcases splitLines_eq w.buffer [] with ⟨hnone, heq⟩ | ⟨line, rest, hsome, hlt, heq⟩
    · rw [hnone, heq]
      exact ⟨⟨by simp, by simp [hlive]⟩, fun _ => rfl⟩
    · rw [hsome, heq]
      show Handles w (e.handleLines n (e.handleLine { w with buffer := rest } line)) _ ∧ _
      cases htaken : taken line with
      | true =>
        obtain ⟨event, hline⟩ := handleLine_taken (e := e) (w := { w with buffer := rest }) htaken
        have hlater := ih (w := { w with buffer := rest, handled := w.handled ++ [(line, event)] })
          (show rest.length ≤ n by omega) hlive
        simp only [hline]
        refine ⟨⟨?_, ?_⟩, hlater.2⟩
        · rw [hlater.1.handled, List.nil_append, List.takeWhile_cons_of_pos htaken]
          simp
        · rw [hlater.1.alive]
          simp [htaken]
      | false =>
        obtain ⟨err, hline⟩ := handleLine_raises (e := e) (w := { w with buffer := rest }) htaken
        simp only [hline]
        rw [handleLines_raised n rfl]
        refine ⟨⟨?_, ?_⟩, ?_⟩
        · rw [List.nil_append, List.takeWhile_cons_of_neg (by simp [htaken]), List.append_nil]
        · simp [htaken]
        · intro h
          cases h

/-! ## The outer loop -/

theorem worker_dead (h : w.raised.isSome = true) (chunks : List Chunk) :
    chunks.foldl e.read w = w := by
  induction chunks with
  | nil => rfl
  | cons chunk chunks ih =>
    have hread : e.read w chunk = w := by rw [Endpoint.read, if_pos (by simp [h])]
    rw [List.foldl_cons, hread, ih]

theorem Logged.run (h : Logged e w) (chunks : List Chunk) : Logged e (chunks.foldl e.read w) := by
  induction chunks generalizing w with
  | nil => exact h
  | cons chunk chunks ih =>
    apply ih
    unfold Endpoint.read
    split
    · exact h
    · have hcap : Logged e { w with buffer := cap (w.buffer ++ chunk.1) } := h
      exact hcap.handleLines _

/-- **The outer loop** handles the lines as they are framed. -/
theorem run_handles (chunks : List Chunk) (hlive : w.raised = none) :
    Handles w (chunks.foldl e.read w) (framed w.buffer chunks) := by
  induction chunks generalizing w with
  | nil => exact ⟨by simp [framed], by simp [framed, hlive]⟩
  | cons chunk chunks ih =>
    rw [List.foldl_cons]
    by_cases hempty : chunk.1.isEmpty = true
    · have hread : e.read w chunk = w := by rw [Endpoint.read, if_pos (by simp [hempty])]
      rw [framed, if_pos hempty, hread]
      exact ih hlive
    · have hread : e.read w chunk = e.handleLines (cap (w.buffer ++ chunk.1)).length
          { w with buffer := cap (w.buffer ++ chunk.1) } := by
        rw [Endpoint.read, if_neg (by simp [hlive, hempty])]
      obtain ⟨hnow, hbuffer⟩ := handleLines_handles (e := e)
        (w := { w with buffer := cap (w.buffer ++ chunk.1) }) _ (Nat.le_refl _) hlive
      rw [← hread] at hnow hbuffer
      rw [framed, if_neg hempty]
      cases hraised : (e.read w chunk).raised with
      | none =>
        have hall := hnow.alive.mp hraised
        have hlater := ih hraised
        rw [hbuffer hraised] at hlater
        constructor
        · rw [hlater.handled, hnow.handled, List.takeWhile_append_of_pos hall,
            List.takeWhile_eq_self_iff.mpr hall, List.append_assoc]
        · rw [hlater.alive]
          simp only [List.mem_append, or_imp, forall_and]
          exact ⟨fun h => ⟨hall, h⟩, And.right⟩
      | some err =>
        -- the thread has ended inside this chunk
        have hdead := worker_dead (e := e) (w := e.read w chunk) (by simp [hraised]) chunks
        have hbad : ¬ ∀ line ∈ (splitLines [] (cap (w.buffer ++ chunk.1))).1, taken line = true :=
          fun hall => by
            rw [hnow.alive.mpr hall] at hraised
            cases hraised
        rw [hdead]
        constructor
        · rw [hnow.handled, List.takeWhile_append, if_neg]
          intro hlen
          exact hbad (List.takeWhile_eq_self_iff.mp
            ((List.takeWhile_prefix taken).eq_of_length hlen))
        · refine iff_of_false (by simp [hraised]) ?_
          intro hall
          exact hbad fun line hline => hall line (List.mem_append_left _ hline)

/-! ## One bad line -/

/-- No line silences the input: the worker lives, each complete line of the
stream was handled once and in order, as the line or the end of it that was
kept, and each was dropped or scheduled as the one event it parses to. -/
structure Unsilenced (e : Endpoint) (chunks : List Chunk) : Prop where
  alive : (e.worker chunks).raised = none
  every : List.Forall₂ (fun line call => call.1 <:+ line) (completeLines (stream chunks))
    (e.worker chunks).handled
  events : ∀ call ∈ (e.worker chunks).handled,
    ∃ now, parseTextEvent e.repr e.source (decode call.1) now = .ok call.2

/-- **One bad line silences the serial input** exactly when it is a JSON
object with a type and a value that the event's model refuses. -/
theorem unsilenced_iff (e : Endpoint) (chunks : List Chunk) :
    Unsilenced e chunks ↔ ∀ line ∈ framed [] chunks, carriesRefused (decode line) = false := by
  have hrun := run_handles (e := e) (w := .start) chunks rfl
  have htaken : (∀ line ∈ framed [] chunks, carriesRefused (decode line) = false) ↔
      ∀ line ∈ framed [] chunks, taken line = true := by simp [taken]
  rw [htaken]
  constructor
  · intro h
    exact hrun.alive.mp h.alive
  · intro hall
    have hcalls : (e.worker chunks).handled.map Prod.fst = framed [] chunks := by
      rw [Endpoint.worker, hrun.handled]
      exact List.takeWhile_eq_self_iff.mpr hall
    refine ⟨hrun.alive.mpr hall, ?_, ?_⟩
    · have hcut := framed_suffix (List.suffix_refl []) (by simp) chunks
      rw [← hcalls] at hcut
      exact List.forall₂_map_right_iff.mp hcut
    · have hstart : Logged e .start := by
        intro call hcall
        cases hcall
      exact hstart.run chunks

/-- `{"type":"a","value":null}` and a newline, then `b` and a newline. -/
def nullThenKeyword : List Chunk :=
  [⟨(Text.of "\x7b\"type\":\"a\",\"value\":null\x7d\nb\n").map UInt8.ofNat, by decide⟩]

/-- The keyword after the bad line is not handled. -/
theorem unsilenced_null_value : ¬ ∀ (e : Endpoint) (chunks : List Chunk), Unsilenced e chunks := by
  intro h
  have halive := (h ⟨"serial", fun _ => [], fun _ => 0⟩ nullThenKeyword).alive
  have hraised : (Endpoint.worker ⟨"serial", fun _ => [], fun _ => 0⟩
      nullThenKeyword).raised.isSome = true := by decide +kernel
  rw [halive] at hraised
  cases hraised

/-- What is handled ends before the first such line. -/
theorem handled_until_refused (e : Endpoint) (chunks : List Chunk) :
    (e.worker chunks).handled.map Prod.fst = (framed [] chunks).takeWhile taken :=
  (run_handles (e := e) (w := .start) chunks rfl).handled

/-- An object with a type and a refused value is such a line, whatever other
members it has and however it is spelled. -/
theorem taken_object {line : Bytes} {members : List (Text × Json)} {type value : Json}
    (hline : Json.lex .gap (strip (decode line)) = some (Json.object members).tokens)
    (htype : Json.lookup members (Text.of "type") = some type)
    (hvalue : Json.lookup members (Text.of "value") = some value) :
    taken line = !refused value := by
  rw [taken, carriesRefused, Json.loads_of_lex hline]
  simp [htype, hvalue]

end Fusion.SerialInput
