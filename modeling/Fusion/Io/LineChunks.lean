import Fusion.Io.SerialEndpoint

/-!
# LineChunks — the lines of a stream and the chunks it comes in
(io/serial_endpoint.py)

The cap is applied to the buffer with the whole new chunk in it, before the
complete lines are cut off. A line that is complete in the buffer and no
longer than the cap still loses its beginning when what follows it in the
same chunk fills the buffer up.
-/

namespace Fusion.SerialInput

/-! ## What is handed out -/

/-- The lines that the inner loop calls `_handle_line` with. -/
def Endpoint.lineCalls (e : Endpoint) : Nat → Worker → List Bytes
  | 0, _ => []
  | n + 1, w =>
      if w.raised.isSome then []
      else
        match splitLine w.buffer with
        | none => []
        | some (line, rest) => line :: e.lineCalls n (e.handleLine { w with buffer := rest } line)

/-- Those of one round of the outer loop. -/
def Endpoint.readCalls (e : Endpoint) (w : Worker) (chunk : Chunk) : List Bytes :=
  if w.raised.isSome || chunk.1.isEmpty then []
  else
    let buffer := cap (w.buffer ++ chunk.1)
    e.lineCalls buffer.length { w with buffer }

/-- All lines that `_handle_line` is called with. -/
def Endpoint.calls (e : Endpoint) : Worker → List Chunk → List Bytes
  | _, [] => []
  | w, chunk :: chunks => e.readCalls w chunk ++ e.calls (e.read w chunk) chunks

/-- The lines up to the first one whose handling raises, and that one. -/
def untilRaised (lines : List Bytes) : List Bytes :=
  lines.takeWhile taken ++ (lines.dropWhile taken).take 1

theorem untilRaised_cons_taken {line : Bytes} (h : taken line = true) (lines : List Bytes) :
    untilRaised (line :: lines) = line :: untilRaised lines := by
  simp [untilRaised, h]

theorem untilRaised_cons_raises {line : Bytes} (h : taken line = false) (lines : List Bytes) :
    untilRaised (line :: lines) = [line] := by
  simp [untilRaised, h]

theorem untilRaised_append {a : List Bytes} (h : ∀ line ∈ a, taken line = true)
    (b : List Bytes) : untilRaised (a ++ b) = a ++ untilRaised b := by
  induction a with
  | nil => rfl
  | cons line a ih =>
    have hline := h line List.mem_cons_self
    rw [List.cons_append, untilRaised_cons_taken hline, ih fun l hl =>
      h l (List.mem_cons_of_mem line hl), List.cons_append]

/-- A line that raises ends what is handed out. -/
theorem untilRaised_append_raises {a : List Bytes} (h : ¬ ∀ line ∈ a, taken line = true)
    (b : List Bytes) : untilRaised (a ++ b) = untilRaised a := by
  induction a with
  | nil => exact absurd (by simp) h
  | cons line a ih =>
    cases hline : taken line with
    | true =>
      have hrest : ¬ ∀ l ∈ a, taken l = true := by
        intro hall
        apply h
        intro l hl
        rcases List.mem_cons.mp hl with rfl | hl
        · exact hline
        · exact hall l hl
      rw [List.cons_append, untilRaised_cons_taken hline, untilRaised_cons_taken hline, ih hrest]
    | false =>
      rw [List.cons_append, untilRaised_cons_raises hline, untilRaised_cons_raises hline]

theorem untilRaised_prefix (lines : List Bytes) : untilRaised lines <+: lines := by
  induction lines with
  | nil => exact List.prefix_refl []
  | cons line lines ih =>
    cases hline : taken line with
    | true =>
      rw [untilRaised_cons_taken hline]
      exact List.cons_prefix_cons.mpr ⟨rfl, ih⟩
    | false =>
      rw [untilRaised_cons_raises hline]
      exact List.cons_prefix_cons.mpr ⟨rfl, List.nil_prefix⟩

theorem untilRaised_eq_iff (lines : List Bytes) :
    untilRaised lines = lines ↔ ∀ line ∈ lines.dropLast, taken line = true := by
  induction lines with
  | nil => simp [untilRaised]
  | cons line lines ih =>
    cases lines with
    | nil =>
      cases hline : taken line with
      | true => simp [untilRaised, hline]
      | false => simp [untilRaised, hline]
    | cons next lines =>
      rw [List.dropLast_cons_cons, List.forall_mem_cons, ← ih]
      cases hline : taken line with
      | true =>
        rw [untilRaised_cons_taken hline]
        simp
      | false =>
        rw [untilRaised_cons_raises hline]
        simp

section
variable {e : Endpoint} {w : Worker}

theorem lineCalls_eq (n : Nat) (hn : w.buffer.length ≤ n) (hlive : w.raised = none) :
    e.lineCalls n w = untilRaised (splitLines [] w.buffer).1 := by
  induction n generalizing w with
  | zero =>
    have hnil : w.buffer = [] := List.eq_nil_of_length_eq_zero (by omega)
    rw [hnil]
    rfl
  | succ n ih =>
    rw [Endpoint.lineCalls, if_neg (by simp [hlive])]
    rcases splitLines_eq w.buffer [] with ⟨hnone, heq⟩ | ⟨line, rest, hsome, hlt, heq⟩
    · rw [hnone, heq]
      rfl
    · rw [hsome, heq]
      show line :: e.lineCalls n (e.handleLine { w with buffer := rest } line) =
        untilRaised (line :: _)
      cases htaken : taken line with
      | true =>
        obtain ⟨event, hline⟩ := handleLine_taken (e := e) (w := { w with buffer := rest }) htaken
        have hlater := ih (w := { w with buffer := rest, handled := w.handled ++ [(line, event)] })
          (show rest.length ≤ n by omega) hlive
        rw [hline, untilRaised_cons_taken htaken]
        exact congrArg (line :: ·) hlater
      | false =>
        obtain ⟨err, hline⟩ := handleLine_raises (e := e) (w := { w with buffer := rest }) htaken
        rw [hline, untilRaised_cons_raises htaken]
        cases n with
        | zero => rfl
        | succ n => rfl

theorem calls_dead (h : w.raised.isSome = true) (chunks : List Chunk) :
    e.calls w chunks = [] := by
  induction chunks with
  | nil => rfl
  | cons chunk chunks ih =>
    have hread : e.read w chunk = w := by rw [Endpoint.read, if_pos (by simp [h])]
    rw [Endpoint.calls, hread, ih, Endpoint.readCalls, if_pos (by simp [h])]
    rfl

/-- **What is handed out** are the lines as they are framed, up to the first
one that raises. -/
theorem calls_eq (chunks : List Chunk) (hlive : w.raised = none) :
    e.calls w chunks = untilRaised (framed w.buffer chunks) := by
  induction chunks generalizing w with
  | nil => rfl
  | cons chunk chunks ih =>
    rw [Endpoint.calls]
    by_cases hempty : chunk.1.isEmpty = true
    · have hread : e.read w chunk = w := by rw [Endpoint.read, if_pos (by simp [hempty])]
      rw [framed, if_pos hempty, hread, Endpoint.readCalls, if_pos (by simp [hempty])]
      exact ih hlive
    · have hread : e.read w chunk = e.handleLines (cap (w.buffer ++ chunk.1)).length
          { w with buffer := cap (w.buffer ++ chunk.1) } := by
        rw [Endpoint.read, if_neg (by simp [hlive, hempty])]
      have hcalls : e.readCalls w chunk =
          untilRaised (splitLines [] (cap (w.buffer ++ chunk.1))).1 := by
        rw [Endpoint.readCalls, if_neg (by simp [hlive, hempty])]
        exact lineCalls_eq _ (Nat.le_refl _) hlive
      obtain ⟨hnow, hbuffer⟩ := handleLines_handles (e := e)
        (w := { w with buffer := cap (w.buffer ++ chunk.1) }) _ (Nat.le_refl _) hlive
      rw [← hread] at hnow hbuffer
      rw [framed, if_neg hempty, hcalls]
      cases hraised : (e.read w chunk).raised with
      | none =>
        have hall := hnow.alive.mp hraised
        have hwhole := untilRaised_append hall []
        rw [List.append_nil] at hwhole
        rw [ih hraised, hbuffer hraised, hwhole, untilRaised_append hall]
        simp [untilRaised]
      | some err =>
        have hbad : ¬ ∀ line ∈ (splitLines [] (cap (w.buffer ++ chunk.1))).1,
            taken line = true := by
          intro hall
          rw [hnow.alive.mpr hall] at hraised
          cases hraised
        rw [calls_dead (by simp [hraised]), List.append_nil]
        exact (untilRaised_append_raises hbad _).symm

end

/-! ## Lines that are framed whole -/

/-- Whether each chunk with a newline in it fits the cap together with the
unfinished line `part` that it goes on with. -/
def FitsBuffer : Bytes → List Chunk → Prop
  | _, [] => True
  | part, chunk :: chunks =>
      (newline ∈ chunk.1 → part.length + chunk.1.length ≤ maxLineBytes) ∧
        FitsBuffer (splitLines part chunk.1).2 chunks

theorem stream_cons (chunk : Chunk) (chunks : List Chunk) :
    stream (chunk :: chunks) = chunk.1 ++ stream chunks :=
  rfl

theorem fitsBuffer_append (part : Bytes) (a b : List Chunk) :
    FitsBuffer part (a ++ b) ↔
      FitsBuffer part a ∧ FitsBuffer (splitLines part (stream a)).2 b := by
  induction a generalizing part with
  | nil => simp [FitsBuffer, stream, splitLines]
  | cons chunk a ih =>
    rw [List.cons_append, FitsBuffer, FitsBuffer, ih, stream_cons, splitLines_append, and_assoc]

theorem cap_of_le {bytes : Bytes} (h : bytes.length ≤ maxLineBytes) : cap bytes = bytes :=
  if_neg (by omega)

theorem length_cap (bytes : Bytes) : (cap bytes).length = min bytes.length maxLineBytes := by
  unfold cap
  split
  · rw [List.length_drop]
    omega
  · omega

theorem cap_suffix (bytes : Bytes) : cap bytes <:+ bytes := by
  unfold cap
  split
  · exact List.drop_suffix ..
  · exact List.suffix_refl bytes

/-- What an earlier cut dropped is dropped by a later one too. -/
theorem cap_cap_append (part bytes : Bytes) : cap (cap part ++ bytes) = cap (part ++ bytes) := by
  have hlen : (cap (cap part ++ bytes)).length = (cap (part ++ bytes)).length := by
    rw [length_cap, length_cap, List.length_append, List.length_append, length_cap]
    omega
  obtain ⟨lost, hlost⟩ := cap_suffix part
  have hsuffix : cap part ++ bytes <:+ part ++ bytes :=
    ⟨lost, by rw [← List.append_assoc, hlost]⟩
  have hleft := (cap_suffix (cap part ++ bytes)).trans hsuffix
  exact (List.suffix_of_suffix_length_le hleft (cap_suffix _) (by omega)).eq_of_length hlen

theorem newline_of_splitLine {bytes : Bytes} (h : newline ∈ bytes) :
    splitLine bytes ≠ none := by
  induction bytes with
  | nil => cases h
  | cons b bytes ih =>
    unfold splitLine
    split
    · simp
    · rename_i hb
      have hrest : newline ∈ bytes := (List.mem_cons.mp h).resolve_left fun h => hb h.symm
      simpa using ih hrest

theorem splitLines_clean {bytes : Bytes} (h : newline ∉ bytes) (part : Bytes) :
    splitLines part bytes = ([], part ++ bytes) := by
  have hpart := splitLines_part h part []
  rw [List.append_nil] at hpart
  rw [hpart]
  rfl

theorem splitLines_newline (part : Bytes) : splitLines part [newline] = ([part], []) := rfl

theorem length_rest_le (part bytes : Bytes) :
    (splitLines part bytes).2.length ≤ part.length + bytes.length := by
  induction bytes generalizing part with
  | nil => exact Nat.le_refl _
  | cons b bytes ih =>
    unfold splitLines
    rw [List.length_cons]
    split
    · have := ih []
      rw [List.length_nil] at this
      show (splitLines [] bytes).2.length ≤ _
      omega
    · have := ih (part ++ [b])
      rw [List.length_append, List.length_singleton] at this
      omega

/-- The first line that a chunk completes shows how much of it was kept. -/
theorem splitLines_first {bytes : Bytes} (h : newline ∈ bytes) :
    ∃ line : Bytes, ∀ part : Bytes, ∃ lines,
      (splitLines part bytes).1 = (part ++ line) :: lines := by
  obtain ⟨⟨line, rest⟩, hsplit⟩ := Option.ne_none_iff_exists'.mp (newline_of_splitLine h)
  refine ⟨line, ?_⟩
  intro part
  rcases splitLines_eq bytes part with ⟨hnone, -⟩ | ⟨line', rest', hsome, -, heq⟩
  · rw [hsplit] at hnone
    cases hnone
  · rw [hsplit] at hsome
    cases hsome
    exact ⟨_, by rw [heq]⟩

/-- **The framing is exact** when, and only when, each chunk with a newline
fits the cap together with the line it goes on with. -/
theorem framed_eq_iff {part : Bytes} (hclean : newline ∉ part) (chunks : List Chunk) :
    framed (cap part) chunks = (splitLines part (stream chunks)).1 ↔ FitsBuffer part chunks := by
  induction chunks generalizing part with
  | nil => exact iff_of_true rfl trivial
  | cons chunk chunks ih =>
    have hrest := newline_notMem_rest hclean chunk.1
    have hstream : (splitLines part (stream (chunk :: chunks))).1 =
        (splitLines part chunk.1).1 ++
          (splitLines (splitLines part chunk.1).2 (stream chunks)).1 := by
      rw [stream_cons, splitLines_append]
    rw [hstream, FitsBuffer, ← ih hrest]
    by_cases hempty : chunk.1.isEmpty = true
    · rw [framed, if_pos hempty, List.isEmpty_iff.mp hempty]
      simp [splitLines]
    · rw [framed, if_neg hempty, cap_cap_append]
      by_cases hnewline : newline ∈ chunk.1
      · rcases Nat.lt_or_ge maxLineBytes (part.length + chunk.1.length) with hlong | hfits
        · -- the line that the chunk completes first has lost its beginning
          refine iff_of_false ?_ fun h => absurd (h.1 hnewline) (by omega)
          intro heq
          obtain ⟨cut, hcut, hcap, -⟩ := cap_append part chunk
          have hcutLen : cut.length < part.length := by
            have hlen := length_cap (part ++ chunk.1)
            rw [hcap, List.length_append, List.length_append] at hlen
            have hchunk : chunk.1.length ≤ 256 := chunk.2
            have hmax : maxLineBytes = 4096 := rfl
            omega
          obtain ⟨line, hline⟩ := splitLines_first hnewline
          obtain ⟨lines, hwhole⟩ := hline part
          obtain ⟨lines', hkept⟩ := hline cut
          have hcutClean : newline ∉ cut := fun h => hclean (hcut.subset h)
          rw [hcap, splitLines_part hcutClean, List.nil_append, hwhole] at heq
          have heq : (splitLines cut chunk.1).1 ++ _ = _ := heq
          rw [hkept] at heq
          have hfirst := congrArg List.length (List.cons.inj heq).1
          rw [List.length_append, List.length_append] at hfirst
          omega
        · have hcap : cap (part ++ chunk.1) = part ++ chunk.1 :=
            cap_of_le (by rw [List.length_append]; omega)
          have hrestLen : (splitLines part chunk.1).2.length ≤ maxLineBytes := by
            have := length_rest_le part chunk.1
            omega
          rw [hcap, splitLines_part hclean, List.nil_append, cap_of_le hrestLen]
          simp [hnewline, hfits]
      · have hcapClean : newline ∉ cap (part ++ chunk.1) := by
          intro h
          rcases List.mem_append.mp ((cap_suffix _).subset h) with h | h
          · exact hclean h
          · exact hnewline h
        rw [splitLines_clean hcapClean, splitLines_clean hnewline]
        simp [hnewline]

/-! ## Chunks -/

/-- As many lines are framed as the stream has, so nothing short of an exact
framing hands out its lines. -/
theorem framed_of_calls {e : Endpoint} {chunks : List Chunk}
    (h : e.calls .start chunks = completeLines (stream chunks)) :
    framed [] chunks = completeLines (stream chunks) := by
  have hcount := (framed_suffix (List.suffix_refl []) (by simp) chunks).length_eq
  have hpre := untilRaised_prefix (framed [] chunks)
  have hcalls : e.calls .start chunks = untilRaised (framed [] chunks) := calls_eq chunks rfl
  rw [← hcalls, h] at hpre
  exact (hpre.eq_of_length hcount).symm

/-- **The lines do not depend on the chunks** exactly when each chunk with a
newline fits the cap together with the line it goes on with, and no line
before the last is one that the parser refuses. -/
theorem calls_exact_iff (e : Endpoint) (chunks : List Chunk) :
    e.calls .start chunks = completeLines (stream chunks) ↔
      FitsBuffer [] chunks ∧
        ∀ line ∈ (completeLines (stream chunks)).dropLast,
          carriesRefused (decode line) = false := by
  have hframed : framed [] chunks = completeLines (stream chunks) ↔ FitsBuffer [] chunks :=
    framed_eq_iff List.not_mem_nil chunks
  have htaken : (∀ line ∈ (completeLines (stream chunks)).dropLast,
      carriesRefused (decode line) = false) ↔
        ∀ line ∈ (completeLines (stream chunks)).dropLast, taken line = true := by simp [taken]
  have hcalls : e.calls .start chunks = untilRaised (framed [] chunks) := calls_eq chunks rfl
  rw [htaken, ← hframed, ← untilRaised_eq_iff]
  constructor
  · intro h
    have hwhole := framed_of_calls h
    rw [hcalls, hwhole] at h
    exact ⟨hwhole, h⟩
  · rintro ⟨hwhole, hall⟩
    rw [hcalls, hwhole, hall]

/-- A whole read of the letter `a`. -/
def letters : Chunk :=
  ⟨List.replicate readSize 0x61, by simp⟩

theorem length_letters : letters.1.length = readSize := List.length_replicate

theorem stream_letters (n : Nat) :
    newline ∉ stream (List.replicate n letters) ∧
      (stream (List.replicate n letters)).length = n * readSize := by
  constructor
  · intro h
    obtain ⟨bytes, hbytes, hmem⟩ := List.mem_flatten.mp h
    obtain ⟨chunk, hchunk, rfl⟩ := List.mem_map.mp hbytes
    rw [List.eq_of_mem_replicate hchunk] at hmem
    have hletter := List.eq_of_mem_replicate hmem
    revert hletter
    decide
  · simp [stream, length_letters]

/-- A line as long as the cap, its newline in a chunk of its own, is handed
out without its first byte. -/
theorem calls_full_line :
    ¬ ∀ (e : Endpoint) (chunks : List Chunk), (∀ chunk ∈ chunks, chunk.1 ≠ []) →
      (∀ line ∈ completeLines (stream chunks), line.length ≤ maxLineBytes) →
        (splitLines [] (stream chunks)).2.length ≤ maxLineBytes →
          e.calls .start chunks = completeLines (stream chunks) := by
  intro h
  obtain ⟨hclean, hlen⟩ := stream_letters 16
  have hsplit : splitLines [] (stream (List.replicate 16 letters ++ [⟨[newline], by decide⟩])) =
      ([stream (List.replicate 16 letters)], []) := by
    have hstream : stream (List.replicate 16 letters ++ [⟨[newline], by decide⟩]) =
        stream (List.replicate 16 letters) ++ [newline] := by simp [stream]
    rw [hstream, splitLines_part hclean, List.nil_append, splitLines_newline]
  have hcalls := h ⟨"serial", fun _ => [], fun _ => 0⟩
    (List.replicate 16 letters ++ [⟨[newline], by decide⟩]) ?_ ?_ ?_
  · have hfits := (framed_eq_iff List.not_mem_nil _).mp (framed_of_calls hcalls)
    obtain ⟨-, hlast⟩ := (fitsBuffer_append [] _ _).mp hfits
    have hpart : (splitLines [] (stream (List.replicate 16 letters))).2.length = 16 * readSize := by
      rw [splitLines_clean hclean, ← hlen]
      exact congrArg List.length (List.nil_append _)
    have hbound := hlast.1 (by simp)
    rw [hpart] at hbound
    have hbound : 16 * readSize + 1 ≤ 16 * readSize := hbound
    omega
  · intro chunk hchunk
    rcases List.mem_append.mp hchunk with hchunk | hchunk
    · rw [List.eq_of_mem_replicate hchunk]
      intro hnil
      have hlength := length_letters
      rw [hnil] at hlength
      cases hlength
    · rw [List.mem_singleton.mp hchunk]
      simp
  · intro line hline
    rw [completeLines, hsplit] at hline
    rw [List.mem_singleton.mp hline, hlen]
    decide
  · rw [hsplit]
    decide

end Fusion.SerialInput
