import Fusion.Lib.JsonCanonical
import Fusion.Lib.JsonReader
import Fusion.Lib.JsonReread
import Fusion.Lib.Utf8

/-!
# ContentHash — the identity of a staged content (core/config_service.py)

`_content_hash` hashes a canonical text of the content: compact, ASCII, with
sorted keys. The hash function is a parameter; what the program decides is
which contents get one text.
-/

namespace Fusion

open Json (FloatPrinting Held Style Writable)

variable {fp : FloatPrinting}

/-- A content as the interpreter holds it. -/
structure Content (fp : FloatPrinting) where
  value : Json
  held : Held fp value
  writable : Writable true value

/-- The content of a stage request, as it stands in the request's text. -/
def requestContent (lim : Json.Limits) (rawPayload : Bytes) : Option Json := do
  let text ← Utf8.start.strict rawPayload
  match Json.read lim text with
  | .ok (.object members) => Json.lookup members (Text.of "content")
  | _ => none

/-- What a request asks to stage can be written: its text was decoded, so that
it has no surrogates. -/
theorem writable_requestContent {lim : Json.Limits} {rawPayload : Bytes} {v : Json}
    (h : requestContent lim rawPayload = some v) : Writable true v := by
  obtain ⟨text, htext, h⟩ := Option.bind_eq_some_iff.mp h
  split at h
  · rename_i members hread
    have hwritable := Json.writable_of_loads (Utf8.scalar_of_strict htext)
      (Json.loads_of_read hread)
    exact hwritable.of_lookup h
  · cases h

/-- The content that a request asks to stage, as the interpreter holds it. -/
def Content.ofRequest (lim : Json.Limits) (rawPayload : Bytes) : Option (Content fp) :=
  match h : requestContent lim rawPayload with
  | some v =>
      have hv := writable_requestContent h
      some ⟨v.toDict fp, Json.held_toDict fp hv, Json.writable_toDict fp hv⟩
  | none => none

namespace ConfigService

/-- `json.dumps(content, sort_keys=True, separators=(",", ":"))` -/
def canonical (content : Json) : Text :=
  Json.dumps (.compact true) (Json.sortKeys content)

/-- `_content_hash`; `hexdigest` is SHA-256 of the encoded text, in
hexadecimal digits. -/
def contentHash (hexdigest : Text → Text) (content : Json) : Text :=
  (hexdigest (canonical content)).take 16

/-- **The canonical text identifies the content**: it is ASCII, so that it is
always encoded, and two contents have one text exactly if they are the same
dictionary. The same dictionary gets the same hash. -/
theorem canonical_identifies (hexdigest : Text → Text) (c d : Content fp) :
    (∀ ch ∈ canonical c.value, ch < 0x80) ∧
      (canonical c.value = canonical d.value ↔ Json.same c.value d.value = true) ∧
      (Json.same c.value d.value = true →
        contentHash hexdigest c.value = contentHash hexdigest d.value) := by
  have hiff : canonical c.value = canonical d.value ↔ Json.same c.value d.value = true :=
    Json.dumps_sortKeys_iff (Style.valid_compact true) c.held d.held c.writable d.writable
  refine ⟨?_, hiff, fun h => ?_⟩
  · have hitem : Json.IsAscii (Style.compact true).item := by simp [Json.IsAscii, Style.compact]
    have hkey : Json.IsAscii (Style.compact true).key := by simp [Json.IsAscii, Style.compact]
    exact Json.isAscii_dumps rfl hitem hkey (Json.writable_sortKeys c.writable)
  · rw [contentHash, contentHash, hiff.mpr h]

/-- What a request to stage this content is read as. -/
def readRequest (content : String) : Option (Content .asWritten) :=
  let request := "\x7b\"kind\": \"light\", \"content\": " ++ content ++ "\x7d"
  Content.ofRequest ⟨4300, 1000⟩ ((Utf8.encode (Text.of request)).getD [])

/-- A lamp and its ids. -/
def lampFirst : String :=
  "\x7b\"lamp\": \x7b\"on\": true, \"level\": 0.5\x7d, \"ids\": [1, 2]\x7d"

/-- The same, in another order at both levels. -/
def idsFirst : String :=
  "\x7b\"ids\": [1, 2], \"lamp\": \x7b\"level\": 0.5, \"on\": true\x7d\x7d"

/-- The same but for one id, which is a float. -/
def floatId : String :=
  "\x7b\"ids\": [1.0, 2], \"lamp\": \x7b\"level\": 0.5, \"on\": true\x7d\x7d"

/-- The order of the members makes no difference, at either level; an integer
that is written as a float does. -/
theorem canonical_identifies_reordered : ∃ c d e : Content .asWritten,
    readRequest lampFirst = some c ∧ readRequest idsFirst = some d ∧
      readRequest floatId = some e ∧ canonical c.value = canonical d.value ∧
        canonical c.value ≠ canonical e.value := by
  have hread : ((readRequest lampFirst).bind fun c => (readRequest idsFirst).bind fun d =>
      (readRequest floatId).map fun e =>
        Json.same c.value d.value && !Json.same c.value e.value) = some true := by decide +kernel
  obtain ⟨c, hc, hread⟩ := Option.bind_eq_some_iff.mp hread
  obtain ⟨d, hd, hread⟩ := Option.bind_eq_some_iff.mp hread
  obtain ⟨e, he, hsame⟩ := Option.map_eq_some_iff.mp hread
  obtain ⟨hcd, hce⟩ := (Bool.and_eq_true ..).mp hsame
  refine ⟨c, d, e, hc, hd, he, (canonical_identifies id c d).2.1.mpr hcd, ?_⟩
  rw [ne_eq, (canonical_identifies id c e).2.1]
  simpa using hce

end ConfigService

end Fusion
