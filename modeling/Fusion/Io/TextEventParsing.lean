import Fusion.Lib.Utf8
import Mathlib.Algebra.Order.Ring.Rat

/-!
# TextEventParsing — one line or datagram as an `InputEvent`
(io/text_event_parsing.py, contracts/trigger.py)

The decoder's errors make the whole text the event's type. The construction
of the `InputEvent` stands outside the `try`: a value that the model refuses
is raised to the caller. The decoder's limits, on the digits of an integer and
on the depth of nesting, are left out.
-/

namespace Fusion

/-! ## The language's text operations -/

/-- `data.decode("utf-8", errors="replace")` -/
def decode (bytes : Bytes) : Text :=
  Utf8.start.decode bytes

/-- `str.isspace` of one code point. -/
def isSpace (c : Nat) : Bool :=
  (0x09 ≤ c && c ≤ 0x0D) || (0x1C ≤ c && c ≤ 0x20) || c = 0x85 || c = 0xA0 || c = 0x1680 ||
    (0x2000 ≤ c && c ≤ 0x200A) || c = 0x2028 || c = 0x2029 || c = 0x202F || c = 0x205F ||
    c = 0x3000

/-- `text.strip()` -/
def strip (text : Text) : Text :=
  (text.dropWhile isSpace).rdropWhile isSpace

/-- `str(v)` of a decoded value; `repr` is the language's printing of floats,
lists and objects. -/
def str (repr : Json → Text) : Json → Text
  | .null => Text.of "None"
  | .bool true => Text.of "True"
  | .bool false => Text.of "False"
  | .number (.int n) => Text.of (toString n)
  | .string s => s
  | v => repr v

/-! ## The event -/

/-- `float | str | bool`. A float is kept as the number it was read from. -/
inductive InputValue
  | float (n : Json.Number)
  | str (s : Text)
  | bool (b : Bool)

/-- An event as the Trigger engine gets it. -/
structure InputEvent where
  source : String
  type : Text
  value : InputValue
  occurredAt : ℚ

/-- The input that the model's `value` field was refused with. -/
structure ValidationError where
  input : Json

/-- Whether `float(n)` does not overflow: the integers from `2^1024 - 2^970`
on round to more than the greatest float. -/
def fitsFloat : Json.Number → Bool
  | .int n => n.natAbs < 2 ^ 1024 - 2 ^ 970
  | .float _ => true

/-- The validation of `value`. -/
def InputValue.validate : Json → Except ValidationError InputValue
  | .number n => if fitsFloat n then .ok (.float n) else .error ⟨.number n⟩
  | .string s => .ok (.str s)
  | .bool b => .ok (.bool b)
  | v => .error ⟨v⟩

/-- What the `try` block reads: the event's type and its value, not yet
validated. -/
def readPayload (repr : Json → Text) (trimmed : Text) : Text × Json :=
  match Json.loads trimmed with
  | some (.object members) =>
      match Json.lookup members (Text.of "type") with
      | some type =>
          (str repr type, (Json.lookup members (Text.of "value")).getD (.bool true))
      | none => (trimmed, .bool true)  -- KeyError
  | _ => (trimmed, .bool true)  -- JSONDecodeError, TypeError

/-- `parse_text_event`; an empty text is no event. -/
def parseTextEvent (repr : Json → Text) (source : String) (text : Text) (now : ℚ) :
    Except ValidationError (Option InputEvent) := do
  let trimmed := strip text
  if trimmed.isEmpty then
    return none
  let (type, value) := readPayload repr trimmed
  let value ← InputValue.validate value
  return some ⟨source, type, value, now⟩

/-! ## What is refused -/

/-- Whether the validation of `value` raises: `null`, lists, objects, and the
integers that no float can hold. -/
def refused : Json → Bool
  | .null | .array _ | .object _ => true
  | .number n => !fitsFloat n
  | .string _ | .bool _ => false

/-- The text is a JSON object with a type and a value that is refused. -/
def carriesRefused (text : Text) : Bool :=
  match Json.loads (strip text) with
  | some (.object members) =>
      (Json.lookup members (Text.of "type")).isSome &&
        (Json.lookup members (Text.of "value")).any refused
  | _ => false

variable {repr : Json → Text} {source : String} {text : Text} {now : ℚ}

theorem validate_ok_iff (v : Json) :
    (∃ value, InputValue.validate v = .ok value) ↔ refused v = false := by
  cases v with
  | null | array items | object members => simp [InputValue.validate, refused]
  | bool b | string s => simp [InputValue.validate, refused]
  | number n => cases hfits : fitsFloat n <;> simp [InputValue.validate, refused, hfits]

/-- What the `try` block reads is refused exactly on those objects. -/
theorem refused_readPayload (repr : Json → Text) (text : Text) :
    refused (readPayload repr (strip text)).2 = carriesRefused text := by
  unfold readPayload carriesRefused
  cases hload : Json.loads (strip text) with
  | none => rfl
  | some payload =>
    cases payload with
    | object members =>
      cases htype : Json.lookup members (Text.of "type") with
      | none => simp [htype, refused]
      | some type =>
        cases hvalue : Json.lookup members (Text.of "value") with
        | none => simp [htype, hvalue, refused]
        | some value => simp [htype, hvalue]
    | _ => rfl

/-- **The parser raises exactly on those objects.** -/
theorem parseTextEvent_ok_iff (repr : Json → Text) (source : String) (text : Text) (now : ℚ) :
    (∃ event, parseTextEvent repr source text now = .ok event) ↔
      carriesRefused text = false := by
  rw [← refused_readPayload repr]
  by_cases hblank : (strip text).isEmpty = true
  · -- the blank text is not JSON
    have hnil : strip text = [] := List.isEmpty_iff.mp hblank
    refine iff_of_true ⟨none, by rw [parseTextEvent, if_pos hblank]; rfl⟩ ?_
    rw [hnil]
    rfl
  · rw [← validate_ok_iff, parseTextEvent, if_neg hblank]
    cases hvalid : InputValue.validate (readPayload repr (strip text)).2 with
    | error e =>
      refine iff_of_false ?_ ?_
      · rintro ⟨event, h⟩
        simp only [hvalid] at h
        cases h
      · rintro ⟨value, h⟩
        cases h
    | ok value => exact iff_of_true ⟨_, by simp only [hvalid]; rfl⟩ ⟨value, rfl⟩

end Fusion
