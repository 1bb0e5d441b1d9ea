import XianNet.Payload
import XianNet.Text.Unicode
import XianNet.Write

/-!
# Strings between scripts and C++

`ToString` makes a `std::string` from the `char*` of a `Utf8Value`, and
`ToV8String` gives V8 the `data()` of one: neither passes a length, so both
stop at the first zero byte, where U+0000 is. A string comes back as it was up
to its first U+0000 (`V8.Documented.round_trip`).
-/

namespace XianNet

open Text

-- ---------------------------------------------------------------------------
-- Strings
-- ---------------------------------------------------------------------------

/-- A well-formed JavaScript string. -/
@[ext]
structure JsString where
  units : List UInt16
  wellFormed : WellFormed units

namespace JsString

def ofChars (cs : List Char) : JsString := ⟨encode16 cs, wellFormed_encode16 cs⟩

def chars (v : JsString) : List Char := decode16 v.units

def utf8 (v : JsString) : List UInt8 := v.chars.flatMap String.utf8EncodeChar

def text (v : JsString) : String := String.ofList v.chars

/-- The string up to its first U+0000. -/
def cut (v : JsString) : JsString := ofChars (upTo '\x00' v.chars)

@[simp] theorem chars_ofChars (cs : List Char) : (ofChars cs).chars = cs := decode16_encode16 cs

@[simp] theorem ofChars_chars (v : JsString) : ofChars v.chars = v :=
  JsString.ext (encode16_decode16 v.wellFormed)

theorem nul_mem_chars {v : JsString} : '\x00' ∈ v.chars ↔ 0 ∈ v.units := by
  rw [← terminatedBy_utf16.mem_iff]
  exact iff_of_eq (congrArg _ (encode16_decode16 v.wellFormed))

theorem cut_eq_self_iff {v : JsString} : v.cut = v ↔ 0 ∉ v.units := by
  rw [← nul_mem_chars, ← upTo_eq_self_iff, cut]
  constructor
  · intro h
    simpa using congrArg chars h
  · intro h
    rw [h, ofChars_chars]

end JsString

-- ---------------------------------------------------------------------------
-- The bridge
-- ---------------------------------------------------------------------------

/-- `std::string`: its bytes, of which any may be zero. -/
abbrev StdString := List UInt8

/-- The constructor from a `char*`, given the memory it points to. -/
def StdString.ofMemory (memory : List UInt8) : StdString := upTo 0 memory

/-- The memory `data()` points to. -/
def StdString.data (str : StdString) : List UInt8 := str ++ [0]

/-- What the bridge uses of V8. -/
structure V8 where
  /-- The memory that `*String::Utf8Value` points to. -/
  utf8Value : JsString → List UInt8
  /-- `String::NewFromUtf8` without a length; `none` is the empty `MaybeLocal`. -/
  newFromUtf8 : List UInt8 → Option JsString

/-- The documented behaviour: a `Utf8Value` is the zero-terminated UTF-8 of the
string, and `NewFromUtf8` decodes up to the first zero byte. -/
structure V8.Documented (v8 : V8) : Prop where
  utf8Value : ∀ v, v8.utf8Value v = v.utf8 ++ [0]
  newFromUtf8 : ∀ v memory, upTo 0 memory = JsString.utf8 v → v8.newFromUtf8 memory = some v

/-- `ScriptService::ToString` -/
def V8.toString (v8 : V8) (value : JsString) : StdString := .ofMemory (v8.utf8Value value)

/-- `ScriptService::ToV8String`: `ToLocalChecked` aborts on `none`. -/
def V8.toV8String (v8 : V8) (str : StdString) : Option JsString := v8.newFromUtf8 str.data

variable {v8 : V8} {v w : JsString} {σ : Shared}

theorem V8.Documented.toString_eq (h : v8.Documented) (v : JsString) :
    v8.toString v = v.cut.utf8 := by
  rw [V8.toString, h.utf8Value, StdString.ofMemory, upTo_terminated, JsString.utf8,
    terminatedBy_utf8.upTo_encode, JsString.utf8, JsString.cut, JsString.chars_ofChars]

theorem V8.Documented.toV8String_eq (h : v8.Documented) (v : JsString) :
    v8.toV8String v.utf8 = some v.cut := by
  refine h.newFromUtf8 _ _ ?_
  rw [StdString.data, upTo_terminated, JsString.utf8, terminatedBy_utf8.upTo_encode, JsString.utf8,
    JsString.cut, JsString.chars_ofChars]

theorem JsString.cut_cut (v : JsString) : v.cut.cut = v.cut := by
  refine cut_eq_self_iff.mpr ?_
  rw [← nul_mem_chars, cut, chars_ofChars]
  exact notMem_upTo

/-- A string comes back cut at its first U+0000. -/
theorem V8.Documented.round_trip (h : v8.Documented) (v : JsString) :
    v8.toV8String (v8.toString v) = some v.cut := by
  rw [h.toString_eq, h.toV8String_eq, v.cut_cut]

-- ---------------------------------------------------------------------------
-- The strings of the model
-- ---------------------------------------------------------------------------

theorem JsString.bytesOf_text (v : JsString) : bytesOf v.text = v.utf8 := toUTF8_toList v.chars

theorem JsString.toString_text (v : JsString) : ScriptService.toString v.text = v.cut.text := by
  have hnul : ∀ c : Char, decide (c.toNat ≠ 0) = decide (c ≠ '\x00') := by
    intro c
    refine decide_eq_decide.mpr (not_congr ⟨eq_nul, ?_⟩)
    rintro rfl
    rfl
  rw [ScriptService.toString, text, text, cut, chars_ofChars, String.toList_ofList, upTo]
  simp only [hnul]

/-- `ScriptService.toString` is the bridge, on texts. -/
theorem V8.Documented.toString_text (h : v8.Documented) (v : JsString) :
    v8.toString v = bytesOf (ScriptService.toString v.text) := by
  rw [h.toString_eq, v.toString_text, JsString.bytesOf_text]

/-- The script global `service_name`. -/
def BaseService.serviceNameGlobal (v8 : V8) (service : BaseService) : Option JsString :=
  v8.toV8String (bytesOf service.name)

/-- The name that `newService` was called with, as the new script finds it. -/
theorem V8.Documented.serviceName (h : v8.Documented)
    (hstep : Frame.step σ (.script r phase) (.jsNewService v.text uninitialized) = some (op, fs)) :
    ∃ service, op = .newService service ∧ service.serviceNameGlobal v8 = some v.cut := by
  cases hstep
  refine ⟨_, rfl, ?_⟩
  rw [BaseService.serviceNameGlobal, newScript, ← h.toString_text, h.round_trip]

/-- Two names are one key of `js_function_map_` if they agree up to U+0000. -/
theorem V8.Documented.toString_inj (h : v8.Documented) :
    v8.toString v = v8.toString w ↔ v.cut = w.cut := by
  constructor
  · intro heq
    rw [← Option.some_inj, ← h.round_trip, ← h.round_trip, heq]
  · intro heq
    rw [h.toString_eq, h.toString_eq, heq]

-- ---------------------------------------------------------------------------
-- The round trip
-- ---------------------------------------------------------------------------

/-- An engine that does what is documented; it refuses what is not UTF-8. -/
def V8.engine : V8 where
  utf8Value v := v.utf8 ++ [0]
  newFromUtf8 memory :=
    (upTo 0 memory).toByteArray.utf8Decode?.map fun cs => .ofChars cs.toList

theorem V8.engine_documented : V8.engine.Documented := by
  refine ⟨fun _ => rfl, ?_⟩
  intro v memory hmem
  have hdecode : (upTo 0 memory).toByteArray.utf8Decode? = some v.chars.toArray := by
    rw [hmem, ← List.utf8Decode?_utf8Encode]
    rfl
  simp [V8.engine, hdecode]

/-- `"a\0b"` comes back as `"a"`. -/
theorem round_trip_cut : V8.engine.Documented ∧
    V8.engine.toV8String (V8.engine.toString (.ofChars ['a', '\x00', 'b'])) ≠
      some (.ofChars ['a', '\x00', 'b']) := by
  refine ⟨V8.engine_documented, ?_⟩
  rw [V8.engine_documented.round_trip, Ne, Option.some_inj, JsString.cut_eq_self_iff]
  decide

/-- A string comes back as it was if and only if it has no U+0000. -/
theorem round_trip_iff (h : v8.Documented) (v : JsString) :
    v8.toV8String (v8.toString v) = some v ↔ 0 ∉ v.units := by
  rw [h.round_trip, Option.some_inj, JsString.cut_eq_self_iff]

/-- A string with a surrogate pair. -/
theorem round_trip_iff_pair :
    V8.engine.toV8String (V8.engine.toString (.ofChars ['x', '😀'])) =
      some (.ofChars ['x', '😀']) :=
  (round_trip_iff V8.engine_documented _).mpr (by decide)

end XianNet
