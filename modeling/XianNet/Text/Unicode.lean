import XianNet.Text.Terminated

/-!
# UTF-16 and UTF-8

A string of UTF-16 code units is well formed if its surrogates stand in pairs.
Such strings and the lists of characters are the same thing (`encode16_decode16`,
`decode16_encode16`). In both encodings the code of U+0000 is one zero unit,
and no other character's code has one.
-/

namespace Text

def isHigh (u : UInt16) : Bool := 0xD800 ≤ u && u < 0xDC00

def isLow (u : UInt16) : Bool := 0xDC00 ≤ u && u < 0xE000

inductive WellFormed : List UInt16 → Prop
  | nil : WellFormed []
  | unit : isHigh u = false → isLow u = false → WellFormed us → WellFormed (u :: us)
  | pair : isHigh hi → isLow lo → WellFormed us → WellFormed (hi :: lo :: us)

/-- The units of a character: its number, or the two surrogates for it. -/
def encodeChar16 (c : Char) : List UInt16 :=
  if c.toNat < 0x10000 then [UInt16.ofNat c.toNat]
  else [UInt16.ofNat (0xD800 + (c.toNat - 0x10000) / 0x400),
    UInt16.ofNat (0xDC00 + (c.toNat - 0x10000) % 0x400)]

def encode16 (cs : List Char) : List UInt16 := cs.flatMap encodeChar16

def unitChar (u : UInt16) : Char := Char.ofNat u.toNat

def pairChar (hi lo : UInt16) : Char :=
  Char.ofNat (0x10000 + (hi.toNat - 0xD800) * 0x400 + (lo.toNat - 0xDC00))

/-- The characters of a well-formed string. -/
def decode16 : List UInt16 → List Char
  | [] => []
  | [u] => [unitChar u]
  | u :: lo :: us =>
    if isHigh u && isLow lo then pairChar u lo :: decode16 us else unitChar u :: decode16 (lo :: us)

theorem isHigh_iff : isHigh u = true ↔ 0xD800 ≤ u.toNat ∧ u.toNat < 0xDC00 := by
  simp [isHigh, UInt16.le_iff_toNat_le, UInt16.lt_iff_toNat_lt]

theorem isLow_iff : isLow u = true ↔ 0xDC00 ≤ u.toNat ∧ u.toNat < 0xE000 := by
  simp [isLow, UInt16.le_iff_toNat_le, UInt16.lt_iff_toNat_lt]

theorem char_range (c : Char) : c.toNat < 0xD800 ∨ (0xE000 ≤ c.toNat ∧ c.toNat < 0x110000) := by
  rcases c.valid with h | ⟨hlo, hhi⟩
  · exact .inl h
  · exact .inr ⟨hlo, hhi⟩

theorem toNat_ofNat_valid (h : n.isValidChar) : (Char.ofNat n).toNat = n := by
  rw [Char.ofNat, dif_pos h]
  rfl

theorem decode16_unit (h : isHigh u = false) (us : List UInt16) :
    decode16 (u :: us) = unitChar u :: decode16 us := by
  cases us with
  | nil => rfl
  | cons => simp [decode16, h]

theorem decode16_pair (hhi : isHigh hi) (hlo : isLow lo) (us : List UInt16) :
    decode16 (hi :: lo :: us) = pairChar hi lo :: decode16 us := by
  simp [decode16, hhi, hlo]

/-- A character is one unit that is no surrogate, or a pair. -/
theorem encodeChar16_cases (c : Char) :
    (∃ u, encodeChar16 c = [u] ∧ isHigh u = false ∧ isLow u = false ∧ unitChar u = c) ∨
      ∃ hi lo, encodeChar16 c = [hi, lo] ∧ isHigh hi ∧ isLow lo ∧ pairChar hi lo = c := by
  have hrange := char_range c
  have hsize : UInt16.size = 0x10000 := rfl
  by_cases h : c.toNat < 0x10000
  · have hnat : (UInt16.ofNat c.toNat).toNat = c.toNat := UInt16.toNat_ofNat_of_lt h
    refine .inl ⟨_, if_pos h, ?_, ?_, ?_⟩
    · rw [← Bool.not_eq_true, isHigh_iff, hnat]; omega
    · rw [← Bool.not_eq_true, isLow_iff, hnat]; omega
    · rw [unitChar, hnat, Char.ofNat_toNat]
  · have hhi : (UInt16.ofNat (0xD800 + (c.toNat - 0x10000) / 0x400)).toNat =
        0xD800 + (c.toNat - 0x10000) / 0x400 := UInt16.toNat_ofNat_of_lt (by omega)
    have hlo : (UInt16.ofNat (0xDC00 + (c.toNat - 0x10000) % 0x400)).toNat =
        0xDC00 + (c.toNat - 0x10000) % 0x400 := UInt16.toNat_ofNat_of_lt (by omega)
    refine .inr ⟨_, _, if_neg h, ?_, ?_, ?_⟩
    · rw [isHigh_iff, hhi]; omega
    · rw [isLow_iff, hlo]; omega
    · rw [pairChar, hhi, hlo]
      have hsum : 0x10000 + (0xD800 + (c.toNat - 0x10000) / 0x400 - 0xD800) * 0x400 +
          (0xDC00 + (c.toNat - 0x10000) % 0x400 - 0xDC00) = c.toNat := by omega
      rw [hsum, Char.ofNat_toNat]

theorem decode16_encode16 (cs : List Char) : decode16 (encode16 cs) = cs := by
  induction cs with
  | nil => rfl
  | cons c cs ih =>
    rw [encode16, List.flatMap_cons, ← encode16]
    rcases encodeChar16_cases c with ⟨u, henc, hhigh, -, hchar⟩ | ⟨hi, lo, henc, hhi, hlo, hchar⟩
    · rw [henc, List.singleton_append, decode16_unit hhigh, hchar, ih]
    · rw [henc, List.cons_append, List.singleton_append, decode16_pair hhi hlo, hchar, ih]

theorem wellFormed_encode16 (cs : List Char) : WellFormed (encode16 cs) := by
  induction cs with
  | nil => exact .nil
  | cons c cs ih =>
    rw [encode16, List.flatMap_cons, ← encode16]
    rcases encodeChar16_cases c with ⟨u, henc, hhigh, hlow, -⟩ | ⟨hi, lo, henc, hhi, hlo, -⟩
    · rw [henc]; exact .unit hhigh hlow ih
    · rw [henc]; exact .pair hhi hlo ih

theorem encodeChar16_unitChar (hhigh : isHigh u = false) (hlow : isLow u = false) :
    encodeChar16 (unitChar u) = [u] := by
  have hlt : u.toNat < 0x10000 := UInt16.toNat_lt u
  have hvalid : u.toNat.isValidChar := by
    rw [← Bool.not_eq_true, isHigh_iff] at hhigh
    rw [← Bool.not_eq_true, isLow_iff] at hlow
    unfold Nat.isValidChar
    omega
  have hnat : (unitChar u).toNat = u.toNat := toNat_ofNat_valid hvalid
  rw [encodeChar16, hnat, if_pos hlt, UInt16.ofNat_toNat]

theorem encodeChar16_pairChar (hhi : isHigh hi) (hlo : isLow lo) :
    encodeChar16 (pairChar hi lo) = [hi, lo] := by
  rw [isHigh_iff] at hhi
  rw [isLow_iff] at hlo
  have hnat : (pairChar hi lo).toNat =
      0x10000 + (hi.toNat - 0xD800) * 0x400 + (lo.toNat - 0xDC00) := by
    refine toNat_ofNat_valid ?_
    unfold Nat.isValidChar
    omega
  have hfirst : 0xD800 + ((pairChar hi lo).toNat - 0x10000) / 0x400 = hi.toNat := by omega
  have hsecond : 0xDC00 + ((pairChar hi lo).toNat - 0x10000) % 0x400 = lo.toNat := by omega
  rw [encodeChar16, if_neg (by omega), hfirst, hsecond, UInt16.ofNat_toNat, UInt16.ofNat_toNat]

theorem encode16_decode16 (h : WellFormed us) : encode16 (decode16 us) = us := by
  induction h with
  | nil => rfl
  | @unit u us hhigh hlow _ ih =>
    rw [decode16_unit hhigh, encode16, List.flatMap_cons, ← encode16, ih,
      encodeChar16_unitChar hhigh hlow, List.singleton_append]
  | @pair hi lo us hhi hlo _ ih =>
    rw [decode16_pair hhi hlo, encode16, List.flatMap_cons, ← encode16, ih,
      encodeChar16_pairChar hhi hlo]
    rfl

-- ---------------------------------------------------------------------------
-- The terminator
-- ---------------------------------------------------------------------------

theorem eq_nul (h : c.toNat = 0) : c = '\x00' := by
  rw [← Char.ofNat_toNat c, h]

theorem terminatedBy_utf16 : TerminatedBy encodeChar16 '\x00' 0 := by
  refine ⟨rfl, ?_⟩
  intro c hz
  have hrange := char_range c
  refine eq_nul ?_
  simp only [encodeChar16] at hz
  split at hz <;> simp [← UInt16.toNat_inj] at hz <;> omega

theorem terminatedBy_utf8 : TerminatedBy String.utf8EncodeChar '\x00' 0 := by
  refine ⟨rfl, ?_⟩
  intro c hz
  have hrange := char_range c
  refine eq_nul ?_
  simp only [String.utf8EncodeChar, Char.toNat_val] at hz
  split at hz
  · simp [← UInt8.toNat_inj] at hz
    omega
  · split at hz
    · simp [← UInt8.toNat_inj] at hz
      omega
    · split at hz <;> simp [← UInt8.toNat_inj] at hz <;> omega

-- ---------------------------------------------------------------------------
-- Byte arrays
-- ---------------------------------------------------------------------------

theorem toList_loop (bs : ByteArray) (i : Nat) (r : List UInt8) :
    ByteArray.toList.loop bs i r = r.reverse ++ bs.data.toList.drop i := by
  fun_induction ByteArray.toList.loop bs i r with
  | case1 i r h ih =>
    have hlt : i < bs.data.toList.length := h
    have hget : bs.get! i = bs.data.toList[i] := by
      simp [ByteArray.get!, getElem!_pos bs.data i h]
    rw [ih, List.drop_eq_getElem_cons hlt, hget, List.reverse_cons, List.append_assoc]
    rfl
  | case2 i r h =>
    rw [List.drop_eq_nil_of_le (Nat.le_of_not_lt h), List.append_nil]

theorem toUTF8_toList (cs : List Char) :
    (String.ofList cs).toUTF8.toList = cs.flatMap String.utf8EncodeChar := by
  rw [String.toUTF8_eq_toByteArray, String.toByteArray_ofList, List.utf8Encode, ByteArray.toList,
    toList_loop, List.toList_data_toByteArray]
  rfl

end Text
