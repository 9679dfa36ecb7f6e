import BuildQuery.Text.Bytes

/-!
# BuildQuery — texts and their bytes

A character below `0x80` is one byte, and all bytes of the others are from `0x80` on, so a scanner of
bytes that looks for marks below `0x80` cannot find them inside another character.

Main results:

* `ofBytes?_bytes` — a text is read back from its bytes.
* `encodeChar_ascii`, `le_of_mem_encodeChar` — the bytes of one character.
-/

namespace BuildQuery.Text

/-- The bytes of characters. -/
def encode (cs : List Char) : List UInt8 :=
  cs.flatMap String.utf8EncodeChar

theorem encode_nil : encode [] = [] := rfl

theorem encode_cons (c : Char) (cs : List Char) :
    encode (c :: cs) = String.utf8EncodeChar c ++ encode cs := List.flatMap_cons

/-- The bytes of characters behind others stand behind theirs. -/
theorem encode_append (cs ds : List Char) : encode (cs ++ ds) = encode cs ++ encode ds :=
  List.flatMap_append

/-- The bytes of a text are those of its characters. -/
theorem bytes_eq_encode (s : String) : bytes s = encode s.toList := by
  -- both encode the characters one after the other, the library into an array
  have hChars : s.toUTF8 = s.toList.utf8Encode := by
    show s.toByteArray = s.toList.utf8Encode
    rw [← String.toByteArray_ofList, String.ofList_toList]
  rw [bytes, hChars, List.utf8Encode, List.toList_data_toByteArray, encode]

/-- **A text is read back from its bytes.** -/
theorem ofBytes?_bytes (s : String) : ofBytes? (bytes s) = some s := by
  have hArray : (⟨(bytes s).toArray⟩ : ByteArray) = s.toUTF8 := by
    rw [bytes, Array.toArray_toList]
  rw [ofBytes?, hArray, String.fromUTF8?, String.toUTF8_eq_toByteArray, dif_pos s.isValidUTF8]
  rfl

/-- Characters are read back from their bytes. -/
theorem ofBytes?_encode (cs : List Char) : ofBytes? (encode cs) = some (String.ofList cs) := by
  rw [← ofBytes?_bytes, bytes_eq_encode, String.toList_ofList]

/-- A character below `0x80` is one byte. -/
theorem encodeChar_ascii {c : Char} (h : c.toNat < 0x80) :
    String.utf8EncodeChar c = [UInt8.ofNat c.toNat] := by
  have hFirst : c.val.toNat ≤ 127 := Nat.le_of_lt_succ h
  rw [String.utf8EncodeChar, if_pos hFirst]
  rfl

/-- No byte of another character is below `0x80`. -/
theorem le_of_mem_encodeChar {c : Char} (h : 0x80 ≤ c.toNat) :
    ∀ b ∈ String.utf8EncodeChar c, 0x80 ≤ b.toNat := by
  -- what is left of a number below `0x100` as a byte is the number
  have hHigh : ∀ n, 0x80 ≤ n → n < 0x100 → 0x80 ≤ (UInt8.ofNat n).toNat := by
    intro n hLow hSize
    rw [UInt8.toNat_ofNat', Nat.mod_eq_of_lt hSize]
    exact hLow
  have hFirst : ¬ c.val.toNat ≤ 127 := Nat.not_le_of_lt h
  rw [String.utf8EncodeChar, if_neg hFirst]
  intro b hb
  -- two, three or four bytes, each with its highest bit set
  split at hb
  · simp only [List.mem_cons, List.not_mem_nil, or_false] at hb
    rcases hb with rfl | rfl <;> exact hHigh _ (by omega) (by omega)
  split at hb
  · simp only [List.mem_cons, List.not_mem_nil, or_false] at hb
    rcases hb with rfl | rfl | rfl <;> exact hHigh _ (by omega) (by omega)
  · simp only [List.mem_cons, List.not_mem_nil, or_false] at hb
    rcases hb with rfl | rfl | rfl | rfl <;> exact hHigh _ (by omega) (by omega)

end BuildQuery.Text
