import MapBlocks.Text.Base64

/-!
# Base64 coding

Decoding undoes encoding, for every number of bytes left over at the end, and so
a string comes back from the base64 text of its UTF-8 bytes.
-/

namespace MapBlocks.Text.Base64

/-- The characters of base64 texts: the alphabet and the padding. -/
def isBase64Char (c : Char) : Bool := (sextet? c).isSome || c = '='

theorem sextet?_sextetChar {value : Nat} (small : value < 64) :
    sextet? (sextetChar value) = some value := by
  have all : ∀ value < 64, sextet? (sextetChar value) = some value := by decide
  exact all value small

theorem sextetChar_ne_padding {value : Nat} (small : value < 64) :
    sextetChar value ≠ '=' := by
  have all : ∀ value < 64, sextetChar value ≠ '=' := by decide
  exact all value small

theorem isBase64Char_sextetChar (value : Nat) : isBase64Char (sextetChar value) = true := by
  by_cases small : value < 64
  · simp [isBase64Char, sextet?_sextetChar small]
  · have last : sextetChar value = '/' := by
      unfold sextetChar
      repeat' split
      all_goals first | rfl | omega
    rw [last]
    rfl

section Groups

variable {p q r s : Nat} (smallP : p < 64) (smallQ : q < 64) (smallR : r < 64)
  (smallS : s < 64)

include smallP smallQ

theorem decode_one_byte (unused : q % 16 = 0) :
    decode [sextetChar p, sextetChar q, '=', '='] =
      some [UInt8.ofNat ((p * 64 + q) / 16)] := by
  have zero : (p * 64 + q) % 16 = 0 := by omega
  simp [decode, sextet?_sextetChar smallP, sextet?_sextetChar smallQ, zero]

include smallR

theorem decode_two_bytes (unused : r % 4 = 0) :
    decode [sextetChar p, sextetChar q, sextetChar r, '='] =
      some [UInt8.ofNat (((p * 64 + q) * 64 + r) / 1024),
        UInt8.ofNat (((p * 64 + q) * 64 + r) / 4 % 256)] := by
  have zero : ((p * 64 + q) * 64 + r) % 4 = 0 := by omega
  -- The third character is no padding, which keeps the case of one byte out.
  have digit : sextetChar r ≠ '=' := sextetChar_ne_padding smallR
  rw [decode.eq_def]
  simp [sextet?_sextetChar smallP, sextet?_sextetChar smallQ,
    sextet?_sextetChar smallR, zero]

include smallS

theorem decode_three_bytes (rest : List Char) :
    decode (sextetChar p :: sextetChar q :: sextetChar r :: sextetChar s :: rest) =
      (decode rest).map fun bytes =>
        let group := ((p * 64 + q) * 64 + r) * 64 + s
        UInt8.ofNat (group / 65536) :: UInt8.ofNat (group / 256 % 256)
          :: UInt8.ofNat (group % 256) :: bytes := by
  have digit : sextetChar s ≠ '=' := sextetChar_ne_padding smallS
  rw [decode.eq_def]
  simp [digit, sextet?_sextetChar smallP, sextet?_sextetChar smallQ,
    sextet?_sextetChar smallR, sextet?_sextetChar smallS]
  cases decode rest <;> rfl

end Groups

/-- Bytes come back from their base64 text. -/
theorem decode_encode (bytes : List UInt8) : decode (encode bytes) = some bytes := by
  fun_induction encode bytes with
  | case1 a b c rest group induction =>
      have boundA := a.toNat_lt
      have boundB := b.toNat_lt
      have boundC := c.toNat_lt
      have whole :
          ((group / 262144 * 64 + group / 4096 % 64) * 64 + group / 64 % 64) * 64
            + group % 64 = group := by omega
      have first : group / 65536 = a.toNat := by omega
      have second : group / 256 % 256 = b.toNat := by omega
      have third : group % 256 = c.toNat := by omega
      rw [decode_three_bytes (by omega) (by omega) (by omega) (by omega), induction]
      simp only [whole, first, second, third, UInt8.ofNat_toNat, Option.map_some]
  | case2 a b group =>
      have boundA := a.toNat_lt
      have boundB := b.toNat_lt
      have whole : (group / 262144 * 64 + group / 4096 % 64) * 64 + group / 64 % 64 =
          group / 64 := by omega
      have first : group / 64 / 1024 = a.toNat := by omega
      have second : group / 64 / 4 % 256 = b.toNat := by omega
      rw [decode_two_bytes (by omega) (by omega) (by omega) (by omega)]
      simp only [whole, first, second, UInt8.ofNat_toNat]
  | case3 a group =>
      have boundA := a.toNat_lt
      have byte : (group / 262144 * 64 + group / 4096 % 64) / 16 = a.toNat := by omega
      rw [decode_one_byte (by omega) (by omega) (by omega), byte, UInt8.ofNat_toNat]
  | case4 => rfl

theorem all_isBase64Char_encode (bytes : List UInt8) :
    (encode bytes).all isBase64Char = true := by
  have padding : isBase64Char '=' = true := rfl
  fun_induction encode bytes with
  | case1 a b c rest group induction =>
      simp only [List.all_cons, induction, isBase64Char_sextetChar, Bool.and_self]
  | case2 a b group =>
      simp only [List.all_cons, List.all_nil, padding, isBase64Char_sextetChar, Bool.and_self]
  | case3 a group =>
      simp only [List.all_cons, List.all_nil, padding, isBase64Char_sextetChar, Bool.and_self]
  | case4 => rfl

/-- Only the characters of base64 are in the base64 text of a string. -/
theorem not_mem_encodeString {c : Char} (foreign : isBase64Char c = false) (text : String) :
    c ∉ (encodeString text).toList := by
  rw [encodeString, String.toList_ofList]
  intro member
  have alphabet := List.all_eq_true.mp (all_isBase64Char_encode _) c member
  rw [foreign] at alphabet
  cases alphabet

theorem getElem!_eq_getElem_toList
    (bytes : ByteArray) {i : Nat} (inside : i < bytes.data.toList.length) :
    bytes.get! i = bytes.data.toList[i] := by
  change bytes.data[i]! = _
  rw [getElem!_pos bytes.data i inside]
  exact (Array.getElem_toList inside).symm

theorem toList_loop (bytes : ByteArray) (i : Nat) (read : List UInt8) :
    ByteArray.toList.loop bytes i read = read.reverse ++ bytes.data.toList.drop i := by
  fun_induction ByteArray.toList.loop bytes i read with
  | case1 i read more induction =>
      have inside : i < bytes.data.toList.length := more
      rw [induction, List.drop_eq_getElem_cons inside, getElem!_eq_getElem_toList bytes inside,
        List.reverse_cons, List.append_assoc, List.singleton_append]
  | case2 i read done =>
      rw [List.drop_eq_nil_of_le (Nat.le_of_not_lt done), List.append_nil]

theorem toByteArray_toList (bytes : ByteArray) : bytes.toList.toByteArray = bytes := by
  have items : bytes.toList = bytes.data.toList := toList_loop bytes 0 []
  apply ByteArray.ext
  apply Array.toList_inj.mp
  rw [List.toList_data_toByteArray, items]

/-- A string comes back from the base64 text of its bytes. -/
theorem decodeString?_encodeString (text : String) :
    decodeString? (encodeString text) = some text := by
  simp only [decodeString?, encodeString, String.toList_ofList, decode_encode,
    Option.bind_eq_bind, Option.bind_some, toByteArray_toList]
  rw [String.fromUTF8?, String.toUTF8_eq_toByteArray, dif_pos text.isValidUTF8]
  rfl

end MapBlocks.Text.Base64
