import SqlScript.Unicode.Blank

/-!
# Letter case, blank ends and bytes

Operations on plain text:

* `upper` maps the letters `a` to `z` to upper case and leaves every other character alone;
* `trim` drops the blank characters at both ends, `trimChars` does so on a list of characters;
* `bytes` encodes a text in UTF-8. A text of ASCII characters is its list of bytes, so that facts
  about closed texts can be read off their bytes, `lt_of_bytes_lt` among them.
-/

namespace SqlScript

/-! ## Upper case -/

/-- The text with the letters `a` to `z` in upper case. -/
def upper (text : String) : String := String.ofList (text.toList.map Char.toUpper)

@[simp] theorem toList_upper (text : String) :
    (upper text).toList = text.toList.map Char.toUpper := by
  simp [upper]

/-! ## Blank ends -/

/-- The characters without the blank ones at both ends. -/
def trimChars (chars : List Char) : List Char :=
  ((chars.dropWhile isBlank).reverse.dropWhile isBlank).reverse

/-- The text without the blank characters at both ends. -/
def trim (text : String) : String := String.ofList (trimChars text.toList)

/-! ## Bytes -/

/-- The bytes of a text in UTF-8. -/
def bytes (text : String) : List UInt8 := text.toByteArray.data.toList

/-- Whether all characters of a text are ASCII characters. -/
def isAscii (text : String) : Bool := (bytes text).all (· < 128)

/-- The bytes of a text are those of its characters, one after the other. -/
theorem bytes_eq (text : String) : bytes text = text.toList.flatMap String.utf8EncodeChar := by
  rw [bytes, ← String.utf8Encode_toList, List.utf8Encode, List.toList_data_toByteArray]

/-- Texts with the same bytes are the same. -/
theorem bytes_inj {first second : String} : bytes first = bytes second ↔ first = second := by
  constructor
  · intro h
    exact String.toByteArray_inj.mp (ByteArray.ext (Array.toList_inj.mp h))
  · rintro rfl
    rfl

/-- An ASCII character has one byte, which is its code. -/
theorem utf8EncodeChar_ofUInt8 {byte : UInt8} (h : byte < 128) :
    String.utf8EncodeChar (Char.ofUInt8 byte) = [byte] := by
  have hByte : byte.toNat < 128 := h
  have hSize : (Char.ofUInt8 byte).utf8Size = 1 := by
    rw [Char.utf8Size_eq_one_iff]
    show byte.toUInt32.toNat ≤ 127
    rw [UInt8.toNat_toUInt32]
    omega
  rw [String.utf8EncodeChar_eq_singleton hSize]
  show [byte.toUInt32.toUInt8] = [byte]
  rw [UInt8.toUInt8_toUInt32]

/-- The characters of an ASCII text have its bytes as their codes. -/
theorem toList_of_isAscii {text : String} (h : isAscii text = true) :
    text.toList = (bytes text).map Char.ofUInt8 := by
  have hBytes : ∀ codes : List UInt8, codes.all (· < 128) = true →
      (codes.map Char.ofUInt8).flatMap String.utf8EncodeChar = codes := by
    intro codes hCodes
    induction codes with
    | nil => rfl
    | cons code rest ih =>
      rw [List.all_cons, Bool.and_eq_true] at hCodes
      rw [List.map_cons, List.flatMap_cons, ih hCodes.2,
        utf8EncodeChar_ofUInt8 (of_decide_eq_true hCodes.1)]
      rfl
  -- The text of these characters has the bytes of the given text.
  have hText : String.ofList ((bytes text).map Char.ofUInt8) = text := by
    rw [← bytes_inj, bytes_eq, String.toList_ofList, hBytes _ h]
  have hChars := congrArg String.toList hText
  rw [String.toList_ofList] at hChars
  exact hChars.symm

/-- ASCII texts are in the order of their bytes. -/
theorem lt_of_bytes_lt {first second : String} (hFirst : isAscii first = true)
    (hSecond : isAscii second = true) (h : bytes first < bytes second) : first < second := by
  show first.toList < second.toList
  rw [toList_of_isAscii hFirst, toList_of_isAscii hSecond]
  refine List.map_lt (fun code other hLt => ?_) h
  show code.toUInt32.toNat < other.toUInt32.toNat
  rwa [UInt8.toNat_toUInt32, UInt8.toNat_toUInt32]

end SqlScript
