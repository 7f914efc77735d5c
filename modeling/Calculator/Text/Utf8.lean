import Calculator.Text.Basic

/-!
# Texts as bytes

A text is written as UTF-8.  Reading is strict: bytes that are no UTF-8 are no
text at all, and nothing is put in their place.

* `decode?_encode` — what was written is read back.
-/

namespace Calculator.Utf8

/-- The bytes of a text. -/
def encode (text : Text) : List UInt8 :=
  text.flatMap String.utf8EncodeChar

/-- The text that the bytes spell, if they spell one. -/
def decode? (bytes : List UInt8) : Option Text :=
  bytes.toByteArray.utf8Decode?.map Array.toList

/-- Writing and reading a text gives it back. -/
theorem decode?_encode (text : Text) : decode? (encode text) = some text := by
  change text.utf8Encode.utf8Decode?.map Array.toList = some text
  rw [List.utf8Decode?_utf8Encode]
  rfl

example : decode? [0x61, 0xC3, 0xA9] = some ['a', 'é'] := by decide

example : decode? [0x61, 0xFF] = none := by decide

end Calculator.Utf8
