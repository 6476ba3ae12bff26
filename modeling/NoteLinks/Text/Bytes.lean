/-
# Texts as bytes

Files hold bytes. A text is written to a file in UTF-8, and a file holds a text
if its bytes are UTF-8.
-/
import NoteLinks.Text.Basic

namespace NoteLinks.Text

/-- The bytes of a text in UTF-8. -/
def encode (t : Text) : ByteArray := (String.ofList t).toByteArray

/-- The text that bytes are in UTF-8, if they are one. -/
def decode? (bytes : ByteArray) : Option Text := bytes.utf8Decode?.map Array.toList

@[simp]
theorem decode?_encode (t : Text) : decode? (encode t) = some t := by
  simp [decode?, encode]

/-- Bytes that are a text are the bytes of this text. -/
theorem encode_of_decode? {bytes : ByteArray} {t : Text} (h : decode? bytes = some t) :
    encode t = bytes := by
  obtain ⟨chars, hchars, rfl⟩ := Option.map_eq_some_iff.mp h
  have hsome : bytes.utf8Decode?.isSome := by
    rw [hchars]
    rfl
  have hbytes := ByteArray.utf8Encode_get_utf8Decode? (h := hsome)
  simp only [hchars, Option.get_some] at hbytes
  rw [encode, String.toByteArray_ofList, hbytes]

/-- The characters of bytes from an offset on. A byte that belongs to no character
stands for nothing. -/
def charsFrom (bytes : ByteArray) : (fuel : Nat) → (offset : Nat) → List (Option Char)
  | 0, _ => []
  | fuel + 1, offset =>
    if bytes.size ≤ offset then []
    else match bytes.utf8DecodeChar? offset with
      | some c => some c :: charsFrom bytes fuel (offset + c.utf8Size)
      | none => none :: charsFrom bytes fuel (offset + 1)

end NoteLinks.Text
