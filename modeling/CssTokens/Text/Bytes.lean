/-!
# The Bytes of a Text

A text is read by the bytes of its UTF-8 form, and an offset into it is a
number of bytes.

## Main definitions

* `byteAt?`: The byte at an offset, when the text reaches that far.

## Theorems

* `lt_of_byteAt?`: A byte that is read lies inside the text.
-/

namespace CssTokens

/-- The byte at an offset, when the text reaches that far. -/
def byteAt? (text : String) (p : Nat) : Option UInt8 :=
  if h : p < text.utf8ByteSize then some (text.getUTF8Byte ⟨p⟩ h) else none

theorem lt_of_byteAt? {text : String} {p : Nat} {b : UInt8} (h : byteAt? text p = some b) :
    p < text.utf8ByteSize := by
  unfold byteAt? at h
  split at h
  · assumption
  · injection h

end CssTokens
