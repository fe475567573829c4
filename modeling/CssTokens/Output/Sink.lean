import CssTokens.Failure

/-!
# Sinks

Where output goes, and how much of it fits.

A sink takes bytes up to its room. A text that does not fit is taken as far
as it goes and then refused; the caller stops there, so that a refused sink
holds a beginning of all that was meant for it.

## Main definitions

* `Sink`: The bytes taken so far and the room that is left.
* `Sink.write`, `Sink.writeAll`: One text, and several in order.
* `Refusal`: What a sink holds when it refuses, and the error it gives.
-/

namespace CssTokens

/-- The bytes taken so far, the room left, if there is a bound, and the error
    that a text without room meets. -/
structure Sink where
  written : ByteArray
  room : Option Nat
  refusal : SystemError

/-- A sink that refused a text. -/
structure Refusal where
  written : ByteArray
  error : SystemError

namespace Sink

/-- The error of a block of memory that is full. -/
def memoryFull : SystemError := ⟨.other, "failed to write whole buffer"⟩

/-- The error of a device that is full. -/
def noSpace : SystemError := ⟨.other, "No space left on device (os error 28)"⟩

/-- An empty sink that takes everything. -/
def unbounded : Sink := ⟨.empty, none, memoryFull⟩

/-- An empty block of memory, `n` bytes in size. -/
def memory (n : Nat) : Sink := ⟨.empty, some n, memoryFull⟩

/-- A device on which every write fails. -/
def fullDevice : Sink := ⟨.empty, some 0, noSpace⟩

/-- Take a text, as far as there is room. -/
def write (s : Sink) (text : String) : Except Refusal Sink :=
  let bytes := text.toUTF8
  match s.room with
  | none => .ok { s with written := s.written ++ bytes }
  | some n =>
      if bytes.size ≤ n then
        .ok { s with written := s.written ++ bytes, room := some (n - bytes.size) }
      else .error ⟨s.written ++ bytes.extract 0 n, s.refusal⟩

/-- Take several texts in order, up to the first one without room. -/
def writeAll (s : Sink) (texts : List String) : Except Refusal Sink :=
  texts.foldlM write s

end Sink

end CssTokens
