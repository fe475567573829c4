import CssTokens.Fault
import CssTokens.Output.Sink

/-!
# Texts in a Row

Several texts written one behind the other are one text.

A sink takes a text as far as it has room. What it takes of several texts, in
order and up to the first one that is refused, is what it would take of all of
them put together (`writeAll_eq_write`). So it does not matter how an output is
cut into texts, nor in which of them a sink runs out of room: the texts in
front are taken, a beginning of that one is, and nothing behind it.

## Theorems

* `write_of_le`, `write_of_lt`: What a sink with a bound does with a text.
* `write_append`: Two texts, one behind the other.
* `writeAll_eq_write`: Several texts.
* `writeAll_of_room`: A sink without a bound takes everything.
-/

namespace CssTokens

namespace Sink

/-- A sink without a bound takes a text. -/
theorem write_of_room {s : Sink} (hs : s.room = none) (text : String) :
    s.write text = .ok { s with written := s.written ++ text.toUTF8 } := by
  simp only [write, hs]

/-- A text for which there is room is taken as a whole. -/
theorem write_of_le {s : Sink} {n : Nat} (hs : s.room = some n) {text : String}
    (h : text.toUTF8.size ≤ n) :
    s.write text = .ok { s with
      written := s.written ++ text.toUTF8, room := some (n - text.toUTF8.size) } := by
  simp only [write, hs, if_pos h]

/-- A text that is too long is taken up to the room that there is. -/
theorem write_of_lt {s : Sink} {n : Nat} (hs : s.room = some n) {text : String}
    (h : n < text.toUTF8.size) :
    s.write text = .error ⟨s.written ++ text.toUTF8.extract 0 n, s.refusal⟩ := by
  simp only [write, hs, if_neg (Nat.not_le_of_lt h)]

theorem toUTF8_empty : "".toUTF8 = ByteArray.empty := rfl

theorem toUTF8_append (a b : String) : (a ++ b).toUTF8 = a.toUTF8 ++ b.toUTF8 := by
  simp only [String.toUTF8_eq_toByteArray, String.toByteArray_append]

/-- A sink takes a text without bytes, and is left as it is. -/
theorem write_empty (s : Sink) : s.write "" = .ok s := by
  rcases s with ⟨written, room, refusal⟩
  cases room with
  | none => rw [write_of_room rfl, toUTF8_empty, ByteArray.append_empty]
  | some n =>
      have hsize : "".toUTF8.size ≤ n := Nat.zero_le n
      rw [write_of_le rfl hsize, toUTF8_empty, ByteArray.append_empty, ByteArray.size_empty,
        Nat.sub_zero]

/-- Two texts, one behind the other, are taken like one. -/
theorem write_append (s : Sink) (a b : String) :
    s.write (a ++ b) = s.write a >>= fun t => t.write b := by
  have hsize : (a ++ b).toUTF8.size = a.toUTF8.size + b.toUTF8.size := by
    rw [toUTF8_append, ByteArray.size_append]
  rcases s with ⟨written, room, refusal⟩
  cases room with
  | none =>
      rw [write_of_room rfl, write_of_room rfl, ok_bind, write_of_room rfl, toUTF8_append,
        ByteArray.append_assoc]
  | some n =>
      -- The room ends behind both texts, in the second one, or in the first.
      by_cases ha : a.toUTF8.size ≤ n
      · rw [write_of_le rfl ha, ok_bind]
        by_cases hb : b.toUTF8.size ≤ n - a.toUTF8.size
        · rw [write_of_le rfl (by omega), write_of_le rfl hb, toUTF8_append,
            ByteArray.append_assoc, ByteArray.size_append, Nat.sub_add_eq]
        · have hwhole : (a ++ b).toUTF8.extract 0 n =
              a.toUTF8 ++ b.toUTF8.extract 0 (n - a.toUTF8.size) := by
            rw [toUTF8_append, ByteArray.extract_append, Nat.zero_sub,
              ByteArray.extract_eq_extract_append_extract a.toUTF8.size (Nat.zero_le _) ha,
              ByteArray.extract_zero_size, ByteArray.extract_eq_empty_iff.mpr (by omega),
              ByteArray.append_empty]
          rw [write_of_lt rfl (by omega), write_of_lt rfl (Nat.lt_of_not_le hb), hwhole,
            ByteArray.append_assoc]
      · have hnone : b.toUTF8.extract 0 (n - a.toUTF8.size) = ByteArray.empty :=
          ByteArray.extract_eq_empty_iff.mpr (by omega)
        have hfront : (a ++ b).toUTF8.extract 0 n = a.toUTF8.extract 0 n := by
          rw [toUTF8_append, ByteArray.extract_append, Nat.zero_sub, hnone, ByteArray.append_empty]
        rw [write_of_lt rfl (by omega), write_of_lt rfl (Nat.lt_of_not_le ha), hfront]
        rfl

/-- Several texts, one behind the other, are taken like one. -/
theorem writeAll_eq_write (s : Sink) (texts : List String) :
    s.writeAll texts = s.write (String.join texts) := by
  rw [writeAll]
  induction texts generalizing s with
  | nil =>
      rw [String.join_nil, write_empty]
      rfl
  | cons t texts ih =>
      rw [List.foldlM_cons, String.join_cons, write_append]
      exact congrArg (s.write t >>= ·) (funext ih)

/-- A sink without a bound takes everything. -/
theorem writeAll_of_room {s : Sink} (hs : s.room = none) (texts : List String) :
    s.writeAll texts = .ok { s with written := s.written ++ (String.join texts).toUTF8 } := by
  rw [writeAll_eq_write, write_of_room hs]

end Sink

end CssTokens
