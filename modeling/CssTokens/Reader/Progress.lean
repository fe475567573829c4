import CssTokens.Reader

/-!
# Readers That Move Ahead

Two readers over one source, the second not before the first.

Reading a token is a chain of movements, and it ends because the chain as a
whole moves ahead. `Advances` and `Follows` are the two links such a chain is
made of, and they compose.

## Main definitions

* `Reader.Advances`: The same source, strictly further on.
* `Reader.Follows`: The same source, at or further on.

## Theorems

* `advanceBy_advances`: A step over some bytes moves ahead.
* `skipWhile_follows`, `skipWhile_advances`: So does a run, if it is not empty.
-/

namespace CssTokens

/-- A reader ahead of another one, over the same source. -/
structure Reader.Advances (r s : Reader) : Prop where
  source : s.source = r.source
  pos : r.pos < s.pos

/-- A reader at or ahead of another one, over the same source. -/
structure Reader.Follows (r s : Reader) : Prop where
  source : s.source = r.source
  pos : r.pos ≤ s.pos

theorem Reader.Advances.trans_follows {r s e : Reader} (h : r.Advances s) (h' : s.Follows e) :
    r.Advances e :=
  ⟨h'.source.trans h.source, Nat.lt_of_lt_of_le h.pos h'.pos⟩

theorem Reader.Follows.trans_advances {r s e : Reader} (h : r.Follows s) (h' : s.Advances e) :
    r.Advances e :=
  ⟨h'.source.trans h.source, Nat.lt_of_le_of_lt h.pos h'.pos⟩

theorem Reader.Advances.follows {r s : Reader} (h : r.Advances s) : r.Follows s :=
  ⟨h.source, Nat.le_of_lt h.pos⟩

theorem advanceBy_advances {r s : Reader} {n : Nat} (hn : 0 < n) (h : r.advanceBy n = .ok s) :
    r.Advances s := by
  rw [Reader.advanceBy_eq_ok h]
  exact ⟨rfl, Nat.lt_add_of_pos_right hn⟩

theorem skipWhile_follows {r s : Reader} {test : UInt8 → Bool} (h : r.skipWhile test = .ok s) :
    r.Follows s := by
  have hd := Reader.skipWhile_eq_ok h
  refine ⟨?_, hd.2.1⟩
  rw [hd.1]
  rfl

theorem skipWhile_advances {r s : Reader} {test : UInt8 → Bool} {b : UInt8}
    (hb : r.current = .ok b) (ht : test b = true) (h : r.skipWhile test = .ok s) :
    r.Advances s :=
  ⟨(skipWhile_follows h).source, (Reader.skipWhile_eq_ok h).2.2 b hb ht⟩

theorem leadWidth_pos (b : UInt8) : 0 < leadWidth b := by
  unfold leadWidth
  split
  · decide
  · split
    · decide
    · split <;> decide

end CssTokens
