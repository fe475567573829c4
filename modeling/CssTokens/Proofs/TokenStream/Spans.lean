import CssTokens.Proofs.TokenStream.Refinement
import Mathlib.Logic.ExistsUnique

/-!
# The Token at an Offset

Which token a byte of a text belongs to.

Tokens stand one behind the other and leave nothing out, so every offset inside
the text is inside one token and in no other one. The byte there is a byte of that
token, as far behind its start as the offset is.

## Main definitions

* `Located.Spans`: An offset inside a token.

## Theorems

* `exists_eq_append_of_mem_locateFrom`: What is in front of a token.
* `le_offset_of_mem_locateFrom`: Tokens come in the order of their offsets.
* `existsUnique_spans`: There is one token at an offset.
* `getElem?_bytesOf_of_spans`: The byte at an offset is one of the token.
-/

namespace CssTokens

/-- The offset is inside the token. -/
def Located.Spans (x : Located) (p : Nat) : Prop :=
  x.offset ≤ p ∧ p < x.offset + x.token.text.utf8ByteSize

/-- The offset of a token is that of its text behind the lexemes in front of
    it. -/
theorem exists_eq_append_of_mem_locateFrom {q : Nat} {xs : List Lexeme} {x : Located}
    (h : x ∈ locateFrom q xs) : ∃ front behind, xs = front ++ x.token.lexeme :: behind ∧
      x.offset = q + byteCount (front.map Lexeme.chars).flatten := by
  induction xs generalizing q with
  | nil => exact absurd h List.not_mem_nil
  | cons y xs ih =>
      rcases List.mem_cons.mp h with rfl | h
      · exact ⟨[], xs, by rw [lexeme_token, List.nil_append], rfl⟩
      · rcases ih h with ⟨front, behind, rfl, hoffset⟩
        refine ⟨y :: front, behind, rfl, ?_⟩
        rw [hoffset, List.map_cons, List.flatten_cons, byteCount_append, Nat.add_assoc]

/-- Tokens come in the order of their offsets. -/
theorem le_offset_of_mem_locateFrom {q : Nat} {xs : List Lexeme} {x : Located}
    (h : x ∈ locateFrom q xs) : q ≤ x.offset := by
  rcases exists_eq_append_of_mem_locateFrom h with ⟨_, _, _, hoffset⟩
  omega

/-- There is one token at an offset, and no other one. -/
theorem existsUnique_spans {q p : Nat} {xs : List Lexeme} (hq : q ≤ p)
    (hp : p < q + byteCount (xs.map Lexeme.chars).flatten) :
    ∃! x, x ∈ locateFrom q xs ∧ x.Spans p := by
  induction xs generalizing q with
  | nil =>
      rw [List.map_nil, List.flatten_nil, byteCount_nil] at hp
      omega
  | cons y xs ih =>
      rw [List.map_cons, List.flatten_cons, byteCount_append] at hp
      have hsize : y.token.text.utf8ByteSize = byteCount y.chars := byteLength_token y
      -- The offset is inside of the first token or behind it.
      by_cases hy : p < q + byteCount y.chars
      · refine ⟨⟨q, y.token⟩, ⟨List.mem_cons_self, hq, by rw [hsize]; exact hy⟩, ?_⟩
        rintro x ⟨hx, hspans⟩
        rcases List.mem_cons.mp hx with rfl | hx
        · rfl
        · -- Every other token starts behind the first one.
          have hle := le_offset_of_mem_locateFrom hx
          have := hspans.1
          omega
      · rcases ih (q := q + byteCount y.chars) (by omega) (by omega) with ⟨x, ⟨hx, hspans⟩, huniq⟩
        refine ⟨x, ⟨List.mem_cons_of_mem _ hx, hspans⟩, ?_⟩
        rintro z ⟨hz, hspans'⟩
        rcases List.mem_cons.mp hz with rfl | hz
        · have := hspans'.2
          rw [hsize] at this
          exact absurd this hy
        · exact huniq z ⟨hz, hspans'⟩

/-- The byte at an offset is a byte of the token there. -/
theorem getElem?_bytesOf_of_spans {xs : List Lexeme} {x : Located} {p : Nat}
    (h : x ∈ locateFrom 0 xs) (hp : x.Spans p) :
    (bytesOf (xs.map Lexeme.chars).flatten)[p]? =
      (bytesOf x.token.text.toList)[p - x.offset]? := by
  rcases exists_eq_append_of_mem_locateFrom h with ⟨front, behind, rfl, hoffset⟩
  rcases hp with ⟨hle, hlt⟩
  have hfront : (bytesOf (front.map Lexeme.chars).flatten).length = x.offset := by
    rw [hoffset, Nat.zero_add]
    rfl
  rw [utf8ByteSize_eq_byteCount, byteCount] at hlt
  have hinside : p - x.offset < (bytesOf x.token.text.toList).length := by omega
  rw [List.map_append, List.map_cons, List.flatten_append, List.flatten_cons, bytesOf_append,
    bytesOf_append, List.getElem?_append_right (by omega), hfront]
  exact List.getElem?_append_left hinside

end CssTokens
