import CssTokens.Reader.Progress
import CssTokens.Token.Read

/-!
# Progress of Token Reading

Each way to read a token leaves the reader ahead of where it was.

This is what makes a token stream finite: as long as the source is not over,
the bytes that remain become fewer with every token.

## Theorems

* `readStringBy_follows`: A string does not move back.
* `readKindBy_advances`: What begins inside the source takes some of it.
* `Token.readBy_advances`: A token that is not the end takes some text.
-/

namespace CssTokens

theorem readUnmatched_advances {r s : Reader} {k : Kind} (h : readUnmatched r = .ok (k, s)) :
    r.Advances s := by
  rcases map_eq_ok.mp h with ⟨e, he, heq⟩
  rcases bind_eq_ok.mp he with ⟨b, _, hb⟩
  injection heq with _ heq
  exact heq ▸ advanceBy_advances (leadWidth_pos b) hb

/-- Inside a string the reader does not move back, as long as it is not past
    the end of the source. -/
theorem readStringBy_follows {search : ByteSearch} {quote : UInt8} {r s : Reader} {k : Kind}
    (hc : r.pos ≤ r.sourceLength) (h : readStringBy search quote r = .ok (k, s)) : r.Follows s := by
  have hstep : ∀ {r s : Reader} {b : UInt8}, r.pos ≤ r.sourceLength →
      r.skipToDelimiterBy search quote = .ok (b, s) → r.Follows s := by
    intro r s b hc hs
    have hd := Reader.skipToDelimiterBy_bounds hs
    exact ⟨hd.1, (Nat.min_eq_left hc).symm ▸ hd.2⟩
  fun_induction readStringBy search quote r with
  | case1 => injection h
  | case2 => injection h
  | case3 r b e hs hb hend =>
      injection h with h
      injection h with _ h
      exact h ▸ hstep hc hs
  | case4 => injection h
  | case5 => injection h
  | case6 r b e hs hb hend next hnext e' he ih =>
      have hadv : e.Advances e' := by
        refine advanceBy_advances ?_ he
        split <;> decide
      refine Reader.Advances.follows ((hstep hc hs).trans_advances
        (hadv.trans_follows (ih ?_ h)))
      -- The byte behind the backslash belongs to the source.
      rcases map_eq_ok.mp hend with ⟨p, hp, hlt⟩
      have hp := (addPosition_eq_ok hp).1
      have hlt : ¬ e.sourceLength ≤ p := of_decide_eq_false hlt
      rw [Reader.advanceBy_eq_ok he]
      simp only [Reader.sourceLength, Reader.moveTo] at *
      split <;> omega
  | case7 r b e hs hb hnl =>
      rcases map_eq_ok.mp h with ⟨e', he, heq⟩
      injection heq with _ heq
      exact heq ▸ ((hstep hc hs).trans_advances (advanceBy_advances Nat.one_pos he)).follows
  | case8 r b e hs hb hnl hz =>
      injection h with h
      injection h with _ h
      exact h ▸ hstep hc hs
  | case9 r b e hs hb hnl hz =>
      rcases map_eq_ok.mp h with ⟨e', he, heq⟩
      injection heq with _ heq
      exact heq ▸ ((hstep hc hs).trans_advances (advanceBy_advances Nat.one_pos he)).follows

theorem readMarked_advances {r s : Reader} {kind k : Kind}
    (h : readMarked kind r = .ok (k, s)) : r.Advances s := by
  rcases bind_eq_ok.mp h with ⟨next, _, h⟩
  split at h
  · rcases bind_eq_ok.mp h with ⟨e, he, h⟩
    rcases bind_eq_ok.mp h with ⟨e', he', h⟩
    injection h with h
    injection h with _ h
    exact h ▸ (advanceBy_advances Nat.one_pos he).trans_follows (skipWhile_follows he')
  · exact readUnmatched_advances h

theorem readName_advances {r s : Reader} {k : Kind} {b : UInt8} (hb : r.current = .ok b)
    (ht : isNameByte b = true) (h : readName r = .ok (k, s)) :
    r.Advances s := by
  rcases bind_eq_ok.mp h with ⟨e, he, h⟩
  have hadv := skipWhile_advances hb ht he
  rcases bind_eq_ok.mp h with ⟨call, _, h⟩
  -- Whether a parenthesis is ahead decides the kind and moves nothing.
  split at h
  · rcases bind_eq_ok.mp h with ⟨name, _, h⟩
    injection h with h
    injection h with _ h
    exact h ▸ hadv
  · injection h with h
    injection h with _ h
    exact h ▸ hadv

/-- A number starts with a digit or a point, and takes it. -/
theorem skipNumber_advances {r s : Reader} {b : UInt8} (hb : r.current = .ok b)
    (ht : isDigitByte b = true ∨ b = byteOf '.')
    (h : skipNumber r = .ok s) : r.Advances s := by
  rcases bind_eq_ok.mp h with ⟨e, he, h⟩
  rcases bind_eq_ok.mp h with ⟨next, hnext, h⟩
  have hfol := skipWhile_follows he
  -- Behind the digits there is a point that the number takes, or there is none.
  split at h
  · rcases bind_eq_ok.mp h with ⟨e', he', h⟩
    exact hfol.trans_advances ((advanceBy_advances Nat.one_pos he').trans_follows
      (skipWhile_follows h))
  · next hpoint =>
      injection h with h
      subst h
      rcases ht with ht | ht
      · exact skipWhile_advances hb ht he
      · -- Without a digit the run is empty, and the point is still ahead.
        refine ⟨hfol.source, Nat.lt_of_le_of_ne hfol.pos ?_⟩
        intro heq
        refine hpoint ?_
        have : e.current = r.current := by
          rw [Reader.current, Reader.current, hfol.source, heq]
        rw [this, hb] at hnext
        injection hnext with hnext
        rw [← hnext, ht]
        decide

theorem readNumber_advances {r s : Reader} {k : Kind} {b : UInt8} (hb : r.current = .ok b)
    (ht : isDigitByte b = true ∨ b = byteOf '.')
    (h : readNumber r = .ok (k, s)) : r.Advances s := by
  rcases bind_eq_ok.mp h with ⟨e, he, h⟩
  have hadv := skipNumber_advances hb ht he
  rcases bind_eq_ok.mp h with ⟨next, _, h⟩
  -- What stands behind the numeral, a per cent sign or a unit, is taken on top of it.
  split at h
  · rcases bind_eq_ok.mp h with ⟨e', he', h⟩
    injection h with h
    injection h with _ h
    exact h ▸ hadv.trans_follows (advanceBy_advances Nat.one_pos he').follows
  · split at h
    · rcases bind_eq_ok.mp h with ⟨e', he', h⟩
      injection h with h
      injection h with _ h
      exact h ▸ hadv.trans_follows (skipWhile_follows he')
    · injection h with h
      injection h with _ h
      exact h ▸ hadv

/-- What a lead class says about its character. -/
theorem Lead.ofChar_spec (c : Char) :
    (Lead.ofChar c = .blank → isBlank c = true) ∧
    (Lead.ofChar c = .nameStart → isNameStart c = true) ∧
    (Lead.ofChar c = .digit → c.isDigit = true) ∧
    (Lead.ofChar c = .point → c = '.') := by
  unfold Lead.ofChar
  refine ⟨?_, ?_, ?_, ?_⟩ <;> intro h <;> (repeat' split at h) <;> simp_all

theorem readKindBy_advances {search : ByteSearch} {r s : Reader} {k : Kind}
    (hc : r.pos < r.sourceLength) (h : readKindBy search r = .ok (k, s)) : r.Advances s := by
  rcases bind_eq_ok.mp h with ⟨b, hb, h⟩
  have hlead := Lead.ofChar_spec (Char.ofUInt8 b)
  -- The cases are what may begin at the byte; each of them takes the byte at the least.
  split at h
  · next hl =>
      rcases bind_eq_ok.mp h with ⟨e, he, h⟩
      injection h with h
      injection h with _ h
      refine h ▸ skipWhile_advances hb ?_ he
      rw [isBlankByte_eq]
      exact hlead.1 hl
  · rcases bind_eq_ok.mp h with ⟨e, he, h⟩
    refine (advanceBy_advances Nat.one_pos he).trans_follows (readStringBy_follows ?_ h)
    rw [Reader.advanceBy_eq_ok he]
    exact hc
  · rcases bind_eq_ok.mp h with ⟨e, he, h⟩
    injection h with h
    injection h with _ h
    exact h ▸ advanceBy_advances Nat.one_pos he
  · exact readMarked_advances h
  · next hl =>
      refine readName_advances hb ?_ h
      rw [isNameByte_eq, ByteTest.ofClass, isNameChar, hlead.2.1 hl]
      rfl
  · next hl =>
      refine readNumber_advances hb (Or.inl ?_) h
      rw [isDigitByte_eq]
      exact hlead.2.2.1 hl
  · next hl =>
      rcases bind_eq_ok.mp h with ⟨next, _, h⟩
      split at h
      · refine readNumber_advances hb (Or.inr ?_) h
        rw [← byteOf_ofUInt8 b, hlead.2.2.2 hl]
      · exact readUnmatched_advances h
  · exact readUnmatched_advances h

/-- A token that is not the end of input takes some of the source. -/
theorem Token.readBy_advances {search : ByteSearch} {r s : Reader} {t : Token}
    (h : Token.readBy search r = .ok (t, s))
    (ht : t.isEnd = false) : r.pos < r.sourceLength ∧ r.Advances s := by
  unfold Token.readBy at h
  -- At the end of the source the token would be the end token.
  split at h
  · injection h with h
    injection h with h _
    rw [← h] at ht
    exact absurd ht (by decide)
  · next hend =>
      have hc : r.pos < r.sourceLength := by
        simp only [Reader.atEnd, decide_eq_true_eq] at hend
        omega
      rcases bind_eq_ok.mp h with ⟨⟨k, e⟩, he, h⟩
      rcases bind_eq_ok.mp h with ⟨text, _, h⟩
      injection h with h
      injection h with _ h
      exact ⟨hc, h ▸ readKindBy_advances hc he⟩

end CssTokens
