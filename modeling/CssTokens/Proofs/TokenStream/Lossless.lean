import CssTokens.Proofs.Drivers
import CssTokens.Proofs.TokenStream.Calls

/-!
# Nothing Is Lost and Nothing Fails

A text is read to its end, in tokens that make it up, and no call fails.

A stream that has been called any number of times stands behind the
characters of as many tokens, and the next call takes the piece of the text
that the following token covers. No token is empty, so the end is reached in
at most as many calls as there are characters, and the pieces that were taken
are the text. Behind the end a stream hands out the end token and stays. All
this needs one condition, that the text is short enough for a position to
tell the place behind its end and one more.

## Main definitions

* `Lossless`: What holds of every run over a text.

## Theorems

* `charCount_take_lt`: Some tokens cover fewer characters than all.
* `pos_lt_of_tokens_left`: A stream with a token ahead is before the end.
* `lossless_of_lt`: It does hold, for every text that is short enough.
-/

namespace CssTokens

open Reader

/-- What holds of every run over a text. -/
structure Lossless (text : String) : Prop where
  /-- No number of calls meets a fault. -/
  calls_ok : ∀ n, ∃ ts s, (TokenStream.ofString text).calls n = .ok (ts, s)
  /-- A call before the end takes a piece of the text, from where the stream
      stands to where the call leaves it. -/
  next_inside : ∀ n ts s, (TokenStream.ofString text).calls n = .ok (ts, s) →
    s.pos < text.utf8ByteSize →
    ∃ t s' before behind, s.next = .ok (t, s') ∧
      t.text ≠ "" ∧ t.kind ≠ .eof ∧ t.kind.isReserved = false ∧
      text = before ++ t.text ++ behind ∧ before.utf8ByteSize = s.pos ∧
      (before ++ t.text).utf8ByteSize = s'.pos
  /-- Calls before the end, no more than there are characters, lead to the end.
      What they hand out makes up the text, and is what the text is read as;
      all later calls hand out the end token and stay. -/
  reaches_end : ∃ n ts s, n ≤ text.length ∧
    (∀ k < n, ∃ us u, (TokenStream.ofString text).calls k = .ok (us, u) ∧
      u.pos < text.utf8ByteSize) ∧
    (TokenStream.ofString text).calls n = .ok (ts, s) ∧ s.pos = text.utf8ByteSize ∧
    String.join (ts.map Token.text) = text ∧
    (∀ m, ∃ s', s.calls m = .ok (List.replicate m Token.endOfInput, s') ∧
      s'.pos = text.utf8ByteSize) ∧
    tokenize text = .ok ts ∧ ∀ t ∈ ts, t.kind ≠ .eof
  /-- The listing is made, and a sink without a bound takes all of it, also if it
      is written as it is made. -/
  listing : ∀ skipTrivia (sink : Sink), sink.room = none →
    ∃ l out, Listing.ofString text skipTrivia = .ok l ∧ l.writeTo sink = .ok out ∧
      (Listing.writeText text skipTrivia sink).1 = .finished l.count out
  /-- The report is made, with the line and the column of all that it finds. -/
  report : ∃ r events, Report.ofString text = .ok (r, events)

/-- Some tokens cover fewer characters than all of them. -/
theorem charCount_take_lt {xs : List Lexeme} {k : Nat} (hk : k < xs.length)
    (hne : ∀ x ∈ xs, x.chars ≠ []) : charCount (xs.take k) < charCount xs := by
  induction xs generalizing k with
  | nil => exact absurd hk (Nat.not_lt_zero k)
  | cons x xs ih =>
      have hpos := List.length_pos_iff.mpr (hne x List.mem_cons_self)
      cases k with
      | zero =>
          -- The first token is left, and it is not empty.
          rw [List.take_zero, charCount_nil, charCount_cons]
          omega
      | succ k =>
          have := ih (Nat.lt_of_succ_lt_succ hk) fun y hy => hne y (List.mem_cons_of_mem x hy)
          rw [List.take_succ_cons, charCount_cons, charCount_cons]
          omega

/-- A stream with a token ahead is before the end. -/
theorem pos_lt_of_tokens_left (text : String) {k : Nat}
    (hk : k < (Plain.tokens text.toList).length) :
    (placed text (charCount ((Plain.tokens text.toList).take k))).pos < text.utf8ByteSize := by
  have hcount := charCount_take_lt hk fun x hx => (Plain.tokens_spec text.toList x hx).1
  rw [Plain.charCount_tokens] at hcount
  have hleft := length_le_byteCount
    (text.toList.drop (charCount ((Plain.tokens text.toList).take k)))
  rw [List.length_drop] at hleft
  have hsize := pos_placed_add_drop text (charCount ((Plain.tokens text.toList).take k))
  omega

theorem join_text_tokens (text : String) :
    String.join (((Plain.tokens text.toList).map Lexeme.token).map Token.text) = text := by
  rw [← String.toList_inj, toList_join_text, map_lexeme_token, Plain.flatten_tokens]

/-- Every text that is short enough is read to its end, and nothing is lost. -/
theorem lossless_of_lt {text : String} (h : text.utf8ByteSize < maxPosition) : Lossless text := by
  -- What any number of calls hands out is known, and the parts differ in how many there
  -- are.
  have hcalls := TokenStream.calls_ofString h
  refine ⟨?_, ?_, ?_, ?_, ?_⟩
  · -- Any number of calls.
    intro n
    exact ⟨_, _, hcalls n⟩
  · -- One call before the end. The stream stands where the calls have led.
    intro n ts s hs hpos
    rw [hcalls n] at hs
    injection hs with hs
    injection hs with _ hs
    subst hs
    exact TokenStream.next_inside h hpos _
  · -- As many calls as there are tokens lead to the end.
    have hend := hcalls (Plain.tokens text.toList).length
    rw [List.take_length, Nat.sub_self, List.replicate_zero, List.append_nil,
      Plain.charCount_tokens] at hend
    have hover : text.toList.drop text.toList.length = [] := List.drop_length
    have hpos : (placed text text.toList.length).pos = text.utf8ByteSize := by
      have hsize := pos_placed_add_drop text text.toList.length
      rw [hover, byteCount_nil, Nat.add_zero] at hsize
      exact hsize
    refine ⟨_, _, _, ?_, ?_, hend, hpos, join_text_tokens text, ?_, ?_, ?_⟩
    · rw [← String.length_toList]
      exact Plain.length_tokens_le text.toList
    · intro k hk
      exact ⟨_, _, hcalls k, pos_lt_of_tokens_left text hk⟩
    · intro m
      exact ⟨_, TokenStream.calls_end (Nat.le_of_lt h) hover _ m, hpos⟩
    · rw [tokenize_eq_ok h]
    · intro t ht
      rcases List.mem_map.mp ht with ⟨x, hx, rfl⟩
      exact (Plain.tokens_spec text.toList x hx).2.1
  · -- The listing.
    intro skipTrivia sink hroom
    rcases Listing.ofString_eq_ok h skipTrivia with ⟨l, hl, _⟩
    have hout : l.writeTo sink = .ok _ := Sink.writeAll_of_room hroom l.lines
    refine ⟨l, _, hl, hout, ?_⟩
    rw [Listing.fst_writeText hl, Listing.print, hout]
    rfl
  · -- The report.
    rcases Report.ofString_eq_ok h with ⟨r, events, hr, _⟩
    exact ⟨r, events, hr⟩

/-- A text with a NUL character, a character of three bytes and a string that
    is cut off. -/
theorem lossless_cut_string : "\x00€'\\".utf8ByteSize < maxPosition ∧ Lossless "\x00€'\\" :=
  ⟨by decide, lossless_of_lt (by decide)⟩

end CssTokens
