import CssTokens.Proofs.Source.Layout

/-!
# The Way to a Delimiter

Two searches of the source ahead find what one scan finds.

A search answers with the least offset of the bytes it looks for. Five bytes
matter inside a string, and they are shared between two searches over the same
window. The earlier of the two hits is the first of all five, also when one of
the searches finds nothing, or when the quote is a byte that the other one
looks for as well (`Window.IsFirst.merge`). Since an answer is determined by
what it says (`Window.IsFirst.unique`), the reader goes where it would go byte
by byte, whichever search is used.

The window ends with the source, so the zero bytes behind it are never found,
not even by a reader that takes zero for its quote.

## Main definitions

* `Window.IsFirst`: What a search answers.
* `ByteSearch.FindsFirst`: What is expected of a search.
* `DelimiterAt`: A byte of a text that matters inside a string.
* `LandsOn`: Where the way to a delimiter leads to.

## Theorems

* `Window.IsFirst.merge`: The earlier of two hits.
* `ByteSearch.plain_findsFirst`: The plain search is as expected.
* `Reader.skipToDelimiterBy_eq_scan`: Two searches and one scan.
* `skipToDelimiterBy_landsOn`: Where they lead to in a text.
-/

namespace CssTokens

/-- The byte of a window at an offset into it, when the window reaches that
    far. -/
def Window.byte? (w : Window) (i : Nat) : Option UInt8 :=
  if i < w.size then byteAt? w.source.padded (w.start + i) else none

/-- What a search of a window answers: the least offset whose byte is looked
    for, or nothing if no byte of the window is. -/
inductive Window.IsFirst (w : Window) (test : UInt8 → Prop) : Option Nat → Prop
  | found {i : Nat} {b : UInt8} (hb : w.byte? i = some b) (htest : test b)
      (hbefore : ∀ j < i, ∀ c, w.byte? j = some c → ¬ test c) : IsFirst w test (some i)
  | missing (h : ∀ j c, w.byte? j = some c → ¬ test c) : IsFirst w test none

/-- What is expected of a search: the least offset of the bytes that it is
    given. -/
structure ByteSearch.FindsFirst (search : ByteSearch) : Prop where
  ofTwo : ∀ a b (w : Window), w.IsFirst (fun x => x = a ∨ x = b) (search.ofTwo a b w)
  ofThree : ∀ a b c (w : Window),
    w.IsFirst (fun x => x = a ∨ x = b ∨ x = c) (search.ofThree a b c w)

/-- The reader of a text at an offset, which need not be between characters. -/
def Reader.atOffset (text : String) (p : Nat) : Reader := ⟨Source.ofString text, p⟩

/-- A byte of a text that matters inside a string: the quote, a backslash or one
    of three line breaks. -/
def DelimiterAt (text : String) (quote : UInt8) (i : Nat) (b : UInt8) : Prop :=
  byteAt? text i = some b ∧ (b = quote ∨ b = byteOf '\\' ∨ b = byteOf '\n' ∨ b = byteOf '\r' ∨
    b = byteOf '\x0c')

/-- Where the way to a delimiter leads to from an offset on, and what is told
    there. -/
inductive LandsOn (text : String) (quote : UInt8) (p : Nat) : UInt8 → Nat → Prop
  /-- The first delimiter. -/
  | delimiter {b : UInt8} {i : Nat} (hle : p ≤ i) (hb : DelimiterAt text quote i b)
      (hfirst : ∀ j c, p ≤ j → j < i → ¬ DelimiterAt text quote j c) : LandsOn text quote p b i
  /-- The end of the text, when no delimiter is left. -/
  | ended (h : ∀ j c, p ≤ j → ¬ DelimiterAt text quote j c) :
      LandsOn text quote p 0 text.utf8ByteSize

namespace Window

variable {w : Window} {p q : UInt8 → Prop} {o o' : Option Nat}

/-- There is one first byte. -/
theorem IsFirst.unique (h : w.IsFirst p o) (h' : w.IsFirst p o') : o = o' := by
  cases h with
  | @found i b hb hp hbefore =>
      cases h' with
      | @found k c hc hp' hbefore' =>
          -- Neither of two hits can stand before the other one.
          rcases Nat.lt_trichotomy i k with hlt | heq | hlt
          · exact absurd hp (hbefore' i hlt b hb)
          · rw [heq]
          · exact absurd hp' (hbefore k hlt c hc)
      | missing hnone => exact absurd hp (hnone i b hb)
  | missing hnone =>
      cases h' with
      | @found k c hc hp' _ => exact absurd hp' (hnone k c hc)
      | missing _ => rfl

/-- The first byte of either kind is the earlier one of the first bytes of each
    kind. -/
theorem IsFirst.merge (h : w.IsFirst p o) (h' : w.IsFirst q o') :
    w.IsFirst (fun b => p b ∨ q b) (Option.merge min o o') := by
  -- If both are found, the earlier one has neither kind of byte in front of it.
  cases h with
  | @found i b hb hp hbefore =>
      cases h' with
      | @found k c hc hq hbefore' =>
          rw [Option.merge_some_some]
          rcases Nat.le_total i k with hle | hle
          · rw [Nat.min_eq_left hle]
            refine .found hb (Or.inl hp) (fun j hj d hd => ?_)
            exact not_or.mpr ⟨hbefore j hj d hd, hbefore' j (Nat.lt_of_lt_of_le hj hle) d hd⟩
          · rw [Nat.min_eq_right hle]
            refine .found hc (Or.inr hq) (fun j hj d hd => ?_)
            exact not_or.mpr ⟨hbefore j (Nat.lt_of_lt_of_le hj hle) d hd, hbefore' j hj d hd⟩
      | missing hnone =>
          rw [Option.merge_none_right]
          exact .found hb (Or.inl hp) fun j hj d hd =>
            not_or.mpr ⟨hbefore j hj d hd, hnone j d hd⟩
  | missing hnone =>
      rw [Option.merge_none_left]
      cases h' with
      | @found k c hc hq hbefore' =>
          exact .found hc (Or.inr hq) fun j hj d hd =>
            not_or.mpr ⟨hnone j d hd, hbefore' j hj d hd⟩
      | missing hnone' => exact .missing fun j d hd => not_or.mpr ⟨hnone j d hd, hnone' j d hd⟩

theorem IsFirst.congr (h : w.IsFirst p o) (hpq : ∀ b, p b ↔ q b) : w.IsFirst q o :=
  funext (fun b => propext (hpq b)) ▸ h

end Window

namespace Source

/-- A scan ends at the byte that it tells. -/
theorem byteAt?_of_findByte {s : Source} {test : UInt8 → Bool} {p i : Nat} {b : UInt8}
    (h : s.findByte test p = some (i, b)) : byteAt? s.padded i = some b := by
  fun_induction findByte s test p with
  | case1 p hp byte ht =>
      simp only [Option.some.injEq, Prod.mk.injEq] at h
      rcases h with ⟨rfl, rfl⟩
      exact dif_pos _
  | case2 p hp byte ht ih => exact ih h
  | case3 p hp => injection h

/-- A scan passes over bytes that fail its test, up to what it finds or to the
    end of the source. -/
theorem test_of_findByte {s : Source} {test : UInt8 → Bool} {p j : Nat} {c : UInt8}
    (hj : p ≤ j) (hlt : j < ((s.findByte test p).map Prod.fst).getD s.length)
    (hc : byteAt? s.padded j = some c) : test c = false := by
  fun_induction findByte s test p with
  | case1 p hp byte ht => exact absurd hlt (Nat.not_lt_of_le hj)
  | case2 p hp byte ht ih =>
      rcases Nat.eq_or_lt_of_le hj with rfl | hj
      · have hbyte : byteAt? s.padded p = some byte := dif_pos _
        rw [hbyte, Option.some.injEq] at hc
        exact hc ▸ Bool.eq_false_iff.mpr ht
      · exact ih hj hlt
  | case3 p hp => exact absurd (Nat.lt_of_le_of_lt hj hlt) hp

end Source

/-- The least offset whose byte passes a test is the first such byte. -/
theorem Window.firstOf_isFirst (w : Window) (test : UInt8 → Bool) :
    w.IsFirst (fun b => test b = true) (w.firstOf test) := by
  have hpass (j : Nat) (c : UInt8) := @Source.test_of_findByte w.source test w.start j c
  have hle := w.start_le
  rw [firstOf]
  -- A scan speaks of offsets in the source, a window of offsets in itself.
  cases hfind : w.source.findByte test w.start with
  | none =>
      rw [hfind] at hpass
      refine .missing fun j c hc => ?_
      rw [byte?, size] at hc
      split at hc
      · rw [hpass _ c (Nat.le_add_right _ j) (show w.start + j < w.source.length by omega) hc]
        exact Bool.false_ne_true
      · injection hc
  | some found =>
      rcases found with ⟨i, b⟩
      have hbounds := Source.findByte_bounds hfind
      rw [hfind] at hpass
      show w.IsFirst _ (some (i - w.start))
      refine .found (b := b) ?_ hbounds.2.2 (fun j hj c hc => ?_)
      · rw [byte?, size, if_pos (by omega), Nat.add_sub_cancel' hbounds.1]
        exact Source.byteAt?_of_findByte hfind
      · rw [byte?, size] at hc
        split at hc
        · rw [hpass _ c (Nat.le_add_right _ j) (show w.start + j < i by omega) hc]
          exact Bool.false_ne_true
        · injection hc

/-- The search that looks at one byte after the other is as expected. -/
theorem ByteSearch.plain_findsFirst : plain.FindsFirst where
  ofTwo a b w := (w.firstOf_isFirst _).congr fun x => by simp
  ofThree a b c w := (w.firstOf_isFirst _).congr fun x => by simp [or_assoc]

namespace Reader

theorem isDelimiter_iff {quote b : UInt8} : isDelimiter quote b = true ↔
    (b = quote ∨ b = byteOf '\\' ∨ b = byteOf '\n') ∨ (b = byteOf '\r' ∨ b = byteOf '\x0c') := by
  rw [isDelimiter, Bool.or_eq_true, Bool.or_eq_true, beq_iff_eq, beq_iff_eq, isNewline_iff,
    ofUInt8_eq_iff (by decide), ofUInt8_eq_iff (by decide), ofUInt8_eq_iff (by decide), or_assoc,
    or_assoc, or_assoc]

/-- Two searches that share the delimiters find the first of all. -/
theorem delimiter_eq_firstOf {search : ByteSearch} (hsearch : search.FindsFirst) (quote : UInt8)
    (w : Window) : search.delimiter quote w = w.firstOf (isDelimiter quote) := by
  have hmerge := (hsearch.ofThree quote (byteOf '\\') (byteOf '\n') w).merge
    (hsearch.ofTwo (byteOf '\r') (byteOf '\x0c') w)
  exact (hmerge.congr fun b => isDelimiter_iff.symm).unique (w.firstOf_isFirst _)

/-- A window begins no later than its source ends, where a scan finds nothing. -/
theorem firstOf_windowFrom (s : Source) (test : UInt8 → Bool) (p : Nat) :
    (s.windowFrom p).firstOf test =
      (s.findByte test p).map fun found => found.1 - min p s.length := by
  have hmin : s.findByte test (min p s.length) = s.findByte test p := by
    rcases Nat.le_total p s.length with hle | hle
    · rw [Nat.min_eq_left hle]
    · rw [Nat.min_eq_right hle, Source.findByte, dif_neg (Nat.lt_irrefl _), Source.findByte,
        dif_neg (Nat.not_lt_of_le hle)]
  rw [Window.firstOf, ← hmin]
  rfl

/-- Two searches lead where one scan leads. -/
theorem skipToDelimiterBy_eq_scan {search : ByteSearch} (hsearch : search.FindsFirst) {r : Reader}
    (h : r.sourceLength ≤ maxPosition) (quote : UInt8) :
    r.skipToDelimiterBy search quote = .ok (r.scanToDelimiter quote) := by
  rw [skipToDelimiterBy, delimiter_eq_firstOf hsearch, firstOf_windowFrom, scanToDelimiter]
  cases hfind : r.source.findByte (isDelimiter quote) r.pos with
  | none => rfl
  | some found =>
      rcases found with ⟨p, b⟩
      have hbounds := Source.findByte_bounds hfind
      -- The start of the window and the offset into it make the position again.
      have hadd : addPosition (min r.pos r.source.length) (p - min r.pos r.source.length) =
          .ok p := by
        have hstart : min r.pos r.source.length + (p - min r.pos r.source.length) = p := by omega
        rw [sourceLength] at h
        rw [addPosition_of_le (by omega), hstart]
      have hcurrent : (r.moveTo p).current = .ok b := by
        show r.source.byteAt p = _
        rw [Source.byteAt, Source.byteAt?_of_findByte hfind]
      show addPosition (min r.pos r.source.length) (p - min r.pos r.source.length) >>= _ = _
      rw [hadd, ok_bind, hcurrent]
      rfl

/-- A delimiter of the text is a delimiter of its source. -/
theorem delimiterAt_iff {text : String} {quote : UInt8} {i : Nat} {b : UInt8} :
    DelimiterAt text quote i b ↔ i < text.utf8ByteSize ∧
      byteAt? (Source.ofString text).padded i = some b ∧ isDelimiter quote b = true := by
  rw [DelimiterAt, isDelimiter_iff, or_assoc, or_assoc]
  constructor
  · rintro ⟨hb, hmatters⟩
    have hi := lt_of_byteAt? hb
    exact ⟨hi, (Source.byteAt?_padded hi).trans hb, hmatters⟩
  · rintro ⟨hi, hb, hmatters⟩
    exact ⟨(Source.byteAt?_padded hi).symm.trans hb, hmatters⟩

/-- A scan goes to the first delimiter of the text. -/
theorem landsOn_scanToDelimiter {text : String} (h : text.utf8ByteSize ≤ maxPosition) (p : Nat)
    (quote : UInt8) :
    ∃ b q, (Reader.atOffset text p).scanToDelimiter quote = (b, Reader.atOffset text q) ∧
      LandsOn text quote (min p text.utf8ByteSize) b q := by
  have hlength := Source.length_ofString h
  have hpass (j : Nat) (c : UInt8) :=
    @Source.test_of_findByte (Source.ofString text) (isDelimiter quote) p j c
  unfold scanToDelimiter atOffset
  -- Finding nothing leads to the end, which is no place of a delimiter.
  cases hfind : (Source.ofString text).findByte (isDelimiter quote) p with
  | none =>
      rw [hfind] at hpass
      refine ⟨0, text.utf8ByteSize, ?_, .ended fun j c hj hc => ?_⟩
      · rw [← hlength]
        rfl
      · rcases delimiterAt_iff.mp hc with ⟨hlt, hb, hmatters⟩
        rw [hpass j c (by omega) (hlength.symm ▸ hlt) hb] at hmatters
        injection hmatters
  | some found =>
      rcases found with ⟨i, b⟩
      rcases Source.findByte_bounds hfind with ⟨hle, hlt, hmatters⟩
      rw [hlength] at hlt
      rw [hfind] at hpass
      refine ⟨b, i, rfl, .delimiter (by omega) ?_ fun j c hj hji hc => ?_⟩
      · exact delimiterAt_iff.mpr ⟨hlt, Source.byteAt?_of_findByte hfind, hmatters⟩
      · rcases delimiterAt_iff.mp hc with ⟨hltj, hb, hmatters⟩
        rw [hpass j c (by omega) hji hb] at hmatters
        injection hmatters

end Reader

/-- With a quote that is not zero, zero tells that no delimiter is left. -/
theorem LandsOn.eq_zero_iff {text : String} {quote : UInt8} {p q : Nat} {b : UInt8}
    (h : LandsOn text quote p b q) (hquote : quote ≠ 0) :
    b = 0 ↔ ∀ j c, p ≤ j → ¬ DelimiterAt text quote j c := by
  cases h with
  | delimiter hle hb hfirst =>
      constructor
      · rintro rfl
        rcases hb.2 with hb | hb | hb | hb | hb
        · exact absurd hb.symm hquote
        all_goals exact absurd hb (by decide)
      · intro hnone
        exact absurd hb (hnone q b hle)
  | ended hnone => exact iff_of_true rfl hnone

/-- From any position, between characters or not, two searches lead where one
    scan leads: to the first delimiter of the text from there on, or to its
    end. -/
theorem skipToDelimiterBy_landsOn {search : ByteSearch} (hsearch : search.FindsFirst)
    {text : String} (h : text.utf8ByteSize ≤ maxPosition) (p : Nat) (quote : UInt8) :
    ∃ b q, (Reader.atOffset text p).skipToDelimiterBy search quote =
        .ok (b, Reader.atOffset text q) ∧
      (Reader.atOffset text p).scanToDelimiter quote = (b, Reader.atOffset text q) ∧
      LandsOn text quote (min p text.utf8ByteSize) b q ∧
      (quote ≠ 0 →
        (b = 0 ↔ ∀ j c, min p text.utf8ByteSize ≤ j → ¬ DelimiterAt text quote j c)) := by
  have hlength : (Reader.atOffset text p).sourceLength ≤ maxPosition :=
    Nat.le_trans (Nat.le_of_eq (Source.length_ofString h)) h
  rcases Reader.landsOn_scanToDelimiter h p quote with ⟨b, q, hscan, hlands⟩
  refine ⟨b, q, ?_, hscan, hlands, hlands.eq_zero_iff⟩
  rw [Reader.skipToDelimiterBy_eq_scan hsearch hlength, hscan]

/-- Inside a character, with a quote that the text holds and its padding, too. -/
theorem skipToDelimiterBy_landsOn_null :
    ByteSearch.plain.FindsFirst ∧ "é\x00\r".utf8ByteSize ≤ maxPosition ∧
      ∃ b q, (Reader.atOffset "é\x00\r" 1).skipToDelimiterBy .plain 0 =
          .ok (b, Reader.atOffset "é\x00\r" q) ∧
        (Reader.atOffset "é\x00\r" 1).scanToDelimiter 0 = (b, Reader.atOffset "é\x00\r" q) ∧
        LandsOn "é\x00\r" 0 (min 1 "é\x00\r".utf8ByteSize) b q ∧
        ((0 : UInt8) ≠ 0 → (b = 0 ↔
          ∀ j c, min 1 "é\x00\r".utf8ByteSize ≤ j → ¬ DelimiterAt "é\x00\r" 0 j c)) := by
  have h : "é\x00\r".utf8ByteSize ≤ maxPosition := by decide
  exact ⟨ByteSearch.plain_findsFirst, h,
    skipToDelimiterBy_landsOn ByteSearch.plain_findsFirst h 1 0⟩

end CssTokens
