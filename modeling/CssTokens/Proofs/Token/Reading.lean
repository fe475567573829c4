import CssTokens.Proofs.Reader.Placed

/-!
# Reading a Token Is Reading It Plainly

From a reader between characters, the token that is read is the one that the
plain reading finds in the characters ahead.

Each way to read has its plain counterpart, and one statement: if the
counterpart finds a kind and a number of characters, the reader finds the same
kind and stands behind as many characters. Nothing faults on the way, as long
as the text is no longer than a position can tell. One way asks for more: the
look behind a name goes one position further than the name, so that the
position behind a name must not be the last one. It is the last one only if a
name ends a text that is as long as a text may be.

## Theorems

* `skipName_placed`, `skipDigits_placed`, `skipBlanks_placed`: The runs, at any
  reader between characters.
* `readName_placed`, `readNumber_placed`, `readStringBy_placed`: The kinds that
  take some deciding.
* `readKindBy_placed`: The kind and the length of the token ahead.
* `Token.readBy_placed`, `Token.readBy_placed_end`: The next token.
* `Token.readBy_eq_read`: The search makes no difference.
-/

namespace CssTokens

open Reader

/-- A name begins at every character above ASCII. -/
theorem Lead.ofChar_nonAscii {c : Char} (hc : 0x80 ≤ c.toNat) : Lead.ofChar c = .nameStart :=
  Lead.ofChar_of_holds (isNameStart_of_nonAscii hc)

theorem asciiBased_ofChar : AsciiBased Lead.ofChar := by
  intro c d hc hd
  rw [Lead.ofChar_nonAscii hc, Lead.ofChar_nonAscii hd]

theorem skipName_placed {text : String} (h : text.utf8ByteSize ≤ maxPosition) (n : Nat) :
    skipName (placed text n) =
      .ok (placed text (n + Plain.run isNameChar (text.toList.drop n))) := by
  rw [skipName, isNameByte_eq]
  exact skipWhile_placed asciiBased_isNameChar rfl h n

theorem skipDigits_placed {text : String} (h : text.utf8ByteSize ≤ maxPosition) (n : Nat) :
    skipDigits (placed text n) =
      .ok (placed text (n + Plain.run Char.isDigit (text.toList.drop n))) := by
  rw [skipDigits, isDigitByte_eq]
  exact skipWhile_placed asciiBased_isDigit rfl h n

theorem skipBlanks_placed {text : String} (h : text.utf8ByteSize ≤ maxPosition) (n : Nat) :
    skipBlanks (placed text n) =
      .ok (placed text (n + Plain.run isBlank (text.toList.drop n))) := by
  rw [skipBlanks, isBlankByte_eq]
  exact skipWhile_placed asciiBased_isBlank rfl h n

theorem readUnmatched_placed {text : String} (h : text.utf8ByteSize ≤ maxPosition) {n : Nat}
    {c : Char} {cs : List Char} (hd : text.toList.drop n = c :: cs) :
    readUnmatched (placed text n) = .ok (.unmatched, placed text (n + 1)) := by
  rw [readUnmatched, advanceChar_placed h hd, ok_map]

/-- A position in front of a character has a successor. -/
theorem pos_lt_of_drop_eq_cons {text : String} (h : text.utf8ByteSize ≤ maxPosition) {n : Nat}
    {c : Char} {cs : List Char} (hd : text.toList.drop n = c :: cs) :
    (placed text n).pos < maxPosition := by
  have hsum := pos_placed_add_drop text n
  have := c.utf8Size_pos
  rw [hd, byteCount_cons] at hsum
  omega

/-- The byte behind an ASCII character tells the class of the next one. -/
theorem peek_class {test : Char → Bool} (ht : AsciiBased test) (hnull : test '\x00' = false)
    {text : String} (h : text.utf8ByteSize ≤ maxPosition) {n : Nat} {c : Char} {cs : List Char}
    (hd : text.toList.drop n = c :: cs) (hc : c.toNat < 0x80) :
    ∃ b, (placed text n).peek = .ok b ∧ test (Char.ofUInt8 b) = Plain.starts test cs := by
  refine ⟨byteAhead cs 0, ?_, ht.byteAhead_eq_starts hnull cs⟩
  rw [peek_placed (pos_lt_of_drop_eq_cons h hd), hd, byteAhead_succ hc]

theorem readMarked_placed {text : String} (h : text.utf8ByteSize ≤ maxPosition) {n : Nat}
    {c : Char} {cs : List Char} (hd : text.toList.drop n = c :: cs) (hc : c.toNat < 0x80)
    (kind : Kind) :
    readMarked kind (placed text n) =
      .ok (if Plain.starts isNameStart cs then
          (kind, placed text (n + (1 + Plain.run isNameChar cs)))
        else (.unmatched, placed text (n + 1))) := by
  rcases peek_class asciiBased_isNameStart rfl h hd hc with ⟨b, hb, hstart⟩
  rw [readMarked, hb, ok_bind, isNameStartByte_eq, ByteTest.ofClass, hstart]
  split
  · rw [advance_placed h hd hc, ok_bind, skipName_placed h, ok_bind, drop_succ_of_drop_eq_cons hd,
      Nat.add_assoc]
    rfl
  · exact readUnmatched_placed h hd

theorem opens_cons (c : Char) (cs : List Char) :
    decide ('(' ∈ (c :: cs).take 2) = (c == '(' || Plain.starts (· == '(') cs) := by
  rw [Bool.eq_iff_iff, decide_eq_true_eq, Bool.or_eq_true, beq_iff_eq, List.take_succ_cons,
    List.mem_cons, eq_comm]
  refine or_congr_right ?_
  cases cs with
  | nil => exact iff_of_false List.not_mem_nil Bool.false_ne_true
  | cons d ds =>
      rw [List.take_succ_cons, List.take_zero, List.mem_singleton, eq_comm, Plain.starts,
        beq_iff_eq]

/-- A parenthesis is looked for in the next two characters, given that no name
    character is ahead. -/
theorem opensCall_placed {text : String} {n : Nat} (hpos : (placed text n).pos < maxPosition)
    (hstop : Plain.starts isNameChar (text.toList.drop n) = false) :
    opensCall (placed text n) = .ok (decide ('(' ∈ (text.toList.drop n).take 2)) := by
  rw [opensCall, current_placed, ok_bind, byteAhead_beq (by decide) (by decide),
    peek_placed hpos, ok_bind]
  cases hd : text.toList.drop n with
  | nil => rfl
  | cons c cs =>
      rw [hd] at hstop
      rw [byteAhead_succ (ascii_of_not_isNameChar hstop),
        byteAhead_beq (by decide) (by decide), opens_cons, Plain.starts]
      cases c == '(' <;> rfl

theorem isUrlName_ofList (cs : List Char) : isUrlName (String.ofList cs) = Plain.isUrl cs := by
  rw [isUrlName, String.toList_ofList, Plain.isUrl, Bool.eq_iff_iff, beq_iff_eq,
    decide_eq_true_eq]

/-- A name. The position behind it has to have a successor. -/
theorem readName_placed {text : String} (h : text.utf8ByteSize ≤ maxPosition) {n : Nat}
    (hroom : (placed text (n + Plain.run isNameChar (text.toList.drop n))).pos < maxPosition) :
    readName (placed text n) = .ok ((Plain.name (text.toList.drop n)).1,
      placed text (n + (Plain.name (text.toList.drop n)).2)) := by
  have hstop := Plain.starts_drop_run isNameChar (text.toList.drop n)
  rw [List.drop_drop] at hstop
  rw [readName, skipName_placed h, ok_bind, opensCall_placed hroom hstop, ok_bind, Plain.name,
    List.drop_drop]
  -- The text of a name is looked at only when a parenthesis is near.
  by_cases hcall : '(' ∈ (text.toList.drop (n + Plain.run isNameChar (text.toList.drop n))).take 2
  · rw [decide_eq_true hcall, if_pos rfl, sliceFrom_placed h, ok_bind, isUrlName_ofList,
      if_pos hcall]
    rfl
  · rw [decide_eq_false hcall, if_neg Bool.false_ne_true, if_neg hcall]
    rfl

theorem skipNumber_placed {text : String} (h : text.utf8ByteSize ≤ maxPosition) (n : Nat) :
    skipNumber (placed text n) = .ok (placed text (n + Plain.numeral (text.toList.drop n))) := by
  rw [skipNumber, skipDigits_placed h, ok_bind, current_placed, ok_bind,
    byteAhead_beq (by decide) (by decide), ← List.drop_drop]
  -- Behind a point there may be more digits; without one the numeral is over.
  by_cases hpoint : Plain.starts (· == '.')
      ((text.toList.drop n).drop (Plain.run Char.isDigit (text.toList.drop n))) = true
  · rcases Plain.starts_beq_iff.mp hpoint with ⟨ds, hd⟩
    rw [if_pos hpoint, Plain.numeral_of_point hd]
    rw [List.drop_drop] at hd
    rw [advance_placed h hd (by decide), ok_bind, skipDigits_placed h,
      drop_succ_of_drop_eq_cons hd]
    congr 2
    omega
  · rw [if_neg hpoint, Plain.numeral_of_no_point (Bool.eq_false_iff.mpr hpoint)]
    rfl

theorem readNumber_placed {text : String} (h : text.utf8ByteSize ≤ maxPosition) (n : Nat) :
    readNumber (placed text n) = .ok ((Plain.number (text.toList.drop n)).1,
      placed text (n + (Plain.number (text.toList.drop n)).2)) := by
  rw [readNumber, skipNumber_placed h, ok_bind, current_placed, ok_bind,
    byteAhead_beq (by decide) (by decide), isNameByte_eq, ByteTest.ofClass,
    asciiBased_isNameChar.byteAhead_eq_starts rfl, ← List.drop_drop]
  -- A percent sign is tested first, and then whether a unit follows.
  by_cases hpercent : Plain.starts (· == '%')
      ((text.toList.drop n).drop (Plain.numeral (text.toList.drop n))) = true
  · rcases Plain.starts_beq_iff.mp hpercent with ⟨ds, hd⟩
    rw [if_pos hpercent, Plain.number_of_percent hd]
    rw [List.drop_drop] at hd
    rw [advance_placed h hd (by decide)]
    rfl
  · rw [if_neg hpercent, Plain.number_of_no_percent (Bool.eq_false_iff.mpr hpercent)]
    split
    · rw [skipName_placed h, ok_bind, ← List.drop_drop, Nat.add_assoc]
      rfl
    · rfl

theorem readPoint_placed {text : String} (h : text.utf8ByteSize ≤ maxPosition) {n : Nat}
    {cs : List Char} (hd : text.toList.drop n = '.' :: cs) :
    readPoint (placed text n) =
      .ok (if Plain.starts Char.isDigit cs then ((Plain.number ('.' :: cs)).1,
          placed text (n + (Plain.number ('.' :: cs)).2))
        else (.unmatched, placed text (n + 1))) := by
  -- The byte behind the point is in the class exactly if the next character is.
  rcases peek_class asciiBased_isDigit rfl h hd (by decide) with ⟨b, hb, hdigit⟩
  rw [readPoint, hb, ok_bind, isDigitByte_eq, ByteTest.ofClass, hdigit]
  split
  · rw [readNumber_placed h, hd]
  · exact readUnmatched_placed h hd

/-- One round of reading a string: the way to what matters, and what follows
    from it. -/
theorem readStringBy_eq {search : ByteSearch} {q b : UInt8} {r s : Reader}
    (hs : r.skipToDelimiterBy search q = .ok (b, s)) :
    readStringBy search q r =
      if b == byteOf '\\' then do
        let last ← s.atEndAfter 1
        if last then return (.string, s)
        let next ← s.peek
        let e ← s.advanceBy (if isNewlineByte next then 2 else 1)
        readStringBy search q e
      else if isNewlineByte b then (Kind.badString, ·) <$> s.advance
      else if b == 0 then .ok (.string, s)
      else (Kind.string, ·) <$> s.advance := by
  -- The definition keeps its equations for the measure, so the search is taken apart
  -- before anything can be rewritten in it.
  rw [readStringBy]
  split
  · next hs' =>
      rw [hs] at hs'
      injection hs'
  · next b' s' hs' =>
      rw [hs] at hs'
      injection hs' with hs'
      injection hs' with hb hs'
      subst hb hs'
      split
      · -- Each request of the chain either faults or gives what the rest needs.
        split
        · next hend => rw [hend]; rfl
        · next hend => rw [hend]; rfl
        · next hend =>
            rw [hend]
            split
            · next hpeek => rw [ok_bind, if_neg Bool.false_ne_true, hpeek]; rfl
            · next hpeek =>
                rw [ok_bind, if_neg Bool.false_ne_true, hpeek, ok_bind]
                split
                · next hadv => rw [hadv]; rfl
                · next hadv => rw [hadv, ok_bind]
      · rfl

/-- Past a backslash the text goes on or is over. -/
theorem atEndAfter_placed {text : String} (h : text.utf8ByteSize ≤ maxPosition) {n : Nat}
    {c : Char} {cs : List Char} (hd : text.toList.drop n = c :: cs) (hc : c.toNat < 0x80) :
    (placed text n).atEndAfter 1 = .ok cs.isEmpty := by
  have hpos := pos_lt_of_drop_eq_cons h hd
  have hsucc := pos_placed_succ hd
  have hend := atEnd_placed h (n + 1)
  rw [utf8Size_of_ascii hc] at hsucc
  rw [drop_succ_of_drop_eq_cons hd, atEnd, hsucc] at hend
  rw [atEndAfter, addPosition_of_le (Nat.succ_le_of_lt hpos), ok_map, ← hend]
  rfl

/-- The step over a backslash, and over the line break that it protects. -/
theorem advance_escape_placed {text : String} (h : text.utf8ByteSize ≤ maxPosition) {n : Nat}
    {d : Char} {ds : List Char} (hd : text.toList.drop n = '\\' :: d :: ds) :
    (placed text n).advanceBy (if isNewline d then 2 else 1) =
      .ok (placed text (n + if isNewline d then 2 else 1)) := by
  refine advanceBy_placed h ?_
  rw [hd]
  split
  · next hline =>
      rw [List.take_succ_cons, List.take_succ_cons, List.take_zero, byteCount_cons, byteCount_cons,
        utf8Size_of_ascii (ascii_of_isNewline hline)]
      rfl
  · rfl

section Rounds

/-! One round, by what is ahead after the way: nothing, a backslash, a line
break, the quote. -/

variable {search : ByteSearch} {text : String} {quote : Char} {r : Reader} {m : Nat}

theorem readStringBy_over
    (hs : r.skipToDelimiterBy search (byteOf quote) =
      .ok (byteAhead (text.toList.drop m) 0, placed text m))
    (hd : text.toList.drop m = []) :
    readStringBy search (byteOf quote) r = .ok (.string, placed text m) := by
  rw [readStringBy_eq hs, hd]
  rfl

theorem readStringBy_backslash (h : text.utf8ByteSize ≤ maxPosition)
    (hs : r.skipToDelimiterBy search (byteOf quote) =
      .ok (byteAhead (text.toList.drop m) 0, placed text m))
    {cs : List Char} (hd : text.toList.drop m = '\\' :: cs) :
    readStringBy search (byteOf quote) r =
      if cs.isEmpty then .ok (.string, placed text m)
      else readStringBy search (byteOf quote)
        (placed text (m + if Plain.starts isNewline cs then 2 else 1)) := by
  -- What is ahead is the backslash, which is tested for first.
  have hbeq : byteAhead (text.toList.drop m) 0 == byteOf '\\' := by
    rw [byteAhead_beq (by decide) (by decide), hd]
    rfl
  rw [readStringBy_eq hs, if_pos hbeq, atEndAfter_placed h hd (by decide), ok_bind]
  -- At the end of the text the backslash is left outside.
  cases cs with
  | nil => rfl
  | cons d ds =>
      rcases peek_class asciiBased_isNewline rfl h hd (by decide) with ⟨b, hb, hnext⟩
      rw [List.isEmpty_cons, if_neg Bool.false_ne_true, hb, ok_bind, isNewlineByte_eq,
        ByteTest.ofClass, hnext, Plain.starts, advance_escape_placed h hd]
      rfl

theorem readStringBy_line_break (h : text.utf8ByteSize ≤ maxPosition)
    (hs : r.skipToDelimiterBy search (byteOf quote) =
      .ok (byteAhead (text.toList.drop m) 0, placed text m))
    {c : Char} {cs : List Char} (hd : text.toList.drop m = c :: cs) (hc : isNewline c = true) :
    readStringBy search (byteOf quote) r = .ok (.badString, placed text (m + 1)) := by
  have hbeq : ¬ (byteAhead (text.toList.drop m) 0 == byteOf '\\') = true := by
    rw [byteAhead_beq (by decide) (by decide), hd, Plain.starts, beq_iff_eq]
    exact ne_backslash_of_isNewline hc
  rw [readStringBy_eq hs, if_neg hbeq, hd, isNewlineByte_eq, ByteTest.ofClass,
    asciiBased_isNewline.byteAhead_cons, if_pos hc, advance_placed h hd (ascii_of_isNewline hc)]
  rfl

theorem readStringBy_close (h : text.utf8ByteSize ≤ maxPosition) (hq : isQuote quote = true)
    (hs : r.skipToDelimiterBy search (byteOf quote) =
      .ok (byteAhead (text.toList.drop m) 0, placed text m))
    {cs : List Char} (hd : text.toList.drop m = quote :: cs) :
    readStringBy search (byteOf quote) r = .ok (.string, placed text (m + 1)) := by
  have hbyte : byteAhead (text.toList.drop m) 0 = byteOf quote := by
    rw [← beq_iff_eq, byteAhead_beq (isQuote_spec hq).1 (isQuote_spec hq).2.1, hd, Plain.starts,
      beq_self_eq_true]
  -- A quote is none of the bytes that are tested for before.
  have hne : ¬ (byteOf quote == byteOf '\\') = true ∧ ¬ (byteOf quote == 0) = true ∧
      ¬ isNewlineByte (byteOf quote) = true := by
    rcases isQuote_iff.mp hq with rfl | rfl <;> decide
  rw [readStringBy_eq hs, hbyte, if_neg hne.1, if_neg hne.2.2, if_neg hne.2.1,
    advance_placed h hd (isQuote_spec hq).1]
  rfl

end Rounds

/-- The rest of a string, behind its opening quote. The induction is on the
    characters that are left, which a backslash makes fewer. -/
theorem readStringBy_placed {search : ByteSearch} (hsearch : search.FindsFirst)
    {quote : Char} (hq : isQuote quote = true) {text : String}
    (h : text.utf8ByteSize ≤ maxPosition) (k : Nat) :
    ∀ n : Nat, (text.toList.drop n).length < k →
      readStringBy search (byteOf quote) (placed text n) =
        .ok ((Plain.stringRest quote (text.toList.drop n)).1,
          placed text (n + (Plain.stringRest quote (text.toList.drop n)).2)) := by
  rcases isQuote_spec hq with ⟨hascii, hnull, hslash, hline⟩
  induction k with
  | zero =>
      intro n hk
      exact absurd hk (Nat.not_lt_zero _)
  | succ k ih =>
      intro n hk
      have hskip := skipToDelimiterBy_placed hsearch hascii h (n := n) rfl
      have hstop := Plain.starts_drop_run (fun c => !isStop quote c) (text.toList.drop n)
      rw [Plain.stringRest_pass]
      rw [List.drop_drop] at hstop ⊢
      rw [← Nat.add_assoc]
      -- Where the way leads matters only by what is ahead there.
      generalize hm : n + Plain.run (fun c => !isStop quote c) (text.toList.drop n) = m
        at hskip hstop ⊢
      rw [List.length_drop] at hk
      cases hd : text.toList.drop m with
      | nil => exact readStringBy_over hskip hd
      | cons c cs =>
          rw [hd, Plain.starts, Bool.not_eq_false', isStop, Bool.or_eq_true, Bool.or_eq_true,
            beq_iff_eq, beq_iff_eq] at hstop
          have hlen := congrArg List.length hd
          rw [List.length_drop, List.length_cons] at hlen
          -- What matters is the quote, a backslash or a line break.
          rcases hstop with (rfl | rfl) | hc
          · rw [readStringBy_close h hq hskip hd, Plain.stringRest_quote]
          · rw [readStringBy_backslash h hskip hd]
            have hd1 := drop_succ_of_drop_eq_cons hd
            cases cs with
            | nil =>
                rw [Plain.stringRest_last_backslash hslash.symm]
                rfl
            | cons d ds =>
                -- The next round starts behind the backslash, and behind the
                -- line break that it protects.
                have hd2 := drop_succ_of_drop_eq_cons hd1
                rw [List.isEmpty_cons, if_neg Bool.false_ne_true, Plain.starts]
                by_cases hnl : isNewline d = true
                · rw [if_pos hnl, ih (m + 2) (by rw [List.length_drop]; omega), hd2,
                    Plain.stringRest_escape hslash.symm hnl, Nat.add_assoc, Nat.add_comm 2]
                · rw [if_neg hnl, ih (m + 1) (by rw [List.length_drop]; omega), hd1,
                    Plain.stringRest_backslash hslash.symm (Bool.eq_false_iff.mpr hnl),
                    Nat.add_assoc, Nat.add_comm 1]
          · have hne : c ≠ quote := by
              rintro rfl
              rw [hc] at hline
              injection hline
            rw [readStringBy_line_break h hskip hd hc, Plain.stringRest_newline hne hc]

/-- Only a name begins above ASCII. -/
theorem ascii_of_lead {c : Char} {l : Lead} (hl : Lead.ofChar c = l) (hne : l ≠ .nameStart) :
    c.toNat < 0x80 := by
  rcases Nat.lt_or_ge c.toNat 0x80 with hc | hc
  · exact hc
  · exact absurd (hl.symm.trans (Lead.ofChar_nonAscii hc)) hne

/-- The position behind a name, if a name is ahead, has a successor. -/
def RoomBehindName (text : String) (n : Nat) : Prop :=
  Plain.starts isNameStart (text.toList.drop n) = true →
    (placed text (n + Plain.run isNameChar (text.toList.drop n))).pos < maxPosition

theorem roomBehindName_of_lt {text : String} (h : text.utf8ByteSize < maxPosition) (n : Nat) :
    RoomBehindName text n := by
  intro _
  have := pos_placed_add_drop text (n + Plain.run isNameChar (text.toList.drop n))
  omega

/-- The kind and the length of the token ahead. -/
theorem readKindBy_placed {search : ByteSearch} (hsearch : search.FindsFirst) {text : String}
    (h : text.utf8ByteSize ≤ maxPosition) {n : Nat}
    (hroom : RoomBehindName text n) {c : Char} {cs : List Char}
    (hd : text.toList.drop n = c :: cs) :
    readKindBy search (placed text n) =
      .ok ((Plain.firstAt c cs).1, placed text (n + (Plain.firstAt c cs).2)) := by
  have hholds := Lead.ofChar_holds c
  rw [readKindBy, current_placed, hd, ok_bind, asciiBased_ofChar.byteAhead_cons,
    Plain.firstAt_eq_ofLead]
  -- Both sides are told by the same groups, so there is one case for each.
  cases hl : Lead.ofChar c with
  | blank =>
      rw [hl] at hholds
      have hrun : Plain.run isBlank (c :: cs) = 1 + Plain.run isBlank cs := by
        rw [Plain.run_cons hholds, Nat.add_comm]
      show skipBlanks _ >>= _ = _
      rw [skipBlanks_placed h, ok_bind, hd, hrun]
      rfl
  | quote =>
      rw [hl] at hholds
      have hq : isQuote c = true := hholds
      have hbyte : byteAhead (c :: cs) 0 = byteOf c := by
        rw [← beq_iff_eq, byteAhead_beq (isQuote_spec hq).1 (isQuote_spec hq).2.1, Plain.starts,
          beq_self_eq_true]
      show advance _ >>= readStringBy search (byteAhead (c :: cs) 0) = _
      rw [advance_placed h hd (isQuote_spec hq).1, ok_bind, hbyte,
        readStringBy_placed hsearch hq h _ _ (Nat.lt_succ_self _), drop_succ_of_drop_eq_cons hd,
        Nat.add_assoc]
      rfl
  | punctuation kind =>
      show advance _ >>= _ = _
      rw [advance_placed h hd (ascii_of_lead hl (by intro hne; injection hne))]
      rfl
  | mark kind =>
      show readMarked kind _ = _
      rw [readMarked_placed h hd (ascii_of_lead hl (by intro hne; injection hne)), Plain.ofLead]
      split <;> rfl
  | nameStart =>
      rw [hl] at hholds
      rw [RoomBehindName, hd] at hroom
      show readName _ = _
      rw [readName_placed h (by rw [hd]; exact hroom hholds), hd]
      rfl
  | digit =>
      show readNumber _ = _
      rw [readNumber_placed h, hd]
      rfl
  | point =>
      rw [hl] at hholds
      rw [show c = '.' from hholds] at hd ⊢
      show readPoint _ = _
      rw [readPoint_placed h hd, Plain.ofLead]
      split <;> rfl
  | other => exact readUnmatched_placed h hd

/-- The token ahead is the first token of what is ahead, whichever search is
    used. -/
theorem Token.readBy_placed {search : ByteSearch} (hsearch : search.FindsFirst) {text : String}
    (h : text.utf8ByteSize ≤ maxPosition) {n m : Nat} (hroom : RoomBehindName text n)
    {kind : Kind} (hfirst : Plain.first (text.toList.drop n) = some (kind, m)) :
    Token.readBy search (placed text n) =
      .ok ((Lexeme.token ⟨kind, (text.toList.drop n).take m⟩), placed text (n + m)) := by
  cases hd : text.toList.drop n with
  | nil =>
      rw [hd] at hfirst
      injection hfirst
  | cons c cs =>
      rw [hd, Plain.first, Option.some.injEq] at hfirst
      -- The kind and the length are known, and the text is cut out between the two readers.
      have hkind := readKindBy_placed hsearch h hroom hd
      rw [hfirst] at hkind
      rw [Token.readBy, atEnd_placed h, hd, List.isEmpty_cons, if_neg Bool.false_ne_true, hkind]
      show sliceFrom (placed text (n + m)) _ >>= _ = _
      rw [sliceFrom_placed h, ok_bind, hd]
      rfl

/-- Behind the last character nothing is ahead but the end. -/
theorem Token.readBy_placed_end {search : ByteSearch} {text : String}
    (h : text.utf8ByteSize ≤ maxPosition) {n : Nat} (hd : text.toList.drop n = []) :
    Token.readBy search (placed text n) = .ok (Token.endOfInput, placed text n) := by
  rw [Token.readBy, atEnd_placed h, hd]
  rfl

/-- What the plain search finds, every search finds that finds the first byte. -/
theorem skipToDelimiterBy_of_plain {search : ByteSearch} (hsearch : search.FindsFirst)
    {quote b : UInt8} {r s : Reader} (h : r.sourceLength ≤ maxPosition)
    (hs : r.skipToDelimiterBy .plain quote = .ok (b, s)) :
    r.skipToDelimiterBy search quote = .ok (b, s) := by
  rw [skipToDelimiterBy_eq_scan hsearch h, ← hs,
    skipToDelimiterBy_eq_scan ByteSearch.plain_findsFirst h]

/-- Strings are read alike by all searches that find the first byte, between
    characters or not. -/
theorem readStringBy_eq_plain {search : ByteSearch} (hsearch : search.FindsFirst) {quote : UInt8}
    {r : Reader} (h : r.sourceLength ≤ maxPosition) :
    readStringBy search quote r = readStringBy .plain quote r := by
  -- The searches are asked in the same places, so they agree round by round.
  have hfound {r s : Reader} {b : UInt8} (h : r.sourceLength ≤ maxPosition)
      (hs : r.skipToDelimiterBy .plain quote = .ok (b, s)) :=
    readStringBy_eq (skipToDelimiterBy_of_plain hsearch h hs)
  -- The induction follows the plain reading. Nothing is said of what is ahead, so the
  -- faults are among the cases.
  fun_induction readStringBy .plain quote r with
  | case1 r f hs =>
      rw [skipToDelimiterBy_eq_scan ByteSearch.plain_findsFirst h] at hs
      injection hs
  | case2 r b s hs hb f hend =>
      rw [hfound h hs, if_pos hb, hend]
      rfl
  | case3 r b s hs hb hend =>
      rw [hfound h hs, if_pos hb, hend]
      rfl
  | case4 r b s hs hb hend f hpeek =>
      rw [hfound h hs, if_pos hb, hend, ok_bind, if_neg Bool.false_ne_true, hpeek]
      rfl
  | case5 r b s hs hb hend next hpeek f he =>
      rw [dite_eq_ite] at he
      rw [hfound h hs, if_pos hb, hend, ok_bind, if_neg Bool.false_ne_true, hpeek,
        ok_bind, he]
      rfl
  | case6 r b s hs hb hend next hpeek e he ih =>
      have hlength : e.sourceLength = r.sourceLength := by
        rw [advanceBy_eq_ok he]
        exact congrArg Source.length (skipToDelimiterBy_bounds hs).1
      rw [dite_eq_ite] at he
      rw [hfound h hs, if_pos hb, hend, ok_bind, if_neg Bool.false_ne_true, hpeek,
        ok_bind, he, ok_bind]
      exact ih (hlength.symm ▸ h)
  | case7 r b s hs hb hline => rw [hfound h hs, if_neg hb, if_pos hline]
  | case8 r b s hs hb hline hz =>
      rw [hfound h hs, if_neg hb, if_neg hline, if_pos hz]
  | case9 r b s hs hb hline hz =>
      rw [hfound h hs, if_neg hb, if_neg hline, if_neg hz]

/-- A token is read alike by all searches that find the first byte. -/
theorem Token.readBy_eq_read {search : ByteSearch} (hsearch : search.FindsFirst) {r : Reader}
    (h : r.sourceLength ≤ maxPosition) : Token.readBy search r = Token.read r := by
  have hkind : readKindBy search r = readKindBy .plain r := by
    rw [readKindBy, readKindBy]
    refine congrArg (r.current >>= ·) (funext fun b => ?_)
    -- The search matters behind a quote, and nowhere else.
    cases Lead.ofChar (Char.ofUInt8 b) with
    | quote =>
        dsimp only
        cases hadv : r.advance with
        | error f => rfl
        | ok s =>
            refine readStringBy_eq_plain hsearch ?_
            rw [advanceBy_eq_ok hadv]
            exact h
    | _ => rfl
  rw [Token.read, Token.readBy, Token.readBy, hkind]

end CssTokens
