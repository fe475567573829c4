import CssTokens.Proofs.Drivers.Agreement
import CssTokens.Proofs.Source.Issues
import CssTokens.Proofs.TokenStream.Spans

/-!
# Issues and Tokens

The issues of a text and its tokens tell the same of it.

The issues are found by a search through the bytes, before a token is read, and
the tokens are read without them. A NUL character is a character like any other
to the reading, although the bytes behind the text are zero too: it is no blank,
and it belongs to no name and no number, so it is either inside a string or a
token of its own that begins nothing (`Covers.null`). In the latter case the
report puts it down. A byte-order mark is above ASCII and so begins a name, and a
name that begins with it is not that of a URL.

So a report without soft failures leaves no place for a NUL character outside of
the strings.

## Main definitions

* `Report.FitsIssues`: How issues, tokens and report go together.

## Theorems

* `Covers.null`: The tokens with a NUL character.
* `Plain.tokens_mark`: The token that a byte-order mark begins.
* `Report.warnings_eq`: What a report says of the issues.
* `null_of_spans`, `byteAt?_of_null`: The token at a NUL character.
* `Report.fitsIssues_of_lt`: The issues, the tokens and the report of a text.
-/

namespace CssTokens

/-- How the issues of a text, its tokens and the report on it go together. -/
structure Report.FitsIssues (r : Report) (issues : List Issue) (text : String)
    (ts : List Token) : Prop where
  warnings : r.warnings = issues.map fun i => ⟨i.kind, i.offset⟩
  recorded : ∀ p, byteAt? text p = some 0 → ⟨.nullCharacter, p, 1⟩ ∈ issues
  /-- There is a token at each NUL character, and only one. -/
  spanned : ∀ p, byteAt? text p = some 0 → ∃! x, x ∈ withOffsets ts ∧ x.Spans p
  /-- It is a string, maybe one that is cut off, or the character alone, which the
      report then puts down. -/
  token : ∀ p, byteAt? text p = some 0 → ∀ x ∈ withOffsets ts, x.Spans p →
    x.token.kind = .string ∨ x.token.kind = .badString ∨
      x = ⟨p, ⟨.unmatched, "\x00"⟩⟩ ∧
        ∃ f ∈ r.findings, f.kind = .unmatched ∧ f.offset = p ∧ f.text = "\x00"
  /-- What is put down like this is recorded. -/
  found : ∀ f ∈ r.findings, f.kind = .unmatched → f.text = "\x00" →
    ⟨.nullCharacter, f.offset, 1⟩ ∈ issues
  /-- A byte-order mark is part of the first token. -/
  marked : (∃ i ∈ issues, i.kind = .byteOrderMark) →
    ∃ t rest cs, ts = t :: rest ∧ (t.kind = .ident ∨ t.kind = .function) ∧
      t.text.toList = '\ufeff' :: cs
  /-- Without soft failures, every NUL character is inside a string. -/
  clean : r.isClean = true → ∀ i ∈ issues, i.kind = .nullCharacter →
    ∃ x ∈ withOffsets ts, x.token.kind = .string ∧ x.Spans i.offset

/-- A name has no NUL character. -/
theorem IsName.null_not_mem {cs : List Char} (h : IsName cs) : '\x00' ∉ cs := by
  intro hmem
  exact absurd ((Plain.isName_spec h []).2 _ hmem) (by decide)

/-- A numeral has no NUL character. -/
theorem IsNumeral.null_not_mem {cs : List Char} (h : IsNumeral cs) : '\x00' ∉ cs := by
  have hdigits {ds : List Char} (hds : ∀ c ∈ ds, c.isDigit = true) : '\x00' ∉ ds :=
    fun hmem => absurd (hds _ hmem) (by decide)
  rcases h with ⟨whole, part, hwhole, hpart, ⟨rfl, _⟩ | ⟨rfl, _⟩⟩
  · exact hdigits hwhole
  · simp [hdigits hwhole, hdigits hpart]

/-- Only a string, or a character that begins nothing, can be or hold a NUL
    character. -/
theorem Covers.null {k : Kind} {t r : List Char} (h : Covers k t r) (hnull : '\x00' ∈ t) :
    k = .string ∨ k = .badString ∨ k = .unmatched ∧ t = ['\x00'] := by
  cases k with
  | string => exact .inl rfl
  | badString => exact .inr (.inl rfl)
  | unmatched =>
      rcases h with ⟨c, rfl, _⟩
      rw [List.mem_singleton.mp hnull]
      exact .inr (.inr ⟨rfl, rfl⟩)
  | whitespace => exact absurd (h.2.1 _ hnull) (by decide)
  | ident | function | url => exact absurd hnull h.1.null_not_mem
  | hash | atKeyword =>
      rcases h with ⟨ds, rfl, hname, _⟩
      exact absurd hnull (by simp [hname.null_not_mem])
  | number => exact absurd hnull h.1.null_not_mem
  | percentage =>
      rcases h with ⟨ds, rfl, hnumeral⟩
      exact absurd hnull (by simp [hnumeral.null_not_mem])
  | dimension =>
      rcases h with ⟨ds, c, us, rfl, hnumeral, hc, _, hus, _⟩
      -- The unit is made of name characters, and the rest is a numeral.
      have hunit : ∀ u ∈ c :: us, isNameChar u = true := List.forall_mem_cons.mpr ⟨hc, hus⟩
      rcases List.mem_append.mp hnull with hmem | hmem
      · exact absurd hmem hnumeral.null_not_mem
      · exact absurd (hunit _ hmem) (by decide)
  | leftParen | rightParen | leftBrace | rightBrace | colon | semicolon | comma =>
      rcases Plain.punctuation_of_lexeme? (by decide) h with ⟨c, rfl, hc⟩
      rw [← List.mem_singleton.mp hnull] at hc
      injection hc
  | «at» | comment | cdo | cdc | eof => exact h.elim

/-- The tokens of a text with a NUL character. -/
theorem Plain.null_tokens (cs : List Char) : ∀ x ∈ tokens cs, '\x00' ∈ x.chars →
    x.kind = .string ∨ x.kind = .badString ∨ x = ⟨.unmatched, ['\x00']⟩ := by
  refine forall_mem_tokens (fun cs k n h hnull => ?_) cs
  rcases (covers_first h).null hnull with hk | hk | ⟨rfl, hchars⟩
  · exact .inl hk
  · exact .inr (.inl hk)
  · exact .inr (.inr (by rw [hchars]))

/-- A byte-order mark begins a name, which is not that of a URL. -/
theorem Plain.tokens_mark (cs : List Char) : ∃ k ds xs,
    tokens ('\ufeff' :: cs) = ⟨k, '\ufeff' :: ds⟩ :: xs ∧ (k = .ident ∨ k = .function) := by
  have hstart : isNameStart '\ufeff' = true := by decide
  have hfirst : first ('\ufeff' :: cs) = some (name ('\ufeff' :: cs)) :=
    first_of_holds (l := .nameStart) hstart cs
  have hrun : run isNameChar ('\ufeff' :: cs) = run isNameChar cs + 1 :=
    run_cons (isNameChar_of_isNameStart hstart) cs
  have hurl : isUrl ('\ufeff' :: cs.take (run isNameChar cs)) = false := by
    rw [isUrl, List.map_cons, decide_eq_false_iff_not, List.cons.injEq, not_and]
    intro h
    exact absurd h (by decide)
  -- Whether there is a parenthesis behind the name decides between the two.
  have hname : ∃ k, name ('\ufeff' :: cs) = (k, run isNameChar cs + 1) ∧
      (k = .ident ∨ k = .function) := by
    unfold name
    dsimp only
    rw [hrun, List.take_succ_cons, hurl]
    split
    · exact ⟨.function, rfl, .inr rfl⟩
    · exact ⟨.ident, rfl, .inl rfl⟩
  rcases hname with ⟨k, hname, hk⟩
  rw [hname] at hfirst
  exact ⟨k, cs.take (run isNameChar cs), _, tokens_cons hfirst, hk⟩

/-- What a report says of the issues of a text. -/
theorem Report.warnings_eq {text : String} (h : text.utf8ByteSize < maxPosition) {r : Report}
    {events : List Event} (hr : ofString text = .ok (r, events)) :
    r.warnings = (Source.ofString text).issues.map fun i => ⟨i.kind, i.offset⟩ := by
  rw [ofString_eq h, Except.ok.injEq, Prod.mk.injEq] at hr
  rw [← hr.1]

/-- A finding, by the token that it is made from. -/
theorem Report.mem_findings_iff {r : Report} {events told : List Event} {ts : List Token}
    (h : r.Sums events ts told) {x : Located} :
    (∃ f ∈ r.findings, f.kind = x.token.kind ∧ f.offset = x.offset ∧ f.text = x.token.text) ↔
      x ∈ withOffsets ts ∧ x.token.IsSoft := by
  have hmem : x ∈ (withOffsets ts).filter (fun x => x.token.IsSoft) ↔
      x ∈ withOffsets ts ∧ x.token.IsSoft := by
    rw [List.mem_filter, decide_eq_true_eq]
  rw [← hmem, ← h.findings, List.mem_map]
  refine exists_congr fun f => and_congr_right fun _ => ?_
  rcases x with ⟨offset, ⟨kind, text⟩⟩
  simp only [Located.mk.injEq, Token.mk.injEq]
  exact ⟨fun ⟨hk, ho, ht⟩ => ⟨ho, hk, ht⟩, fun ⟨ho, hk, ht⟩ => ⟨hk, ho, ht⟩⟩

section

variable {text : String} {ts : List Token} {x : Located} {p : Nat}

/-- The tokens with their offsets are the lexemes of the plain reading. -/
theorem withOffsets_of_tokenize (h : text.utf8ByteSize < maxPosition)
    (hts : tokenize text = .ok ts) : withOffsets ts = locateFrom 0 (Plain.tokens text.toList) := by
  rw [tokenize_eq_ok h, Except.ok.injEq] at hts
  rw [← hts, locateFrom_eq_withOffsets]

/-- There is one token at an offset inside a text, and no other one. -/
theorem existsUnique_spans_withOffsets (h : text.utf8ByteSize < maxPosition)
    (hts : tokenize text = .ok ts) (hp : p < text.utf8ByteSize) :
    ∃! x, x ∈ withOffsets ts ∧ x.Spans p := by
  rw [withOffsets_of_tokenize h hts]
  refine existsUnique_spans (Nat.zero_le p) ?_
  rwa [Plain.flatten_tokens, Nat.zero_add, ← utf8ByteSize_eq_byteCount]

theorem mem_of_mem_withOffsets (hx : x ∈ withOffsets ts) : x.token ∈ ts := by
  rcases List.mem_map.mp hx with ⟨⟨t, i⟩, hmem, rfl⟩
  exact (List.mem_zipIdx' hmem).2 ▸ List.getElem_mem _

/-- The byte at an offset, by the token there. -/
theorem byteAt?_of_spans (h : text.utf8ByteSize < maxPosition) (hts : tokenize text = .ok ts)
    (hx : x ∈ withOffsets ts) (hspans : x.Spans p) :
    byteAt? text p = (bytesOf x.token.text.toList)[p - x.offset]? := by
  rw [withOffsets_of_tokenize h hts] at hx
  rw [← getElem?_bytesOf_of_spans hx hspans, Plain.flatten_tokens, byteAt?_eq_getElem?]

/-- The token at a NUL character is a string, or the character alone. -/
theorem null_of_spans (h : text.utf8ByteSize < maxPosition) (hts : tokenize text = .ok ts)
    (hx : x ∈ withOffsets ts) (hspans : x.Spans p) (hp : byteAt? text p = some 0) :
    x.token.kind = .string ∨ x.token.kind = .badString ∨ x = ⟨p, ⟨.unmatched, "\x00"⟩⟩ := by
  rw [byteAt?_of_spans h hts hx hspans] at hp
  -- The zero byte is one of the token, whose characters hold a NUL character then.
  have hnull : '\x00' ∈ x.token.lexeme.chars := zero_mem_bytesOf_iff.mp (List.mem_of_getElem? hp)
  have hmem : x.token.lexeme ∈ Plain.tokens text.toList := by
    rw [tokenize_eq_ok h, Except.ok.injEq] at hts
    rw [← map_lexeme_token (Plain.tokens text.toList), hts]
    exact List.mem_map_of_mem (mem_of_mem_withOffsets hx)
  rcases Plain.null_tokens _ _ hmem hnull with hk | hk | hlexeme
  · exact .inl hk
  · exact .inr (.inl hk)
  · -- The token is one byte long, so it starts at the offset.
    have htoken : x.token = ⟨.unmatched, "\x00"⟩ := by
      rw [← token_lexeme x.token, hlexeme]
      rfl
    have hsize : x.token.text.utf8ByteSize = 1 := by
      rw [htoken]
      rfl
    have hoffset : x.offset = p := by
      have hle := hspans.1
      have hlt := hspans.2
      omega
    refine .inr (.inr ?_)
    rw [← hoffset, ← htoken]

/-- At a token that is a NUL character, there is one. -/
theorem byteAt?_of_null (h : text.utf8ByteSize < maxPosition) (hts : tokenize text = .ok ts)
    (hx : x ∈ withOffsets ts) (hnull : x.token.text = "\x00") :
    byteAt? text x.offset = some 0 := by
  have hspans : x.Spans x.offset := by
    refine ⟨Nat.le_refl _, ?_⟩
    rw [hnull]
    exact Nat.lt_succ_self _
  rw [byteAt?_of_spans h hts hx hspans, hnull, Nat.sub_self]
  rfl

/-- The first token of a text with a byte-order mark in front. -/
theorem exists_eq_cons_of_mark (h : text.utf8ByteSize < maxPosition)
    (hts : tokenize text = .ok ts) {cs : List Char} (hcs : text.toList = '\ufeff' :: cs) :
    ∃ t rest ds, ts = t :: rest ∧ (t.kind = .ident ∨ t.kind = .function) ∧
      t.text.toList = '\ufeff' :: ds := by
  rcases Plain.tokens_mark cs with ⟨k, ds, xs, hxs, hk⟩
  rw [tokenize_eq_ok h, Except.ok.injEq, hcs, hxs, List.map_cons] at hts
  exact ⟨_, _, ds, hts.symm, hk, String.toList_ofList⟩

end

/-- The issues, the tokens and the report of a text go together. -/
theorem Report.fitsIssues_of_lt {text : String} (h : text.utf8ByteSize < maxPosition) :
    ∃ ts r events, tokenize text = .ok ts ∧ ofString text = .ok (r, events) ∧
      r.FitsIssues (Source.ofString text).issues text ts := by
  have hle : text.utf8ByteSize ≤ maxPosition := Nat.le_of_lt h
  rcases ofString_eq_ok h with ⟨r, events, hr, _⟩
  have hts := tokenize_eq_ok h
  -- From here on the tokens matter only by what is known of them.
  generalize (Plain.tokens text.toList).map Lexeme.token = ts at hts
  have hsums := sums_of_lt h hts hr
  refine ⟨ts, r, events, hts, hr, warnings_eq h hr, ?_, ?_, ?_, ?_, ?_, ?_⟩
  · intro p hp
    exact (mem_issuesOf_nullCharacter hle).mpr ⟨hp, rfl⟩
  · intro p hp
    exact existsUnique_spans_withOffsets h hts (lt_of_byteAt? hp)
  · intro p hp x hx hspans
    refine (null_of_spans h hts hx hspans hp).imp_right (Or.imp_right ?_)
    rintro rfl
    have hfound := (mem_findings_iff hsums).mpr ⟨hx, .inr rfl⟩
    exact ⟨rfl, hfound⟩
  · intro f hf _ htext
    have hx := ((mem_findings_iff hsums (x := ⟨f.offset, ⟨f.kind, f.text⟩⟩)).mp
      ⟨f, hf, rfl, rfl, rfl⟩).1
    exact (mem_issuesOf_nullCharacter hle).mpr ⟨byteAt?_of_null h hts hx htext, rfl⟩
  · rintro ⟨⟨kind, p, n⟩, hi, rfl⟩
    rcases ((mem_issuesOf_byteOrderMark hle).mp hi).2.2 with ⟨cs, hcs⟩
    exact exists_eq_cons_of_mark h hts hcs
  · rintro hclean ⟨kind, p, n⟩ hi rfl
    have hp := ((mem_issuesOf_nullCharacter hle).mp hi).1
    rcases (existsUnique_spans_withOffsets h hts (lt_of_byteAt? hp)).exists with ⟨x, hx, hspans⟩
    have hsoft := (isClean_iff_of_tokenize h hr hts).mp hclean _ (mem_of_mem_withOffsets hx)
    -- Neither a string that is cut off nor the character alone is clean.
    rcases null_of_spans h hts hx hspans hp with hk | hk | rfl
    · exact ⟨x, hx, hk, hspans⟩
    · exact absurd (.inl hk) hsoft
    · exact absurd (.inr rfl) hsoft

/-- A byte-order mark with a NUL character behind it, and another one in a string
    that the end of the text cuts off. -/
theorem Report.fitsIssues_marked :
    "\ufeff\x00'\x00".utf8ByteSize < maxPosition ∧
      ∃ ts r events, tokenize "\ufeff\x00'\x00" = .ok ts ∧
        ofString "\ufeff\x00'\x00" = .ok (r, events) ∧
        r.FitsIssues (Source.ofString "\ufeff\x00'\x00").issues "\ufeff\x00'\x00" ts ∧
        (∃! x, x ∈ withOffsets ts ∧ x.Spans 3) ∧
        ⟨.nullCharacter, 5⟩ ∈ r.warnings ∧
        ∃ t rest cs, ts = t :: rest ∧ (t.kind = .ident ∨ t.kind = .function) ∧
          t.text.toList = '\ufeff' :: cs := by
  have h : "\ufeff\x00'\x00".utf8ByteSize < maxPosition := by decide
  rcases Report.fitsIssues_of_lt h with ⟨ts, r, events, hts, hr, hfits⟩
  -- The general statement is asked about the offset behind the mark, about that in the
  -- string, and about the mark itself.
  refine ⟨h, ts, r, events, hts, hr, hfits, hfits.spanned 3 (by decide), ?_, ?_⟩
  · rw [hfits.warnings]
    exact List.mem_map.mpr ⟨_, hfits.recorded 5 (by decide), rfl⟩
  · refine hfits.marked ⟨⟨.byteOrderMark, 0, 3⟩, ?_, rfl⟩
    exact (mem_issuesOf_byteOrderMark (Nat.le_of_lt h)).mpr ⟨rfl, rfl, _, rfl⟩

end CssTokens
