import CssTokens.Proofs.Grammar.Forms
import CssTokens.Proofs.Grammar.Strings

/-!
# Reading and the Grammar

A text has one stream of tokens, and the plain reading finds it.

The first token that is found has the form of its kind before what is left
(`covers_first`). And where a text starts with something of the form of a
kind, before what follows it, reading finds just that (`first_of_covers`): no
other kind has a form at the same place, and none of the same kind is shorter
or longer. Both go by the groups of characters that a token can begin with.
Along a text they give the two directions of `isStream_iff`.

## Theorems

* `Plain.covers_first`: The first token has the form of its kind.
* `Plain.first_of_covers`: What has a form is the first token.
* `Plain.first_kind`: No text yields the end kind or a reserved kind.
* `isStream_iff`: The streams of a text are its tokens, and nothing else.
* `isStream_iff_forall`: A stream told by its places.
* `IsStream.of_append`: The end of a stream.
-/

namespace CssTokens

namespace Plain

theorem first_of_holds {c : Char} {l : Lead} (hl : l.Holds c) (cs : List Char) :
    first (c :: cs) = some (ofLead c cs l) := by
  rw [first, firstAt_eq_ofLead, Lead.ofChar_of_holds hl]

theorem covers_punctuation {c : Char} {k : Kind} (h : Kind.ofPunctuation? c = some k)
    (r : List Char) : Covers k [c] r := by
  have hmem := ofPunctuation?_eq_some h
  simp only [List.mem_cons, List.not_mem_nil, or_false, Prod.mk.injEq] at hmem
  rcases hmem with ⟨rfl, rfl⟩ | ⟨rfl, rfl⟩ | ⟨rfl, rfl⟩ | ⟨rfl, rfl⟩ | ⟨rfl, rfl⟩ |
    ⟨rfl, rfl⟩ | ⟨rfl, rfl⟩ <;> rfl

/-- A mark, with the name behind it if there is one. -/
theorem covers_mark {c : Char} {k : Kind} (hm : c = '#' ∧ k = .hash ∨ c = '@' ∧ k = .atKeyword)
    (cs : List Char) :
    Covers (ofLead c cs (.mark k)).1 ((c :: cs).take (ofLead c cs (.mark k)).2)
      ((c :: cs).drop (ofLead c cs (.mark k)).2) := by
  -- With a name behind it the mark is part of a token, else it is alone.
  cases hs : starts isNameStart cs with
  | true =>
      have hform := isName_take_run hs
      have hend := starts_drop_run isNameChar cs
      rw [ofLead_mark_name hs, List.take_succ_cons, List.drop_succ_cons]
      rcases hm with ⟨rfl, rfl⟩ | ⟨rfl, rfl⟩
      · exact ⟨_, rfl, hform, hend⟩
      · exact ⟨_, rfl, hform, hend⟩
  | false =>
      rw [ofLead_mark_alone hs]
      refine ⟨c, rfl, ?_⟩
      rcases hm with ⟨rfl, rfl⟩ | ⟨rfl, rfl⟩
      · exact ⟨rfl, rfl, rfl, rfl, rfl, fun _ => hs, fun heq => absurd heq (by decide)⟩
      · exact ⟨rfl, rfl, rfl, rfl, rfl, fun _ => hs, fun heq => absurd heq (by decide)⟩

theorem covers_ofLead {c : Char} {l : Lead} (hl : l.Holds c) (cs : List Char) :
    Covers (ofLead c cs l).1 ((c :: cs).take (ofLead c cs l).2)
      ((c :: cs).drop (ofLead c cs l).2) := by
  -- One case for each group, with the kinds that it can lead to.
  cases l with
  | blank =>
      have hlen : 1 + run isBlank cs = run isBlank (c :: cs) := by
        rw [run_cons hl, Nat.add_comm]
      refine ⟨?_, ?_, ?_⟩
      · rw [ofLead, Nat.add_comm, List.take_succ_cons]
        exact List.cons_ne_nil c _
      · rw [ofLead, hlen]
        exact forall_take_run isBlank (c :: cs)
      · rw [ofLead, hlen]
        exact starts_drop_run isBlank (c :: cs)
  | quote =>
      rw [ofLead, Nat.add_comm, List.take_succ_cons, List.drop_succ_cons]
      exact (stringEnd_stringRest hl cs).covers hl
  | punctuation k => exact covers_punctuation hl cs
  | mark k => exact covers_mark hl cs
  | nameStart => exact covers_name hl
  | digit => exact covers_number (Or.inl hl)
  | point =>
      rw [Lead.Holds] at hl
      cases hs : starts Char.isDigit cs with
      | true =>
          rw [ofLead_point_digit hs]
          exact covers_number (Or.inr ⟨hl, hs⟩)
      | false =>
          rw [ofLead_point_alone hs]
          subst hl
          exact ⟨'.', rfl, rfl, rfl, rfl, rfl, rfl, fun heq => absurd heq (by decide), fun _ => hs⟩
  | other =>
      rcases hl with ⟨hblank, hquote, hpunct, hstart, hdigit, hhash, hat, hpoint⟩
      exact ⟨c, rfl, hblank, hquote, hpunct, hstart, hdigit,
        fun heq => absurd heq (not_or.mpr ⟨hhash, hat⟩), fun heq => absurd heq hpoint⟩

/-- The first token has the form of its kind, before what is left. -/
theorem covers_first {cs : List Char} {k : Kind} {n : Nat} (h : first cs = some (k, n)) :
    Covers k (cs.take n) (cs.drop n) := by
  cases cs with
  | nil => injection h
  | cons c cs =>
      rw [first, firstAt_eq_ofLead, Option.some.injEq] at h
      have hcovers := covers_ofLead (Lead.ofChar_holds c) cs
      rw [h] at hcovers
      exact hcovers

/-- No text yields the end kind or a reserved kind. -/
theorem first_kind {cs : List Char} {k : Kind} {n : Nat} (h : first cs = some (k, n)) :
    k ≠ .eof ∧ k.isReserved = false := by
  have hcovers := covers_first h
  -- The kinds in question have no form, and all others are as claimed.
  cases k <;> first | exact ⟨by decide, rfl⟩ | exact hcovers.elim

/-- The punctuation kinds cover the one character that they stand for. -/
theorem punctuation_of_lexeme? {k : Kind} {t : List Char}
    (hk : k ∈ [Kind.leftParen, .rightParen, .leftBrace, .rightBrace, .colon, .semicolon, .comma])
    (h : k.lexeme? = some (String.ofList t)) :
    ∃ c, t = [c] ∧ Kind.ofPunctuation? c = some k := by
  have htext {c : Char} (heq : String.ofList [c] = String.ofList t) : t = [c] :=
    (String.ofList_injective heq).symm
  simp only [List.mem_cons, List.not_mem_nil, or_false] at hk
  rcases hk with rfl | rfl | rfl | rfl | rfl | rfl | rfl
  · exact ⟨'(', htext (Option.some.inj h), rfl⟩
  · exact ⟨')', htext (Option.some.inj h), rfl⟩
  · exact ⟨'\x7b', htext (Option.some.inj h), rfl⟩
  · exact ⟨'\x7d', htext (Option.some.inj h), rfl⟩
  · exact ⟨':', htext (Option.some.inj h), rfl⟩
  · exact ⟨';', htext (Option.some.inj h), rfl⟩
  · exact ⟨',', htext (Option.some.inj h), rfl⟩

theorem first_of_isName {t r : List Char} (ht : IsName t) :
    first (t ++ r) = some (name (t ++ r)) := by
  rcases ht with ⟨c, ds, rfl, hc, _⟩
  exact first_of_holds (l := .nameStart) hc (ds ++ r)

theorem first_of_isNumeral {t r : List Char} (ht : IsNumeral t) :
    first (t ++ r) = some (number (t ++ r)) := by
  rcases isNumeral_starts ht with ⟨c, cs, rfl, hc | ⟨rfl, hcs⟩⟩
  · exact first_of_holds (l := .digit) hc (cs ++ r)
  · rw [List.cons_append, first_of_holds (l := .point) rfl, ofLead_point_digit (hcs r)]

theorem first_of_mark {c : Char} {k : Kind} {ds r : List Char}
    (hm : c = '#' ∧ k = .hash ∨ c = '@' ∧ k = .atKeyword) (hds : IsName ds)
    (hr : starts isNameChar r = false) :
    first (c :: ds ++ r) = some (k, (c :: ds).length) := by
  rw [List.cons_append, first_of_holds (l := .mark k) hm, ofLead_mark_name (isName_spec hds r).1,
    run_isName hds hr, List.length_cons]

/-- A character that begins nothing is a token of its own. -/
theorem first_of_beginsNothing {c : Char} {r : List Char} (h : BeginsNothing c r) :
    first (c :: r) = some (.unmatched, 1) := by
  rcases h with ⟨hblank, hquote, hpunct, hstart, hdigit, hmark, hpoint⟩
  -- A mark without a name behind it and a point without a digit are in groups
  -- of their own; the other characters are in the last group.
  by_cases hhash : c = '#'
  · rw [first_of_holds (l := .mark .hash) (Or.inl ⟨hhash, rfl⟩),
      ofLead_mark_alone (hmark (Or.inl hhash))]
  by_cases hat : c = '@'
  · rw [first_of_holds (l := .mark .atKeyword) (Or.inr ⟨hat, rfl⟩),
      ofLead_mark_alone (hmark (Or.inr hat))]
  by_cases hdot : c = '.'
  · rw [first_of_holds (l := .point) hdot, ofLead_point_alone (hpoint hdot)]
  exact first_of_holds (l := .other)
    ⟨hblank, hquote, hpunct, hstart, hdigit, hhash, hat, hdot⟩ r

/-- What has the form of a kind, before what follows it, is the first token. -/
theorem first_of_covers {k : Kind} {t r : List Char} (h : Covers k t r) :
    first (t ++ r) = some (k, t.length) := by
  -- Kinds that are read in the same way share an argument.
  have hpunct (hk : k ∈ [Kind.leftParen, .rightParen, .leftBrace, .rightBrace, .colon, .semicolon,
      .comma]) (hlex : k.lexeme? = some (String.ofList t)) :
      first (t ++ r) = some (k, t.length) := by
    rcases punctuation_of_lexeme? hk hlex with ⟨c, rfl, hc⟩
    exact first_of_holds (l := .punctuation k) hc r
  have hname (hk : k = .ident ∨ k = .function ∨ k = .url) :
      first (t ++ r) = some (k, t.length) := by
    have hread := name_of_covers h hk
    rw [first_of_isName hread.1, hread.2]
  have hstring (hk : k = .string ∨ k = .badString) : first (t ++ r) = some (k, t.length) := by
    rcases stringEnd_of_covers hk h with ⟨quote, body, rfl, hq, hbody⟩
    rw [List.cons_append, first_of_holds (l := .quote) hq, ofLead,
      stringRest_of_stringEnd hq hbody, List.length_cons, Nat.add_comm]
  cases k with
  | whitespace =>
      rcases h with ⟨hne, hblank, hr⟩
      cases t with
      | nil => exact absurd rfl hne
      | cons c t =>
          rw [List.cons_append, first_of_holds (l := .blank) (hblank c List.mem_cons_self), ofLead,
            run_append (fun d hd => hblank d (List.mem_cons_of_mem c hd)) hr, List.length_cons,
            Nat.add_comm]
  | leftParen => exact hpunct (by decide) h
  | rightParen => exact hpunct (by decide) h
  | leftBrace => exact hpunct (by decide) h
  | rightBrace => exact hpunct (by decide) h
  | colon => exact hpunct (by decide) h
  | semicolon => exact hpunct (by decide) h
  | comma => exact hpunct (by decide) h
  | hash =>
      rcases h with ⟨ds, rfl, hds, hr⟩
      exact first_of_mark (Or.inl ⟨rfl, rfl⟩) hds hr
  | atKeyword =>
      rcases h with ⟨ds, rfl, hds, hr⟩
      exact first_of_mark (Or.inr ⟨rfl, rfl⟩) hds hr
  | ident => exact hname (Or.inl rfl)
  | function => exact hname (Or.inr (Or.inl rfl))
  | url => exact hname (Or.inr (Or.inr rfl))
  -- For the three kinds of number the first token is a number, because a
  -- numeral comes first in each of them.
  | number =>
      rw [first_of_isNumeral h.1, number_of_covers h (Or.inl rfl)]
  | percentage =>
      have hread := number_of_covers h (Or.inr (Or.inl rfl))
      rcases h with ⟨ds, rfl, hds⟩
      rw [List.append_assoc] at hread ⊢
      rw [first_of_isNumeral hds, hread]
  | dimension =>
      have hread := number_of_covers h (Or.inr (Or.inr rfl))
      rcases h with ⟨ds, u, us, rfl, hds, _⟩
      rw [List.append_assoc] at hread ⊢
      rw [first_of_isNumeral hds, hread]
  | string => exact hstring (Or.inl rfl)
  | badString => exact hstring (Or.inr rfl)
  | unmatched =>
      rcases h with ⟨c, rfl, hc⟩
      exact first_of_beginsNothing hc
  -- What is left has no form.
  | «at» => exact h.elim
  | comment => exact h.elim
  | cdo => exact h.elim
  | cdc => exact h.elim
  | eof => exact h.elim

theorem tokens_of_covers {k : Kind} {t r : List Char} (h : Covers k t r) :
    tokens (t ++ r) = ⟨k, t⟩ :: tokens r := by
  rw [tokens_cons (first_of_covers h), List.take_left, List.drop_left]

/-- What has a form before nothing is one token. -/
theorem tokens_single {k : Kind} {t : List Char} (h : Covers k t []) : tokens t = [⟨k, t⟩] := by
  have htokens := tokens_of_covers h
  rw [List.append_nil, tokens_nil] at htokens
  exact htokens

/-- Reading finds a stream. -/
theorem isStream_tokens (cs : List Char) : IsStream (tokens cs) cs := by
  fun_induction tokens cs with
  | case1 cs h =>
      rw [eq_nil_of_first_eq_none h]
      exact .nil
  | case2 cs k n h ih =>
      have hstream := IsStream.cons (x := ⟨k, cs.take n⟩) (covers_first h) ih
      rw [List.take_append_drop] at hstream
      exact hstream

/-- Reading finds every stream. -/
theorem tokens_of_isStream {xs : List Lexeme} {cs : List Char} (h : IsStream xs cs) :
    tokens cs = xs := by
  -- The induction is on the stream: one token of it, then the rest.
  induction h with
  | nil => exact tokens_nil
  | cons hx _ ih => rw [tokens_of_covers hx, ih]

end Plain

/-- The streams of a text are its tokens, and nothing else. -/
theorem isStream_iff {xs : List Lexeme} {cs : List Char} :
    IsStream xs cs ↔ Plain.tokens cs = xs := by
  constructor
  · exact Plain.tokens_of_isStream
  · rintro rfl
    exact Plain.isStream_tokens cs

/-- A stream told by its places: the texts are those of the lexemes in order,
    and each lexeme has its form before the texts behind it. -/
theorem isStream_iff_forall {xs : List Lexeme} {cs : List Char} :
    IsStream xs cs ↔ (xs.map Lexeme.chars).flatten = cs ∧
      ∀ i x, xs[i]? = some x →
        Covers x.kind x.chars ((xs.drop (i + 1)).map Lexeme.chars).flatten := by
  induction xs generalizing cs with
  | nil =>
      constructor
      · intro h
        cases h
        refine ⟨rfl, ?_⟩
        intro i x hi
        rw [List.getElem?_nil] at hi
        injection hi
      · rintro ⟨rfl, _⟩
        exact .nil
  | cons x xs ih =>
      constructor
      · -- The first place is the head of the stream, the others are places of
        -- its rest.
        intro h
        cases h with
        | cons hx hxs =>
            have hrest := ih.mp hxs
            refine ⟨by rw [List.map_cons, List.flatten_cons, hrest.1], ?_⟩
            intro i y hi
            cases i with
            | zero =>
                rw [List.getElem?_cons_zero, Option.some.injEq] at hi
                rw [← hi, List.drop_succ_cons, List.drop_zero, hrest.1]
                exact hx
            | succ i =>
                rw [List.getElem?_cons_succ] at hi
                exact hrest.2 i y hi
      · -- The first place gives the head, and the places behind it the rest.
        rintro ⟨rfl, hall⟩
        rw [List.map_cons, List.flatten_cons]
        exact .cons (hall 0 x rfl) (ih.mpr ⟨rfl, fun i y hi => hall (i + 1) y hi⟩)

/-- The end of a stream is the stream of the texts that are left. -/
theorem IsStream.of_append {xs ys : List Lexeme} {cs : List Char} (h : IsStream (xs ++ ys) cs) :
    IsStream ys (ys.map Lexeme.chars).flatten := by
  induction xs generalizing cs with
  | nil =>
      have hchars := (isStream_iff_forall.mp h).1
      rw [List.nil_append] at h hchars
      rw [hchars]
      exact h
  | cons x xs ih =>
      cases h with
      | cons _ hxs => exact ih hxs

end CssTokens
