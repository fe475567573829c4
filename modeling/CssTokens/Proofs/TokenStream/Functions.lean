import CssTokens.Proofs.Grammar.Lookahead
import CssTokens.Proofs.TokenStream.Refinement

/-!
# Names of Functions and the Tokens Behind Them

Which names are the names of functions, told by the tokens behind them.

The kind of a name is decided by a look at two characters, before the tokens
that these belong to are read. It can be told by those tokens all the same. A
parenthesis right behind the name is the next token. With one character in
between, that character is no part of a name, and whatever else it may begin
does not go on with a parenthesis: it is a token of one byte, and the
parenthesis is the token behind. The one exception is a quote. It opens a
string, and the parenthesis is the first character in it, so that no token of
a parenthesis need be near.

## Main definitions

* `Token.OpensInside`: A string that begins with a parenthesis.
* `CallAhead`: What the tokens behind the name of a function look like.

## Theorems

* `Plain.tokens_before_paren`, `Plain.tokens_quote_paren`: One character and a
  parenthesis behind it.
* `opensSoon_iff_callAhead`: The two characters, told by the tokens.
* `isFunction_iff_callAhead`: The names of functions among the tokens of a text.
-/

namespace CssTokens

/-- A string, well ended or not, that has a parenthesis right behind its quote. -/
def Token.OpensInside (t : Token) : Prop :=
  (t.kind = .string ∨ t.kind = .badString) ∧ t.text.toList[1]? = some '('

/-- The tokens behind the name of a function. -/
inductive CallAhead : List Token → Prop where
  /-- A parenthesis. -/
  | paren {p : Token} {ts : List Token} : p.kind = .leftParen → CallAhead (p :: ts)
  /-- A parenthesis behind a token of one byte. -/
  | beyond {t p : Token} {ts : List Token} :
      t.byteLength = 1 → p.kind = .leftParen → CallAhead (t :: p :: ts)
  /-- A string with a parenthesis at the front of it. -/
  | inside {t : Token} {ts : List Token} : t.OpensInside → CallAhead (t :: ts)

theorem callAhead_cons {t : Token} {ts : List Token} (h : CallAhead (t :: ts)) :
    t.kind = .leftParen ∨
      t.byteLength = 1 ∧ (∃ p us, ts = p :: us ∧ p.kind = .leftParen) ∨ t.OpensInside := by
  cases h with
  | paren hkind => exact Or.inl hkind
  | beyond hlen hkind => exact Or.inr (Or.inl ⟨hlen, _, _, rfl, hkind⟩)
  | inside hinside => exact Or.inr (Or.inr hinside)

theorem StringEnd.kind {quote : Char} {k : Kind} {t r : List Char} (h : StringEnd quote k t r) :
    k = .string ∨ k = .badString := by
  cases h with
  | closed _ => exact Or.inl rfl
  | broken _ _ _ => exact Or.inr rfl
  | cut _ _ => exact Or.inl rfl
  | beforeBackslash _ => exact Or.inl rfl

namespace Plain

theorem tokens_paren (ds : List Char) :
    tokens ('(' :: ds) = ⟨.leftParen, ['(']⟩ :: tokens ds :=
  tokens_of_covers (k := .leftParen) (t := ['(']) rfl

/-- What begins at a character does not go on with a parenthesis, unless it is
    a name, a number or a string. -/
theorem ofLead_before_paren {c : Char} {l : Lead} (hl : l.Holds c) (hname : isNameChar c = false)
    (hquote : isQuote c = false) (ds : List Char) : (ofLead c ('(' :: ds) l).2 = 1 := by
  -- What could take the parenthesis along is excluded; of the others, a mark and a point
  -- stand alone in front of it.
  cases l with
  | blank => rfl
  | quote =>
      rw [Lead.Holds, hquote] at hl
      injection hl
  | punctuation kind => rfl
  | mark kind => rw [ofLead_mark_alone rfl]
  | nameStart =>
      rw [isNameChar_of_isNameStart hl] at hname
      injection hname
  | digit =>
      rw [isNameChar_of_isDigit hl] at hname
      injection hname
  | point => rw [ofLead_point_alone rfl]
  | other => rfl

/-- A character that is no part of a name and no quote is a token by itself in
    front of a parenthesis. -/
theorem tokens_before_paren {c : Char} (hname : isNameChar c = false) (hquote : isQuote c = false)
    (ds : List Char) :
    ∃ k, tokens (c :: '(' :: ds) = ⟨k, [c]⟩ :: ⟨.leftParen, ['(']⟩ :: tokens ds := by
  have hlen := ofLead_before_paren (Lead.ofChar_holds c) hname hquote ds
  have hfirst := first_of_holds (Lead.ofChar_holds c) ('(' :: ds)
  generalize ofLead c ('(' :: ds) (Lead.ofChar c) = r at hlen hfirst
  refine ⟨r.1, ?_⟩
  rw [tokens_cons hfirst, hlen, ← tokens_paren]
  rfl

/-- A quote in front of a parenthesis opens a string that goes on with it. -/
theorem tokens_quote_paren {c : Char} (hquote : isQuote c = true) (ds : List Char) :
    ∃ k body xs, (k = .string ∨ k = .badString) ∧
      tokens (c :: '(' :: ds) = ⟨k, c :: '(' :: body⟩ :: xs := by
  have hstop : isStop c '(' = false := by
    rcases isQuote_iff.mp hquote with rfl | rfl <;> rfl
  have hfirst := first_of_holds (l := .quote) hquote ('(' :: ds)
  rw [ofLead, stringRest_other hstop, Nat.add_comm 1, Nat.add_assoc] at hfirst
  exact ⟨_, _, _, (stringEnd_stringRest hquote ds).kind, tokens_cons hfirst⟩

end Plain

/-- The parenthesis is all that a token of its kind covers. -/
theorem Covers.chars_of_leftParen {t r : List Char} (h : Covers .leftParen t r) : t = ['('] :=
  (String.ofList_injective (Option.some.inj h)).symm

theorem callAhead_of_opensSoon {cs : List Char} (hname : Plain.starts isNameChar cs = false)
    (hopen : OpensSoon cs) : CallAhead ((Plain.tokens cs).map Lexeme.token) := by
  rcases cs with _ | ⟨c, cs⟩
  · exact absurd hopen List.not_mem_nil
  rw [OpensSoon, List.take_succ_cons, List.mem_cons] at hopen
  rcases hopen with rfl | hopen
  · rw [Plain.tokens_paren]
    exact .paren rfl
  rcases cs with _ | ⟨d, ds⟩
  · exact absurd hopen List.not_mem_nil
  rw [List.take_succ_cons, List.take_zero, List.mem_singleton] at hopen
  subst hopen
  -- Between the name and the parenthesis stands one character, and a quote
  -- takes the parenthesis into its string.
  by_cases hquote : isQuote c = true
  · rcases Plain.tokens_quote_paren hquote ds with ⟨k, body, xs, hkind, htokens⟩
    rw [htokens]
    refine .inside ⟨hkind, ?_⟩
    rw [Lexeme.token, String.toList_ofList]
    rfl
  · rcases Plain.tokens_before_paren hname (Bool.eq_false_iff.mpr hquote) ds with ⟨k, htokens⟩
    rw [htokens]
    refine .beyond ?_ rfl
    rw [byteLength_token, byteCount_cons, byteCount_nil,
      utf8Size_of_ascii (ascii_of_not_isNameChar hname)]

theorem opensSoon_of_callAhead {xs : List Lexeme} {cs : List Char} (h : IsStream xs cs)
    (hcall : CallAhead (xs.map Lexeme.token)) : OpensSoon cs := by
  rcases xs with _ | ⟨x, xs⟩
  · cases hcall
  rw [← h.flatten_eq, List.map_cons, List.flatten_cons]
  rcases h.of_cons with ⟨hx, hxs⟩
  -- The parenthesis is the first token, the token behind one of a single byte, or the
  -- second character of the first token.
  rcases callAhead_cons hcall with hkind | ⟨hlen, p, us, heq, hkind⟩ | ⟨_, hinside⟩
  · have hx : Covers .leftParen x.chars (xs.map Lexeme.chars).flatten := hkind ▸ hx
    rw [hx.chars_of_leftParen]
    exact List.mem_cons_self
  · rcases xs with _ | ⟨y, ys⟩
    · injection heq
    injection heq with hy _
    have hy : Covers .leftParen y.chars (ys.map Lexeme.chars).flatten := by
      have hkind : y.kind = .leftParen := by
        rw [← hkind, ← hy, Lexeme.token]
      exact hkind ▸ hxs.of_cons.1
    rw [byteLength_token] at hlen
    rcases exists_eq_singleton_of_byteCount hlen with ⟨c, hc⟩
    rw [hc, List.map_cons, List.flatten_cons, hy.chars_of_leftParen]
    exact List.mem_cons_of_mem c List.mem_cons_self
  · rw [Lexeme.token, String.toList_ofList] at hinside
    have hlt : 1 < x.chars.length := (List.getElem?_eq_some_iff.mp hinside).1
    refine List.mem_of_getElem? (i := 1) ?_
    rw [List.getElem?_take_of_lt Nat.one_lt_two, List.getElem?_append_left hlt]
    exact hinside

/-- The two characters behind a name, told by the tokens that are read there. -/
theorem opensSoon_iff_callAhead {cs : List Char} (hname : Plain.starts isNameChar cs = false) :
    OpensSoon cs ↔ CallAhead ((Plain.tokens cs).map Lexeme.token) :=
  ⟨callAhead_of_opensSoon hname, opensSoon_of_callAhead (Plain.isStream_tokens cs)⟩

theorem nameKind_isFunction_iff {cs rest : List Char} :
    nameKind cs rest = .function ∨ nameKind cs rest = .url ↔ OpensSoon rest := by
  by_cases hopen : OpensSoon rest
  · refine iff_of_true ?_ hopen
    rw [nameKind_of_opensSoon hopen]
    cases Plain.isUrl cs with
    | true => exact Or.inr rfl
    | false => exact Or.inl rfl
  · refine iff_of_false ?_ hopen
    rw [nameKind_of_not_opensSoon hopen]
    rintro (h | h) <;> injection h

theorem nameKind_eq_url_iff {cs rest : List Char} (hopen : OpensSoon rest) :
    nameKind cs rest = .url ↔ cs.map Char.toLower = ['u', 'r', 'l'] := by
  rw [nameKind_of_opensSoon hopen, ← decide_eq_true_iff (p := cs.map Char.toLower = _)]
  show _ ↔ Plain.isUrl cs = true
  cases Plain.isUrl cs with
  | true => exact iff_of_true rfl rfl
  | false => exact iff_of_false (fun h => by injection h) Bool.false_ne_true

/-- Where no parenthesis is one of the next two tokens, the call is inside a
    string. -/
theorem CallAhead.inside_of_no_paren {ts : List Token} (h : CallAhead ts)
    (hne : ∀ u ∈ ts.take 2, u.kind ≠ .leftParen) : ∃ u, ts.head? = some u ∧ u.OpensInside := by
  cases h with
  | paren hkind => exact absurd hkind (hne _ List.mem_cons_self)
  | beyond _ hkind => exact absurd hkind (hne _ (List.mem_cons_of_mem _ List.mem_cons_self))
  | inside hinside => exact ⟨_, rfl, hinside⟩

/-- Among the names of a text those of functions are the ones with a call
    ahead, told by the tokens behind them, and `url` is told by its letters. A
    call without a parenthesis among the next two tokens is inside a string. -/
theorem isFunction_iff_callAhead {text : String} (h : text.utf8ByteSize < maxPosition) :
    ∃ ts, tokenize text = .ok ts ∧ ∀ i t, ts[i]? = some t → t.kind.isName = true →
      (t.kind = .function ∨ t.kind = .url ↔ CallAhead (ts.drop (i + 1))) ∧
      (t.kind = .function ∨ t.kind = .url →
        (t.kind = .url ↔ t.text.toList.map Char.toLower = ['u', 'r', 'l']) ∧
        ((∀ u ∈ (ts.drop (i + 1)).take 2, u.kind ≠ .leftParen) →
          ∃ u, ts[i + 1]? = some u ∧ u.OpensInside)) := by
  refine ⟨_, tokenize_eq_ok h, ?_⟩
  intro i t hi hname
  rw [List.getElem?_map, Option.map_eq_some_iff] at hi
  rcases hi with ⟨x, hx, rfl⟩
  -- The name has its form before the texts of the tokens behind it, and those
  -- are what these texts are read as.
  have hstream := Plain.isStream_tokens text.toList
  have hform := (isStream_iff_forall.mp hstream).2 i x hx
  rw [← List.take_append_drop (i + 1) (Plain.tokens text.toList)] at hstream
  have hrest := hstream.of_append
  rcases (covers_name_iff hname).mp hform with ⟨_, hend, hkind⟩
  have hkind : x.token.kind = nameKind x.chars _ := hkind
  have hcall := opensSoon_iff_callAhead hend
  rw [isStream_iff.mp hrest] at hcall
  rw [hkind, nameKind_isFunction_iff, ← List.map_drop, hcall]
  refine ⟨Iff.rfl, fun hahead => ⟨?_, fun hne => ?_⟩⟩
  · rw [nameKind_eq_url_iff (hcall.mpr hahead), Lexeme.token, String.toList_ofList]
  · rw [← List.head?_drop, ← List.map_drop]
    exact hahead.inside_of_no_paren hne

/-- A name in front of a string that begins with a parenthesis. No token of a
    parenthesis is near. -/
theorem isFunction_before_string :
    "URL'(a'".utf8ByteSize < maxPosition ∧
      tokenize "URL'(a'" = .ok [⟨.url, "URL"⟩, ⟨.string, "'(a'"⟩] ∧
      CallAhead [⟨.string, "'(a'"⟩] := by
  have h : "URL'(a'".utf8ByteSize < maxPosition := by decide
  have hbody : IsStringBody '\'' ['(', 'a'] :=
    ((IsStringBody.nil '\'').cons (by decide) rfl).cons (by decide) rfl
  have hstring : Covers .string ['\'', '(', 'a', '\''] [] :=
    ⟨'\'', ['(', 'a'], rfl, hbody, Or.inl rfl⟩
  -- The parenthesis inside of the string is the second character behind the name.
  have hopen : OpensSoon ['\'', '(', 'a', '\''] := List.mem_cons_of_mem _ List.mem_cons_self
  have hname : Covers .url ['U', 'R', 'L'] ['\'', '(', 'a', '\''] :=
    ⟨⟨'U', ['R', 'L'], rfl, rfl, List.all_eq_true.mp rfl⟩, rfl, hopen, rfl⟩
  have htokens : tokenize "URL'(a'" = .ok [⟨.url, "URL"⟩, ⟨.string, "'(a'"⟩] := by
    rw [tokenize_eq_ok h]
    show Except.ok ((Plain.tokens (['U', 'R', 'L'] ++ ['\'', '(', 'a', '\''])).map Lexeme.token) = _
    rw [Plain.tokens_of_covers hname, Plain.tokens_single hstring]
    rfl
  rcases isFunction_iff_callAhead h with ⟨ts, hts, hall⟩
  rw [htokens, Except.ok.injEq] at hts
  rw [← hts] at hall
  exact ⟨h, htokens, (hall 0 ⟨.url, "URL"⟩ rfl rfl).1.mp (Or.inr rfl)⟩

end CssTokens
