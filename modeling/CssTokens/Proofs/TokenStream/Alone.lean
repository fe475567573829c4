import CssTokens.Proofs.Grammar.Lookahead
import CssTokens.Proofs.TokenStream.Characterization

/-!
# The Text of a Token on Its Own

What the text of a token is read as, when nothing else is there.

With its context a token loses all that was behind it. No form minds that,
because a form asks of what follows that something does not begin there, and
nothing begins at the end of a text. A name loses the parenthesis of a call
and is an identifier then. The exception are strings that the end of the text
cut off in front of its last backslash. Such a string may have a backslash of
its own as its last character, and when the text ends with it, that one is
left out in turn.

## Main definitions

* `Kind.alone`: The kind of a token that nothing follows.

## Theorems

* `IsStringBody.of_append`: The front of a body is a body.
* `Covers.alone`: A form before nothing.
* `Covers.last_backslash`: A string that ends on a backslash.
* `tokenize_text`: The text of a token as a text of its own.
-/

namespace CssTokens

/-- The kind of a token that nothing follows: no call is ahead of a name. -/
def Kind.alone : Kind → Kind
  | .function | .url => .ident
  | k => k

theorem Kind.before_nil (k : Kind) (cs : List Char) : k.before cs [] = k.alone := by
  cases k <;> rfl

/-- The front of a body is a body. -/
theorem IsStringBody.of_append {quote : Char} {front back : List Char}
    (h : IsStringBody quote (front ++ back)) : IsStringBody quote front := by
  refine ⟨fun hmem => h.1 (List.mem_append_left back hmem), ?_⟩
  intro before c after heq hc
  refine h.2 before c (after ++ back) ?_ hc
  rw [heq, List.append_assoc, List.cons_append]

/-- What has a form has it before nothing, unless it is a string that ends on
    a backslash. -/
theorem Covers.alone {k : Kind} {t r : List Char} (h : Covers k t r)
    (hlast : ¬ (k = .string ∧ t.getLast? = some '\\')) : Covers k.alone t [] := by
  rw [← Kind.before_nil k t]
  refine h.change_rest (fun _ _ => rfl) ?_
  rintro rfl
  rcases h with ⟨quote, body, hq, hb, rfl | ⟨rfl, _⟩⟩
  · exact ⟨quote, body, hq, hb, Or.inl rfl⟩
  · -- The end of the text cuts it off again.
    exact ⟨quote, body, hq, hb, Or.inr ⟨rfl, Or.inl ⟨rfl, fun hbody =>
      hlast ⟨rfl, getLast?_cons_of_getLast? hbody⟩⟩⟩⟩

/-- The backslash of a string that ends on one is behind its body, and one
    backslash more is all that follows. -/
theorem Covers.last_backslash {t r : List Char} (h : Covers .string t r)
    (hlast : t.getLast? = some '\\') :
    r = ['\\'] ∧ ∃ front, t = front ++ ['\\'] ∧ Covers .string front ['\\'] := by
  -- No quote is a backslash, so the text ends inside the body.
  have hslash {quote : Char} (hq : isQuote quote = true) : quote ≠ '\\' :=
    (isQuote_spec hq).2.2.1
  rcases h with ⟨quote, body, hq, hb, rfl | ⟨rfl, hend⟩⟩
  · rw [← List.cons_append, List.getLast?_concat, Option.some.injEq] at hlast
    exact absurd hlast (hslash hq)
  · have hbody : body.getLast? = some '\\' := by
      cases body with
      | nil =>
          rw [List.getLast?_singleton, Option.some.injEq] at hlast
          exact absurd hlast (hslash hq)
      | cons c body =>
          rw [List.getLast?_cons_cons] at hlast
          exact hlast
    rcases hend with ⟨_, hne⟩ | hr
    · exact absurd hbody hne
    · rcases List.getLast?_eq_some_iff.mp hbody with ⟨front, rfl⟩
      exact ⟨hr, quote :: front, rfl, quote, front, hq, hb.of_append, Or.inr ⟨rfl, Or.inr rfl⟩⟩

theorem Plain.tokens_backslash : tokens ['\\'] = [⟨.unmatched, ['\\']⟩] :=
  tokens_single ⟨'\\', rfl, rfl, rfl, rfl, rfl, rfl, fun _ => rfl, fun _ => rfl⟩

/-- The text of a token, read as a text of its own, is that token again, with
    the kind that it has when nothing follows. The one exception is a string
    that is cut off and ends on a backslash: it comes without that backslash,
    which is a token of its own then. Such a string stands in front of the
    backslash that ends the whole text. -/
theorem tokenize_text {text : String} (h : text.utf8ByteSize < maxPosition) :
    ∃ ts, tokenize text = .ok ts ∧ ∀ t ∈ ts,
      (¬ (t.kind = .string ∧ t.text.toList.getLast? = some '\\') →
        tokenize t.text = .ok [⟨t.kind.alone, t.text⟩]) ∧
      (t.kind = .string ∧ t.text.toList.getLast? = some '\\' →
        ∃ before body, ts = before ++ [t, ⟨.unmatched, "\\"⟩] ∧ t.text = body ++ "\\" ∧
          tokenize t.text = .ok [⟨.string, body⟩, ⟨.unmatched, "\\"⟩]) := by
  refine ⟨_, tokenize_eq_ok h, ?_⟩
  intro t ht
  rcases List.mem_map.mp ht with ⟨x, hx, rfl⟩
  rcases List.append_of_mem hx with ⟨xs, ys, hxs⟩
  -- The form of the token, before the texts of the tokens behind it.
  have hstream := Plain.isStream_tokens text.toList
  rw [hxs] at hstream
  rcases hstream.of_append.of_cons with ⟨hform, hrest⟩
  have hsize : x.token.text.utf8ByteSize < maxPosition := by
    have hbytes := congrArg byteCount hstream.flatten_eq
    rw [List.map_append, List.flatten_append, List.map_cons, List.flatten_cons, byteCount_append,
      byteCount_append, ← utf8ByteSize_eq_byteCount] at hbytes
    rw [Lexeme.token, utf8ByteSize_eq_byteCount, String.toList_ofList]
    omega
  rw [tokenize_eq_ok hsize, hxs, Lexeme.token, String.toList_ofList]
  constructor
  · intro hlast
    rw [Plain.tokens_single (hform.alone hlast)]
    rfl
  · rintro ⟨hkind, hlast⟩
    have hform : Covers .string x.chars (ys.map Lexeme.chars).flatten := hkind ▸ hform
    rcases hform.last_backslash hlast with ⟨hr, front, hfront, hstring⟩
    refine ⟨xs.map Lexeme.token, String.ofList front, ?_, ?_, ?_⟩
    · -- One backslash is left of the text, and it is one token.
      rw [hr, isStream_iff, Plain.tokens_backslash] at hrest
      rw [List.map_append, List.map_cons, ← hrest]
      rfl
    · rw [hfront, String.ofList_append]
    · rw [hfront, Plain.tokens_of_covers hstring, Plain.tokens_backslash]
      rfl

/-- Two backslashes behind a quote: the first is in the string, but not when
    the string is a text of its own. -/
theorem tokenize_text_two_backslashes :
    "'\\\\".utf8ByteSize < maxPosition ∧
      tokenize "'\\\\" = .ok [⟨.string, "'\\"⟩, ⟨.unmatched, "\\"⟩] ∧
      tokenize "'\\" = .ok [⟨.string, "'"⟩, ⟨.unmatched, "\\"⟩] := by
  have h : "'\\\\".utf8ByteSize < maxPosition := by decide
  have hbody : IsStringBody '\'' ['\\'] := (IsStringBody.nil '\'').cons (by decide) rfl
  have hform : Covers .string ['\'', '\\'] ['\\'] :=
    ⟨'\'', ['\\'], rfl, hbody, Or.inr ⟨rfl, Or.inr rfl⟩⟩
  have htokens : tokenize "'\\\\" = .ok [⟨.string, "'\\"⟩, ⟨.unmatched, "\\"⟩] := by
    rw [tokenize_eq_ok h]
    show Except.ok ((Plain.tokens (['\'', '\\'] ++ ['\\'])).map Lexeme.token) = _
    rw [Plain.tokens_of_covers hform, Plain.tokens_backslash]
    rfl
  rcases tokenize_text h with ⟨ts, hts, htext⟩
  rw [htokens, Except.ok.injEq] at hts
  rw [← hts] at htext
  -- The theorem for the first token, which ends on a backslash.
  rcases (htext ⟨.string, "'\\"⟩ List.mem_cons_self).2 ⟨rfl, rfl⟩ with ⟨_, body, _, hbody, halone⟩
  have hquote : body = "'" := String.append_left_inj "\\" |>.mp hbody.symm
  rw [hquote] at halone
  exact ⟨h, htokens, halone⟩

end CssTokens
