import CssTokens.Proofs.TokenStream.Refinement

/-!
# The Tokens of a Text and the Grammar

A list of tokens is what a text is read as exactly when it makes up the text
and each token has the form of its kind.

Nothing on the right-hand side of `tokenize_eq_ok_iff` reads anything. The
texts, joined, are the text; and each token stands before the texts that come
after it, and has a form there. From left to right this says what can be
relied on for every token of every text, from right to left that a list of
tokens written out by any other means is read back as it was.

## Theorems

* `map_token_eq_iff`: Tokens and the lexemes they are made from.
* `tokenize_eq_ok_iff_isStream`: The tokens of a text are the one stream of it.
* `tokenize_eq_ok_iff`: The tokens of a text, by the grammar.
-/

namespace CssTokens

theorem map_token_eq_iff {xs : List Lexeme} {ts : List Token} :
    xs.map Lexeme.token = ts ↔ xs = ts.map Token.lexeme := by
  constructor
  · rintro rfl
    rw [map_lexeme_token]
  · rintro rfl
    rw [List.map_map, funext token_lexeme (f := Lexeme.token ∘ Token.lexeme), List.map_id']

/-- What a text is read as is the one stream of it. -/
theorem tokenize_eq_ok_iff_isStream {text : String} (h : text.utf8ByteSize < maxPosition)
    {ts : List Token} : tokenize text = .ok ts ↔ IsStream (ts.map Token.lexeme) text.toList := by
  rw [tokenize_eq_ok h, Except.ok.injEq, map_token_eq_iff, isStream_iff]

/-- The tokens of a text, by the grammar. -/
theorem tokenize_eq_ok_iff {text : String} (h : text.utf8ByteSize < maxPosition)
    (ts : List Token) :
    tokenize text = .ok ts ↔ String.join (ts.map Token.text) = text ∧
      ∀ i t, ts[i]? = some t →
        Covers t.kind t.text.toList (String.join ((ts.drop (i + 1)).map Token.text)).toList := by
  rw [tokenize_eq_ok h, Except.ok.injEq,
    map_token_eq_iff, ← isStream_iff, isStream_iff_forall, ← toList_join_text, String.toList_inj]
  -- What is left is the same statement, of tokens and of their lexemes.
  constructor
  · rintro ⟨hjoin, hall⟩
    refine ⟨hjoin, ?_⟩
    intro i t hi
    have hform := hall i t.lexeme (by rw [List.getElem?_map, hi]; rfl)
    rw [← List.map_drop, ← toList_join_text] at hform
    exact hform
  · rintro ⟨hjoin, hall⟩
    refine ⟨hjoin, ?_⟩
    intro i x hi
    rw [List.getElem?_map, Option.map_eq_some_iff] at hi
    rcases hi with ⟨t, ht, rfl⟩
    rw [← List.map_drop, ← toList_join_text]
    exact hall i t ht

/-- A string that the text cuts off leaves a last backslash outside. -/
theorem tokenize_cut_string :
    "'a\\".utf8ByteSize < maxPosition ∧
      tokenize "'a\\" = .ok [⟨.string, "'a"⟩, ⟨.unmatched, "\\"⟩] := by
  have h : "'a\\".utf8ByteSize < maxPosition := by decide
  refine ⟨h, (tokenize_eq_ok_iff h _).mpr ⟨rfl, ?_⟩⟩
  intro i t hi
  -- The string has no closing quote, and only the backslash behind it; the backslash
  -- begins nothing.
  match i with
  | 0 =>
      injection hi with hi
      rw [← hi]
      have hbody : IsStringBody '\'' ['a'] := (IsStringBody.nil '\'').cons (by decide) rfl
      exact ⟨'\'', ['a'], rfl, hbody, Or.inr ⟨rfl, Or.inr rfl⟩⟩
  | 1 =>
      injection hi with hi
      rw [← hi]
      refine ⟨'\\', rfl, rfl, rfl, rfl, rfl, rfl, fun _ => rfl, fun _ => rfl⟩
  | i + 2 => injection hi

end CssTokens
