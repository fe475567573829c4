import CssTokens.Proofs.Grammar.Lookahead
import CssTokens.Proofs.TokenStream.Calls
import CssTokens.Proofs.TokenStream.Characterization
import Mathlib.Data.List.ModifyLast

/-!
# Strings With Another Body

What else changes when a string gets another body: next to nothing.

A string that has its end on it is one token whatever is between its quotes,
as long as that is a body, and so the tokens behind it are read from the same
place as before. In front of it a token sees the quote, or the quote behind
one more character. Only a name right in front of the string sees one
character of the body, and asks whether it is a parenthesis. Such a name may
change its kind; nothing else does.

## Main definitions

* `enclosed`: A text between two quotes.
* `Token.facing`: A token in front of a string with a given body.
* `Lexeme.before`: What was read, before another rest.

## Theorems

* `lexeme_facing`: What a token in front of a string sees of it.
* `IsStream.change_behind`: A stream in front of another text.
* `IsStream.change_string`: A stream with another string in it.
* `tokenize_other_body`: The tokens of a text with another body in a string.
-/

namespace CssTokens

/-- A text between two quotes. -/
def enclosed (quote : Char) (body : String) : String :=
  String.singleton quote ++ body ++ String.singleton quote

/-- A token in front of a string with a given body: a name is that of a
    function if the body begins with a parenthesis. -/
def Token.facing (body : String) (t : Token) : Token :=
  if t.kind.isName then
    ⟨if body.toList.head? = some '(' then (if isUrlName t.text then .url else .function)
      else .ident, t.text⟩
  else t

/-- What was read, before another rest. -/
def Lexeme.before (rest : List Char) (x : Lexeme) : Lexeme :=
  ⟨x.kind.before x.chars rest, x.chars⟩

theorem toList_enclosed (quote : Char) (body : String) :
    (enclosed quote body).toList = quote :: (body.toList ++ [quote]) := by
  rw [enclosed, String.toList_append, String.toList_append, String.toList_singleton]
  rfl

/-- Behind a quote the first character of the body is the one that a name
    looks at, or the closing quote if there is none. -/
theorem opensSoon_enclosed {quote : Char} (hq : isQuote quote = true) (body : String)
    (rest : List Char) :
    OpensSoon ((enclosed quote body).toList ++ rest) ↔ body.toList.head? = some '(' := by
  have hne : '(' ≠ quote := by
    rcases isQuote_iff.mp hq with rfl | rfl <;> decide
  rw [toList_enclosed, OpensSoon, List.cons_append, List.take_succ_cons, List.mem_cons,
    or_iff_right hne]
  -- The second character is the closing quote if the body is empty.
  cases body.toList with
  | nil =>
      refine iff_of_false ?_ (fun h => by injection h)
      rw [List.nil_append, List.singleton_append, List.take_succ_cons, List.take_zero,
        List.mem_singleton]
      exact hne
  | cons c cs =>
      rw [List.cons_append, List.cons_append, List.take_succ_cons, List.take_zero,
        List.mem_singleton, List.head?_cons, Option.some.injEq, eq_comm]

/-- A token in front of a string has the kind that goes with what it sees. -/
theorem lexeme_facing {quote : Char} (hq : isQuote quote = true) (body : String)
    (rest : List Char) (t : Token) :
    (t.facing body).lexeme = t.lexeme.before ((enclosed quote body).toList ++ rest) := by
  have hurl : isUrlName t.text = Plain.isUrl t.text.toList := by
    rw [← isUrlName_ofList, String.ofList_toList]
  unfold Token.facing Lexeme.before Kind.before Token.lexeme
  dsimp only
  split
  · by_cases hopen : body.toList.head? = some '('
    · rw [nameKind_of_opensSoon ((opensSoon_enclosed hq body rest).mpr hopen), if_pos hopen, hurl]
    · rw [nameKind_of_not_opensSoon (mt (opensSoon_enclosed hq body rest).mp hopen), if_neg hopen]
  · rfl

theorem facing_of_covers {quote : Char} (hq : isQuote quote = true) {body : String}
    {rest : List Char} {t : Token}
    (h : Covers t.kind t.text.toList ((enclosed quote body).toList ++ rest)) :
    t.facing body = t := by
  have hlexeme : (t.facing body).lexeme = t.lexeme := by
    rw [lexeme_facing hq body rest, Token.lexeme, Lexeme.before, Kind.before_eq h fun _ => Iff.rfl]
  rw [← token_lexeme (t.facing body), hlexeme, token_lexeme]

/-- In front of a string a name is an identifier or that of a function, by the
    first character of the body. -/
theorem Token.kind_facing_eq_ident_iff {t : Token} (hname : t.kind.isName = true) {body : String} :
    (t.facing body).kind = .ident ↔ body.toList.head? ≠ some '(' := by
  rw [Token.facing, if_pos hname]
  dsimp only
  by_cases hopen : body.toList.head? = some '('
  · rw [if_pos hopen]
    refine iff_of_false ?_ (not_not_intro hopen)
    split <;> intro heq <;> injection heq
  · rw [if_neg hopen]
    exact iff_of_true rfl hopen

/-- A token that another body changes is a name, and just one of the two bodies
    begins with a parenthesis. -/
theorem Token.isName_of_facing_ne {t : Token} {body other : String} (hbody : t.facing body = t)
    (hne : t.facing other ≠ t) :
    t.kind.isName = true ∧ ¬ (body.toList.head? = some '(' ↔ other.toList.head? = some '(') := by
  constructor
  · refine Decidable.byContradiction fun hname => hne ?_
    rw [Token.facing, if_neg hname]
  · intro hsame
    refine hne (Eq.trans ?_ hbody)
    rw [Token.facing, Token.facing]
    simp only [hsame]

theorem map_lexeme_facing {quote : Char} (hq : isQuote quote = true) (body : String)
    (rest : List Char) (ts : List Token) :
    (ts.modifyLast (Token.facing body)).map Token.lexeme =
      (ts.map Token.lexeme).modifyLast (Lexeme.before ((enclosed quote body).toList ++ rest)) := by
  rcases List.eq_nil_or_concat ts with rfl | ⟨front, t, rfl⟩
  · rfl
  · rw [List.concat_eq_append, List.modifyLast_concat, List.map_append, List.map_append,
      List.map_singleton, List.map_singleton, List.modifyLast_concat, lexeme_facing hq]

/-- In front of another text that begins with the same character all lexemes
    stay, but for the kind of a name right in front of it. -/
theorem IsStream.change_behind {xs ys ys' : List Lexeme} {c : Char} {cs r r' : List Char}
    (h : IsStream (xs ++ ys) cs) (hys : IsStream ys (c :: r)) (hys' : IsStream ys' (c :: r'))
    (hslash : c ≠ '\\') :
    IsStream (xs.modifyLast (Lexeme.before (c :: r')) ++ ys')
      ((xs.map Lexeme.chars).flatten ++ c :: r') := by
  rcases List.eq_nil_or_concat xs with rfl | ⟨front, x, rfl⟩
  · exact hys'
  rw [List.concat_eq_append] at h ⊢
  rw [List.append_assoc, List.singleton_append] at h
  rcases h.of_append.of_cons with ⟨hx, _⟩
  rw [hys.flatten_eq] at hx
  have hlast : Covers (x.kind.before x.chars (c :: r')) x.chars (c :: r') := by
    refine hx.change_rest (fun _ => id) ?_
    intro hkind
    have hx : Covers .string x.chars (c :: r) := hkind ▸ hx
    refine hx.closed_string (List.cons_ne_nil c r) ?_ (c :: r')
    intro heq
    injection heq with hc _
    exact hslash hc
  have hold : IsStream (x :: ys) (x.chars ++ c :: r) := .cons hx hys
  have hnew : IsStream (x.before (c :: r') :: ys') (x.chars ++ c :: r') :=
    .cons (x := x.before (c :: r')) hlast hys'
  have hne : x.chars ≠ [] := by
    refine (Plain.tokens_spec (x.chars ++ c :: r) x ?_).1
    rw [isStream_iff.mp hold]
    exact List.mem_cons_self
  -- The lexemes in front of the last see its characters, and at most one of
  -- those behind it.
  have htake : (x.chars ++ c :: r).take 2 = (x.chars ++ c :: r').take 2 := by
    rcases List.exists_cons_of_ne_nil hne with ⟨d, ds, hd⟩
    rw [hd]
    cases ds with
    | nil => rfl
    | cons e es => rfl
  have hlen : 2 ≤ (x.chars ++ c :: r).length := by
    have := List.length_pos_iff.mpr hne
    rw [List.length_append, List.length_cons]
    omega
  have hfront := h.change_rest hold hnew htake hlen
  rw [List.modifyLast_concat, List.map_append, List.flatten_append, List.append_assoc,
    List.append_assoc, List.map_singleton, List.flatten_singleton]
  exact hfront

/-- Another string with its end on it may stand where one stands. -/
theorem IsStream.change_string {quote : Char} (hq : isQuote quote = true) {body other : String}
    (hother : IsStringBody quote other.toList) {xs ys : List Lexeme} {cs : List Char}
    (h : IsStream (xs ++ ⟨.string, (enclosed quote body).toList⟩ :: ys) cs) :
    IsStream
      (xs.modifyLast
          (Lexeme.before ((enclosed quote other).toList ++ (ys.map Lexeme.chars).flatten)) ++
        ⟨.string, (enclosed quote other).toList⟩ :: ys)
      ((xs.map Lexeme.chars).flatten ++
        ((enclosed quote other).toList ++ (ys.map Lexeme.chars).flatten)) := by
  rcases h.of_append.of_cons with ⟨hx, hys⟩
  have hnew : Covers .string (enclosed quote other).toList (ys.map Lexeme.chars).flatten :=
    ⟨quote, other.toList, hq, hother, Or.inl (toList_enclosed quote other)⟩
  -- From the string on there are two streams, and the tokens in front see the first two
  -- characters of either.
  have hstream := IsStream.cons (x := ⟨.string, (enclosed quote body).toList⟩) hx hys
  have hstream' := IsStream.cons (x := ⟨.string, (enclosed quote other).toList⟩) hnew hys
  rw [toList_enclosed] at h hstream hstream' ⊢
  exact h.change_behind hstream hstream' (isQuote_spec hq).2.2.1

/-- A string of a text that has its end on it may get any other body. Its token
    gets the new text, and all other tokens stay, but for a name right in front
    of the string: that is an identifier exactly if the body does not begin
    with a parenthesis, so it changes only if just one of the two bodies does. -/
theorem tokenize_other_body {quote : Char} (hq : isQuote quote = true)
    {before body other behind : String}
    (h : (before ++ enclosed quote body ++ behind).utf8ByteSize < maxPosition)
    (h' : (before ++ enclosed quote other ++ behind).utf8ByteSize < maxPosition)
    {front rest : List Token}
    (htokens : tokenize (before ++ enclosed quote body ++ behind) =
      .ok (front ++ ⟨.string, enclosed quote body⟩ :: rest))
    (hstart : (String.join (front.map Token.text)).utf8ByteSize = before.utf8ByteSize)
    (hother : IsStringBody quote other.toList) :
    tokenize (before ++ enclosed quote other ++ behind) =
        .ok (front.modifyLast (Token.facing other) ++ ⟨.string, enclosed quote other⟩ :: rest) ∧
      ∀ t ∈ front.getLast?,
        (t.kind.isName = true →
          (t.kind = .ident ↔ body.toList.head? ≠ some '(') ∧
          ((t.facing other).kind = .ident ↔ other.toList.head? ≠ some '(')) ∧
        (t.facing other ≠ t → t.kind.isName = true ∧
          ¬ (body.toList.head? = some '(' ↔ other.toList.head? = some '(')) := by
  rw [tokenize_eq_ok_iff_isStream h, List.map_append, List.map_cons] at htokens
  -- The string starts where the texts in front of it end, so the text is cut
  -- there, and what is behind the string is the same on both sides.
  have hchars := htokens.flatten_eq
  rw [List.map_append, List.flatten_append, List.map_cons, List.flatten_cons, String.toList_append,
    String.toList_append, List.append_assoc] at hchars
  rw [utf8ByteSize_eq_byteCount, utf8ByteSize_eq_byteCount, toList_join_text] at hstart
  rcases append_inj_of_byteCount hchars hstart with ⟨hbefore, hrest⟩
  have hbehind : ((rest.map Token.lexeme).map Lexeme.chars).flatten = behind.toList :=
    List.append_cancel_left hrest
  constructor
  · have hstream := htokens.change_string hq hother
    rw [tokenize_eq_ok_iff_isStream h', List.map_append, map_lexeme_facing hq other,
      String.toList_append, String.toList_append, List.append_assoc, ← hbefore, ← hbehind]
    exact hstream
  · intro t ht
    rcases List.getLast?_eq_some_iff.mp ht with ⟨init, rfl⟩
    rw [List.map_append, List.append_assoc] at htokens
    have hform := htokens.of_append.of_cons.1
    have hbody : t.facing body = t := facing_of_covers hq hform
    exact ⟨fun hname => ⟨hbody ▸ Token.kind_facing_eq_ident_iff hname,
      Token.kind_facing_eq_ident_iff hname⟩, Token.isName_of_facing_ne hbody⟩

/-- A parenthesis for a letter makes the name in front that of a function. -/
theorem tokenize_other_body_paren :
    isQuote '\'' = true ∧ ("a" ++ enclosed '\'' "x" ++ "b").utf8ByteSize < maxPosition ∧
      ("a" ++ enclosed '\'' "(" ++ "b").utf8ByteSize < maxPosition ∧
      IsStringBody '\'' "(".toList ∧
      tokenize ("a" ++ enclosed '\'' "x" ++ "b") =
        .ok [⟨.ident, "a"⟩, ⟨.string, enclosed '\'' "x"⟩, ⟨.ident, "b"⟩] ∧
      tokenize ("a" ++ enclosed '\'' "(" ++ "b") =
        .ok [⟨.function, "a"⟩, ⟨.string, enclosed '\'' "("⟩, ⟨.ident, "b"⟩] := by
  have h : ("a" ++ enclosed '\'' "x" ++ "b").utf8ByteSize < maxPosition := by decide
  have h' : ("a" ++ enclosed '\'' "(" ++ "b").utf8ByteSize < maxPosition := by decide
  have hletter : IsStringBody '\'' ['x'] := (IsStringBody.nil '\'').cons (by decide) rfl
  have hparen : IsStringBody '\'' "(".toList := (IsStringBody.nil '\'').cons (by decide) rfl
  -- The first body is read by its forms; the second one is then given by the general
  -- statement.
  have htokens : tokenize ("a" ++ enclosed '\'' "x" ++ "b") =
      .ok [⟨.ident, "a"⟩, ⟨.string, enclosed '\'' "x"⟩, ⟨.ident, "b"⟩] := by
    have hopen : '(' ∉ ['\'', 'x'] := by decide
    have hname : Covers .ident ['a'] (['\'', 'x', '\''] ++ ['b']) :=
      ⟨⟨'a', [], rfl, rfl, List.forall_mem_nil _⟩, rfl, hopen⟩
    have hstring : Covers .string ['\'', 'x', '\''] ['b'] :=
      ⟨'\'', ['x'], rfl, hletter, Or.inl rfl⟩
    have hlast : Covers .ident ['b'] [] :=
      ⟨⟨'b', [], rfl, rfl, List.forall_mem_nil _⟩, rfl, List.not_mem_nil⟩
    rw [tokenize_eq_ok h]
    show Except.ok ((Plain.tokens (['a'] ++ (['\'', 'x', '\''] ++ ['b']))).map Lexeme.token) = _
    rw [Plain.tokens_of_covers hname, Plain.tokens_of_covers hstring, Plain.tokens_single hlast]
    rfl
  have hcut : tokenize ("a" ++ enclosed '\'' "x" ++ "b") =
      .ok ([⟨.ident, "a"⟩] ++ ⟨.string, enclosed '\'' "x"⟩ :: [⟨.ident, "b"⟩]) := htokens
  exact ⟨rfl, h, h', hparen, htokens, (tokenize_other_body rfl h h' hcut rfl hparen).1⟩

end CssTokens
