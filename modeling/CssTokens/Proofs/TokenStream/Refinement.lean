import CssTokens.Proofs.Grammar.Streams
import CssTokens.Proofs.Token.Reading
import CssTokens.Proofs.TokenStream.Loops

/-!
# Token Streams and the Plain Reading

A stream hands out the tokens of the plain reading.

The stream reads bytes at positions and looks ahead into padding; the plain
reading sees characters and nothing behind the last one. One call of `next`
takes the first token of the characters ahead, and at the end it takes
nothing. The calls that empty a stream follow by induction on the plain tokens
(`reads_placed`), and with them every loop over the stream: `locate_eq_ok` gives
the tokens of a whole text with their offsets, together with the stream that has
read them and all that it has told.

## Main definitions

* `Token.lexeme`: The kind and the characters of a token.
* `frontText`: The text of the first tokens.
* `locateFrom`: Lexemes in order, with the byte offset of each.

## Theorems

* `next_placed_of_room`, `next_placed`, `next_placed_end`: One call.
* `reads_placed`, `reads_ofString`: All calls up to the end.
* `locate_eq_ok`: The tokens of a text with their offsets.
* `tokenize_eq_plainTokens`: The tokens of a text are those of the plain
  reading.
-/

namespace CssTokens

open Reader

/-- The kind and the characters of a token. -/
def Token.lexeme (t : Token) : Lexeme := ⟨t.kind, t.text.toList⟩

theorem token_lexeme (t : Token) : t.lexeme.token = t := by
  rw [Token.lexeme, Lexeme.token, String.ofList_toList]

theorem lexeme_token (x : Lexeme) : x.token.lexeme = x := by
  rw [Token.lexeme, Lexeme.token, String.toList_ofList]

theorem map_lexeme_token (xs : List Lexeme) : (xs.map Lexeme.token).map Token.lexeme = xs := by
  rw [List.map_map, funext lexeme_token (f := Token.lexeme ∘ Lexeme.token), List.map_id']

/-- The joined texts of tokens, character by character. -/
theorem toList_join_text (ts : List Token) :
    (String.join (ts.map Token.text)).toList =
      ((ts.map Token.lexeme).map Lexeme.chars).flatten := by
  rw [String.toList_join, List.flatMap_def, List.map_map, List.map_map]
  rfl

/-- The texts of lexemes, character by character. -/
theorem toList_join_token (xs : List Lexeme) :
    (String.join ((xs.map Lexeme.token).map Token.text)).toList =
      (xs.map Lexeme.chars).flatten := by
  rw [toList_join_text, map_lexeme_token]

/-- The text of the first tokens. -/
def frontText (ts : List Token) (c : Nat) : String := String.join ((ts.take c).map Token.text)

theorem frontText_add (ts : List Token) (c n : Nat) :
    frontText ts (c + n) = frontText ts c ++ String.join (((ts.drop c).take n).map Token.text) := by
  rw [frontText, frontText, ← String.join_append, ← List.map_append, ← List.take_add]

/-- Lexemes in order, with the byte offset of each. -/
def locateFrom (p : Nat) : List Lexeme → List Located
  | [] => []
  | x :: xs => ⟨p, x.token⟩ :: locateFrom (p + byteCount x.chars) xs

theorem map_token_locateFrom (p : Nat) (xs : List Lexeme) :
    (locateFrom p xs).map Located.token = xs.map Lexeme.token := by
  induction xs generalizing p with
  | nil => rfl
  | cons x xs ih => rw [locateFrom, List.map_cons, List.map_cons, ih]

@[simp]
theorem byteLength_token (x : Lexeme) : x.token.byteLength = byteCount x.chars := by
  rw [Lexeme.token, Token.byteLength, utf8ByteSize_eq_byteCount, String.toList_ofList]

namespace TokenStream

theorem next_of_read {s : TokenStream} {t : Token} {r : Reader}
    (hread : Token.read s.reader = .ok (t, r)) (ht : t.isEnd = false) :
    s.next = .ok (t, ⟨r, Event.ofToken s.pos t :: s.told⟩) := by
  rw [next, hread, ok_bind]
  show Except.ok (t, TokenStream.mk r (if t.isEnd = true then _ else _)) = _
  rw [if_neg (Bool.eq_false_iff.mp ht)]

/-- One call takes the first token of what is ahead, if the position behind a
    name has a successor. -/
theorem next_placed_of_room {text : String} (h : text.utf8ByteSize ≤ maxPosition) {n m : Nat}
    (hroom : RoomBehindName text n) {kind : Kind}
    (hfirst : Plain.first (text.toList.drop n) = some (kind, m)) (told : List Event) :
    next ⟨placed text n, told⟩ =
      .ok (Lexeme.token ⟨kind, (text.toList.drop n).take m⟩,
        ⟨placed text (n + m),
          Event.ofToken (placed text n).pos (Lexeme.token ⟨kind, (text.toList.drop n).take m⟩) ::
            told⟩) :=
  next_of_read (Token.readBy_placed ByteSearch.plain_findsFirst h hroom hfirst)
    (beq_eq_false_iff_ne.mpr (Plain.first_kind hfirst).1)

/-- One call takes the first token of what is ahead. -/
theorem next_placed {text : String} (h : text.utf8ByteSize < maxPosition) {n m : Nat}
    {kind : Kind} (hfirst : Plain.first (text.toList.drop n) = some (kind, m))
    (told : List Event) :
    next ⟨placed text n, told⟩ =
      .ok (Lexeme.token ⟨kind, (text.toList.drop n).take m⟩,
        ⟨placed text (n + m),
          Event.ofToken (placed text n).pos (Lexeme.token ⟨kind, (text.toList.drop n).take m⟩) ::
            told⟩) :=
  next_placed_of_room (Nat.le_of_lt h) (roomBehindName_of_lt h n) hfirst told

/-- Behind the last character a call hands out the end token, and changes
    nothing. -/
theorem next_placed_end {text : String} (h : text.utf8ByteSize ≤ maxPosition) {n : Nat}
    (hd : text.toList.drop n = []) (told : List Event) :
    next ⟨placed text n, told⟩ = .ok (Token.endOfInput, ⟨placed text n, told⟩) := by
  rw [next, Token.read, Token.readBy_placed_end h hd]
  rfl

/-- The calls up to the end find the tokens of what is ahead, and tell of each. -/
theorem reads_placed {text : String} (h : text.utf8ByteSize < maxPosition) {n : Nat}
    {cs : List Char} (hd : text.toList.drop n = cs) (told : List Event) :
    Reads ⟨placed text n, told⟩ (locateFrom (placed text n).pos (Plain.tokens cs))
      ⟨placed text (n + cs.length),
        ((locateFrom (placed text n).pos (Plain.tokens cs)).map Located.event).reverse ++
          told⟩ := by
  -- The induction is on the plain tokens, with one call for each.
  fun_induction Plain.tokens cs generalizing n told with
  | case1 cs hfirst =>
      have hnil := Plain.eq_nil_of_first_eq_none hfirst
      rw [hnil] at hd ⊢
      exact .ended (next_placed_end (Nat.le_of_lt h) hd told) rfl
  | case2 cs kind m hfirst ih =>
      have hbounds := Plain.first_bounds hfirst
      have hkind : (kind == .eof) = false :=
        beq_eq_false_iff_ne.mpr (Plain.first_kind hfirst).1
      subst hd
      -- What the next call starts from: its place, its offset, and the end.
      have hlen : n + m + ((text.toList.drop n).drop m).length =
          n + (text.toList.drop n).length := by
        rw [List.length_drop]
        omega
      have hpos : (placed text (n + m)).pos =
          (placed text n).pos + byteCount ((text.toList.drop n).take m) := pos_placed_add text n m
      have hcall := next_placed h hfirst told
      have hrest := ih (n := n + m) List.drop_drop.symm (Event.ofToken (placed text n).pos
        (Lexeme.token ⟨kind, (text.toList.drop n).take m⟩) :: told)
      rw [hpos, hlen] at hrest
      rw [locateFrom, List.map_cons, List.reverse_cons, List.append_assoc]
      exact .token hcall hkind hrest

end TokenStream

/-- The calls that empty the stream of a text. -/
theorem reads_ofString {text : String} (h : text.utf8ByteSize < maxPosition) :
    (TokenStream.ofString text).Reads (locateFrom 0 (Plain.tokens text.toList))
      ⟨placed text text.length,
        ((locateFrom 0 (Plain.tokens text.toList)).map Located.event).reverse⟩ := by
  have hreads := TokenStream.reads_placed h (n := 0) List.drop_zero []
  rw [Nat.zero_add, String.length_toList, List.append_nil] at hreads
  exact hreads

/-- The tokens of a text with their offsets, and the stream that has read
    them. -/
theorem locate_of_reads {text : String} {xs : List Located} {s : TokenStream}
    (h : (TokenStream.ofString text).Reads xs s) : locate text = .ok (xs, s) := by
  rw [locate, h.drain, ok_bind, Array.empty_append]
  rfl

theorem locate_eq_ok {text : String} (h : text.utf8ByteSize < maxPosition) :
    locate text = .ok (locateFrom 0 (Plain.tokens text.toList),
      ⟨placed text text.length,
        ((locateFrom 0 (Plain.tokens text.toList)).map Located.event).reverse⟩) :=
  locate_of_reads (reads_ofString h)

theorem tokenize_of_reads {text : String} {xs : List Located} {s : TokenStream}
    (h : (TokenStream.ofString text).Reads xs s) : tokenize text = .ok (xs.map Located.token) := by
  rw [tokenize, h.collect, ok_bind, Array.empty_append]
  rfl

theorem tokenize_eq_ok {text : String} (h : text.utf8ByteSize < maxPosition) :
    tokenize text = .ok ((Plain.tokens text.toList).map Lexeme.token) := by
  rw [tokenize_of_reads (reads_ofString h), map_token_locateFrom]

/-- The tokens of a text are those of the plain reading. -/
theorem tokenize_eq_plainTokens {text : String} (h : text.utf8ByteSize < maxPosition) :
    tokenize text = .ok (plainTokens text) := by
  rw [tokenize_eq_ok h, plainTokens]

/-- A parenthesis behind the next character makes a name a function. -/
theorem tokenize_open_behind_semicolon :
    "a;(".utf8ByteSize < maxPosition ∧
      tokenize "a;(" = .ok [⟨.function, "a"⟩, ⟨.semicolon, ";"⟩, ⟨.leftParen, "("⟩] := by
  have h : "a;(".utf8ByteSize < maxPosition := by decide
  -- The plain reading can be computed token by token.
  have hplain : Plain.tokens ['a', ';', '('] =
      [⟨.function, ['a']⟩, ⟨.semicolon, [';']⟩, ⟨.leftParen, ['(']⟩] := by
    rw [Plain.tokens_cons (k := .function) (n := 1) rfl,
      Plain.tokens_cons (k := .semicolon) (n := 1) rfl,
      Plain.tokens_cons (k := .leftParen) (n := 1) rfl]
    simp
  refine ⟨h, ?_⟩
  rw [tokenize_eq_plainTokens h, plainTokens]
  show Except.ok ((Plain.tokens ['a', ';', '(']).map Lexeme.token) = _
  rw [hplain]
  rfl

end CssTokens
