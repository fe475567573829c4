import CssTokens.Plain

/-!
# The Grammar of Token Streams

What the tokens of a text are, said without reading it.

Each kind of token has a form, and a condition on what may follow: a run is
followed by nothing that would make it longer, a name by a parenthesis or by
none, a string that is cut off by the end of the text. A list of lexemes is a
stream of a text when their characters, one behind the other, are the text,
and each of them has the form of its kind before what follows it.

Nothing here says how to find the tokens. A text has one stream, and reading
finds it.

## Main definitions

* `IsNumeral`, `IsName`, `IsStringBody`: The forms that tokens are made of.
* `Covers`: The form of each kind, before a given rest.
* `IsStream`: A list of lexemes that makes up a text.
-/

namespace CssTokens

/-- At least one digit: digits, digits and a point and maybe more digits, or a
    point and digits. -/
def IsNumeral (cs : List Char) : Prop :=
  ∃ whole part : List Char, (∀ c ∈ whole, c.isDigit = true) ∧ (∀ c ∈ part, c.isDigit = true) ∧
    (cs = whole ∧ whole ≠ [] ∨ cs = whole ++ '.' :: part ∧ (whole ≠ [] ∨ part ≠ []))

/-- A name start and any number of name characters. -/
def IsName (cs : List Char) : Prop :=
  ∃ c ds, cs = c :: ds ∧ isNameStart c = true ∧ ∀ d ∈ ds, isNameChar d = true

/-- Characters between the quotes of a string: none is the quote, and each line
    break has a backslash right before it. -/
def IsStringBody (quote : Char) (cs : List Char) : Prop :=
  quote ∉ cs ∧ ∀ before c after, cs = before ++ c :: after → isNewline c = true →
    before.getLast? = some '\\'

/-- A character that begins nothing, before a given rest. -/
def BeginsNothing (c : Char) (rest : List Char) : Prop :=
  isBlank c = false ∧ isQuote c = false ∧ Kind.ofPunctuation? c = none ∧
    isNameStart c = false ∧ c.isDigit = false ∧
    (c = '#' ∨ c = '@' → Plain.starts isNameStart rest = false) ∧
    (c = '.' → Plain.starts Char.isDigit rest = false)

/-- Whether a left parenthesis is one of the first two characters. -/
def OpensSoon (rest : List Char) : Prop := '(' ∈ rest.take 2

/-- The characters have the form of a kind, before a given rest. -/
def Covers (kind : Kind) (cs rest : List Char) : Prop :=
  match kind with
  | .whitespace =>
      cs ≠ [] ∧ (∀ c ∈ cs, isBlank c = true) ∧ Plain.starts isBlank rest = false
  | .leftParen | .rightParen | .leftBrace | .rightBrace | .colon | .semicolon | .comma =>
      kind.lexeme? = some (String.ofList cs)
  | .hash =>
      ∃ ds, cs = '#' :: ds ∧ IsName ds ∧ Plain.starts isNameChar rest = false
  | .atKeyword =>
      ∃ ds, cs = '@' :: ds ∧ IsName ds ∧ Plain.starts isNameChar rest = false
  | .ident =>
      IsName cs ∧ Plain.starts isNameChar rest = false ∧ ¬ OpensSoon rest
  | .function =>
      IsName cs ∧ Plain.starts isNameChar rest = false ∧ OpensSoon rest ∧
        Plain.isUrl cs = false
  | .url =>
      IsName cs ∧ Plain.starts isNameChar rest = false ∧ OpensSoon rest ∧
        Plain.isUrl cs = true
  | .number =>
      IsNumeral cs ∧ Plain.starts isNameChar rest = false ∧
        Plain.starts (· == '%') rest = false ∧
        ('.' ∉ cs → Plain.starts (· == '.') rest = false)
  | .percentage =>
      ∃ ds, cs = ds ++ ['%'] ∧ IsNumeral ds
  | .dimension =>
      ∃ ds c us, cs = ds ++ c :: us ∧ IsNumeral ds ∧ isNameChar c = true ∧
        c.isDigit = false ∧ (∀ u ∈ us, isNameChar u = true) ∧
        Plain.starts isNameChar rest = false
  | .string =>
      ∃ quote body, isQuote quote = true ∧ IsStringBody quote body ∧
        (cs = quote :: (body ++ [quote]) ∨
          cs = quote :: body ∧
            (rest = [] ∧ body.getLast? ≠ some '\\' ∨ rest = ['\\']))
  | .badString =>
      ∃ quote body c, isQuote quote = true ∧ IsStringBody quote body ∧ isNewline c = true ∧
        cs = quote :: (body ++ [c]) ∧ body.getLast? ≠ some '\\'
  | .unmatched => ∃ c, cs = [c] ∧ BeginsNothing c rest
  | .at | .comment | .cdo | .cdc | .eof => False

/-- The lexemes make up the text, each in the form of its kind. -/
inductive IsStream : List Lexeme → List Char → Prop where
  | nil : IsStream [] []
  | cons {x : Lexeme} {xs : List Lexeme} {rest : List Char} :
      Covers x.kind x.chars rest → IsStream xs rest → IsStream (x :: xs) (x.chars ++ rest)

end CssTokens
