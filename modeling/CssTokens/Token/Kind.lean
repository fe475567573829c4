/-!
# Token Kinds

The vocabulary of the tokenizer.

A kind has a numeric code whose range names its family: names and values
below 16, punctuation from 32, trivia from 64, reserved markers from 80, soft
failures from 240, and 255 for the end of input. Kinds are ordered by code,
which is also the order of `all`.

`at`, `comment`, `cdo` and `cdc` belong to the vocabulary but never come out
of a source: comments and their relatives are read character by character.

## Main definitions

* `Kind`: The kinds of token.
* `Kind.all`: Every kind, in the order of the codes.
* `Kind.code`, `Kind.name`, `Kind.label`: Number, stable name, short label.
* `Kind.lexeme?`: The text of a kind that always has the same one.
* `Kind.ofPunctuation?`: The kind of a one-character punctuation token.
* `Kind.sort`, `Kind.max?`: Arranging kinds by code.
-/

namespace CssTokens

/-- What a token is. -/
inductive Kind where
  | ident
  | function
  | atKeyword
  | hash
  | string
  | url
  | number
  | dimension
  | percentage
  | leftParen
  | rightParen
  | leftBrace
  | rightBrace
  | colon
  | semicolon
  | comma
  | at
  | whitespace
  | comment
  | cdo
  | cdc
  | badString
  | unmatched
  | eof
  deriving DecidableEq

namespace Kind

/-- Every kind, in the order of the codes. -/
def all : List Kind :=
  [ident, function, atKeyword, hash, string, url, number, dimension, percentage,
    leftParen, rightParen, leftBrace, rightBrace, colon, semicolon, comma, .at,
    whitespace, comment, cdo, cdc, badString, unmatched, eof]

/-- The numeric code of a kind. -/
def code : Kind → Nat
  | ident => 0
  | function => 1
  | atKeyword => 2
  | hash => 3
  | string => 4
  | url => 5
  | number => 6
  | dimension => 7
  | percentage => 8
  | leftParen => 32
  | rightParen => 33
  | leftBrace => 34
  | rightBrace => 35
  | colon => 36
  | semicolon => 37
  | comma => 38
  | .at => 39
  | whitespace => 64
  | comment => 65
  | cdo => 80
  | cdc => 81
  | badString => 240
  | unmatched => 241
  | eof => 255

/-- The short label, used when a token is described. -/
def label : Kind → String
  | ident => "Ident"
  | function => "Function"
  | atKeyword => "AtKeyword"
  | hash => "Hash"
  | string => "String"
  | url => "Url"
  | number => "Number"
  | dimension => "Dimension"
  | percentage => "Percentage"
  | leftParen => "LeftParen"
  | rightParen => "RightParen"
  | leftBrace => "LeftBrace"
  | rightBrace => "RightBrace"
  | colon => "Colon"
  | semicolon => "Semicolon"
  | comma => "Comma"
  | .at => "At"
  | whitespace => "Whitespace"
  | comment => "Comment"
  | cdo => "Cdo"
  | cdc => "Cdc"
  | badString => "BadString"
  | unmatched => "Unmatched"
  | eof => "Eof"

/-- The stable name, which listings, reports and events carry. It differs
    from the label for the parentheses and the abbreviations. -/
def name : Kind → String
  | leftParen => "LeftParenthesis"
  | rightParen => "RightParenthesis"
  | cdo => "CDO"
  | cdc => "CDC"
  | eof => "EOF"
  | k => k.label

/-- The text of a kind that always covers the same characters. -/
def lexeme? : Kind → Option String
  | leftParen => some "("
  | rightParen => some ")"
  | leftBrace => some "\x7b"
  | rightBrace => some "\x7d"
  | colon => some ":"
  | semicolon => some ";"
  | comma => some ","
  | .at => some "@"
  | cdo => some "<!--"
  | cdc => some "-->"
  | eof => some ""
  | _ => none

/-- Kinds that carry no meaning of their own. -/
def isTrivia : Kind → Bool
  | whitespace | comment => true
  | _ => false

/-- Malformed input that was still made into a token. -/
def isSoftFailure : Kind → Bool
  | badString | unmatched => true
  | _ => false

/-- Kinds of the vocabulary that no source yields. -/
def isReserved : Kind → Bool
  | .at | comment | cdo | cdc => true
  | _ => false

/-- The kind of a character that is a token by itself. -/
def ofPunctuation? (c : Char) : Option Kind :=
  if c == '\x7b' then some leftBrace
  else if c == '\x7d' then some rightBrace
  else if c == '(' then some leftParen
  else if c == ')' then some rightParen
  else if c == ':' then some colon
  else if c == ';' then some semicolon
  else if c == ',' then some comma
  else none

/-- Arrange kinds by code. Equal kinds keep their number. -/
def sort (ks : List Kind) : List Kind :=
  ks.mergeSort fun a b => a.code ≤ b.code

/-- The kind of the greatest code, if there is any kind. -/
def max? (ks : List Kind) : Option Kind :=
  (sort ks).getLast?

end Kind

end CssTokens
