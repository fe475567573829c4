import CssTokens.Token.Kind
import CssTokens.Text.Quoted

/-!
# Tokens

A token is a kind and the exact text that it covers. The text is never
normalized or unescaped, so tokens in order give back what they were read
from.

## Main definitions

* `Token`: A kind and a text.
* `Token.endOfInput`: What is read when nothing is left.
* `Token.describe`: Both parts on one line.
* `Located`: A token together with its byte offset.
-/

namespace CssTokens

/-- A kind and the text it was read from. -/
structure Token where
  kind : Kind
  text : String
  deriving DecidableEq

namespace Token

/-- The token without text that stands for the end of input. -/
def endOfInput : Token := ⟨.eof, ""⟩

/-- The length of the text in bytes. -/
def byteLength (t : Token) : Nat := t.text.utf8ByteSize

/-- Whether the text is empty. -/
def isEmpty (t : Token) : Bool := t.byteLength == 0

/-- Whether the token stands for the end of input. -/
def isEnd (t : Token) : Bool := t.kind == .eof

/-- The label of the kind and the quoted text. -/
def describe (t : Token) : String :=
  "Token \x7b kind: " ++ t.kind.label ++ ", text: " ++ quoted t.text ++ " \x7d"

end Token

/-- A token and the byte offset at which its text starts. -/
structure Located where
  offset : Nat
  token : Token
  deriving DecidableEq

end CssTokens
