/-!
# Character Classes

The classes of characters that tokenization distinguishes.

Every character outside ASCII is a name character, and no class splits the
range above ASCII. So a class can be asked of a byte as well: an ASCII byte is
its character, and a byte of a longer encoding is at least `0x80`, where all
characters are classed alike.

## Main definitions

* `isBlank`, `isNewline`: Space, tab and the three line breaks.
* `isNameStart`, `isNameChar`: What begins and what continues a name.
* `isQuote`: The two string delimiters.
-/

namespace CssTokens

/-- Space, tab, line feed, carriage return, form feed. -/
def isBlank (c : Char) : Bool :=
  c == ' ' || c == '\t' || c == '\n' || c == '\r' || c == '\x0c'

/-- Line feed, carriage return, form feed. -/
def isNewline (c : Char) : Bool :=
  c == '\n' || c == '\r' || c == '\x0c'

/-- An ASCII letter, an underscore, or any character outside ASCII. -/
def isNameStart (c : Char) : Bool :=
  c.isAlpha || c == '_' || 0x80 ≤ c.toNat

/-- A name start, an ASCII digit, or a hyphen. -/
def isNameChar (c : Char) : Bool :=
  isNameStart c || c.isDigit || c == '-'

/-- The double and the single quotation mark. -/
def isQuote (c : Char) : Bool :=
  c == '"' || c == '\''

end CssTokens
