import CssTokens.CharClass
import CssTokens.Fault

/-!
# Lines and Columns

Where in a text a reader finds a place.

Lines and columns count from one, and a column is a number of characters. A
line ends with a line feed, a carriage return or a form feed; a carriage
return and a line feed behind it end one line together, even when they come
in two pieces of text.

## Main definitions

* `LineColumn`: A line and a column.
* `lineBreaks`, `lastLine`: The lines of a text as a whole.
* `LineColumn.behind`: The place behind a text.
* `Walk`: A place that moves along with the text.
* `Walk.advance`: Move along a piece of text.
-/

namespace CssTokens

/-- A line and a column, both from one. -/
structure LineColumn where
  line : Nat
  column : Nat
  deriving DecidableEq

/-- How many line ends a text has. A carriage return and a line feed behind it
    are one. -/
def lineBreaks : List Char → Nat
  | [] => 0
  | '\r' :: '\n' :: cs => lineBreaks cs + 1
  | c :: cs => if isNewline c then lineBreaks cs + 1 else lineBreaks cs

/-- The characters behind the last line end of a text. -/
def lastLine (cs : List Char) : List Char :=
  (cs.reverse.takeWhile fun c => !isNewline c).reverse

/-- The place behind a text. -/
def LineColumn.behind (cs : List Char) : LineColumn :=
  ⟨lineBreaks cs + 1, (lastLine cs).length + 1⟩

/-- A place in a text, and whether a carriage return stands before it. -/
structure Walk where
  place : LineColumn
  afterReturn : Bool
  deriving DecidableEq

namespace Walk

/-- The beginning of a text. -/
def start : Walk := ⟨⟨1, 1⟩, false⟩

/-- Move along one character. A line feed behind a carriage return belongs to
    a line end that is already counted. -/
def step (w : Walk) (c : Char) : Except Fault Walk :=
  if c == '\n' && w.afterReturn then .ok ⟨w.place, false⟩
  else if isNewline c then do
    let line ← addPosition w.place.line 1
    return ⟨⟨line, 1⟩, c == '\r'⟩
  else do
    let column ← addPosition w.place.column 1
    return ⟨⟨w.place.line, column⟩, false⟩

/-- Move along a piece of text. -/
def advance (w : Walk) (text : String) : Except Fault Walk :=
  text.toList.foldlM step w

end Walk

end CssTokens
