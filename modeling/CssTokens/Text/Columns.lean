/-!
# Columns

Texts of a width at the least.

A text in a column is filled up with spaces on one side. One that is wider than
the column is left as it is, and pushes what stands behind it.

## Main definitions

* `alignRight`, `alignLeft`: A text at the right or the left end of a column.
-/

namespace CssTokens

/-- Spaces before a text, up to a width in characters. -/
def alignRight (width : Nat) (text : String) : String :=
  String.ofList (List.replicate (width - text.length) ' ') ++ text

/-- Spaces behind a text, up to a width in characters. -/
def alignLeft (width : Nat) (text : String) : String :=
  text ++ String.ofList (List.replicate (width - text.length) ' ')

end CssTokens
