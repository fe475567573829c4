import CssTokens.Proofs.Listing.Lines
import CssTokens.Proofs.Text.Quoting

/-!
# Reading a Listing

The texts of the tokens can be read off a printed listing.

A reader takes the listing line by line. The third column of a line begins at
its first quotation mark, since the offset and the name of the kind hold none,
and it ends with the line. What stands there is read back as a text. The texts
that are read are those of the tokens listed (`Listing.readTexts?_output`), and
the texts of a listing with all tokens make up the source
(`Listing.readTexts?_of_ofString`).

## Main definitions

* `readText?`: The text of a line.
* `readTexts?`: The texts of a printed listing.

## Theorems

* `readText?_front`: A line is read.
* `Listing.readTexts?_output`: A listing is read.
* `Listing.readTexts?_of_ofString`: A listing of all tokens holds the source.
-/

namespace CssTokens

/-- The text of a line, which begins at the first quotation mark. -/
def readText? (line : List Char) : Option String :=
  unquote? (String.ofList (line.dropWhile (· != '"')))

/-- The texts of a printed listing, whose lines end with a line feed each. -/
def readTexts? (output : String) : Option (List String) :=
  (output.toList.splitOn '\n').dropLast.mapM readText?

/-- The columns before the text hold no quotation mark. -/
theorem ne_quote_of_mem_columns (t : Located) :
    ∀ c ∈ offsetColumn t.offset ++ nameColumn t.token.kind, (c != '"') = true := by
  -- Digits, names of kinds and spaces are all that the columns are made of.
  have hdigits : ∀ c ∈ Nat.toDigits 10 t.offset, (c != '"') = true := by
    intro c hc
    rw [bne_iff_ne]
    rintro rfl
    exact absurd (Nat.isDigit_of_mem_toDigits (by decide) (by decide) hc) (by decide)
  have hname : (t.token.kind.name.toList.all (· != '"')) = true := by
    cases t.token.kind <;> rfl
  have hspaces (n : Nat) : ∀ c ∈ List.replicate n ' ', (c != '"') = true := by
    intro c hc
    rw [List.eq_of_mem_replicate hc]
    rfl
  intro c hc
  simp only [offsetColumn, nameColumn, List.mem_append, List.mem_cons, List.not_mem_nil,
    or_false] at hc
  rcases hc with ((hc | hc) | rfl) | hc | rfl | hc
  · exact hspaces _ c hc
  · exact hdigits c hc
  · rfl
  · exact List.all_eq_true.mp hname c hc
  · rfl
  · exact hspaces _ c hc

/-- The line of a token, up to its line feed. -/
def Located.front (t : Located) : List Char :=
  offsetColumn t.offset ++ nameColumn t.token.kind ++ (quoted t.token.text).toList

theorem toList_line_eq_front (t : Located) : t.line.toList = t.front ++ ['\n'] := by
  rw [toList_line, Located.front]
  simp only [List.append_assoc]

theorem newline_not_mem_front (t : Located) : '\n' ∉ t.front := by
  rw [Located.front, List.append_assoc]
  exact Listing.newline_not_mem_columns t

/-- A line is read. -/
theorem readText?_front (t : Located) : readText? t.front = some t.token.text := by
  -- Nothing is dropped of the text itself.
  have hquote : (quoted t.token.text).toList.dropWhile (· != '"') =
      (quoted t.token.text).toList := by
    rw [quoted, String.toList_ofList]
    rfl
  rw [readText?, Located.front, List.dropWhile_append_of_pos (ne_quote_of_mem_columns t), hquote,
    String.ofList_toList, unquote?_quoted]

namespace Listing

/-- The lines of a listing, and the nothing behind the last line feed. -/
theorem splitOn_output (l : Listing) :
    l.output.toList.splitOn '\n' = l.entries.map Located.front ++ [[]] := by
  rw [toList_output]
  induction l.entries with
  | nil => rfl
  | cons t ts ih =>
      -- The line comes off at its line feed, which is the first one.
      rw [List.flatMap_cons, toList_line_eq_front, List.append_assoc, List.singleton_append,
        List.splitOn_append_cons_self_of_not_mem (newline_not_mem_front t), ih]
      rfl

/-- A listing is read. -/
theorem readTexts?_output (l : Listing) :
    readTexts? l.output = some (l.entries.map fun t => t.token.text) := by
  rw [readTexts?, splitOn_output, List.dropLast_concat]
  induction l.entries with
  | nil => rfl
  | cons t ts ih =>
      rw [List.map_cons, List.mapM_cons, readText?_front, ih]
      rfl

/-- A listing of all tokens holds the source. -/
theorem readTexts?_of_ofString {text : String} (h : text.utf8ByteSize < maxPosition)
    {l : Listing} (hl : ofString text false = .ok l) :
    ∃ texts, readTexts? l.output = some texts ∧ String.join texts = text :=
  ⟨_, l.readTexts?_output, join_text_entries h hl⟩

end Listing

end CssTokens
