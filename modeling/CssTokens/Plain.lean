import CssTokens.CharClass
import CssTokens.Token

/-!
# The Plain Reading of a Text

Tokens read from a list of characters.

The stream reads bytes at positions, and looks ahead into padding. Here the
same tokens are read with none of that: a text is a list of characters, what
lies ahead is the rest of the list, and behind the last character there is
nothing to look at. The first rule that applies decides the kind of a token
and the number of characters it takes.

This is the definition to compare the stream with, and to reason about when
positions do not matter.

## Main definitions

* `Lexeme`: A kind and the characters it covers.
* `Plain.stringRest`, `Plain.name`, `Plain.number`: The kinds that take some
  deciding.
* `Plain.first`: The kind and the length of the first token.
* `Plain.tokens`: All tokens of a text.

## Theorems

* `Plain.first_bounds`: The first token takes at least one character, and no
  more than there are.
* `Plain.tokens_nil`, `Plain.tokens_cons`: One token, then those of the rest.
* `Plain.flatten_tokens`: Nothing is lost.
-/

namespace CssTokens

/-- A kind and the characters it covers. -/
structure Lexeme where
  kind : Kind
  chars : List Char
  deriving DecidableEq

/-- The token of a lexeme. -/
def Lexeme.token (x : Lexeme) : Token := ⟨x.kind, String.ofList x.chars⟩

namespace Plain

/-- Whether a list of characters starts in a class. -/
def starts (test : Char → Bool) : List Char → Bool
  | [] => false
  | c :: _ => test c

/-- How many characters at the front of a list lie in a class. -/
def run (test : Char → Bool) (cs : List Char) : Nat := (cs.takeWhile test).length

/-- What is behind an opening quote: the kind of the string, and how many
    characters up to its end. A backslash takes a line break along; as the
    last character of the text it is left out. -/
def stringRest (quote : Char) : List Char → Kind × Nat
  | [] => (.string, 0)
  | c :: cs =>
      if c = quote then (.string, 1)
      else if isNewline c then (.badString, 1)
      else if c = '\\' then
        match cs with
        | [] => (.string, 0)
        | d :: ds =>
            if isNewline d then
              let r := stringRest quote ds
              (r.1, r.2 + 2)
            else
              let r := stringRest quote (d :: ds)
              (r.1, r.2 + 1)
      else
        let r := stringRest quote cs
        (r.1, r.2 + 1)

/-- Whether a word is `url`, with letters of either case. -/
def isUrl (word : List Char) : Bool := word.map Char.toLower = ['u', 'r', 'l']

/-- A name: its kind hangs on the two characters behind it. -/
def name (cs : List Char) : Kind × Nat :=
  let n := run isNameChar cs
  if '(' ∈ (cs.drop n).take 2 then (if isUrl (cs.take n) then .url else .function, n)
  else (.ident, n)

/-- How many characters at the front of a list are the digits of a number and
    the point among them. -/
def numeral (cs : List Char) : Nat :=
  let n := run Char.isDigit cs
  match cs.drop n with
  | '.' :: ds => n + 1 + run Char.isDigit ds
  | _ => n

/-- A number, and the percent sign or the unit behind it. -/
def number (cs : List Char) : Kind × Nat :=
  let n := numeral cs
  match cs.drop n with
  | '%' :: _ => (.percentage, n + 1)
  | c :: ds => if isNameChar c then (.dimension, n + run isNameChar (c :: ds)) else (.number, n)
  | [] => (.number, n)

/-- The kind and the length of the first token, given its first character and
    the characters behind it. -/
def firstAt (c : Char) (cs : List Char) : Kind × Nat :=
  if isBlank c then (.whitespace, 1 + run isBlank cs)
  else if c = '"' ∨ c = '\'' then
    let r := stringRest c cs
    (r.1, 1 + r.2)
  else match Kind.ofPunctuation? c with
  | some k => (k, 1)
  | none =>
      if c = '#' ∧ starts isNameStart cs then (.hash, 1 + run isNameChar cs)
      else if c = '@' ∧ starts isNameStart cs then (.atKeyword, 1 + run isNameChar cs)
      else if isNameStart c then name (c :: cs)
      else if c.isDigit ∨ c = '.' ∧ starts Char.isDigit cs then number (c :: cs)
      else (.unmatched, 1)

/-- The kind and the length of the first token, if there is any character. -/
def first : List Char → Option (Kind × Nat)
  | [] => none
  | c :: cs => some (firstAt c cs)

theorem run_le (test : Char → Bool) (cs : List Char) : run test cs ≤ cs.length :=
  (List.takeWhile_prefix test).length_le

theorem stringRest_le (quote : Char) (cs : List Char) : (stringRest quote cs).2 ≤ cs.length := by
  fun_induction stringRest quote cs <;> simp_all <;> omega

theorem name_pos {c : Char} (h : isNameStart c = true) (cs : List Char) :
    0 < (name (c :: cs)).2 := by
  have : 0 < run isNameChar (c :: cs) := by simp [run, isNameChar, h]
  unfold name
  dsimp only
  split <;> exact this

theorem name_le (cs : List Char) : (name cs).2 ≤ cs.length := by
  unfold name
  dsimp only
  split <;> exact run_le ..

theorem numeral_le (cs : List Char) : numeral cs ≤ cs.length := by
  have hrun := run_le Char.isDigit cs
  unfold numeral
  dsimp only
  split
  · next ds heq =>
      have hlen := congrArg List.length heq
      have := run_le Char.isDigit ds
      simp only [List.length_drop, List.length_cons] at hlen
      omega
  · exact hrun

theorem numeral_pos {c : Char} {cs : List Char}
    (h : c.isDigit = true ∨ c = '.' ∧ starts Char.isDigit cs = true) : 0 < numeral (c :: cs) := by
  unfold numeral
  dsimp only
  -- Without a digit in front it is the point that is taken.
  rcases h with h | ⟨rfl, _⟩
  · have : 0 < run Char.isDigit (c :: cs) := by simp [run, h]
    split <;> omega
  · have : run Char.isDigit ('.' :: cs) = 0 := by simp [run]
    simp only [this, List.drop_zero]
    omega

theorem number_bounds {cs : List Char} (h : 0 < numeral cs) :
    0 < (number cs).2 ∧ (number cs).2 ≤ cs.length := by
  -- A per cent sign or a unit is part of what the numeral leaves, and so there is room
  -- for it behind the numeral.
  have hle := numeral_le cs
  unfold number
  dsimp only
  split
  · next heq =>
      have hlen := congrArg List.length heq
      simp only [List.length_drop, List.length_cons] at hlen
      constructor
      · omega
      · show numeral cs + 1 ≤ cs.length
        omega
  · next d ds _ heq =>
      have hlen := congrArg List.length heq
      simp only [List.length_drop, List.length_cons] at hlen
      have := run_le isNameChar (d :: ds)
      simp only [List.length_cons] at this
      split
      · constructor
        · omega
        · show numeral cs + run isNameChar (d :: ds) ≤ cs.length
          omega
      · exact ⟨h, hle⟩
  · exact ⟨h, hle⟩

/-- The first token takes at least one character, and no more than there are. -/
theorem first_bounds {cs : List Char} {r : Kind × Nat} (h : first cs = some r) :
    0 < r.2 ∧ r.2 ≤ cs.length := by
  cases cs with
  | nil => injection h
  | cons c cs =>
      have hblank := run_le isBlank cs
      have hname := run_le isNameChar cs
      have hstring := stringRest_le c cs
      injection h with h
      subst h
      unfold firstAt
      simp only [List.length_cons]
      -- The order of the cases is that of `firstAt`, and every one but a name and a number
      -- takes a run or a single character.
      split
      · dsimp only
        omega
      · split
        · dsimp only
          omega
        · split
          · dsimp only
            omega
          · split
            · dsimp only
              omega
            · split
              · dsimp only
                omega
              · split
                · next h => exact ⟨name_pos h cs, name_le (c :: cs)⟩
                · split
                  · next h => exact number_bounds (numeral_pos h)
                  · dsimp only
                    omega

/-- All tokens of a text. -/
def tokens (cs : List Char) : List Lexeme :=
  match _h : first cs with
  | none => []
  | some (k, n) => ⟨k, cs.take n⟩ :: tokens (cs.drop n)
termination_by cs.length
decreasing_by
  have := first_bounds _h
  simp only [List.length_drop]
  omega

@[simp]
theorem tokens_nil : tokens [] = [] := by
  rw [tokens]
  rfl

theorem tokens_cons {cs : List Char} {k : Kind} {n : Nat} (h : first cs = some (k, n)) :
    tokens cs = ⟨k, cs.take n⟩ :: tokens (cs.drop n) := by
  rw [tokens]
  split
  · next h' => rw [h] at h'; injection h'
  · next h' =>
      rw [h] at h'
      injection h' with h'
      injection h' with h1 h2
      rw [h1, h2]

/-- Nothing is lost: the characters of the tokens are those of the text. -/
theorem flatten_tokens (cs : List Char) : ((tokens cs).map Lexeme.chars).flatten = cs := by
  fun_induction tokens cs with
  | case1 cs h =>
      cases cs with
      | nil => rfl
      | cons c cs => injection h
  | case2 cs k n h ih =>
      rw [List.map_cons, List.flatten_cons, ih, List.take_append_drop]

end Plain

/-- The tokens of a text, read plainly. -/
def plainTokens (text : String) : List Token := (Plain.tokens text.toList).map Lexeme.token

end CssTokens
