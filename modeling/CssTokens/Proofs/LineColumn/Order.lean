import CssTokens.Proofs.LineColumn.Walking

/-!
# Places in the Order of a Text

The place behind more of a text is a later one.

One more character leads to a later place, on a new line or further on in the
same line (`behind_concat`). The one exception is the line feed of a pair: the
carriage return in front of it has begun the new line already, so the place
stays. Behind any more text the place is therefore not an earlier one, and it
is a later one if that text does not begin with a line feed.

## Main definitions

* `LineColumn.Before`: A place in front of another one.

## Theorems

* `behind_concat`, `behind_pair`: One character more.
* `behind_append`: More text.
* `behind_append_cons`: More text that does not begin with a line feed.
-/

namespace CssTokens

namespace LineColumn

/-- A place on an earlier line, or further to the left on the same line. -/
def Before (a b : LineColumn) : Prop :=
  a.line < b.line ∨ a.line = b.line ∧ a.column < b.column

theorem Before.trans {a b c : LineColumn} (hab : a.Before b) (hbc : b.Before c) : a.Before c := by
  unfold Before at *
  omega

/-- The carriage return of a pair has begun the new line. -/
theorem behind_pair {cs : List Char} (hlast : cs.getLast? = some '\r') :
    behind (cs ++ ['\n']) = behind cs := by
  have hgain : breaksAt cs '\n' = 0 := if_pos ⟨rfl, hlast⟩
  have hline : lastLine cs = [] := lastLine_of_getLast? (by decide) hlast
  rw [behind, behind, lineBreaks_concat, lastLine_concat, hgain, hline]
  rfl

/-- One character more, other than the line feed of a pair. -/
theorem behind_concat {cs : List Char} {d : Char} (hpair : ¬ (d = '\n' ∧ cs.getLast? = some '\r')) :
    (behind cs).Before (behind (cs ++ [d])) := by
  have hgain : breaksAt cs d = if isNewline d then 1 else 0 := if_neg hpair
  simp only [Before, behind, lineBreaks_concat, lastLine_concat, hgain]
  by_cases hd : isNewline d = true
  · -- A new line begins.
    left
    rw [if_pos hd]
    omega
  · -- The line goes on.
    right
    rw [if_neg hd, if_neg hd, List.length_append, List.length_singleton]
    omega

/-- Behind more text the place is not an earlier one. -/
theorem behind_append (cs ds : List Char) :
    behind (cs ++ ds) = behind cs ∨ (behind cs).Before (behind (cs ++ ds)) := by
  induction ds generalizing cs with
  | nil =>
      left
      rw [List.append_nil]
  | cons d ds ih =>
      have hsplit : cs ++ d :: ds = cs ++ [d] ++ ds := by simp
      rw [hsplit]
      -- The second half of a pair moves nothing; every other character moves the place
      -- ahead.
      by_cases hpair : d = '\n' ∧ cs.getLast? = some '\r'
      · rw [hpair.1, ← behind_pair hpair.2]
        exact ih (cs ++ ['\n'])
      · right
        rcases ih (cs ++ [d]) with heq | hlater
        · rw [heq]
          exact behind_concat hpair
        · exact (behind_concat hpair).trans hlater

/-- Behind more text that does not begin with a line feed it is a later one. -/
theorem behind_append_cons {d : Char} (hd : d ≠ '\n') (cs ds : List Char) :
    (behind cs).Before (behind (cs ++ d :: ds)) := by
  have hfirst : (behind cs).Before (behind (cs ++ [d])) := behind_concat fun hpair => hd hpair.1
  have hsplit : cs ++ d :: ds = cs ++ [d] ++ ds := by simp
  rw [hsplit]
  rcases behind_append (cs ++ [d]) ds with heq | hlater
  · rw [heq]
    exact hfirst
  · exact hfirst.trans hlater

end LineColumn

end CssTokens
