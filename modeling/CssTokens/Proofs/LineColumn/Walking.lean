import CssTokens.LineColumn

/-!
# Walking Along a Text

A walk that has gone along a text stands at the place behind it.

The walk sees one character at a time, and remembers of what lies behind it
only whether a carriage return came last. The place behind a text is told of
the text as a whole. One more character changes both in the same way
(`step_behind`), so however a text is cut into pieces, the walk ends behind
it. A line and a column are never greater than the number of characters and
one, so on a text that a position can tell they do not overflow.

## Main definitions

* `Walk.behind`: The walk that has gone along a text.

## Theorems

* `lineBreaks_concat`, `lastLine_concat`: One more character of a text.
* `Walk.step_behind`: One step.
* `Walk.advance_behind`: A piece of text.
-/

namespace CssTokens

/-- A carriage return with no line feed behind it. -/
theorem head_ne_of_not_pair {c : Char} {cs : List Char}
    (hne : ∀ ds, c = '\r' → cs = '\n' :: ds → False) : c = '\r' → cs.head? ≠ some '\n' := by
  intro hc hd
  rcases List.head?_eq_some_iff.mp hd with ⟨ds, hds⟩
  exact hne ds hc hds

theorem lineBreaks_cons {c : Char} {cs : List Char} (h : c = '\r' → cs.head? ≠ some '\n') :
    lineBreaks (c :: cs) = if isNewline c then lineBreaks cs + 1 else lineBreaks cs := by
  rw [lineBreaks]
  rintro ds rfl rfl
  exact h rfl rfl

theorem lineBreaks_le_length (cs : List Char) : lineBreaks cs ≤ cs.length := by
  fun_induction lineBreaks cs with
  | case1 => exact Nat.le_refl 0
  | case2 cs ih =>
      rw [List.length_cons, List.length_cons]
      omega
  | case3 c cs _ hc ih =>
      rw [List.length_cons]
      omega
  | case4 c cs _ hc ih =>
      rw [List.length_cons]
      omega

/-- How many line ends one character more makes. A line feed behind a carriage
    return makes none. -/
def breaksAt (cs : List Char) (d : Char) : Nat :=
  if d = '\n' ∧ cs.getLast? = some '\r' then 0 else if isNewline d then 1 else 0

theorem breaksAt_nil (d : Char) : breaksAt [] d = if isNewline d then 1 else 0 :=
  if_neg (by rintro ⟨_, h⟩; injection h)

theorem breaksAt_cons {c d : Char} {cs : List Char} (hpair : ¬ (cs = [] ∧ c = '\r' ∧ d = '\n')) :
    breaksAt (c :: cs) d = breaksAt cs d := by
  cases cs with
  | nil =>
      rw [breaksAt_nil]
      apply if_neg
      rintro ⟨hd, hc⟩
      injection hc with hc
      exact hpair ⟨rfl, hc, hd⟩
  | cons e cs => rw [breaksAt, breaksAt, List.getLast?_cons_cons]

/-- What one character more makes of a text is not changed by a character in
    front that does not join the next. -/
theorem lineBreaks_cons_concat {c d : Char} {cs : List Char}
    (hne : c = '\r' → cs.head? ≠ some '\n')
    (ih : lineBreaks (cs ++ [d]) = lineBreaks cs + breaksAt cs d) :
    lineBreaks (c :: cs ++ [d]) = lineBreaks (c :: cs) + breaksAt (c :: cs) d := by
  -- A carriage return alone is one line end, and so is the pair.
  by_cases hpair : cs = [] ∧ c = '\r' ∧ d = '\n'
  · rcases hpair with ⟨rfl, rfl, rfl⟩
    rfl
  · have hhead : c = '\r' → (cs ++ [d]).head? ≠ some '\n' := by
      intro hc hd
      cases cs with
      | nil =>
          injection hd with hd
          exact hpair ⟨rfl, hc, hd⟩
      | cons e cs => exact hne hc hd
    rw [List.cons_append, lineBreaks_cons hhead, lineBreaks_cons hne, ih, breaksAt_cons hpair]
    by_cases hc : isNewline c = true
    · rw [if_pos hc, if_pos hc, Nat.add_right_comm]
    · rw [if_neg hc, if_neg hc]

/-- The line ends of a text with one character more. -/
theorem lineBreaks_concat (cs : List Char) (d : Char) :
    lineBreaks (cs ++ [d]) = lineBreaks cs + breaksAt cs d := by
  -- The induction is on the lines as they are counted.
  induction cs using lineBreaks.induct with
  | case1 =>
      rw [List.nil_append, lineBreaks_cons (by intro _ hd; injection hd), breaksAt_nil, lineBreaks,
        Nat.zero_add, Nat.zero_add]
  | case2 cs ih =>
      -- The pair counts as one, and nothing behind it joins its line feed.
      have hgain : breaksAt ('\r' :: '\n' :: cs) d = breaksAt cs d := by
        rw [breaksAt_cons, breaksAt_cons]
        · rintro ⟨_, hc, _⟩
          exact absurd hc (by decide)
        · rintro ⟨hcs, _⟩
          injection hcs
      rw [List.cons_append, List.cons_append, lineBreaks, lineBreaks, ih, hgain,
        Nat.add_right_comm]
  | case3 c cs hne _ ih => exact lineBreaks_cons_concat (head_ne_of_not_pair hne) ih
  | case4 c cs hne _ ih => exact lineBreaks_cons_concat (head_ne_of_not_pair hne) ih

theorem lastLine_concat (cs : List Char) (d : Char) :
    lastLine (cs ++ [d]) = if isNewline d then [] else lastLine cs ++ [d] := by
  rw [lastLine, List.reverse_append, List.reverse_singleton, List.singleton_append]
  cases hd : isNewline d with
  | true =>
      rw [List.takeWhile_cons_of_neg (by rw [hd]; exact Bool.false_ne_true)]
      rfl
  | false =>
      rw [List.takeWhile_cons_of_pos (by rw [hd]; rfl), List.reverse_cons]
      rfl

/-- A line end leaves nothing of its line behind it. -/
theorem lastLine_of_getLast? {cs : List Char} {d : Char} (hd : isNewline d = true)
    (h : cs.getLast? = some d) : lastLine cs = [] := by
  rcases List.getLast?_eq_some_iff.mp h with ⟨before, rfl⟩
  rw [lastLine_concat, if_pos hd]

theorem length_lastLine_le (cs : List Char) : (lastLine cs).length ≤ cs.length := by
  have := (List.takeWhile_prefix (l := cs.reverse) fun c => !isNewline c).length_le
  rw [List.length_reverse] at this
  rw [lastLine, List.length_reverse]
  exact this

namespace Walk

/-- The walk that has gone along a text. -/
def behind (cs : List Char) : Walk := ⟨LineColumn.behind cs, cs.getLast? == some '\r'⟩

theorem start_eq_behind : start = behind [] := rfl

/-- One step goes behind one character more. -/
theorem step_behind {cs : List Char} {c : Char} (h : (cs ++ [c]).length < maxPosition) :
    (behind cs).step c = .ok (behind (cs ++ [c])) := by
  have hline := lineBreaks_le_length cs
  have hcolumn := length_lastLine_le cs
  rw [List.length_append, List.length_singleton] at h
  -- What is behind one character more, in terms of the place in front of it.
  have hbehind : behind (cs ++ [c]) =
      ⟨⟨lineBreaks cs + breaksAt cs c + 1, (lastLine (cs ++ [c])).length + 1⟩, c == '\r'⟩ := by
    rw [behind, LineColumn.behind, lineBreaks_concat, List.getLast?_concat]
    rfl
  rw [hbehind, lastLine_concat]
  -- A line feed behind a carriage return is told apart first, as in the step.
  by_cases hjoin : c = '\n' ∧ cs.getLast? = some '\r'
  · -- The line is the one that began behind the carriage return.
    rcases hjoin with ⟨rfl, hlast⟩
    have hgain : breaksAt cs '\n' = 0 := if_pos ⟨rfl, hlast⟩
    rw [hgain, step, behind, LineColumn.behind, lastLine_of_getLast? (by decide) hlast, hlast]
    rfl
  · have hguard : (c == '\n' && (behind cs).afterReturn) = false := by
      rw [Bool.and_eq_false_iff, beq_eq_false_iff_ne]
      by_cases hc : c = '\n'
      · refine Or.inr (beq_eq_false_iff_ne.mpr ?_)
        intro hlast
        exact hjoin ⟨hc, hlast⟩
      · exact Or.inl hc
    have hgain : breaksAt cs c = if isNewline c then 1 else 0 := if_neg hjoin
    rw [hgain, step, hguard, if_neg Bool.false_ne_true]
    by_cases hc : isNewline c = true
    · -- A new line begins. There are no more lines than characters and one.
      have hadd : addPosition (behind cs).place.line 1 = .ok (lineBreaks cs + 1 + 1) :=
        addPosition_of_le (p := lineBreaks cs + 1) (by omega)
      rw [if_pos hc, if_pos hc, if_pos hc, hadd]
      rfl
    · -- The line goes on, and it is no longer than the text.
      have hadd : addPosition (behind cs).place.column 1 = .ok ((lastLine cs).length + 1 + 1) :=
        addPosition_of_le (p := (lastLine cs).length + 1) (by omega)
      have hreturn : (c == '\r') = false := by
        rw [beq_eq_false_iff_ne]
        rintro rfl
        exact hc rfl
      rw [if_neg hc, if_neg hc, if_neg hc, hadd, hreturn, List.length_append,
        List.length_singleton]
      rfl

/-- A walk along more text goes behind all of it. -/
theorem foldlM_step_behind {cs ds : List Char} (h : (cs ++ ds).length < maxPosition) :
    ds.foldlM step (behind cs) = .ok (behind (cs ++ ds)) := by
  induction ds generalizing cs with
  | nil =>
      rw [List.append_nil]
      rfl
  | cons d ds ih =>
      have hsplit : cs ++ d :: ds = cs ++ [d] ++ ds := by
        rw [List.append_assoc, List.singleton_append]
      -- No step is along more text than there is.
      have hstep : (cs ++ [d]).length < maxPosition := by
        rw [hsplit, List.length_append] at h
        omega
      rw [List.foldlM_cons, step_behind hstep, ok_bind, ih (by rw [← hsplit]; exact h), hsplit]

/-- A piece of text, however the text before it was cut. -/
theorem advance_behind {cs : List Char} {text : String}
    (h : (cs ++ text.toList).length < maxPosition) :
    (behind cs).advance text = .ok (behind (cs ++ text.toList)) :=
  foldlM_step_behind h

end Walk

end CssTokens
