import CssTokens.Proofs.CharClass
import CssTokens.Proofs.LineColumn.Walking
import Mathlib.Data.List.Induction

/-!
# Walking Along a Text in Pieces

How a text is cut does not matter to a walk.

A walk that goes along the pieces of a text stands behind the whole of it
after the last piece, just as if it had gone along all of it at once. The
whole state is the same, also what it remembers of a carriage return at the
end of a piece: an empty piece leaves it alone, and a line feed that comes as
the first character of the next piece belongs to the pair.

Where a walk stands is told here by the indices at which line ends begin. A
carriage return begins one whether or not a line feed stands behind it, so one
more character of the text never takes back a line end that has been counted
(`breakAt_concat`).

## Main definitions

* `BreakAt`: A line end begins at an index of a text.
* `Walk.StandsBehind`: Where a walk stands, and what it remembers.

## Theorems

* `breakAt_concat`, `exists_breaks`: The line ends of a text, one after the
  other.
* `Walk.standsBehind_behind`: The walk behind a text.
* `Walk.foldlM_advance_behind`: Pieces of text.
* `Walk.advance_join`: A text in pieces and the text as a whole.
-/

namespace CssTokens

/-- A line end begins at an index of a text. -/
inductive BreakAt (cs : List Char) (i : Nat) : Prop
  | pair (hreturn : cs[i]? = some '\r') (hfeed : cs[i + 1]? = some '\n')
  | carriageReturn (hreturn : cs[i]? = some '\r') (hfeed : cs[i + 1]? ≠ some '\n')
  | lineFeed (hfeed : cs[i]? = some '\n') (hreturn : ∀ j, j + 1 = i → cs[j]? ≠ some '\r')
  | formFeed (h : cs[i]? = some '\x0c')

/-- Where a walk stands behind a text, and what it remembers of it. -/
structure Walk.StandsBehind (w : Walk) (cs : List Char) : Prop where
  /-- There is one line more than line ends. -/
  line : ∃ breaks : List Nat, breaks.Pairwise (· < ·) ∧ (∀ i, i ∈ breaks ↔ BreakAt cs i) ∧
    w.place.line = breaks.length + 1
  /-- There is one column more than characters behind the last line end. -/
  column : ∃ front last, cs = front ++ last ∧ (∀ c ∈ last, isNewline c = false) ∧
    (∀ c, front.getLast? = some c → isNewline c = true) ∧ w.place.column = last.length + 1
  afterReturn : w.afterReturn = true ↔ cs.getLast? = some '\r'

/-- A line end begins at a line break that is not the second half of a pair.
    What stands behind a carriage return does not matter. -/
theorem breakAt_iff {cs : List Char} {i : Nat} : BreakAt cs i ↔
    ∃ c, cs[i]? = some c ∧ isNewline c = true ∧
      ¬ (c = '\n' ∧ ∃ j, j + 1 = i ∧ cs[j]? = some '\r') := by
  -- Only a line feed can be the second half of a pair.
  constructor
  · intro h
    cases h with
    | pair hreturn _ => exact ⟨_, hreturn, rfl, fun hpair => absurd hpair.1 (by decide)⟩
    | carriageReturn hreturn _ => exact ⟨_, hreturn, rfl, fun hpair => absurd hpair.1 (by decide)⟩
    | lineFeed hfeed hreturn =>
        refine ⟨_, hfeed, rfl, ?_⟩
        rintro ⟨_, j, hj, hbefore⟩
        exact hreturn j hj hbefore
    | formFeed h => exact ⟨_, h, rfl, fun hpair => absurd hpair.1 (by decide)⟩
  · rintro ⟨c, hc, hline, hpair⟩
    rcases isNewline_iff.mp hline with rfl | rfl | rfl
    · exact .lineFeed hc fun j hj hbefore => hpair ⟨rfl, j, hj, hbefore⟩
    · by_cases hfeed : cs[i + 1]? = some '\n'
      · exact .pair hc hfeed
      · exact .carriageReturn hc hfeed
    · exact .formFeed hc

theorem lt_length_of_breakAt {cs : List Char} {i : Nat} (h : BreakAt cs i) : i < cs.length := by
  rcases breakAt_iff.mp h with ⟨c, hc, _⟩
  exact (List.getElem?_eq_some_iff.mp hc).1

/-- A line end is known by the characters up to the one that begins it. -/
theorem breakAt_append {cs ds : List Char} {i : Nat} (hi : i < cs.length) :
    BreakAt (cs ++ ds) i ↔ BreakAt cs i := by
  have hbefore : (∃ j, j + 1 = i ∧ (cs ++ ds)[j]? = some '\r') ↔
      ∃ j, j + 1 = i ∧ cs[j]? = some '\r' := by
    refine exists_congr fun j => and_congr_right fun hj => ?_
    rw [List.getElem?_append_left (by omega)]
  rw [breakAt_iff, breakAt_iff, List.getElem?_append_left hi, hbefore]

/-- The character before the end of a text is its last one. -/
theorem exists_getElem?_eq_iff {cs ds : List Char} {c : Char} :
    (∃ j, j + 1 = cs.length ∧ (cs ++ ds)[j]? = some c) ↔ cs.getLast? = some c := by
  rw [List.getLast?_eq_getElem?]
  constructor
  · rintro ⟨j, hj, hc⟩
    rw [List.getElem?_append_left (by omega)] at hc
    rw [← hj, Nat.add_sub_cancel, hc]
  · intro hc
    have hlt := (List.getElem?_eq_some_iff.mp hc).1
    exact ⟨cs.length - 1, by omega, by rw [List.getElem?_append_left hlt, hc]⟩

theorem breaksAt_le_one (cs : List Char) (d : Char) : breaksAt cs d ≤ 1 := by
  unfold breaksAt
  split
  · exact Nat.zero_le 1
  · split
    · exact Nat.le_refl 1
    · exact Nat.zero_le 1

/-- The last character begins a line end exactly when it makes one more. -/
theorem breakAt_length {cs : List Char} {d : Char} :
    BreakAt (cs ++ [d]) cs.length ↔ breaksAt cs d = 1 := by
  have hlast : (cs ++ [d])[cs.length]? = some d := by simp
  rw [breakAt_iff, hlast, exists_getElem?_eq_iff, breaksAt]
  simp only [Option.some.injEq, exists_eq_left']
  by_cases hpair : d = '\n' ∧ cs.getLast? = some '\r'
  · simp [hpair]
  · simp [hpair]

/-- The line ends of a text with one character more. -/
theorem breakAt_concat {cs : List Char} {d : Char} {i : Nat} :
    BreakAt (cs ++ [d]) i ↔ BreakAt cs i ∨ i = cs.length ∧ breaksAt cs d = 1 := by
  constructor
  · intro h
    have hlt := lt_length_of_breakAt h
    rw [List.length_append, List.length_singleton] at hlt
    rcases Nat.eq_or_lt_of_le (Nat.le_of_lt_succ hlt) with rfl | hlt
    · exact Or.inr ⟨rfl, breakAt_length.mp h⟩
    · exact Or.inl ((breakAt_append hlt).mp h)
  · rintro (h | ⟨rfl, h⟩)
    · exact (breakAt_append (lt_length_of_breakAt h)).mpr h
    · exact breakAt_length.mpr h

/-- The line ends of a text, in their order. There are as many as are counted. -/
theorem exists_breaks (cs : List Char) :
    ∃ breaks : List Nat, breaks.Pairwise (· < ·) ∧ (∀ i, i ∈ breaks ↔ BreakAt cs i) ∧
      breaks.length = lineBreaks cs := by
  -- The induction is on the end of the text: a character more adds a line end at its own
  -- index or none, and moves no other one.
  induction cs using List.reverseRecOn with
  | nil =>
      refine ⟨[], List.Pairwise.nil, fun i => ?_, rfl⟩
      exact iff_of_false List.not_mem_nil fun h => Nat.not_lt_zero i (lt_length_of_breakAt h)
  | append_singleton cs d ih =>
      rcases ih with ⟨breaks, horder, hmem, hlength⟩
      -- How many it adds is what the count says.
      rw [lineBreaks_concat, ← hlength]
      by_cases hd : breaksAt cs d = 1
      · refine ⟨breaks ++ [cs.length], ?_, fun i => ?_, ?_⟩
        · rw [List.pairwise_append]
          refine ⟨horder, List.pairwise_singleton _ _, fun i hi j hj => ?_⟩
          rw [List.mem_singleton.mp hj]
          exact lt_length_of_breakAt ((hmem i).mp hi)
        · simp [breakAt_concat, hmem, hd]
        · rw [List.length_append, List.length_singleton, hd]
      · have hzero : breaksAt cs d = 0 := by
          have := breaksAt_le_one cs d
          omega
        refine ⟨breaks, horder, fun i => ?_, ?_⟩
        · simp [breakAt_concat, hmem, hd]
        · rw [hzero, Nat.add_zero]

/-- A text ends with its last line, and what stands in front of the line is
    empty or ends a line. -/
theorem exists_eq_append_lastLine (cs : List Char) :
    ∃ front, cs = front ++ lastLine cs ∧ (∀ c ∈ lastLine cs, isNewline c = false) ∧
      ∀ c, front.getLast? = some c → isNewline c = true := by
  induction cs using List.reverseRecOn with
  | nil => exact ⟨[], rfl, fun c hc => absurd hc List.not_mem_nil, fun c hc => by injection hc⟩
  | append_singleton cs d ih =>
      rw [lastLine_concat]
      -- A line break at the end leaves an empty line behind it; any other character makes
      -- the line longer.
      by_cases hd : isNewline d = true
      · rw [if_pos hd]
        refine ⟨cs ++ [d], (List.append_nil _).symm, fun c hc => absurd hc List.not_mem_nil, ?_⟩
        intro c hc
        rw [List.getLast?_concat, Option.some.injEq] at hc
        exact hc ▸ hd
      · rcases ih with ⟨front, hcs, hline, hfront⟩
        rw [if_neg hd]
        refine ⟨front, ?_, fun c hc => ?_, hfront⟩
        · rw [← List.append_assoc, ← hcs]
        · rcases List.mem_append.mp hc with hc | hc
          · exact hline c hc
          · rw [List.mem_singleton.mp hc]
            exact Bool.eq_false_iff.mpr hd

namespace Walk

/-- The walk behind a text stands there. -/
theorem standsBehind_behind (cs : List Char) : (behind cs).StandsBehind cs where
  line := by
    rcases exists_breaks cs with ⟨breaks, horder, hmem, hlength⟩
    exact ⟨breaks, horder, hmem, by rw [hlength]; rfl⟩
  column := by
    rcases exists_eq_append_lastLine cs with ⟨front, hcs, hline, hfront⟩
    exact ⟨front, lastLine cs, hcs, hline, hfront, rfl⟩
  afterReturn := by rw [behind, beq_iff_eq]

/-- Pieces of text, one after the other. The induction is on the pieces, with
    the walk behind what comes before them. -/
theorem foldlM_advance_behind {texts : List String} {cs : List Char}
    (h : (cs ++ (String.join texts).toList).length < maxPosition) :
    texts.foldlM advance (behind cs) = .ok (behind (cs ++ (String.join texts).toList)) := by
  induction texts generalizing cs with
  | nil => simp [pure, Except.pure]
  | cons text texts ih =>
      have hjoin : cs ++ (String.join (text :: texts)).toList =
          cs ++ text.toList ++ (String.join texts).toList := by simp
      rw [hjoin] at h ⊢
      have htext : (cs ++ text.toList).length < maxPosition := by
        rw [List.length_append] at h
        omega
      rw [List.foldlM_cons, advance_behind htext, ok_bind, ih h]

/-- A text of no more characters than a position can tell leaves a walk in one
    state, whether it comes in pieces or as a whole. -/
theorem advance_join (texts : List String) (h : (String.join texts).length < maxPosition) :
    ∃ w, texts.foldlM advance start = .ok w ∧ start.advance (String.join texts) = .ok w ∧
      w.StandsBehind (String.join texts).toList := by
  have h : ([] ++ (String.join texts).toList).length < maxPosition := by
    rw [List.nil_append, String.length_toList]
    exact h
  exact ⟨_, foldlM_advance_behind h, advance_behind h, standsBehind_behind _⟩

/-- A pair that is cut in two, with an empty piece inside it. -/
theorem advance_join_pair :
    (String.join ["a\r", "", "\n\n\x0cb"]).length < maxPosition ∧
      ∃ w, ["a\r", "", "\n\n\x0cb"].foldlM advance start = .ok w ∧
        start.advance (String.join ["a\r", "", "\n\n\x0cb"]) = .ok w ∧
        w.StandsBehind (String.join ["a\r", "", "\n\n\x0cb"]).toList := by
  have h : (String.join ["a\r", "", "\n\n\x0cb"]).length < maxPosition := by decide
  exact ⟨h, advance_join _ h⟩

end Walk

end CssTokens
