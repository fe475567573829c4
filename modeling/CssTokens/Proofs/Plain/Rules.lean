import CssTokens.Plain
import CssTokens.Proofs.CharClass
import CssTokens.Token.Read

/-!
# The Rules of the Plain Reading

The plain reading told case by case.

The definitions of the plain reading decide by tests that come one after the
other. Here every outcome has a statement of its own, with the condition under
which it is the outcome, and later proofs use these statements only.

The first character of a token decides most. `Lead.ofChar` sorts the
characters into disjoint groups; the plain reading tests the same groups in
another order, with a look at the next character in between. Both say the
same, because no character is in two groups, and `firstAt_eq_ofLead` is the
plain reading told group by group.

## Main definitions

* `isStop`: What matters inside a string.
* `Lead.Holds`: What a group says about its characters.
* `Plain.ofLead`: The first token, given what begins at its first character.

## Theorems

* `Lead.ofChar_holds`, `Lead.ofChar_of_holds`: A character is in one group.
* `Plain.starts_drop_run`: What follows a run.
* `Plain.firstAt_eq_ofLead`: The plain reading by what begins at a character.
* `Plain.numeral_of_point`, `Plain.number_of_percent` and the like: Numbers.
* `Plain.stringRest_quote` and the like: What a string does at a character.
* `Plain.stringRest_pass`: A string passes over what does not matter in it.
-/

namespace CssTokens

/-- The characters that are tokens by themselves. -/
theorem ofPunctuation?_eq_some {c : Char} {k : Kind} (h : Kind.ofPunctuation? c = some k) :
    (c, k) ∈ [('\x7b', Kind.leftBrace), ('\x7d', .rightBrace), ('(', .leftParen),
      (')', .rightParen), (':', .colon), (';', .semicolon), (',', .comma)] := by
  unfold Kind.ofPunctuation? at h
  repeat' split at h
  all_goals simp_all

/-- What a group of characters says about each of them. -/
def Lead.Holds (c : Char) : Lead → Prop
  | .blank => isBlank c = true
  | .quote => isQuote c = true
  | .punctuation kind => Kind.ofPunctuation? c = some kind
  | .mark kind => c = '#' ∧ kind = .hash ∨ c = '@' ∧ kind = .atKeyword
  | .nameStart => isNameStart c = true
  | .digit => c.isDigit = true
  | .point => c = '.'
  | .other =>
      isBlank c = false ∧ isQuote c = false ∧ Kind.ofPunctuation? c = none ∧
        isNameStart c = false ∧ c.isDigit = false ∧ c ≠ '#' ∧ c ≠ '@' ∧ c ≠ '.'

theorem Lead.ofChar_holds (c : Char) : (Lead.ofChar c).Holds c := by
  unfold Lead.ofChar
  repeat' split
  all_goals simp_all [Lead.Holds]

/-- What begins a name or a number is in none of the groups that are tested
    before. -/
theorem Lead.ofChar_word {c : Char} (h : isNameStart c = true ∨ c.isDigit = true) :
    Lead.ofChar c = if isNameStart c then .nameStart else .digit := by
  -- The groups that come before are finite, so each of their members is looked at.
  have hblank : isBlank c = false := by
    rw [Bool.eq_false_iff]
    intro hc
    rcases isBlank_iff.mp hc with rfl | rfl | rfl | rfl | rfl <;> exact absurd h (by decide)
  have hquote : isQuote c = false := by
    rw [Bool.eq_false_iff]
    intro hc
    rcases isQuote_iff.mp hc with rfl | rfl <;> exact absurd h (by decide)
  have hhash : c ≠ '#' := by
    rintro rfl
    exact absurd h (by decide)
  have hat : c ≠ '@' := by
    rintro rfl
    exact absurd h (by decide)
  rw [Lead.ofChar, hblank, hquote, beq_eq_false_iff_ne.mpr hhash, beq_eq_false_iff_ne.mpr hat]
  rcases h with h | h
  · rw [h]
    rfl
  · rw [h, isNameStart_of_isDigit h]
    rfl

/-- No character is in two groups. -/
theorem Lead.ofChar_of_holds {c : Char} {l : Lead} (h : l.Holds c) : Lead.ofChar c = l := by
  -- For a group that is a list, its members are tried; a class needs that the tests
  -- before it fail.
  cases l with
  | blank => exact if_pos h
  | quote => rcases isQuote_iff.mp h with rfl | rfl <;> rfl
  | punctuation kind =>
      have hmem := ofPunctuation?_eq_some h
      simp only [List.mem_cons, List.not_mem_nil, or_false, Prod.mk.injEq] at hmem
      rcases hmem with ⟨rfl, rfl⟩ | ⟨rfl, rfl⟩ | ⟨rfl, rfl⟩ | ⟨rfl, rfl⟩ | ⟨rfl, rfl⟩ |
        ⟨rfl, rfl⟩ | ⟨rfl, rfl⟩ <;> rfl
  | mark kind => rcases h with ⟨rfl, rfl⟩ | ⟨rfl, rfl⟩ <;> rfl
  | nameStart => exact (Lead.ofChar_word (Or.inl h)).trans (if_pos h)
  | digit =>
      rw [Lead.ofChar_word (Or.inr h), isNameStart_of_isDigit h]
      rfl
  | point =>
      rw [show c = '.' from h]
      rfl
  | other =>
      rcases h with ⟨hblank, hquote, hpunct, hstart, hdigit, hhash, hat, hpoint⟩
      rw [Lead.ofChar, hblank, hquote, hpunct, hstart, hdigit, beq_eq_false_iff_ne.mpr hhash,
        beq_eq_false_iff_ne.mpr hat, beq_eq_false_iff_ne.mpr hpoint]
      rfl

/-- What matters inside a string: its quote, a backslash, a line break. -/
def isStop (quote c : Char) : Bool := c == quote || c == '\\' || isNewline c

namespace Plain

/-- Only where nothing is ahead there is no token. -/
theorem eq_nil_of_first_eq_none {cs : List Char} (h : first cs = none) : cs = [] := by
  cases cs with
  | nil => rfl
  | cons c cs => injection h

theorem run_cons {test : Char → Bool} {c : Char} (hc : test c = true) (cs : List Char) :
    run test (c :: cs) = run test cs + 1 := by
  rw [run, List.takeWhile_cons_of_pos hc, List.length_cons, run]

theorem run_cons_of_false {test : Char → Bool} {c : Char} (hc : test c = false) (cs : List Char) :
    run test (c :: cs) = 0 := by
  rw [run, List.takeWhile_cons_of_neg (Bool.eq_false_iff.mp hc), List.length_nil]

/-- Behind a run there is no character that would belong to it. -/
theorem starts_drop_run (test : Char → Bool) (cs : List Char) :
    starts test (cs.drop (run test cs)) = false := by
  induction cs with
  | nil => rfl
  | cons c cs ih =>
      by_cases hc : test c = true
      · rw [run_cons hc, List.drop_succ_cons]
        exact ih
      · have hc : test c = false := Bool.eq_false_iff.mpr hc
        rw [run_cons_of_false hc, List.drop_zero]
        exact hc

theorem starts_beq_iff {d : Char} {cs : List Char} :
    starts (· == d) cs = true ↔ ∃ ds, cs = d :: ds := by
  cases cs with
  | nil => exact iff_of_false Bool.false_ne_true (by rintro ⟨ds, h⟩; injection h)
  | cons c cs =>
      rw [starts, beq_iff_eq]
      constructor
      · rintro rfl
        exact ⟨cs, rfl⟩
      · rintro ⟨ds, h⟩
        injection h

theorem numeral_of_point {cs ds : List Char} (hd : cs.drop (run Char.isDigit cs) = '.' :: ds) :
    numeral cs = run Char.isDigit cs + 1 + run Char.isDigit ds := by
  rw [numeral, hd]
  rfl

theorem numeral_of_no_point {cs : List Char}
    (hd : starts (· == '.') (cs.drop (run Char.isDigit cs)) = false) :
    numeral cs = run Char.isDigit cs := by
  unfold numeral
  dsimp only
  split
  · next ds heq =>
      rw [heq, starts_beq_iff.mpr ⟨ds, rfl⟩] at hd
      injection hd
  · rfl

theorem number_of_percent {cs ds : List Char} (hd : cs.drop (numeral cs) = '%' :: ds) :
    number cs = (.percentage, numeral cs + 1) := by
  rw [number, hd]
  rfl

theorem number_of_no_percent {cs : List Char}
    (hd : starts (· == '%') (cs.drop (numeral cs)) = false) :
    number cs = if starts isNameChar (cs.drop (numeral cs)) then
      (.dimension, numeral cs + run isNameChar (cs.drop (numeral cs))) else
      (.number, numeral cs) := by
  unfold number
  dsimp only
  split
  · next ds heq =>
      rw [heq, starts_beq_iff.mpr ⟨ds, rfl⟩] at hd
      injection hd
  · next c ds _ heq => rw [heq, starts]
  · next heq =>
      rw [heq, starts]
      rfl

/-- The kind and the length of the first token, given what begins at its first
    character. -/
def ofLead (c : Char) (cs : List Char) : Lead → Kind × Nat
  | .blank => (.whitespace, 1 + run isBlank cs)
  | .quote => ((stringRest c cs).1, 1 + (stringRest c cs).2)
  | .punctuation kind => (kind, 1)
  | .mark kind => if starts isNameStart cs then (kind, 1 + run isNameChar cs) else (.unmatched, 1)
  | .nameStart => name (c :: cs)
  | .digit => number (c :: cs)
  | .point => if starts Char.isDigit cs then number (c :: cs) else (.unmatched, 1)
  | .other => (.unmatched, 1)

theorem ofLead_mark_name {cs : List Char} (hs : starts isNameStart cs = true) (c : Char)
    (k : Kind) : ofLead c cs (.mark k) = (k, run isNameChar cs + 1) := by
  rw [Nat.add_comm]
  exact if_pos hs

theorem ofLead_mark_alone {cs : List Char} (hs : starts isNameStart cs = false) (c : Char)
    (k : Kind) : ofLead c cs (.mark k) = (.unmatched, 1) :=
  if_neg (Bool.eq_false_iff.mp hs)

theorem ofLead_point_digit {cs : List Char} (hs : starts Char.isDigit cs = true) (c : Char) :
    ofLead c cs .point = number (c :: cs) :=
  if_pos hs

theorem ofLead_point_alone {cs : List Char} (hs : starts Char.isDigit cs = false) (c : Char) :
    ofLead c cs .point = (.unmatched, 1) :=
  if_neg (Bool.eq_false_iff.mp hs)

/-- A mark and the name behind it, or the mark alone. -/
theorem firstAt_mark {c : Char} {kind : Kind}
    (h : c = '#' ∧ kind = .hash ∨ c = '@' ∧ kind = .atKeyword) (cs : List Char) :
    firstAt c cs = ofLead c cs (.mark kind) := by
  unfold firstAt ofLead
  rcases h with ⟨rfl, rfl⟩ | ⟨rfl, rfl⟩ <;> cases starts isNameStart cs <;> rfl

theorem firstAt_point (cs : List Char) : firstAt '.' cs = ofLead '.' cs .point := by
  unfold firstAt ofLead
  cases starts Char.isDigit cs <;> rfl

/-- The plain reading by what begins at the first character. -/
theorem firstAt_eq_ofLead (c : Char) (cs : List Char) :
    firstAt c cs = ofLead c cs (Lead.ofChar c) := by
  cases hp : Kind.ofPunctuation? c with
  | some kind =>
      have hmem := ofPunctuation?_eq_some hp
      simp only [List.mem_cons, List.not_mem_nil, or_false, Prod.mk.injEq] at hmem
      rcases hmem with ⟨rfl, rfl⟩ | ⟨rfl, rfl⟩ | ⟨rfl, rfl⟩ | ⟨rfl, rfl⟩ | ⟨rfl, rfl⟩ |
        ⟨rfl, rfl⟩ | ⟨rfl, rfl⟩ <;> rfl
  | none =>
      by_cases hhash : c = '#'
      · rw [hhash]
        exact firstAt_mark (.inl ⟨rfl, rfl⟩) cs
      by_cases hat : c = '@'
      · rw [hat]
        exact firstAt_mark (.inr ⟨rfl, rfl⟩) cs
      by_cases hpoint : c = '.'
      · rw [hpoint]
        exact firstAt_point cs
      -- What is left are classes, which both sides test in the same order.
      simp only [firstAt, Lead.ofChar, hp, isQuote_iff, beq_iff_eq, hhash, hat, hpoint, false_and,
        or_false, if_false]
      repeat' split
      all_goals rfl

theorem stringRest_quote (quote : Char) (cs : List Char) :
    stringRest quote (quote :: cs) = (.string, 1) := by
  rw [stringRest.eq_def]
  exact if_pos rfl

theorem stringRest_newline {quote c : Char} (hne : c ≠ quote) (hc : isNewline c = true)
    (cs : List Char) : stringRest quote (c :: cs) = (.badString, 1) := by
  rw [stringRest.eq_def]
  exact (if_neg hne).trans (if_pos hc)

theorem stringRest_last_backslash {quote : Char} (hne : '\\' ≠ quote) :
    stringRest quote ['\\'] = (.string, 0) := by
  rw [stringRest, if_neg hne, if_neg (by decide), if_pos rfl]

theorem stringRest_escape {quote d : Char} (hne : '\\' ≠ quote) (hd : isNewline d = true)
    (ds : List Char) : stringRest quote ('\\' :: d :: ds) =
      ((stringRest quote ds).1, (stringRest quote ds).2 + 2) := by
  rw [stringRest, if_neg hne, if_neg (by decide), if_pos rfl]
  exact if_pos hd

theorem stringRest_backslash {quote d : Char} (hne : '\\' ≠ quote) (hd : isNewline d = false)
    (ds : List Char) : stringRest quote ('\\' :: d :: ds) =
      ((stringRest quote (d :: ds)).1, (stringRest quote (d :: ds)).2 + 1) := by
  rw [stringRest, if_neg hne, if_neg (by decide), if_pos rfl]
  exact if_neg (by rw [hd]; exact Bool.false_ne_true)

theorem stringRest_other {quote c : Char} (hc : isStop quote c = false) (cs : List Char) :
    stringRest quote (c :: cs) = ((stringRest quote cs).1, (stringRest quote cs).2 + 1) := by
  simp only [isStop, Bool.or_eq_false_iff, beq_eq_false_iff_ne] at hc
  have hnl : ¬ isNewline c = true := by
    rw [hc.2]
    exact Bool.false_ne_true
  rw [stringRest.eq_def]
  exact (if_neg hc.1.1).trans ((if_neg hnl).trans (if_neg hc.1.2))

/-- A string passes over what does not matter in it. -/
theorem stringRest_pass (quote : Char) (cs : List Char) :
    stringRest quote cs =
      ((stringRest quote (cs.drop (run (fun c => !isStop quote c) cs))).1,
        run (fun c => !isStop quote c) cs +
          (stringRest quote (cs.drop (run (fun c => !isStop quote c) cs))).2) := by
  induction cs with
  | nil => rfl
  | cons c cs ih =>
      -- The run ends where something matters, and there both sides are the same.
      by_cases hc : isStop quote c = true
      · rw [run_cons_of_false (by rw [hc]; rfl), List.drop_zero, Nat.zero_add]
      · have hc : isStop quote c = false := Bool.eq_false_iff.mpr hc
        rw [stringRest_other hc, run_cons (by rw [hc]; rfl), List.drop_succ_cons, ih]
        dsimp only
        rw [Nat.add_right_comm]

end Plain

end CssTokens
