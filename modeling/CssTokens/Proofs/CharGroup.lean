import CssTokens.Proofs.Plain.Rules

/-!
# Groups of Characters

How much of a character tokenization can see.

The character classes of the tokenizer overlap, and some of its tests are for
one character only. `CharGroup` cuts the characters into disjoint groups so
that every test is a test on groups: what may begin at a character, whether it
breaks a line, whether it is one of the marks that are asked for by name, and
whether it is a letter of `url`. A map that sends each group into itself is
therefore not seen by any of the tests. The quotes are a group of their own
with two members, and a string is closed by the one that opened it, so of a
map on them it is asked that it does not make the two into one.

## Main definitions

* `CharGroup`, `CharGroup.ofChar`: The groups, and the group of a character.
* `CharGroup.Holds`: What a group says about its characters.
* `KeepsGroups`: A map that sends each group into itself.

## Theorems

* `CharGroup.ofChar_holds`: A character is as its group says.
* `CharGroup.lead_ofChar`: What may begin at a character, by its group.
* `CharGroup.ofChar_eq_lineBreak_iff`, `CharGroup.ofChar_eq_mark_iff`,
  `CharGroup.ofChar_eq_letter_iff`: The other tests, by the group.
* `KeepsGroups.isNameChar` and the like: No test sees such a map.
-/

namespace CssTokens

/-- The groups of characters that tokenization tells apart. -/
inductive CharGroup where
  /-- Space and tab. -/
  | blank
  /-- Line feed, carriage return, form feed. -/
  | lineBreak
  | quote
  /-- A character alone in its group. -/
  | mark (c : Char)
  | digit
  /-- A letter of `url`, in both cases. -/
  | letter (c : Char)
  /-- What else begins a name. -/
  | nameStart
  /-- What is left of ASCII, NUL included. -/
  | other
  deriving DecidableEq

theorem Lead.ofChar_eq_iff {c : Char} {l : Lead} : Lead.ofChar c = l ↔ l.Holds c := by
  constructor
  · rintro rfl
    exact Lead.ofChar_holds c
  · exact Lead.ofChar_of_holds

/-- Only two characters have the same small letter. -/
theorem eq_or_eq_of_toLower {c l u : Char} (hu : u.val + ('a'.val - 'A'.val) = l.val)
    (h : c.toLower = l) : c = l ∨ c = u := by
  unfold Char.toLower at h
  split at h
  · right
    rw [Char.ext_iff, ← hu] at h
    exact Char.ext ((UInt32.add_left_inj _).mp h)
  · exact Or.inl h

namespace CharGroup

/-- The characters that are alone in their group. -/
def marks : List Char :=
  ['\\', '\x7b', '\x7d', '(', ')', ':', ';', ',', '#', '@', '.', '%', '-']

/-- The group of a character. -/
def ofChar (c : Char) : CharGroup :=
  if c = ' ' ∨ c = '\t' then .blank
  else if c = '\n' ∨ c = '\r' ∨ c = '\x0c' then .lineBreak
  else if c = '"' ∨ c = '\'' then .quote
  else if c ∈ marks then .mark c
  else if c.isDigit then .digit
  else if c = 'u' ∨ c = 'U' then .letter 'u'
  else if c = 'r' ∨ c = 'R' then .letter 'r'
  else if c = 'l' ∨ c = 'L' then .letter 'l'
  else if isNameStart c then .nameStart
  else .other

/-- What a group says about each of its characters. -/
def Holds (c : Char) : CharGroup → Prop
  | .blank => c = ' ' ∨ c = '\t'
  | .lineBreak => isNewline c = true
  | .quote => isQuote c = true
  | .mark m => c = m ∧ m ∈ marks
  | .digit => c.isDigit = true
  | .letter l => c.toLower = l ∧ isNameStart c = true
  | .nameStart => isNameStart c = true
  | .other => Lead.ofChar c = .other

/-- A character that is in none of the groups with members of their own begins
    nothing. -/
theorem lead_eq_other {c : Char} (hblank : ¬ (c = ' ' ∨ c = '\t')) (hline : isNewline c = false)
    (hquote : isQuote c = false) (hmark : c ∉ marks) (hdigit : c.isDigit = false)
    (hname : isNameStart c = false) : Lead.ofChar c = .other := by
  -- Whatever begins at the character would put it into one of the groups.
  have hholds := Lead.ofChar_holds c
  generalize Lead.ofChar c = l at hholds
  cases l with
  | blank =>
      rw [Lead.Holds, isBlank_iff, ← or_assoc, ← isNewline_iff, hline] at hholds
      simp [hblank] at hholds
  | quote =>
      rw [Lead.Holds, hquote] at hholds
      injection hholds
  | punctuation k =>
      have hmem := ofPunctuation?_eq_some hholds
      simp only [List.mem_cons, List.not_mem_nil, or_false, Prod.mk.injEq] at hmem
      rcases hmem with ⟨rfl, _⟩ | ⟨rfl, _⟩ | ⟨rfl, _⟩ | ⟨rfl, _⟩ | ⟨rfl, _⟩ | ⟨rfl, _⟩ |
        ⟨rfl, _⟩ <;> exact absurd (by decide) hmark
  | mark k => rcases hholds with ⟨rfl, _⟩ | ⟨rfl, _⟩ <;> exact absurd (by decide) hmark
  | nameStart =>
      rw [Lead.Holds, hname] at hholds
      injection hholds
  | digit =>
      rw [Lead.Holds, hdigit] at hholds
      injection hholds
  | point =>
      rw [Lead.Holds] at hholds
      subst hholds
      exact absurd (by decide) hmark
  | other => rfl

theorem ofChar_holds (c : Char) : (ofChar c).Holds c := by
  -- The tests come in the order of `ofChar`, so the last case is that all of them fail.
  unfold ofChar
  split
  · assumption
  split
  · exact isNewline_iff.mpr ‹_›
  split
  · exact isQuote_iff.mpr ‹_›
  split
  · exact ⟨rfl, ‹_›⟩
  split
  · assumption
  split
  · next h => rcases h with rfl | rfl <;> exact ⟨rfl, rfl⟩
  split
  · next h => rcases h with rfl | rfl <;> exact ⟨rfl, rfl⟩
  split
  · next h => rcases h with rfl | rfl <;> exact ⟨rfl, rfl⟩
  split
  · assumption
  · next hblank hline hquote hmark hdigit _ _ _ hname =>
      rw [← isNewline_iff, Bool.not_eq_true] at hline
      rw [← isQuote_iff, Bool.not_eq_true] at hquote
      exact lead_eq_other hblank hline hquote hmark (Bool.eq_false_iff.mpr hdigit)
        (Bool.eq_false_iff.mpr hname)

/-- What may begin at the characters of a group. -/
def lead : CharGroup → Lead
  | .blank | .lineBreak => .blank
  | .quote => .quote
  | .mark m => Lead.ofChar m
  | .digit => .digit
  | .letter _ | .nameStart => .nameStart
  | .other => .other

theorem lead_ofChar (c : Char) : (ofChar c).lead = Lead.ofChar c := by
  have hholds := ofChar_holds c
  generalize ofChar c = g at hholds ⊢
  cases g with
  | blank => rcases hholds with rfl | rfl <;> rfl
  | lineBreak => rcases isNewline_iff.mp hholds with rfl | rfl | rfl <;> rfl
  | quote => exact (Lead.ofChar_of_holds (l := .quote) hholds).symm
  | mark m =>
      rw [hholds.1]
      rfl
  | digit => exact (Lead.ofChar_of_holds (l := .digit) hholds).symm
  | letter l => exact (Lead.ofChar_of_holds (l := .nameStart) hholds.2).symm
  | nameStart => exact (Lead.ofChar_of_holds (l := .nameStart) hholds).symm
  | other => exact hholds.symm

theorem holds_of_ofChar_eq {c : Char} {g : CharGroup} (h : ofChar c = g) : g.Holds c :=
  h ▸ ofChar_holds c

theorem ofChar_eq_lineBreak_iff {c : Char} : ofChar c = .lineBreak ↔ isNewline c = true := by
  constructor
  · exact holds_of_ofChar_eq
  · intro h
    rcases isNewline_iff.mp h with rfl | rfl | rfl <;> rfl

theorem ofChar_eq_mark_iff {c m : Char} (hm : m ∈ marks) : ofChar c = .mark m ↔ c = m := by
  constructor
  · intro h
    exact (holds_of_ofChar_eq h).1
  · rintro rfl
    simp only [marks, List.mem_cons, List.not_mem_nil, or_false] at hm
    rcases hm with rfl | rfl | rfl | rfl | rfl | rfl | rfl | rfl | rfl | rfl | rfl | rfl | rfl <;>
      rfl

theorem ofChar_eq_letter_iff {c l : Char} (hl : l ∈ ['u', 'r', 'l']) :
    ofChar c = .letter l ↔ c.toLower = l := by
  constructor
  · intro h
    exact (holds_of_ofChar_eq h).1
  · intro h
    simp only [List.mem_cons, List.not_mem_nil, or_false] at hl
    rcases hl with rfl | rfl | rfl
    · rcases eq_or_eq_of_toLower (u := 'U') rfl h with rfl | rfl <;> rfl
    · rcases eq_or_eq_of_toLower (u := 'R') rfl h with rfl | rfl <;> rfl
    · rcases eq_or_eq_of_toLower (u := 'L') rfl h with rfl | rfl <;> rfl

end CharGroup

/-- A map on characters that sends each group into itself, and the two quotes
    either both to themselves or each to the other. -/
structure KeepsGroups (f : Char → Char) : Prop where
  group : ∀ c, CharGroup.ofChar (f c) = CharGroup.ofChar c
  quotes : f '"' = '"' ∧ f '\'' = '\'' ∨ f '"' = '\'' ∧ f '\'' = '"'

namespace KeepsGroups

variable {f : Char → Char}

theorem lead (hf : KeepsGroups f) (c : Char) : Lead.ofChar (f c) = Lead.ofChar c := by
  rw [← CharGroup.lead_ofChar, hf.group, CharGroup.lead_ofChar]

theorem holds_iff (hf : KeepsGroups f) (l : Lead) (c : Char) : l.Holds (f c) ↔ l.Holds c := by
  rw [← Lead.ofChar_eq_iff, hf.lead, Lead.ofChar_eq_iff]

theorem isBlank (hf : KeepsGroups f) (c : Char) : isBlank (f c) = isBlank c :=
  Bool.eq_iff_iff.mpr (hf.holds_iff .blank c)

theorem isQuote (hf : KeepsGroups f) (c : Char) : isQuote (f c) = isQuote c :=
  Bool.eq_iff_iff.mpr (hf.holds_iff .quote c)

theorem isNameStart (hf : KeepsGroups f) (c : Char) : isNameStart (f c) = isNameStart c :=
  Bool.eq_iff_iff.mpr (hf.holds_iff .nameStart c)

theorem isDigit (hf : KeepsGroups f) (c : Char) : (f c).isDigit = c.isDigit :=
  Bool.eq_iff_iff.mpr (hf.holds_iff .digit c)

theorem isNewline (hf : KeepsGroups f) (c : Char) : isNewline (f c) = isNewline c := by
  rw [Bool.eq_iff_iff, ← CharGroup.ofChar_eq_lineBreak_iff, hf.group,
    CharGroup.ofChar_eq_lineBreak_iff]

theorem eq_mark_iff (hf : KeepsGroups f) {m : Char} (hm : m ∈ CharGroup.marks) (c : Char) :
    f c = m ↔ c = m := by
  rw [← CharGroup.ofChar_eq_mark_iff hm, hf.group, CharGroup.ofChar_eq_mark_iff hm]

theorem toLower_eq_iff (hf : KeepsGroups f) {l : Char} (hl : l ∈ ['u', 'r', 'l']) (c : Char) :
    (f c).toLower = l ↔ c.toLower = l := by
  rw [← CharGroup.ofChar_eq_letter_iff hl, hf.group, CharGroup.ofChar_eq_letter_iff hl]

theorem isNameChar (hf : KeepsGroups f) (c : Char) : isNameChar (f c) = isNameChar c := by
  have hhyphen : (f c == '-') = (c == '-') := by
    rw [Bool.eq_iff_iff, beq_iff_eq, beq_iff_eq, hf.eq_mark_iff (by decide)]
  rw [CssTokens.isNameChar, CssTokens.isNameChar, hf.isNameStart, hf.isDigit, hhyphen]

/-- Which quote closes a string is not changed. -/
theorem eq_quote_iff (hf : KeepsGroups f) {q : Char} (hq : CssTokens.isQuote q = true) (c : Char) :
    f c = f q ↔ c = q := by
  constructor
  · intro heq
    have hc : CssTokens.isQuote c = true := by
      rw [← hf.isQuote, heq, hf.isQuote, hq]
    rcases hf.quotes with ⟨hdouble, hsingle⟩ | ⟨hdouble, hsingle⟩ <;>
      rcases isQuote_iff.mp hc with rfl | rfl <;> rcases isQuote_iff.mp hq with rfl | rfl <;>
      simp_all
  · rintro rfl
    rfl

end KeepsGroups

end CssTokens
