import CssTokens.Proofs.Text.Encoding
import CssTokens.Source.Issue
import Mathlib.Data.List.Basic

/-!
# The Issues of a Text

Where the NUL characters of a text are, and whether a byte-order mark is in front
of it.

The issues are found in the bytes. The search for NUL characters starts again
behind each one that it finds. `TailSearch.Rounds` are these searches in a row. A
row is finite, because each search is given fewer bytes than the one before it,
and if every search finds the first zero byte of what it is given, together they
find all of them in order (`Rounds.eq_filter`). A zero byte is a NUL character,
because no other character has one. Likewise the three bytes of a byte-order mark
can only come from the character U+FEFF, because the first byte tells how long
the character is, and no two characters have the same bytes.

## Main definitions

* `nullsIn`: The offsets of the zero bytes of a text.
* `TailSearch.FindsFirst`: What is expected of a search.
* `TailSearch.Rounds`: The searches in a row, and what they find.
* `NullAt`, `MarkIssue`: A NUL character and a byte-order mark, in characters.
* `RecordsIssues`: What the issues of a text are.

## Theorems

* `TailSearch.exists_rounds`: A row of searches is finite.
* `TailSearch.rounds_nullsIn`: Together they find all zero bytes.
* `zero_mem_bytesOf_iff`, `nullAt_iff`: Zero bytes and NUL characters.
* `startsWithMark_iff`: What a byte-order mark is.
* `issuesBy_eq`, `issuesOf_eq`: The issues of a text.
* `recordsIssues_of_le`: The issues of a text, in characters.
-/

namespace CssTokens

/-- The offsets of the zero bytes of a text, in order. -/
def nullsIn (text : String) : List Nat :=
  (List.range text.utf8ByteSize).filter fun p => byteAt? text p = some 0

@[simp]
theorem mem_nullsIn {text : String} {p : Nat} : p ∈ nullsIn text ↔ byteAt? text p = some 0 := by
  rw [nullsIn, List.mem_filter, List.mem_range, decide_eq_true_eq, and_iff_right_iff_imp]
  exact lt_of_byteAt?

theorem byteAt?_eq_none_iff {text : String} {p : Nat} :
    byteAt? text p = none ↔ text.utf8ByteSize ≤ p := by
  unfold byteAt?
  split
  · next h => exact iff_of_false (by simp) (Nat.not_le_of_lt h)
  · next h => exact iff_of_true rfl (Nat.le_of_not_lt h)

/-- What a search for a byte answers from an offset on: the first place of the
    byte, or nothing if it has none. -/
inductive TailSearch.IsFirst (byte : UInt8) (text : String) (p : Nat) :
    Option (Fin (text.utf8ByteSize - p)) → Prop
  | found {i : Fin (text.utf8ByteSize - p)} (hi : byteAt? text (p + i) = some byte)
      (hbefore : ∀ j < i.val, byteAt? text (p + j) ≠ some byte) : IsFirst byte text p (some i)
  | missing (h : ∀ q, p ≤ q → byteAt? text q ≠ some byte) : IsFirst byte text p none

/-- What is expected of a search. -/
def TailSearch.FindsFirst (search : TailSearch) : Prop :=
  ∀ byte text p, IsFirst byte text p (search byte text p)

theorem TailSearch.isFirst_firstPlace {byte : UInt8} {text : String} {p : Nat} (i : Nat)
    (hpassed : ∀ j < i, byteAt? text (p + j) ≠ some byte) :
    IsFirst byte text p (firstPlace byte text p i) := by
  -- The induction follows the search, which has passed over everything before `i`.
  fun_induction firstPlace byte text p i with
  | case1 i h =>
      refine .missing fun q hq => ?_
      rcases Nat.lt_or_ge q (p + i) with hlt | hge
      · have hj := hpassed (q - p) (by omega)
        rwa [Nat.add_sub_cancel' hq] at hj
      · rw [byteAt?_eq_none_iff.mpr (Nat.le_trans (byteAt?_eq_none_iff.mp h) hge)]
        exact nofun
  | case2 i b h hb => exact .found (by rw [h, beq_iff_eq.mp hb]) hpassed
  | case3 i b h hb ih =>
      refine ih fun j hj => ?_
      rcases Nat.lt_succ_iff_lt_or_eq.mp hj with hj | rfl
      · exact hpassed j hj
      · rw [h, ne_eq, Option.some.injEq]
        exact fun heq => hb (beq_iff_eq.mpr heq)

/-- The search that looks at one byte after the other is as expected. -/
theorem TailSearch.plain_findsFirst : plain.FindsFirst := fun _ _ _ =>
  isFirst_firstPlace 0 fun j hj => absurd hj (Nat.not_lt_zero j)

/-- The searches from an offset on: each one behind the byte that the last one
    found, until one finds nothing. -/
inductive TailSearch.Rounds (search : TailSearch) (text : String) : Nat → List Nat → Prop
  | last {p : Nat} (h : search 0 text p = none) : Rounds search text p []
  | next {p : Nat} {i : Fin (text.utf8ByteSize - p)} {ps : List Nat} (h : search 0 text p = some i)
      (hrest : Rounds search text (p + i + 1) ps) : Rounds search text p ((p + i) :: ps)

/-- Whatever a search answers, it is asked finitely often: what it is given gets
    shorter with every answer. -/
theorem TailSearch.exists_rounds (search : TailSearch) (text : String) (p : Nat) :
    ∃ ps, search.Rounds text p ps := by
  induction hn : text.utf8ByteSize - p using Nat.strongRecOn generalizing p with
  | ind n ih =>
      cases hp : search 0 text p with
      | none => exact ⟨[], .last hp⟩
      | some i =>
          have hlt := i.isLt
          rcases ih (text.utf8ByteSize - (p + i + 1)) (by omega) _ rfl with ⟨ps, hps⟩
          exact ⟨_, .next hp hps⟩

namespace TailSearch.Rounds

variable {search : TailSearch} {text : String} {p : Nat} {ps : List Nat}

/-- The offsets are those of the rounds, as far as a position goes. -/
theorem toList_nullOffsetsBy (h : search.Rounds text p ps) (found : Array Nat) :
    (nullOffsetsBy search text p found).toList =
      found.toList ++ ps.filter fun q => q ≤ maxPosition := by
  induction h generalizing found with
  | last h =>
      rw [nullOffsetsBy, h, List.filter_nil, List.append_nil]
  | @next p i ps h hrest ih =>
      rw [nullOffsetsBy, h]
      show (nullOffsetsBy search text (p + i + 1) (noteOffset found (p + i))).toList = _
      rw [ih, noteOffset, List.filter_cons]
      by_cases hmax : p + i.val ≤ maxPosition
      · rw [if_pos hmax, if_pos (decide_eq_true hmax), Array.toList_push, List.append_assoc,
          List.singleton_append]
      · rw [if_neg hmax, if_neg (by rwa [decide_eq_true_eq])]

/-- Places that fail a test at the front of a range are passed over. -/
theorem filter_range'_add {test : Nat → Bool} {p i : Nat} (h : ∀ j < i, test (p + j) = false)
    (n : Nat) : (List.range' p (i + n)).filter test = (List.range' (p + i) n).filter test := by
  have hpassed : (List.range' p i).filter test = [] := by
    rw [List.filter_eq_nil_iff]
    intro q hq
    rcases List.mem_range'_1.mp hq with ⟨hle, hlt⟩
    have hq := h (q - p) (by omega)
    rw [Nat.add_sub_cancel' hle] at hq
    rw [hq]
    exact Bool.false_ne_true
  rw [← List.range'_append_1, List.filter_append, hpassed, List.nil_append]

/-- A search that finds the first zero byte each time finds all of them. -/
theorem eq_filter (hsearch : search.FindsFirst) (h : search.Rounds text p ps) :
    ps = (List.range' p (text.utf8ByteSize - p)).filter fun q => byteAt? text q = some 0 := by
  induction h with
  | @last p h =>
      have hfirst := hsearch 0 text p
      rw [h] at hfirst
      cases hfirst with
      | missing hmissing =>
          rw [← Nat.add_zero (text.utf8ByteSize - p), filter_range'_add fun j _ =>
            decide_eq_false (hmissing (p + j) (Nat.le_add_right p j)), List.range'_zero,
            List.filter_nil]
  | @next p i ps h hrest ih =>
      have hfirst := hsearch 0 text p
      rw [h] at hfirst
      cases hfirst with
      | found hi hbefore =>
          -- The bytes in front of it are not zero, and the search goes on behind it.
          have hrange : List.range' p (text.utf8ByteSize - p) =
              List.range' p (i + (text.utf8ByteSize - (p + i + 1) + 1)) := by
            have hlt := i.isLt
            congr 1
            omega
          rw [ih, hrange, filter_range'_add fun j hj => decide_eq_false (hbefore j hj),
            List.range'_succ, List.filter_cons, if_pos (decide_eq_true hi)]

end TailSearch.Rounds

/-- From the start of a text the rounds find its zero bytes. -/
theorem TailSearch.rounds_nullsIn {search : TailSearch} (hsearch : search.FindsFirst)
    (text : String) : search.Rounds text 0 (nullsIn text) := by
  rcases search.exists_rounds text 0 with ⟨ps, hps⟩
  have heq := hps.eq_filter hsearch
  rw [Nat.sub_zero, ← List.range_eq_range'] at heq
  rwa [heq] at hps

/-- In a text that is not too long all of them are noted. -/
theorem toList_nullOffsetsBy_zero {search : TailSearch} (hsearch : search.FindsFirst)
    {text : String} (h : text.utf8ByteSize ≤ maxPosition) :
    (nullOffsetsBy search text 0 #[]).toList = nullsIn text := by
  rw [(TailSearch.rounds_nullsIn hsearch text).toList_nullOffsetsBy, List.nil_append,
    List.filter_eq_self]
  intro p hp
  have hlt := lt_of_byteAt? (mem_nullsIn.mp hp)
  exact decide_eq_true (by omega)

/-- Only a NUL character has a zero byte. -/
theorem zero_mem_utf8EncodeChar_iff {c : Char} : 0 ∈ String.utf8EncodeChar c ↔ c = '\x00' := by
  constructor
  · intro h
    by_cases hc : c.toNat < 0x80
    · rw [utf8EncodeChar_of_ascii hc, List.mem_singleton] at h
      rw [← ofUInt8_byteOf hc, ← h]
      rfl
    · exact absurd (le_of_mem_utf8EncodeChar (Nat.le_of_not_lt hc) h) (by decide)
  · rintro rfl
    decide

/-- There is a zero byte where there is a NUL character. -/
theorem zero_mem_bytesOf_iff {cs : List Char} : 0 ∈ bytesOf cs ↔ '\x00' ∈ cs := by
  simp [bytesOf, zero_mem_utf8EncodeChar_iff]

/-- The characters of a text are told by their bytes. -/
theorem bytesOf_inj {cs ds : List Char} (h : bytesOf cs = bytesOf ds) : cs = ds := by
  refine String.ofList_injective (String.toByteArray_inj.mp ?_)
  rw [toByteArray_eq_bytesOf, toByteArray_eq_bytesOf, String.toList_ofList, String.toList_ofList, h]

/-- A text has a byte-order mark in front if its first character is U+FEFF. -/
theorem startsWithMark_iff {text : String} :
    startsWithMark text = true ↔ ∃ cs, text.toList = '\ufeff' :: cs := by
  have hmark : String.utf8EncodeChar '\ufeff' = [0xef, 0xbb, 0xbf] := by decide
  simp only [startsWithMark, Bool.and_eq_true, beq_iff_eq, byteAt?_eq_getElem?]
  constructor
  · rintro ⟨⟨hfirst, hsecond⟩, hthird⟩
    cases hcs : text.toList with
    | nil =>
        rw [hcs] at hfirst
        injection hfirst
    | cons c cs =>
        rw [hcs, bytesOf_cons] at hfirst hsecond hthird
        -- The first byte is that of a character of three bytes.
        rcases leadWidth_utf8EncodeChar c with ⟨b, bs, heq, hwidth⟩
        rw [heq, List.cons_append, List.getElem?_cons_zero, Option.some.injEq] at hfirst
        have hlen : bs.length = 2 := by
          rw [← String.length_utf8EncodeChar, heq, hfirst, List.length_cons] at hwidth
          exact (Nat.succ.inj hwidth).symm
        rcases List.length_eq_two.mp hlen with ⟨b', b'', rfl⟩
        rw [heq] at hsecond hthird
        simp only [List.cons_append, List.getElem?_cons_succ, List.getElem?_cons_zero,
          Option.some.injEq] at hsecond hthird
        have hc : bytesOf [c] = bytesOf ['\ufeff'] := by
          rw [bytesOf_cons, bytesOf_cons, heq, hmark, hfirst, hsecond, hthird]
        injection bytesOf_inj hc with hc _
        exact ⟨cs, by rw [hc]⟩
  · rintro ⟨cs, hcs⟩
    rw [hcs, bytesOf_cons, hmark]
    exact ⟨⟨rfl, rfl⟩, rfl⟩

/-- The issues of a text: a byte-order mark in front, and every NUL character. -/
theorem issuesBy_eq {search : TailSearch} (hsearch : search.FindsFirst) {text : String}
    (h : text.utf8ByteSize ≤ maxPosition) :
    issuesBy search text = (if startsWithMark text then [⟨.byteOrderMark, 0, 3⟩] else []) ++
      (nullsIn text).map fun p => ⟨.nullCharacter, p, 1⟩ := by
  rw [issuesBy, toList_nullOffsetsBy_zero hsearch h]
  split <;> rfl

theorem issuesOf_eq {text : String} (h : text.utf8ByteSize ≤ maxPosition) :
    issuesOf text = (if startsWithMark text then [⟨.byteOrderMark, 0, 3⟩] else []) ++
      (nullsIn text).map fun p => ⟨.nullCharacter, p, 1⟩ :=
  issuesBy_eq TailSearch.plain_findsFirst h

/-- The issues of the one kind. -/
theorem mem_issuesOf_nullCharacter {text : String} (h : text.utf8ByteSize ≤ maxPosition)
    {p n : Nat} :
    ⟨.nullCharacter, p, n⟩ ∈ issuesOf text ↔ byteAt? text p = some 0 ∧ n = 1 := by
  rw [issuesOf_eq h, List.mem_append, List.mem_map]
  constructor
  · rintro (hmem | ⟨q, hq, heq⟩)
    · split at hmem <;> simp at hmem
    · injection heq with _ hp hn
      exact ⟨mem_nullsIn.mp (hp ▸ hq), hn.symm⟩
  · rintro ⟨hp, rfl⟩
    exact .inr ⟨p, mem_nullsIn.mpr hp, rfl⟩

/-- The issues of the other kind. -/
theorem mem_issuesOf_byteOrderMark {text : String} (h : text.utf8ByteSize ≤ maxPosition)
    {p n : Nat} :
    ⟨.byteOrderMark, p, n⟩ ∈ issuesOf text ↔
      p = 0 ∧ n = 3 ∧ ∃ cs, text.toList = '\ufeff' :: cs := by
  rw [issuesOf_eq h, List.mem_append, ← startsWithMark_iff]
  have hnull : (⟨.byteOrderMark, p, n⟩ : Issue) ∉
      (nullsIn text).map fun p => ⟨.nullCharacter, p, 1⟩ := by
    simp
  rw [or_iff_left hnull]
  by_cases hmark : startsWithMark text = true <;> simp [hmark]

/-- A NUL character of a text, at its offset. -/
def NullAt (text : String) (p : Nat) : Prop :=
  ∃ front behind, CutAt text p front ("\x00" ++ behind)

/-- The issue of a byte-order mark, if the text starts with one. -/
inductive MarkIssue (text : String) : List Issue → Prop
  | marked {rest : String} (h : "\ufeff" ++ rest = text) : MarkIssue text [⟨.byteOrderMark, 0, 3⟩]
  | unmarked (h : ∀ rest, "\ufeff" ++ rest ≠ text) : MarkIssue text []

/-- The issues of a text with NUL characters at some offsets. -/
structure RecordsIssues (text : String) (nulls : List Nat) (issues : List Issue) : Prop where
  /-- A byte-order mark comes first, and nothing else comes in addition. -/
  listed : ∃ mark, MarkIssue text mark ∧
    issues = mark ++ nulls.map fun p => ⟨.nullCharacter, p, 1⟩
  mem_nulls_iff : ∀ p, p ∈ nulls ↔ NullAt text p
  nulls_increasing : nulls.Pairwise (· < ·)
  increasing : issues.Pairwise fun i j => i.offset < j.offset
  inside : ∀ i ∈ issues, i.offset < text.utf8ByteSize

/-- A zero byte is found behind some characters, where a NUL character is. -/
theorem exists_append_of_zero {cs : List Char} {p : Nat} (h : (bytesOf cs)[p]? = some 0) :
    ∃ as bs, cs = as ++ '\x00' :: bs ∧ byteCount as = p := by
  -- Characters are passed over until the offset is inside of the first one.
  induction cs generalizing p with
  | nil => injection h
  | cons c cs ih =>
      rw [bytesOf_cons] at h
      rcases Nat.lt_or_ge p (String.utf8EncodeChar c).length with hlt | hge
      · -- It is a byte of the first character, which has no other byte.
        rw [List.getElem?_append_left hlt] at h
        rcases zero_mem_utf8EncodeChar_iff.mp (List.mem_of_getElem? h) with rfl
        exact ⟨[], cs, rfl, (Nat.lt_one_iff.mp hlt).symm⟩
      · rw [List.getElem?_append_right hge] at h
        rcases ih h with ⟨as, bs, rfl, hcount⟩
        refine ⟨c :: as, bs, rfl, ?_⟩
        rw [byteCount_cons, hcount, ← String.length_utf8EncodeChar]
        exact Nat.add_sub_cancel' hge

/-- NUL characters and zero bytes are at the same offsets. -/
theorem nullAt_iff {text : String} {p : Nat} : NullAt text p ↔ byteAt? text p = some 0 := by
  constructor
  · rintro ⟨front, behind, rfl, rfl⟩
    rw [byteAt?_append_size, byteAt?_eq_getElem?, String.toList_append]
    rfl
  · intro h
    rw [byteAt?_eq_getElem?] at h
    -- The way back needs that no other character has a zero byte.
    rcases exists_append_of_zero h with ⟨as, bs, heq, hcount⟩
    refine ⟨String.ofList as, String.ofList bs, ?_, ?_⟩
    · rw [← String.toList_inj, heq]
      simp
    · rw [utf8ByteSize_eq_byteCount, String.toList_ofList, hcount]

theorem markIssue_of_startsWithMark (text : String) :
    MarkIssue text (if startsWithMark text then [⟨.byteOrderMark, 0, 3⟩] else []) := by
  split
  · next h =>
      rcases startsWithMark_iff.mp h with ⟨cs, hcs⟩
      have hmark : "\ufeff" ++ String.ofList cs = text := by
        rw [← String.toList_inj, hcs]
        simp
      exact .marked hmark
  · next h =>
      refine .unmarked fun rest heq => h (startsWithMark_iff.mpr ⟨rest.toList, ?_⟩)
      rw [← heq, String.toList_append]
      rfl

theorem byteAt?_zero_of_startsWithMark {text : String} (h : startsWithMark text = true) :
    byteAt? text 0 = some 0xef := by
  simp only [startsWithMark, Bool.and_eq_true, beq_iff_eq] at h
  exact h.1.1

/-- Where a byte-order mark is, no NUL character is. -/
theorem pos_of_mem_nullsIn {text : String} (h : startsWithMark text = true) {p : Nat}
    (hp : p ∈ nullsIn text) : 0 < p := by
  refine Nat.pos_of_ne_zero ?_
  rintro rfl
  rw [mem_nullsIn, byteAt?_zero_of_startsWithMark h] at hp
  injection hp with hp
  exact absurd hp (by decide)

/-- The issues of a text are its byte-order mark and its NUL characters, in the
    order of their offsets, whatever search finds them. -/
theorem recordsIssues_of_le {search : TailSearch} (hsearch : search.FindsFirst) {text : String}
    (h : text.utf8ByteSize ≤ maxPosition) :
    ∃ nulls, search.Rounds text 0 nulls ∧ RecordsIssues text nulls (issuesBy search text) ∧
      (Source.ofString text).issues = issuesBy search text := by
  have hincreasing : (nullsIn text).Pairwise (· < ·) := List.pairwise_lt_range.filter _
  have hinside : ∀ p ∈ nullsIn text, p < text.utf8ByteSize :=
    fun p hp => lt_of_byteAt? (mem_nullsIn.mp hp)
  -- Both the rounds of the search and the offsets are the filtered list, whatever the
  -- search is.
  refine ⟨nullsIn text, TailSearch.rounds_nullsIn hsearch text, ?_, ?_⟩
  · rw [issuesBy_eq hsearch h]
    constructor
    case listed => exact ⟨_, markIssue_of_startsWithMark text, rfl⟩
    case mem_nulls_iff => exact fun p => mem_nullsIn.trans nullAt_iff.symm
    case nulls_increasing => exact hincreasing
    case increasing =>
      have hnulls : ((nullsIn text).map fun p => (⟨.nullCharacter, p, 1⟩ : Issue)).Pairwise
          fun i j => i.offset < j.offset := List.pairwise_map.mpr hincreasing
      split
      · next hmark =>
          refine List.pairwise_cons.mpr ⟨fun i hi => ?_, hnulls⟩
          rcases List.mem_map.mp hi with ⟨p, hp, rfl⟩
          exact pos_of_mem_nullsIn hmark hp
      · exact hnulls
    case inside =>
      intro i hi
      rcases List.mem_append.mp hi with hi | hi
      · split at hi
        · next hmark =>
            rw [List.mem_singleton.mp hi]
            exact lt_of_byteAt? (byteAt?_zero_of_startsWithMark hmark)
        · cases hi
      · rcases List.mem_map.mp hi with ⟨p, hp, rfl⟩
        exact hinside p hp
  · exact (issuesOf_eq h).trans (issuesBy_eq hsearch h).symm

/-- A byte-order mark with two NUL characters behind it, and one at the end. -/
theorem recordsIssues_marked :
    TailSearch.plain.FindsFirst ∧ "\ufeff\x00\x00é\x00".utf8ByteSize ≤ maxPosition ∧
      ∃ nulls, TailSearch.plain.Rounds "\ufeff\x00\x00é\x00" 0 nulls ∧
        RecordsIssues "\ufeff\x00\x00é\x00" nulls (issuesBy .plain "\ufeff\x00\x00é\x00") ∧
        (Source.ofString "\ufeff\x00\x00é\x00").issues =
          issuesBy .plain "\ufeff\x00\x00é\x00" := by
  have h : "\ufeff\x00\x00é\x00".utf8ByteSize ≤ maxPosition := by decide
  exact ⟨TailSearch.plain_findsFirst, h, recordsIssues_of_le TailSearch.plain_findsFirst h⟩

end CssTokens
