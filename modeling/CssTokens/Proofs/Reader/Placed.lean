import CssTokens.Proofs.Plain.Rules
import CssTokens.Proofs.Reader.Delimiters

/-!
# Readers Between Characters

What the movements of a reader are in characters.

A reader knows bytes only. But as long as it is moved as its users move it, it
stands behind some number of whole characters, and then each of its
operations can be told in characters: a byte ahead is that of a character
ahead, a step leads behind the next character, and a run of bytes in a class
leads behind a run of characters. `placed` is the reader behind `n` characters
of a text, and every statement here starts at a `placed` reader and ends at
another one. What is left of the bytes is one hypothesis: positions must not
exceed `maxPosition`.

## Main definitions

* `Reader.placed`: The reader of a text behind its first `n` characters.

## Theorems

* `pos_placed_append`, `placed_length_append`: A text with another one in front.
* `current_placed`, `peek_placed`: Looking ahead.
* `advance_placed`, `advanceChar_placed`: Steps.
* `skipWhile_placed`: A run of characters.
* `skipToDelimiterBy_placed`: The way to what matters inside a string.
* `sliceFrom_placed`: The characters between two readers.
* `charPosition_placed`: The position in characters.
-/

namespace CssTokens

namespace Reader

/-- The reader of a text behind its first `n` characters. -/
def placed (text : String) (n : Nat) : Reader :=
  ⟨Source.ofString text, byteCount (text.toList.take n)⟩

theorem pos_placed (text : String) (n : Nat) :
    (placed text n).pos = byteCount (text.toList.take n) := rfl

theorem pos_placed_add (text : String) (n m : Nat) :
    (placed text (n + m)).pos = (placed text n).pos + byteCount ((text.toList.drop n).take m) :=
  byteCount_take_add text.toList n m

theorem pos_placed_add_drop (text : String) (n : Nat) :
    (placed text n).pos + byteCount (text.toList.drop n) = text.utf8ByteSize := by
  rw [pos_placed, byteCount_take_add_drop, utf8ByteSize_eq_byteCount]

theorem drop_length_append (before behind : String) :
    (before ++ behind).toList.drop before.length = behind.toList := by
  rw [String.toList_append, ← String.length_toList, List.drop_left]

/-- A text in front adds its bytes to every position. -/
theorem pos_placed_append (before behind : String) (n : Nat) :
    (placed (before ++ behind) (before.length + n)).pos =
      before.utf8ByteSize + (placed behind n).pos := by
  rw [pos_placed, pos_placed, String.toList_append, ← String.length_toList,
    List.take_length_add_append, byteCount_append, utf8ByteSize_eq_byteCount]

theorem placed_length_append (before behind : String) :
    placed (before ++ behind) before.length =
      (Source.ofString (before ++ behind)).start.moveTo before.utf8ByteSize := by
  have hpos := pos_placed_append before behind 0
  exact congrArg _ hpos

theorem sourceLength_placed {text : String} (h : text.utf8ByteSize ≤ maxPosition) (n : Nat) :
    (placed text n).sourceLength = text.utf8ByteSize :=
  Source.length_ofString h

theorem sourceLength_placed_le {text : String} (h : text.utf8ByteSize ≤ maxPosition) (n : Nat) :
    (placed text n).sourceLength ≤ maxPosition := by
  rw [sourceLength_placed h]
  exact h

/-- The byte `k` positions ahead, if `k` is no more than a reader may look
    ahead. -/
theorem byteAt_placed (text : String) (n : Nat) {k : Nat} (hk : k < lookahead) :
    (Source.ofString text).byteAt ((placed text n).pos + k) =
      .ok (byteAhead (text.toList.drop n) k) :=
  Source.byteAt_ahead text n (Nat.lt_of_lt_of_le hk (Nat.le_add_left _ _))

theorem current_placed (text : String) (n : Nat) :
    (placed text n).current = .ok (byteAhead (text.toList.drop n) 0) :=
  byteAt_placed text n (k := 0) (by decide)

theorem peek_placed {text : String} {n : Nat} (h : (placed text n).pos < maxPosition) :
    (placed text n).peek = .ok (byteAhead (text.toList.drop n) 1) := by
  rw [peek, addPosition_of_le (Nat.succ_le_of_lt h)]
  exact byteAt_placed text n (by decide)

theorem atEnd_placed {text : String} (h : text.utf8ByteSize ≤ maxPosition) (n : Nat) :
    (placed text n).atEnd = (text.toList.drop n).isEmpty := by
  have hsum := pos_placed_add_drop text n
  rw [atEnd, sourceLength_placed h, Bool.eq_iff_iff, decide_eq_true_eq, List.isEmpty_iff]
  constructor
  · intro hle
    exact eq_nil_of_byteCount (by omega)
  · intro hnil
    rw [hnil, byteCount_nil] at hsum
    omega

/-- A step over as many bytes as the next `m` characters have leads behind
    them. -/
theorem advanceBy_placed {text : String} (h : text.utf8ByteSize ≤ maxPosition) {n m k : Nat}
    (hk : byteCount ((text.toList.drop n).take m) = k) :
    (placed text n).advanceBy k = .ok (placed text (n + m)) := by
  have hadd := pos_placed_add text n m
  have hsum := pos_placed_add_drop text (n + m)
  rw [advanceBy, addPosition_of_le (by omega)]
  show Except.ok ((placed text n).moveTo _) = _
  rw [← hk, ← hadd]
  rfl

/-- A step over an ASCII character. -/
theorem advance_placed {text : String} (h : text.utf8ByteSize ≤ maxPosition) {n : Nat}
    {c : Char} {cs : List Char} (hd : text.toList.drop n = c :: cs) (hc : c.toNat < 0x80) :
    (placed text n).advance = .ok (placed text (n + 1)) := by
  refine advanceBy_placed h ?_
  rw [hd, List.take_succ_cons, List.take_zero, byteCount_cons, utf8Size_of_ascii hc, byteCount_nil]

theorem advanceChar_placed {text : String} (h : text.utf8ByteSize ≤ maxPosition) {n : Nat}
    {c : Char} {cs : List Char} (hd : text.toList.drop n = c :: cs) :
    (placed text n).advanceChar = .ok (placed text (n + 1)) := by
  rw [advanceChar, current_placed, hd]
  show advanceBy _ (leadWidth (byteAhead (c :: cs) 0)) = _
  refine advanceBy_placed h ?_
  rw [hd, List.take_succ_cons, List.take_zero, byteCount_cons, leadWidth_byteAhead, byteCount_nil]
  rfl

/-- A run passes over bytes that pass the test. -/
theorem runEnd_add {s : Source} {test : UInt8 → Bool} (k : Nat) :
    ∀ p : Nat, p + k ≤ maxPosition →
      (∀ i < k, ∃ b, s.byteAt (p + i) = .ok b ∧ test b = true) →
      runEnd s test p = runEnd s test (p + k) := by
  induction k with
  | zero =>
      intro p _ _
      rfl
  | succ k ih =>
      intro p hp hbytes
      -- The first byte passes, and from the next one the run is shorter.
      rcases hbytes 0 (Nat.succ_pos k) with ⟨b, hb, htest⟩
      have hrest : runEnd s test (p + 1) = runEnd s test (p + 1 + k) := by
        refine ih (p + 1) (by omega) (fun i hi => ?_)
        rw [Nat.add_assoc, Nat.add_comm 1 i]
        exact hbytes (i + 1) (Nat.succ_lt_succ hi)
      rw [runEnd]
      split
      · next f hf =>
          rw [Nat.add_zero, hf] at hb
          injection hb
      · next b' hb' =>
          rw [Nat.add_zero, hb'] at hb
          injection hb with hb
          rw [hb, if_pos htest, if_pos (by omega), hrest]
          congr 1
          omega

/-- A run stops at a byte that fails the test. -/
theorem runEnd_eq_self {s : Source} {test : UInt8 → Bool} {p : Nat} {b : UInt8}
    (hb : s.byteAt p = .ok b) (htest : test b = false) : runEnd s test p = .ok p := by
  rw [runEnd]
  split
  · next f hf =>
      rw [hf] at hb
      injection hb
  · next b' hb' =>
      rw [hb'] at hb
      injection hb with hb
      rw [hb, htest, if_neg Bool.false_ne_true]

theorem drop_succ_of_drop_eq_cons {cs ds : List Char} {c : Char} {n : Nat}
    (h : cs.drop n = c :: ds) : cs.drop (n + 1) = ds := by
  rw [← List.drop_drop, h, List.drop_one, List.tail_cons]

theorem pos_placed_succ {text : String} {n : Nat} {c : Char} {cs : List Char}
    (hd : text.toList.drop n = c :: cs) :
    (placed text (n + 1)).pos = (placed text n).pos + c.utf8Size := by
  rw [pos_placed_add, hd, List.take_succ_cons, List.take_zero, byteCount_cons, byteCount_nil,
    Nat.add_zero]

/-- The bytes of the next character are classed as that character. -/
theorem byteAt_class {test : Char → Bool} (ht : AsciiBased test) {text : String} {n : Nat}
    {c : Char} {cs : List Char} (hd : text.toList.drop n = c :: cs) :
    ∀ i < c.utf8Size, ∃ b, (Source.ofString text).byteAt ((placed text n).pos + i) = .ok b ∧
      ByteTest.ofClass test b = test c := by
  intro i hi
  refine ⟨byteAhead (c :: cs) i, ?_, ht.of_mem_bytes (byteAhead_mem hi cs)⟩
  rw [← hd]
  refine Source.byteAt_ahead text n ?_
  rw [hd, byteCount_cons]
  omega

/-- A run of bytes in a class leads behind the run of characters in it. -/
theorem runEnd_placed {test : Char → Bool} (ht : AsciiBased test) (hnull : test '\x00' = false)
    {text : String} (h : text.utf8ByteSize ≤ maxPosition) (cs : List Char) :
    ∀ n : Nat, text.toList.drop n = cs →
      runEnd (Source.ofString text) (ByteTest.ofClass test) (placed text n).pos =
        .ok (placed text (n + Plain.run test cs)).pos := by
  induction cs with
  | nil =>
      intro n hd
      -- Behind the text there is zero, which is in no class that is run over.
      have hcur := current_placed text n
      rw [hd] at hcur
      exact runEnd_eq_self hcur hnull
  | cons c cs ih =>
      intro n hd
      have hbytes := byteAt_class ht hd
      have hpos := pos_placed_succ hd
      by_cases hc : test c = true
      · -- All bytes of the character pass, and the run goes on behind them.
        have hsum := pos_placed_add_drop text (n + 1)
        have hrun : Plain.run test (c :: cs) = 1 + Plain.run test cs := by
          rw [Plain.run_cons hc, Nat.add_comm]
        rw [hrun, ← Nat.add_assoc, runEnd_add c.utf8Size (placed text n).pos (by omega), ← hpos]
        · exact ih (n + 1) (drop_succ_of_drop_eq_cons hd)
        · intro i hi
          rcases hbytes i hi with ⟨b, hb, htest⟩
          exact ⟨b, hb, htest.trans hc⟩
      · -- The first byte fails.
        have hc : test c = false := Bool.eq_false_iff.mpr hc
        rcases hbytes 0 c.utf8Size_pos with ⟨b, hb, htest⟩
        rw [Plain.run_cons_of_false hc, Nat.add_zero]
        exact runEnd_eq_self hb (htest.trans hc)

/-- A run over bytes in a class is a run over characters in it. -/
theorem skipWhile_placed {test : Char → Bool} (ht : AsciiBased test)
    (hnull : test '\x00' = false) {text : String} (h : text.utf8ByteSize ≤ maxPosition) (n : Nat) :
    (placed text n).skipWhile (ByteTest.ofClass test) =
      .ok (placed text (n + Plain.run test (text.toList.drop n))) := by
  have hrun : runEnd (placed text n).source (ByteTest.ofClass test) (placed text n).pos = _ :=
    runEnd_placed ht hnull h _ n rfl
  rw [skipWhile, hrun]
  rfl

theorem asciiBased_isStop {quote : Char} (hq : quote.toNat < 0x80) : AsciiBased (isStop quote) :=
  ((asciiBased_beq quote hq).or (asciiBased_beq _ (by decide))).or asciiBased_isNewline

theorem isDelimiter_byteOf {quote : Char} (hq : quote.toNat < 0x80) :
    isDelimiter (byteOf quote) = ByteTest.ofClass (isStop quote) := by
  funext b
  rw [isDelimiter, beq_byteOf hq, beq_byteOf (by decide), ByteTest.ofClass, isStop]

/-- The byte under a position of the source, in the two ways to read it. -/
theorem getUTF8Byte_of_byteAt {s : Source} {p : Nat} {b : UInt8} (hb : s.byteAt p = .ok b)
    (hp : p < s.padded.utf8ByteSize) : s.padded.getUTF8Byte ⟨p⟩ hp = b := by
  rw [Source.byteAt, byteAt?, dif_pos hp] at hb
  injection hb

theorem findByte_eq {s : Source} {test : UInt8 → Bool} {p : Nat} {b : UInt8}
    (hp : p < s.length) (hb : s.byteAt p = .ok b) :
    s.findByte test p = if test b then some (p, b) else s.findByte test (p + 1) := by
  have hsize : p < s.padded.utf8ByteSize :=
    Nat.lt_of_lt_of_le hp (Nat.le_trans (Nat.le_add_right _ _) s.room)
  rw [Source.findByte, dif_pos hp]
  simp only [getUTF8Byte_of_byteAt hb hsize]

/-- A search passes over bytes that fail the test. -/
theorem findByte_add {s : Source} {test : UInt8 → Bool} (k : Nat) :
    ∀ p : Nat, p + k ≤ s.length →
      (∀ i < k, ∃ b, s.byteAt (p + i) = .ok b ∧ test b = false) →
      s.findByte test p = s.findByte test (p + k) := by
  induction k with
  | zero =>
      intro p _ _
      rfl
  | succ k ih =>
      intro p hp hbytes
      -- The first byte is not it, and from the next one the way is shorter.
      rcases hbytes 0 (Nat.succ_pos k) with ⟨b, hb, htest⟩
      have hrest : s.findByte test (p + 1) = s.findByte test (p + 1 + k) := by
        refine ih (p + 1) (by omega) (fun i hi => ?_)
        rw [Nat.add_assoc, Nat.add_comm 1 i]
        exact hbytes (i + 1) (Nat.succ_lt_succ hi)
      rw [Nat.add_zero] at hb
      rw [findByte_eq (by omega) hb, htest, if_neg Bool.false_ne_true, hrest]
      congr 1
      omega

/-- A search for a class passes over the characters outside it. It ends at the
    end of the text or at the first byte of a character in the class. -/
theorem findByte_placed {test : Char → Bool} (ht : AsciiBased test) {text : String}
    (h : text.utf8ByteSize ≤ maxPosition) (cs : List Char) :
    ∀ n m : Nat, text.toList.drop n = cs → n + Plain.run (fun c => !test c) cs = m →
      (Source.ofString text).findByte (ByteTest.ofClass test) (placed text n).pos =
        if text.toList.drop m = [] then none
        else some ((placed text m).pos, byteAhead (text.toList.drop m) 0) := by
  have hlength : (Source.ofString text).length = text.utf8ByteSize := Source.length_ofString h
  -- The induction is on the characters ahead. The class decides by the first byte of a
  -- character, so it is that byte or none of them.
  induction cs with
  | nil =>
      intro n m hd hm
      have hsum := pos_placed_add_drop text n
      have hm : n = m := hm
      rw [hd, byteCount_nil] at hsum
      rw [← hm, if_pos hd, Source.findByte, dif_neg (by omega)]
  | cons c cs ih =>
      intro n m hd hm
      have hbytes := byteAt_class ht hd
      have hpos := pos_placed_succ hd
      have hsum := pos_placed_add_drop text (n + 1)
      have hwidth := c.utf8Size_pos
      by_cases hc : test c = true
      · -- The search ends at the character under the reader.
        rw [Plain.run_cons_of_false (by rw [hc]; rfl), Nat.add_zero] at hm
        have hcur := byteAt_placed text n (k := 0) (by decide)
        rw [Nat.add_zero, hd] at hcur
        rw [← hm, hd, if_neg (List.cons_ne_nil c cs), findByte_eq (by omega) hcur,
          ByteTest.ofClass, ht.byteAhead_cons, if_pos hc]
      · -- No byte of the character is it, and the search goes on behind it.
        have hc : test c = false := Bool.eq_false_iff.mpr hc
        rw [Plain.run_cons (by rw [hc]; rfl), Nat.add_comm _ 1] at hm
        rw [findByte_add c.utf8Size (placed text n).pos (by omega), ← hpos]
        · exact ih (n + 1) m (drop_succ_of_drop_eq_cons hd) (by omega)
        · intro i hi
          rcases hbytes i hi with ⟨b, hb, htest⟩
          exact ⟨b, hb, htest.trans hc⟩

/-- The way to what matters inside a string leads over the characters that do
    not matter, and tells the byte that is ahead then. -/
theorem skipToDelimiterBy_placed {search : ByteSearch} (hsearch : search.FindsFirst)
    {quote : Char} (hq : quote.toNat < 0x80) {text : String}
    (h : text.utf8ByteSize ≤ maxPosition) {n m : Nat}
    (hm : n + Plain.run (fun c => !isStop quote c) (text.toList.drop n) = m) :
    (placed text n).skipToDelimiterBy search (byteOf quote) =
      .ok (byteAhead (text.toList.drop m) 0, placed text m) := by
  have hlength := sourceLength_placed_le h n
  have hfind := findByte_placed (asciiBased_isStop hq) h _ n m rfl hm
  rw [← isDelimiter_byteOf hq] at hfind
  have hfind : (placed text n).source.findByte (isDelimiter (byteOf quote)) (placed text n).pos =
    _ := hfind
  -- The search is told by one scan, whose delimiters are those of the class.
  rw [skipToDelimiterBy_eq_scan hsearch hlength, scanToDelimiter, hfind]
  by_cases hend : text.toList.drop m = []
  · -- Without anything that matters the reader goes to the end.
    have hsum := pos_placed_add_drop text m
    rw [hend, byteCount_nil, Nat.add_zero, ← sourceLength_placed h n] at hsum
    rw [if_pos hend, hend, byteAhead_nil, ← hsum]
    rfl
  · rw [if_neg hend]
    rfl

/-- The characters between two readers. -/
theorem sliceFrom_placed {text : String} (h : text.utf8ByteSize ≤ maxPosition) (n m : Nat) :
    (placed text (n + m)).sliceFrom (placed text n).pos =
      .ok (String.ofList ((text.toList.drop n).take m)) :=
  Source.slice_ofString h n m

/-- The position in characters. -/
theorem charPosition_placed {text : String} (h : text.utf8ByteSize ≤ maxPosition) {n : Nat}
    (hn : n ≤ text.length) : (placed text n).charPosition = .ok n := by
  have hsum := pos_placed_add_drop text n
  have hmin : min (placed text n).pos (placed text n).sourceLength = (placed text n).pos := by
    rw [sourceLength_placed h]
    omega
  have hslice : (placed text n).slice 0 (placed text n).pos =
      .ok (String.ofList (text.toList.take n)) := by
    have hfront := Source.slice_ofString h 0 n
    rw [List.take_zero, List.drop_zero, Nat.zero_add] at hfront
    exact hfront
  rw [charPosition, hmin, hslice, ok_map, String.length_ofList, List.length_take,
    String.length_toList, Nat.min_eq_left hn]

end Reader

end CssTokens
