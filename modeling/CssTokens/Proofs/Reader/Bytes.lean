import CssTokens.Proofs.Reader.Placed
import CssTokens.Proofs.Text.WellFormed

/-!
# Movement by Bytes

When a movement that looks at bytes alone stays between characters.

A reader may be asked to step over some number of bytes, or over all bytes that
pass a test. Neither knows of characters. The first one still stops between
characters if all bytes it steps over are ASCII. For the second one there is a
contract on the test (`KeepsWhole`): it rejects zero, and if it accepts any byte
that begins a longer character it accepts all bytes that continue one. That is
enough. The run begins at the first byte of a character. If this byte is
rejected the run stops there, and if it is accepted so are all others of the
character, and the run goes on at the next one. What a test says of a byte that
continues a character is never asked otherwise.

## Main definitions

* `KeepsWhole`: The contract on a test.
* `FirstRejected`: Where a run over bytes stops.
* `Reader.AsciiAhead`: So many ASCII bytes of the source are ahead.

## Theorems

* `KeepsWhole.ofClass`: The classes of the tokenizer are such tests.
* `Reader.exists_skipWhile_placed`: A run stops between characters, at the first
  byte rejected.
* `Reader.advanceBy_of_asciiAhead`: A step over ASCII bytes.
-/

namespace CssTokens

/-- A test that a run over bytes does not leave a character by: it stops at
    zero, and together with a byte that begins a longer character it accepts
    all bytes that continue one. -/
structure KeepsWhole (test : UInt8 → Bool) : Prop where
  null : test 0 = false
  trail : ∀ b, 0xc0 ≤ b.toNat → test b = true → ∀ x, IsTrail x → test x = true

/-- The first byte of a text, from an offset on, that a test rejects, or the end
    of the text. -/
structure FirstRejected (text : String) (test : UInt8 → Bool) (p q : Nat) : Prop where
  le : p ≤ q
  le_size : q ≤ text.utf8ByteSize
  passed : ∀ i, p ≤ i → i < q → ∃ b, byteAt? text i = some b ∧ test b = true
  rejected : ∀ b, byteAt? text q = some b → test b = false

/-- The source goes on for so many bytes, and they are ASCII. -/
def Reader.AsciiAhead (r : Reader) (n : Nat) : Prop :=
  r.pos + n ≤ r.sourceLength ∧ ∀ i < n, ∃ b, r.source.byteAt (r.pos + i) = .ok b ∧ b.toNat < 0x80

namespace KeepsWhole

variable {test : UInt8 → Bool}

/-- With the first byte of a character all its bytes are accepted. -/
theorem of_mem_bytes (ht : KeepsWhole test) {c : Char} {cs : List Char}
    (hc : test (byteAhead (c :: cs) 0) = true) : ∀ x ∈ String.utf8EncodeChar c, test x = true := by
  rcases utf8EncodeChar_eq_cons c with ⟨b, bs, hform, htrail, hb⟩
  have hfirst : byteAhead (c :: cs) 0 = b := by
    rw [byteAhead, bytesOf_cons, hform]
    rfl
  rw [hfirst] at hc
  intro x hx
  rw [hform] at hx
  rcases List.mem_cons.mp hx with rfl | hx
  · exact hc
  · rcases hb with rfl | hb
    · cases hx
    · exact ht.trail b hb hc x (htrail x hx)

/-- A class that takes the characters above ASCII alike. -/
theorem ofClass {test : Char → Bool} (ht : AsciiBased test) (hnull : test '\x00' = false) :
    KeepsWhole (ByteTest.ofClass test) where
  null := hnull
  trail b hb hacc x hx := by
    have hx : 0x80 ≤ (Char.ofUInt8 x).toNat := by rw [toNat_ofUInt8]; exact hx.1
    have hb : 0x80 ≤ (Char.ofUInt8 b).toNat := by rw [toNat_ofUInt8]; omega
    exact (ht _ _ hx hb).trans hacc

end KeepsWhole

theorem keepsWhole_isBlank : KeepsWhole (ByteTest.ofClass isBlank) :=
  KeepsWhole.ofClass asciiBased_isBlank rfl

namespace Reader

/-- A run passes over bytes that are accepted and stops at one that is not. -/
theorem test_of_runEnd {s : Source} {test : UInt8 → Bool} {p q : Nat}
    (h : runEnd s test p = .ok q) :
    (∀ i, p ≤ i → i < q → ∃ b, s.byteAt i = .ok b ∧ test b = true) ∧
      ∃ b, s.byteAt q = .ok b ∧ test b = false := by
  -- The induction follows the run. Only its last byte is rejected.
  fun_induction runEnd s test p with
  | case1 => injection h
  | case2 p byte hb ht hp ih =>
      rcases ih h with ⟨hpassed, hstop⟩
      refine ⟨fun i hi hlt => ?_, hstop⟩
      rcases Nat.eq_or_lt_of_le hi with rfl | hi
      · exact ⟨byte, hb, ht⟩
      · exact hpassed i hi hlt
  | case3 => injection h
  | case4 p byte hb ht =>
      injection h with h
      subst h
      exact ⟨fun i hi hlt => absurd hlt (Nat.not_lt_of_le hi), byte, hb, Bool.eq_false_iff.mpr ht⟩

/-- A run that stops inside the text, or at its end, stops at the first byte
    that is rejected. -/
theorem firstRejected_of_runEnd {text : String} {test : UInt8 → Bool} {p q : Nat}
    (h : runEnd (Source.ofString text) test p = .ok q) (hq : q ≤ text.utf8ByteSize) :
    FirstRejected text test p q := by
  rcases test_of_runEnd h with ⟨hpassed, b, hb, hstop⟩
  refine ⟨runEnd_eq_ok h, hq, fun i hi hlt => ?_, fun b' hb' => ?_⟩
  · rcases hpassed i hi hlt with ⟨x, hx, hacc⟩
    have hbyte : byteAt? text i = some _ := dif_pos (Nat.lt_of_lt_of_le hlt hq)
    rw [Source.byteAt_eq_getD (by omega), hbyte] at hx
    injection hx with hx
    exact ⟨x, hx ▸ hbyte, hacc⟩
  · rw [Source.byteAt_eq_getD (by unfold lookahead; omega), hb', Option.getD_some] at hb
    injection hb with hb
    rw [hb, hstop]

/-- From between two characters a run stops between two characters. -/
theorem exists_runEnd_placed {test : UInt8 → Bool} (ht : KeepsWhole test) {text : String}
    (h : text.utf8ByteSize ≤ maxPosition) (cs : List Char) :
    ∀ n : Nat, text.toList.drop n = cs →
      ∃ m, runEnd (Source.ofString text) test (placed text n).pos = .ok (placed text m).pos := by
  induction cs with
  | nil =>
      intro n hd
      -- Behind the text there is zero, which is rejected.
      have hcur := current_placed text n
      rw [hd] at hcur
      exact ⟨n, runEnd_eq_self hcur ht.null⟩
  | cons c cs ih =>
      intro n hd
      have hpos := pos_placed_succ hd
      by_cases hc : test (byteAhead (c :: cs) 0) = true
      · -- The whole character is passed, and the run goes on behind it.
        have hsum := pos_placed_add_drop text (n + 1)
        rcases ih (n + 1) (drop_succ_of_drop_eq_cons hd) with ⟨m, hm⟩
        refine ⟨m, ?_⟩
        rw [runEnd_add c.utf8Size (placed text n).pos (by omega), ← hpos, hm]
        intro i hi
        refine ⟨byteAhead (c :: cs) i, ?_, ht.of_mem_bytes hc _ (byteAhead_mem hi cs)⟩
        rw [← hd]
        refine Source.byteAt_ahead text n ?_
        rw [hd, byteCount_cons]
        omega
      · -- The first byte is rejected.
        have hcur := current_placed text n
        rw [hd] at hcur
        exact ⟨n, runEnd_eq_self hcur (Bool.eq_false_iff.mpr hc)⟩

/-- A run of bytes leads to between two characters, where the first byte is that
    it rejects. -/
theorem exists_skipWhile_placed {test : UInt8 → Bool} (ht : KeepsWhole test) {text : String}
    (h : text.utf8ByteSize ≤ maxPosition) (n : Nat) :
    ∃ m, (placed text n).skipWhile test = .ok (placed text m) ∧
      FirstRejected text test (placed text n).pos (placed text m).pos := by
  rcases exists_runEnd_placed ht h _ n rfl with ⟨m, hm⟩
  have hrun : runEnd (placed text n).source test (placed text n).pos = _ := hm
  have hsum := pos_placed_add_drop text m
  refine ⟨m, ?_, firstRejected_of_runEnd hm (by omega)⟩
  rw [skipWhile, hrun]
  rfl

/-- The characters that some ASCII bytes belong to are as many as the bytes. -/
theorem byteCount_take_of_ascii {k : Nat} : ∀ {cs : List Char}, k ≤ byteCount cs →
    (∀ i < k, (byteAhead cs i).toNat < 0x80) → byteCount (cs.take k) = k := by
  induction k with
  | zero =>
      intro cs _ _
      rfl
  | succ k ih =>
      intro cs hk hascii
      cases cs with
      | nil => exact absurd hk (Nat.not_succ_le_zero k)
      | cons c cs =>
          -- A character whose first byte is ASCII has no other byte.
          have hc : c.toNat < 0x80 := by
            have hfirst := hascii 0 (Nat.succ_pos k)
            have hmem := byteAhead_mem c.utf8Size_pos cs
            refine Nat.lt_of_not_le fun hle => ?_
            have := le_of_mem_utf8EncodeChar hle hmem
            omega
          have hsize := utf8Size_of_ascii hc
          rw [byteCount_cons] at hk
          rw [List.take_succ_cons, byteCount_cons, hsize, ih (by omega) fun i hi => ?_]
          · exact Nat.add_comm 1 k
          · rw [← byteAhead_succ hc]
            exact hascii (i + 1) (Nat.succ_lt_succ hi)

/-- A step over as many ASCII bytes as are ahead is one over as many
    characters. -/
theorem advanceBy_of_asciiAhead {text : String} (h : text.utf8ByteSize ≤ maxPosition) {n k : Nat}
    (hk : (placed text n).AsciiAhead k) :
    (placed text n).advanceBy k = .ok (placed text (n + k)) := by
  rcases hk with ⟨hroom, hascii⟩
  have hsum := pos_placed_add_drop text n
  rw [sourceLength_placed h] at hroom
  refine advanceBy_placed h (byteCount_take_of_ascii (by omega) fun i hi => ?_)
  rcases hascii i hi with ⟨b, hb, hlt⟩
  have hahead : (placed text n).source.byteAt ((placed text n).pos + i) =
      .ok (byteAhead (text.toList.drop n) i) := Source.byteAt_ahead text n (by omega)
  rw [hahead] at hb
  injection hb with hb
  exact hb ▸ hlt

end Reader

end CssTokens
