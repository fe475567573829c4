import CssTokens.Proofs.Reader.Bytes
import CssTokens.Reader.Session

/-!
# Readers in Motion

Wherever the movements of a reader lead to, it stands between characters.

A reader is moved in any way, kept, and given back, any number of times and in
any order. Each movement has its own condition (`Movement.Permitted`), and each
condition is about the bytes ahead or about the movement itself, not about
characters. A movement that is permitted succeeds, and it leads from between
two characters to between two characters (`Movement.exists_apply`); readers that
were kept stood between characters when they were kept. So by induction on the
run all positions that were ever seen lie between characters (`Run.onText`).

Such positions can be told in characters, and then a reader does what its users
rely on: the bytes ahead can be looked at, the text between two positions can
be cut out, and positions can be counted in characters. The bytes ahead reach
two positions further than the text, so a text must be two bytes shorter than
the greatest position.

## Main definitions

* `Movement`, `Movement.apply`: What moves a reader.
* `Movement.Permitted`: When it may be used.
* `ReaderSession.Run`: Permitted movements in a row, from the start of a text,
  and the positions seen.
* `Reader.Sound`, `ReaderSession.Sound`: What can be relied on, of one reader
  and in a run.

## Theorems

* `Reader.exists_slice_placed`: The text between two places.
* `Reader.sound_placed`: A reader between characters.
* `Movement.exists_apply`: One movement.
* `ReaderSession.Run.onText`: A run of them.
* `ReaderSession.Run.sound`: What can be relied on in a run.
-/

namespace CssTokens

/-- What moves a reader, or puts it aside and returns to it. -/
inductive Movement where
  | advance
  | advanceBy (n : Nat)
  | advanceChar
  | skipWhile (test : UInt8 → Bool)
  | skipBlanks
  | skipToDelimiter (quote : UInt8)
  /-- Put the reader aside. -/
  | keep
  /-- Return to a reader that was put aside, which may be done again. -/
  | giveBack (i : Nat)

/-- The same session with its reader elsewhere. -/
def ReaderSession.turnTo (s : ReaderSession) (r : Reader) : ReaderSession := { s with reader := r }

namespace Movement

/-- One movement. -/
def apply (search : ByteSearch) (s : ReaderSession) : Movement → Except Fault ReaderSession
  | .advance => s.turnTo <$> s.reader.advance
  | .advanceBy n => s.turnTo <$> s.reader.advanceBy n
  | .advanceChar => s.turnTo <$> s.reader.advanceChar
  | .skipWhile test => s.turnTo <$> s.reader.skipWhile test
  | .skipBlanks => s.turnTo <$> s.reader.skipBlanks
  | .skipToDelimiter quote =>
      (fun found => s.turnTo found.2) <$> s.reader.skipToDelimiterBy search quote
  | .keep => .ok { s with kept := s.reader :: s.kept }
  | .giveBack i =>
      match s.kept[i]? with
      | some r => .ok (s.turnTo r)
      | none => .ok s

/-- When a movement may be used. -/
def Permitted (s : ReaderSession) : Movement → Prop
  | .advance => s.reader.AsciiAhead 1
  | .advanceBy n => s.reader.AsciiAhead n
  | .advanceChar => s.reader.atEnd = false
  | .skipWhile test => KeepsWhole test
  | .skipToDelimiter quote => quote.toNat < 0x80
  | .skipBlanks | .keep | .giveBack _ => True

end Movement

/-- What can be relied on wherever a reader stands. -/
structure Reader.Sound (text : String) (r : Reader) : Prop where
  le_length : r.pos ≤ r.sourceLength
  /-- The reader stands between two characters. Those in front of it are counted
      by its position in characters, and a step over a character is one over the
      next of them. -/
  boundary : ∃ front behind, CutAt text r.pos front behind ∧
    r.charPosition = .ok front.length ∧
    ∀ c rest, behind = String.singleton c ++ rest →
      r.advanceChar = .ok (r.moveTo (r.pos + c.utf8Size))
  current : r.current = .ok ((byteAt? text r.pos).getD 0)
  peek : r.peek = .ok ((byteAt? text (r.pos + 1)).getD 0)
  peekSecond : r.peekSecond = .ok ((byteAt? text (r.pos + 2)).getD 0)
  skipWhile : ∀ test, KeepsWhole test →
    ∃ q, r.skipWhile test = .ok (r.moveTo q) ∧ FirstRejected text test r.pos q
  skipBlanks : ∃ q, r.skipBlanks = .ok (r.moveTo q) ∧
    FirstRejected text (ByteTest.ofClass isBlank) r.pos q

namespace ReaderSession

/-- Movements in a row from the start of a text, each of them permitted where
    it is used, and the positions seen, the last one first. -/
inductive Run (search : ByteSearch) (text : String) : ReaderSession → List Nat → Prop
  | start : Run search text (ofString text) [0]
  | step {m : Movement} {s s' : ReaderSession} {seen : List Nat} (hrun : Run search text s seen)
      (hm : m.Permitted s) (hmove : m.apply search s = .ok s') :
      Run search text s' (s'.reader.pos :: seen)

/-- What can be relied on in a run. -/
structure Sound (search : ByteSearch) (text : String) (s : ReaderSession) (seen : List Nat) :
    Prop where
  /-- Of the reader, and of those that were kept. -/
  readers : ∀ r ∈ s.reader :: s.kept, r.Sound text
  /-- Two positions that were seen have text between them, and it can be cut
      out. -/
  slice : ∀ a ∈ seen, ∀ b ∈ seen, a ≤ b → ∃ front middle behind,
    CutAt text a front (middle ++ behind) ∧ CutAt text b (front ++ middle) behind ∧
    s.reader.slice a b = .ok middle
  /-- Every movement that is permitted succeeds. -/
  progress : ∀ m : Movement, m.Permitted s → ∃ s', m.apply search s = .ok s'

/-- All readers of a session stand between characters of a text. -/
def OnText (text : String) (s : ReaderSession) : Prop :=
  ∀ r ∈ s.reader :: s.kept, ∃ n, r = Reader.placed text n

end ReaderSession

namespace Reader

/-- Behind the last character there is one place only. -/
theorem exists_placed_le (text : String) (n : Nat) :
    ∃ m ≤ text.length, placed text n = placed text m := by
  refine ⟨min n text.length, Nat.min_le_right _ _, ?_⟩
  rw [placed, placed, ← String.length_toList, ← List.take_eq_take_min]

theorem cutAt_placed (text : String) (n : Nat) :
    CutAt text (placed text n).pos (String.ofList (text.toList.take n))
      (String.ofList (text.toList.drop n)) where
  append_eq := by rw [← String.ofList_append, List.take_append_drop, String.ofList_toList]
  size_eq := by rw [utf8ByteSize_eq_byteCount, String.toList_ofList, pos_placed]

/-- The text between two places. -/
theorem exists_slice_placed {text : String} (h : text.utf8ByteSize ≤ maxPosition) {n m : Nat}
    (hle : (placed text n).pos ≤ (placed text m).pos) :
    ∃ front middle behind, CutAt text (placed text n).pos front (middle ++ behind) ∧
      CutAt text (placed text m).pos (front ++ middle) behind ∧
      (Source.ofString text).slice (placed text n).pos (placed text m).pos = .ok middle := by
  -- The later place is no smaller a number of characters, or none are between.
  have hk : ∃ k, (placed text m).pos = (placed text (n + k)).pos := by
    rcases Nat.le_total n m with hnm | hmn
    · exact ⟨m - n, by rw [Nat.add_sub_cancel' hnm]⟩
    · have hadd := pos_placed_add text m (n - m)
      rw [Nat.add_sub_cancel' hmn] at hadd
      exact ⟨0, by rw [Nat.add_zero]; omega⟩
  rcases hk with ⟨k, hk⟩
  have hfront : String.ofList (text.toList.take n) ++ String.ofList ((text.toList.drop n).take k) =
      String.ofList (text.toList.take (n + k)) := by
    rw [← String.ofList_append, ← List.take_add]
  have hbehind : String.ofList ((text.toList.drop n).take k) ++
      String.ofList (text.toList.drop (n + k)) = String.ofList (text.toList.drop n) := by
    rw [← String.ofList_append, ← List.drop_drop, List.take_append_drop]
  rw [hk]
  refine ⟨String.ofList (text.toList.take n), _, String.ofList (text.toList.drop (n + k)), ?_, ?_,
    Source.slice_ofString h n k⟩
  · rw [hbehind]
    exact cutAt_placed text n
  · rw [hfront]
    exact cutAt_placed text (n + k)

/-- Behind any number of characters a reader can be relied on. -/
theorem sound_placed {text : String} (h : text.utf8ByteSize + 2 ≤ maxPosition) (k : Nat) :
    (placed text k).Sound text := by
  have hmax : text.utf8ByteSize ≤ maxPosition := Nat.le_of_add_right_le h
  rcases exists_placed_le text k with ⟨n, hn, heq⟩
  rw [heq]
  have hsum := pos_placed_add_drop text n
  -- The three bytes that may be looked at are in the text, or among the zeros behind it.
  have hbyte (i : Nat) (hi : i < lookahead) :
      (Source.ofString text).byteAt ((placed text n).pos + i) =
        .ok ((byteAt? text ((placed text n).pos + i)).getD 0) :=
    Source.byteAt_eq_getD (by omega)
  have hskip (test : UInt8 → Bool) (ht : KeepsWhole test) :
      ∃ q, (placed text n).skipWhile test = .ok ((placed text n).moveTo q) ∧
        FirstRejected text test (placed text n).pos q := by
    rcases exists_skipWhile_placed ht hmax n with ⟨m, hm, hfirst⟩
    exact ⟨_, hm, hfirst⟩
  -- Each field is one operation at the reader, said by the characters ahead of it.
  constructor
  case le_length =>
    rw [sourceLength_placed hmax]
    omega
  case boundary =>
    refine ⟨_, _, cutAt_placed text n, ?_, fun c rest hc => ?_⟩
    · rw [charPosition_placed hmax hn, String.length_ofList, List.length_take,
        String.length_toList, Nat.min_eq_left hn]
    · have hd : text.toList.drop n = c :: rest.toList := by
        rw [← String.toList_ofList (l := text.toList.drop n), hc]
        simp
      rw [advanceChar_placed hmax hd, ← pos_placed_succ hd]
      rfl
  case current => exact hbyte 0 (by decide)
  case peek =>
    rw [peek, addPosition_of_le (by omega)]
    exact hbyte 1 (by decide)
  case peekSecond =>
    rw [peekSecond, addPosition_of_le (by omega)]
    exact hbyte 2 (by decide)
  case skipWhile => exact hskip
  case skipBlanks =>
    rw [skipBlanks_eq]
    exact hskip _ keepsWhole_isBlank

/-- Before the end there is a character to step over. -/
theorem exists_advanceChar_placed {text : String} (h : text.utf8ByteSize ≤ maxPosition) {n : Nat}
    (hend : (placed text n).atEnd = false) :
    ∃ m, (placed text n).advanceChar = .ok (placed text m) := by
  rw [atEnd_placed h, List.isEmpty_eq_false_iff_exists_mem] at hend
  rcases hend with ⟨c, hc⟩
  cases hd : text.toList.drop n with
  | nil =>
      rw [hd] at hc
      cases hc
  | cons c cs => exact ⟨n + 1, advanceChar_placed h hd⟩

/-- An ASCII quote is no byte of a longer character, nor is any other
    delimiter. -/
theorem exists_skipToDelimiterBy_placed {search : ByteSearch} (hsearch : search.FindsFirst)
    {text : String} (h : text.utf8ByteSize ≤ maxPosition) (n : Nat) {quote : UInt8}
    (hquote : quote.toNat < 0x80) :
    ∃ b m, (placed text n).skipToDelimiterBy search quote = .ok (b, placed text m) := by
  have hchar : (Char.ofUInt8 quote).toNat < 0x80 := by
    rw [toNat_ofUInt8]
    exact hquote
  have hskip := skipToDelimiterBy_placed hsearch hchar h (n := n) rfl
  rw [byteOf_ofUInt8] at hskip
  exact ⟨_, _, hskip⟩

end Reader

open Reader

theorem ReaderSession.OnText.turnTo {text : String} {s : ReaderSession} (hs : s.OnText text)
    (n : Nat) : (s.turnTo (placed text n)).OnText text := by
  intro r hr
  rcases List.mem_cons.mp hr with rfl | hr
  · exact ⟨n, rfl⟩
  · exact hs r (List.mem_cons_of_mem _ hr)

/-- A movement that is permitted succeeds and leads to between two characters
    again. -/
theorem Movement.exists_apply {search : ByteSearch} (hsearch : search.FindsFirst) {text : String}
    (h : text.utf8ByteSize ≤ maxPosition) {s : ReaderSession} (hs : s.OnText text) {m : Movement}
    (hm : m.Permitted s) : ∃ s', m.apply search s = .ok s' ∧ s'.OnText text := by
  rcases hs _ List.mem_cons_self with ⟨n, hn⟩
  -- A movement of the reader alone.
  have hturn {x : Except Fault Reader} {k : Nat} (hx : x = .ok (placed text k)) :
      ∃ s', s.turnTo <$> x = .ok s' ∧ s'.OnText text := by
    rw [hx]
    exact ⟨_, rfl, hs.turnTo k⟩
  cases m with
  | advance =>
      rw [Permitted, hn] at hm
      exact hturn (hn ▸ advanceBy_of_asciiAhead h hm)
  | advanceBy k =>
      rw [Permitted, hn] at hm
      exact hturn (hn ▸ advanceBy_of_asciiAhead h hm)
  | advanceChar =>
      rw [Permitted, hn] at hm
      rcases exists_advanceChar_placed h hm with ⟨k, hk⟩
      exact hturn (hn ▸ hk)
  | skipWhile test =>
      rcases exists_skipWhile_placed hm h n with ⟨k, hk, _⟩
      exact hturn (hn ▸ hk)
  | skipBlanks =>
      rcases exists_skipWhile_placed keepsWhole_isBlank h n with ⟨k, hk, _⟩
      rw [← skipBlanks_eq] at hk
      exact hturn (hn ▸ hk)
  | skipToDelimiter quote =>
      rcases exists_skipToDelimiterBy_placed hsearch h n hm with ⟨b, k, hk⟩
      refine ⟨_, ?_, hs.turnTo k⟩
      rw [apply, hn, hk]
      rfl
  | keep =>
      refine ⟨_, rfl, fun r hr => ?_⟩
      rcases List.mem_cons.mp hr with rfl | hr
      · exact ⟨n, hn⟩
      · exact hs r hr
  | giveBack i =>
      rw [apply]
      split
      · next r hr =>
          rcases hs r (List.mem_cons_of_mem _ (List.mem_of_getElem? hr)) with ⟨k, rfl⟩
          exact ⟨_, rfl, hs.turnTo k⟩
      · exact ⟨s, rfl, hs⟩

namespace ReaderSession

variable {search : ByteSearch} {text : String} {s : ReaderSession} {seen : List Nat}

/-- In a run all readers stand between characters, and all positions that are
    seen lie there. -/
theorem Run.onText (hsearch : search.FindsFirst) (h : text.utf8ByteSize ≤ maxPosition)
    (hrun : Run search text s seen) :
    s.OnText text ∧ ∀ p ∈ seen, ∃ n, p = (placed text n).pos := by
  -- Both halves are one invariant: what a step leaves to be seen is the reader it moved.
  induction hrun with
  | start =>
      refine ⟨fun r hr => ?_, fun p hp => ?_⟩
      · rw [List.mem_singleton.mp hr]
        exact ⟨0, rfl⟩
      · rw [List.mem_singleton.mp hp]
        exact ⟨0, rfl⟩
  | step hrun hm hmove ih =>
      rcases ih with ⟨hs, hseen⟩
      rcases Movement.exists_apply hsearch h hs hm with ⟨s', hs', hon⟩
      rw [hmove] at hs'
      injection hs' with hs'
      subst hs'
      refine ⟨hon, fun p hp => ?_⟩
      rcases List.mem_cons.mp hp with rfl | hp
      · rcases hon _ List.mem_cons_self with ⟨n, hn⟩
        exact ⟨n, congrArg Reader.pos hn⟩
      · exact hseen p hp

/-- In a run everything can be relied on. -/
theorem Run.sound (hsearch : search.FindsFirst) (h : text.utf8ByteSize + 2 ≤ maxPosition)
    (hrun : Run search text s seen) : s.Sound search text seen := by
  have hmax : text.utf8ByteSize ≤ maxPosition := Nat.le_of_add_right_le h
  rcases hrun.onText hsearch hmax with ⟨hs, hseen⟩
  -- All three follow from where the readers and the positions lie, whatever led there.
  constructor
  case readers =>
    intro r hr
    rcases hs r hr with ⟨n, rfl⟩
    exact sound_placed h n
  case slice =>
    intro a ha b hb hle
    rcases hs _ List.mem_cons_self with ⟨n, hn⟩
    rcases hseen a ha with ⟨i, rfl⟩
    rcases hseen b hb with ⟨j, rfl⟩
    rw [hn]
    exact exists_slice_placed hmax hle
  case progress =>
    intro m hm
    rcases Movement.exists_apply hsearch hmax hs hm with ⟨s', hs', _⟩
    exact ⟨s', hs'⟩

/-- A test of bytes that no class of characters is behind: it accepts the bytes
    of `é` and of some other characters, and of the rest the bytes behind the
    first one. -/
def acceptsSome (b : UInt8) : Bool := decide (0x80 ≤ b) && decide (b ≤ 0xc3)

theorem keepsWhole_acceptsSome : KeepsWhole acceptsSome := by
  refine ⟨rfl, fun b _ _ x hx => ?_⟩
  have hlt : x.toNat < 0xc0 := hx.2
  have hle : x.toNat ≤ (0xc3 : UInt8).toNat := Nat.le_trans (Nat.le_of_lt hlt) (by decide)
  rw [acceptsSome, Bool.and_eq_true, decide_eq_true_eq, decide_eq_true_eq]
  exact ⟨UInt8.le_iff_toNat_le.mpr hx.1, UInt8.le_iff_toNat_le.mpr hle⟩

/-- The run stops in front of `α`, whose first byte is rejected. -/
theorem skipWhile_acceptsSome :
    (Movement.skipWhile acceptsSome).apply .plain (ofString "éα\x00'") =
      .ok ⟨atOffset "éα\x00'" 2, []⟩ := by
  -- The two bytes of the first character, and the one the run stops at.
  have hpass : ∀ i < 2, ∃ b, (Source.ofString "éα\x00'").byteAt (0 + i) = .ok b ∧
      acceptsSome b = true := by
    intro i hi
    rcases i with _ | _ | i
    · exact ⟨0xc3, rfl, rfl⟩
    · exact ⟨0xa9, rfl, rfl⟩
    · omega
  have hend : runEnd (Source.ofString "éα\x00'") acceptsSome 0 = .ok 2 :=
    (runEnd_add 2 0 (by decide) hpass).trans (runEnd_eq_self (b := 0xce) rfl rfl)
  show turnTo _ <$> (_ <$> runEnd (Source.ofString "éα\x00'") acceptsSome 0) = _
  rw [hend]
  rfl

/-- Over the first character by a test of bytes and over the second one as a
    character, to the quote, back again, and over a zero byte in the text. -/
theorem Run.sound_giveBack :
    ByteSearch.plain.FindsFirst ∧ "éα\x00'".utf8ByteSize + 2 ≤ maxPosition ∧
      Run .plain "éα\x00'" ⟨atOffset "éα\x00'" 5, [atOffset "éα\x00'" 4]⟩ [5, 4, 5, 4, 4, 2, 0] ∧
      Sound .plain "éα\x00'" ⟨atOffset "éα\x00'" 5, [atOffset "éα\x00'" 4]⟩
        [5, 4, 5, 4, 4, 2, 0] := by
  have h : "éα\x00'".utf8ByteSize + 2 ≤ maxPosition := by decide
  -- One step of the run after the other. The search is the only one that has to be
  -- computed, and the steps over bytes need that they are permitted.
  have hfirst := Run.start.step (m := .skipWhile _) keepsWhole_acceptsSome skipWhile_acceptsSome
  have hsecond := hfirst.step (m := .advanceChar) rfl rfl
  have hkept := hsecond.step (m := .keep) trivial rfl
  have hquote : (0x27 : UInt8).toNat < 0x80 := by decide
  have hskip : (Movement.skipToDelimiter 0x27).apply .plain
      ⟨atOffset "éα\x00'" 4, [atOffset "éα\x00'" 4]⟩ =
        .ok ⟨atOffset "éα\x00'" 5, [atOffset "éα\x00'" 4]⟩ := by
    have hway : (placed "éα\x00'" 2).skipToDelimiterBy .plain (byteOf '\'') =
        .ok (0x27, placed "éα\x00'" 3) :=
      skipToDelimiterBy_placed ByteSearch.plain_findsFirst (by decide) (Nat.le_of_add_right_le h) rfl
    show _ <$> skipToDelimiterBy .plain (placed "éα\x00'" 2) (byteOf '\'') = _
    rw [hway]
    rfl
  have hback := (hkept.step (m := .skipToDelimiter 0x27) hquote hskip).step (m := .giveBack 0)
    trivial rfl
  have hnull : Movement.advance.Permitted ⟨atOffset "éα\x00'" 4, [atOffset "éα\x00'" 4]⟩ := by
    refine ⟨by decide, fun i hi => ⟨0, ?_, by decide⟩⟩
    rw [Nat.lt_one_iff.mp hi]
    rfl
  have hrun : Run .plain "éα\x00'" ⟨atOffset "éα\x00'" 5, [atOffset "éα\x00'" 4]⟩
      [5, 4, 5, 4, 4, 2, 0] := hback.step hnull rfl
  exact ⟨ByteSearch.plain_findsFirst, h, hrun, Run.sound ByteSearch.plain_findsFirst h hrun⟩

end ReaderSession

end CssTokens
