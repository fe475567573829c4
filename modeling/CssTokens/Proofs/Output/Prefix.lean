import CssTokens.Proofs.Drivers

/-!
# Output Cut Short

What is left of a listing or a report when its sink runs out of room.

A sink without a bound takes the whole of an output. A block of memory takes
it too if it is large enough, and the caller is given the same answer. If it is
too small, the block ends up with as many bytes from the start of the output as
it can hold, and the caller with a failure to write: nothing of the output is
left out in front of the place where the room ended, nothing is written twice,
and nothing behind it is written at all. The place may be anywhere, also inside
a character.

An output is written line by line here. Any other pieces that make up the same
text would do (`Receives.pieces`), so the place where the room ends need not be
told by lines.

## Main definitions

* `Refusal.CutsOff`: What a block of memory that is too small leaves behind.
* `Sink.Receives`: What becomes of an output.

## Theorems

* `Sink.receives_writeAll`: What becomes of several texts.
* `outputs_cut_short`: What becomes of the listings and of every report.
-/

namespace CssTokens

/-- The block of memory holds the first `n` bytes of the whole, and a command
    fails because of it. -/
structure Refusal.CutsOff (r : Refusal) (whole : ByteArray) (n : Nat) : Prop where
  written : r.written = whole.extract 0 n
  size : r.written.size = n
  message : (Failure.write r.error).message =
    "failed to write output: failed to write whole buffer"
  exitStatus : (Failure.write r.error).exitStatus = 2

namespace Sink

/-- What becomes of an output that gives an answer back. -/
structure Receives {α : Type} (output : Sink → Except Refusal (α × Sink)) (answer : α)
    (whole : ByteArray) : Prop where
  unbounded : output .unbounded = .ok (answer, ⟨whole, none, memoryFull⟩)
  fits : ∀ n, whole.size ≤ n →
    output (.memory n) = .ok (answer, ⟨whole, some (n - whole.size), memoryFull⟩)
  cut : ∀ n, n < whole.size → ∃ r, output (.memory n) = .error r ∧ r.CutsOff whole n
  /-- Other pieces of the same text, on any sink. -/
  pieces : ∀ s texts, (String.join texts).toUTF8 = whole →
    (answer, ·) <$> s.writeAll texts = output s

/-- Several texts are cut off where the room ends, or not at all. -/
theorem receives_writeAll {α : Type} (answer : α) (texts : List String) :
    Receives (fun s => (answer, ·) <$> s.writeAll texts) answer (String.join texts).toUTF8 := by
  refine ⟨?_, ?_, ?_, ?_⟩
  · rw [writeAll_of_room rfl, ok_map, unbounded, ByteArray.empty_append]
  · intro n hn
    rw [writeAll_eq_write, write_of_le rfl hn, ok_map, memory, ByteArray.empty_append]
  · intro n hn
    rw [writeAll_eq_write, write_of_lt rfl hn, memory, ByteArray.empty_append]
    refine ⟨_, rfl, rfl, ?_, rfl, rfl⟩
    rw [ByteArray.size_extract]
    omega
  · intro s other hother
    -- Only the text as a whole matters to a sink.
    have hjoin : String.join other = String.join texts := String.toByteArray_inj.mp hother
    rw [writeAll_eq_write, writeAll_eq_write, hjoin]

end Sink

/-- A listing and a report are written as a whole, or up to where the room
    ends. A listing need not be made before it is written. -/
theorem outputs_cut_short :
    (∀ text skipTrivia,
      (text.utf8ByteSize < maxPosition → ∃ l, Listing.ofString text skipTrivia = .ok l) ∧
        ∀ l, Listing.ofString text skipTrivia = .ok l →
          (∃ whole, Sink.Receives l.print l.count whole) ∧
            ∀ s, (Listing.writeText text skipTrivia s).1 = .ofPrinted (l.print s)) ∧
      ∀ path (r : Report), ∃ whole, Sink.Receives (r.print path) () whole := by
  refine ⟨fun text skipTrivia => ⟨fun h => ?_, fun l hl => ?_⟩, fun path r => ?_⟩
  · rcases Listing.ofString_eq_ok h skipTrivia with ⟨l, hl, _⟩
    exact ⟨l, hl⟩
  · exact ⟨⟨_, Sink.receives_writeAll l.count l.lines⟩, Listing.fst_writeText hl⟩
  · exact ⟨_, Sink.receives_writeAll () (r.lines path)⟩

/-- The listing of one backslash, whose printed form has two. -/
theorem lines_backslash {l : Listing} (hl : Listing.ofString "\\" false = .ok l) :
    l.lines = ["     0 Unmatched        \"\\\\\"\n"] := by
  have hsize : "\\".utf8ByteSize < maxPosition := by decide
  rcases Listing.ofString_eq_ok hsize false with ⟨k, hk, hentries, _⟩
  rw [hl, Except.ok.injEq] at hk
  have htokens : Plain.tokens ['\\'] = [⟨.unmatched, ['\\']⟩] := by
    rw [Plain.tokens_cons (k := .unmatched) (n := 1) rfl]
    simp
  have hchars : "\\".toList = ['\\'] := rfl
  rw [Listing.lines, hk, hentries, hchars, htokens]
  decide

/-- The room ends between the two, or inside the first character of a report. -/
theorem outputs_cut_short_inside :
    "\\".utf8ByteSize < maxPosition ∧
      (∃ l r, Listing.ofString "\\" false = .ok l ∧ l.print (.memory 26) = .error r ∧
        (Listing.writeText "\\" false (.memory 26)).1 = .refused r ∧
        r.written = "     0 Unmatched        \"\\".toUTF8 ∧
        (Failure.write r.error).message =
          "failed to write output: failed to write whole buffer") ∧
      ∃ r, (Report.mk 0 [] [] true).print "é" (.memory 1) = .error r ∧
        r.written = ⟨#[0xc3]⟩ ∧ (Failure.write r.error).exitStatus = 2 := by
  have h : "\\".utf8ByteSize < maxPosition := by decide
  refine ⟨h, ?_, ?_⟩
  · rcases (outputs_cut_short.1 "\\" false).1 h with ⟨l, hl⟩
    rcases (outputs_cut_short.1 "\\" false).2 l hl with ⟨⟨whole, hreceives⟩, htext⟩
    -- The whole is the one line of the listing.
    have hwhole : whole = "     0 Unmatched        \"\\\\\"\n".toUTF8 := by
      have hall := hreceives.unbounded
      rw [Listing.print, Listing.writeTo, lines_backslash hl, Sink.writeAll_of_room rfl, ok_map,
        Except.ok.injEq, Prod.mk.injEq, Sink.mk.injEq] at hall
      rw [← hall.2.1]
      decide
    rcases hreceives.cut 26 (by rw [hwhole]; decide) with ⟨r, hprint, hcut⟩
    refine ⟨l, r, hl, hprint, ?_, ?_, hcut.message⟩
    · rw [htext, hprint]
      rfl
    · rw [hcut.written, hwhole]
      decide
  · rcases outputs_cut_short.2 "é" ⟨0, [], [], true⟩ with ⟨whole, hreceives⟩
    have hwhole : whole = "é: 0 tokens, 0 soft failures\n".toUTF8 := by
      have hall := hreceives.unbounded
      rw [Report.print, Report.writeTo, Sink.writeAll_of_room rfl, ok_map,
        Except.ok.injEq, Prod.mk.injEq, Sink.mk.injEq] at hall
      rw [← hall.2.1]
      decide
    rcases hreceives.cut 1 (by rw [hwhole]; decide) with ⟨r, hprint, hcut⟩
    refine ⟨r, hprint, ?_, hcut.exitStatus⟩
    rw [hcut.written, hwhole]
    decide

end CssTokens
