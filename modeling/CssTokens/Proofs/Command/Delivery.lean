import CssTokens.Command
import CssTokens.Proofs.Drivers

/-!
# Output and its Delivery

What becomes of the lines that a command prints.

A command whose source can be read, and is shorter than a position can tell,
writes lines: the rows of a listing, which are as good as made beforehand, or
the report. It answers for a line that is refused. A command without a source
prints a fixed text, and does not answer for a line of it; then the first line
that is refused tells which calls were under way.

The lines meet one of two kinds of sink. One without a bound takes all of them.
One without room, such as a full device, takes lines without text and refuses
the first other one.

## Theorems

* `Sink.writeAll_of_room_zero`: What a sink without room does.
* `Outcome.ofWritten_of_room`, `Outcome.ofWritten_of_room_zero`: What becomes of
  lines that are answered for.
* `Sink.printAll_of_ok`, `Sink.printAll_of_error`: What becomes of a fixed text.
* `Command.outcome_list`, `Command.outcome_check`: The lines of a source.
* `Command.outcome_of_read_error`: No lines without a source.
* `Command.exists_lines`: Every command with a source answers for its lines.
* `run_of_parse`, `run_of_read_error`: A run, by its command.
-/

namespace CssTokens

theorem size_toUTF8_le_zero {text : String} : text.toUTF8.size ≤ 0 ↔ text = "" := by
  rw [String.toUTF8_eq_toByteArray, String.size_toByteArray, Nat.le_zero,
    String.utf8ByteSize_eq_zero_iff]

/-- A sink without room takes several texts that have no bytes, and no others. -/
theorem Sink.writeAll_of_room_zero {s : Sink} (hs : s.room = some 0) (texts : List String) :
    s.writeAll texts =
      if String.join texts = "" then .ok s else .error ⟨s.written, s.refusal⟩ := by
  rw [writeAll_eq_write]
  by_cases h : String.join texts = ""
  · rw [if_pos h, h, write_empty]
  · have hroom : 0 < (String.join texts).toUTF8.size :=
      Nat.pos_of_ne_zero fun hsize => h (size_toUTF8_le_zero.mp (Nat.le_of_eq hsize))
    rw [if_neg h, write_of_lt hs hroom, ByteArray.extract_eq_empty_iff.mpr (Nat.zero_le _),
      ByteArray.append_empty]

/-- What a full device does with several texts. -/
theorem Sink.writeAll_fullDevice (texts : List String) :
    fullDevice.writeAll texts =
      if String.join texts = "" then .ok fullDevice else .error ⟨.empty, noSpace⟩ :=
  writeAll_of_room_zero rfl texts

namespace Outcome

variable (status : Nat) (lines : List String) {s : Sink}

/-- A sink without a bound takes all lines. -/
theorem ofWritten_of_room (hs : s.room = none) :
    ofWritten status (s.writeAll lines) =
      ⟨status, s.written ++ (String.join lines).toUTF8, "", none⟩ := by
  rw [Sink.writeAll_of_room hs]
  rfl

/-- A sink without room takes lines without text, and no others. -/
theorem ofWritten_of_room_zero (hs : s.room = some 0) :
    ofWritten status (s.writeAll lines) =
      if String.join lines = "" then ⟨status, s.written, "", none⟩
      else failed (.write s.refusal) s.written := by
  rw [Sink.writeAll_of_room_zero hs]
  by_cases h : String.join lines = ""
  · rw [if_pos h, if_pos h]
    rfl
  · rw [if_neg h, if_neg h]
    rfl

theorem ofWritten_unbounded :
    ofWritten status (Sink.unbounded.writeAll lines) =
      ⟨status, (String.join lines).toUTF8, "", none⟩ := by
  rw [ofWritten_of_room status lines rfl, Sink.unbounded, ByteArray.empty_append]

theorem ofWritten_fullDevice :
    ofWritten status (Sink.fullDevice.writeAll lines) =
      if String.join lines = "" then ⟨status, .empty, "", none⟩
      else failed (.write Sink.noSpace) .empty :=
  ofWritten_of_room_zero status lines rfl

end Outcome

namespace Sink

variable {s s' : Sink} {r : Refusal} {ps : List Print}

/-- A fixed text is taken as its lines are. -/
theorem printAll_of_ok (h : s.writeAll (ps.map Print.line) = .ok s') : s.printAll ps = .ok s' := by
  induction ps generalizing s with
  | nil =>
      injection h with h
      rw [h]
      rfl
  | cons p ps ih =>
      rw [List.map_cons, writeAll, List.foldlM_cons] at h
      rcases bind_eq_ok.mp h with ⟨next, hp, hrest⟩
      rw [printAll, List.foldlM_cons, print, hp]
      exact ih hrest

/-- It is refused at the first line that is, and the calls of that line are
    known. -/
theorem printAll_of_error (h : s.writeAll (ps.map Print.line) = .error r) :
    ∃ front p back next, ps = front ++ p :: back ∧
      s.writeAll (front.map Print.line) = .ok next ∧ next.write p.line = .error r ∧
      s.printAll ps = .error (r, p.calls) := by
  -- The induction is on the lines that are left, behind those that are taken.
  induction ps generalizing s with
  | nil => injection h
  | cons p ps ih =>
      rw [List.map_cons, writeAll, List.foldlM_cons] at h
      rcases hp : s.write p.line with r' | next
      · -- The first line is the one that is refused.
        rw [hp] at h
        injection h with h
        subst h
        refine ⟨[], p, ps, s, rfl, rfl, hp, ?_⟩
        rw [printAll, List.foldlM_cons, print, hp]
        rfl
      · rw [hp] at h
        rcases ih h with ⟨front, q, back, last, rfl, hfront, hq, hrest⟩
        refine ⟨p :: front, q, back, last, rfl, ?_, hq, ?_⟩
        · rw [List.map_cons, writeAll, List.foldlM_cons, hp]
          exact hfront
        · rw [printAll, List.foldlM_cons, print, hp]
          exact hrest

end Sink

namespace Command

variable {env : Surroundings} {path text : String}

/-- The listing of a source. -/
theorem outcome_list (hread : env.read path = .ok text) {skipTrivia : Bool} {l : Listing}
    (hl : Listing.ofString text skipTrivia = .ok l) (stdout : Sink) :
    (list path skipTrivia).outcome env stdout = .ofWritten 0 (stdout.writeAll l.lines) := by
  rw [outcome, hread]
  dsimp only
  rw [Listing.fst_writeText hl, Listing.print, Listing.writeTo]
  -- What is left is the same choice on both sides, by whether the lines are taken.
  cases stdout.writeAll l.lines <;> rfl

/-- The report on a source. -/
theorem outcome_check (hread : env.read path = .ok text) {r : Report} {events : List Event}
    (hr : Report.ofString text = .ok (r, events)) (stdout : Sink) :
    (check path).outcome env stdout =
      .ofWritten (if r.isClean then 0 else 1) (stdout.writeAll (r.lines path)) := by
  rw [outcome, hread]
  dsimp only
  rw [hr]
  rfl

/-- A source that cannot be read is all that such a command speaks of. -/
theorem outcome_of_read_error {c : Command} (hc : c.path? = some path) {f : Failure}
    (hread : env.read path = .error f) (stdout : Sink) :
    c.outcome env stdout = .failed f .empty := by
  cases c with
  | print t => injection hc
  | list p skipTrivia =>
      injection hc with hc
      rw [outcome, hc, hread]
  | check p =>
      injection hc with hc
      rw [outcome, hc, hread]

/-- A command with a source answers for its lines, which do not depend on the
    sink. -/
theorem exists_lines {c : Command} (hc : c.path? = some path) (hread : env.read path = .ok text)
    (h : text.utf8ByteSize < maxPosition) :
    ∃ lines status, status ≤ 1 ∧
      ∀ stdout, c.outcome env stdout = .ofWritten status (stdout.writeAll lines) := by
  -- The lines are made before anything is written, so they are the same for every sink.
  cases c with
  | print t => injection hc
  | list p skipTrivia =>
      injection hc with hc
      subst hc
      rcases Listing.ofString_eq_ok h skipTrivia with ⟨l, hl, _⟩
      exact ⟨l.lines, 0, Nat.zero_le 1, outcome_list hread hl⟩
  | check p =>
      injection hc with hc
      subst hc
      rcases Report.ofString_eq_ok h with ⟨r, events, hr, _⟩
      refine ⟨r.lines p, _, ?_, outcome_check hread hr⟩
      split
      · exact Nat.zero_le 1
      · exact Nat.le_refl 1

end Command

/-- A run on arguments that are understood is that of the command. -/
theorem run_of_parse {args : List String} {c : Command} (h : Command.parse args = .ok c)
    (env : Surroundings) (stdout : Sink) : run args env stdout = c.outcome env stdout := by
  rw [run, h]

/-- A run on a source that cannot be read prints nothing but the failure. -/
theorem run_of_read_error {args : List String} {c : Command} {path : String}
    (hparse : Command.parse args = .ok c) (hc : c.path? = some path) {env : Surroundings}
    {f : Failure} (hread : env.read path = .error f) (stdout : Sink) :
    run args env stdout = .failed f .empty :=
  (run_of_parse hparse env stdout).trans (Command.outcome_of_read_error hc hread stdout)

end CssTokens
