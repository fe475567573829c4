import CssTokens.Proofs.Command.Delivery
import CssTokens.Proofs.Input

/-!
# The Exit Status

What the exit status says about a run, and when it can be relied on.

The usage text knows three statuses: all went well, a check found something,
and there was an error in the usage, the input or the output. A run keeps to
this if it ends with one of the three, is not given up, and ends with the last
one whenever something was to be printed and could not be. What was to be
printed is what the run prints where everything is taken.

While everything that is printed is taken, every run keeps to it. On a sink that
takes nothing, whatever error it refuses with, so do the runs of a listing or a
check, which answer for their lines, but no others: a run that has only a fixed
text to print is given up, with a status that the usage text does not know.

## Main definitions

* `PrintRefused`: Something was to be printed and could not be.
* `KeepsToUsage`: The statuses of the usage text.
* `Outcome.IsGivenUp`: What is left of a run that is given up.
* `NamesSource`: The commands that have a source.

## Theorems

* `Command.parse_of_namesSource`, `Command.parse_of_not_namesSource`: What the
  arguments ask for.
* `run_of_namesSource`: The runs with a source.
* `keepsToUsage_of_namesSource`, `keepsToUsage_print_of_room`: Runs that keep to
  the usage text.
* `isGivenUp_print_of_room_zero`: Runs that are given up.
* `keepsToUsage_iff`: The runs that keep to the usage text.
-/

namespace CssTokens

/-- Something was to be printed and could not be: the sink refuses what is printed
    where everything is taken. -/
def PrintRefused (args : List String) (env : Surroundings) (stdout : Sink) : Prop :=
  ∃ output refusal, (run args env .unbounded).stdout = output.toUTF8 ∧
    stdout.write output = .error refusal

/-- A run ends with a status of the usage text, and with that of an error when
    it could not print what it had to say. -/
structure KeepsToUsage (args : List String) (env : Surroundings) (stdout : Sink) : Prop where
  status : (run args env stdout).status ∈ [0, 1, 2]
  ended : (run args env stdout).abort = none
  refused : PrintRefused args env stdout → (run args env stdout).status = 2

/-- A run was given up because of a line of a fixed text that was refused with an
    error. -/
structure Outcome.IsGivenUp (o : Outcome) (e : SystemError) : Prop where
  status : o.status = 101
  abort : ∃ calls, o.abort = some (.unprinted e calls)
  /-- The reason has a line of its own, however the program was launched. -/
  told : ∀ launch, ∃ front back, o.stderrOf launch =
    front ++ "\n" ++ ("failed printing to stdout: " ++ e.text) ++ "\n" ++ back

/-- The arguments are those of a command with a source. -/
def NamesSource (args : List String) : Prop :=
  args.head? = some "lex" ∨ args.head? = some "check"

instance (args : List String) : Decidable (NamesSource args) := inferInstanceAs (Decidable (_ ∨ _))

namespace Command

/-- The arguments of a listing are malformed or name a source. -/
theorem parseList_cases (skipTrivia : Bool) (path : Option String) (args : List String) :
    (∃ f, parseList skipTrivia path args = .error f) ∨
      ∃ c p, parseList skipTrivia path args = .ok c ∧ c.path? = some p := by
  -- An argument is an option, a mistake or the path, which is then given.
  induction args generalizing skipTrivia path with
  | nil =>
      cases path with
      | none => exact .inl ⟨_, rfl⟩
      | some p => exact .inr ⟨_, p, rfl, rfl⟩
  | cons arg args ih =>
      rw [parseList.eq_def]
      dsimp only
      split
      · exact ih true path
      · split
        · exact .inl ⟨_, rfl⟩
        · cases path with
          | none => exact ih skipTrivia (some arg)
          | some p => exact .inl ⟨_, rfl⟩

theorem parse_of_namesSource {args : List String} (h : NamesSource args) :
    (∃ f, parse args = .error f) ∨ ∃ c p, parse args = .ok c ∧ c.path? = some p := by
  -- No argument at all is no command with a source.
  rcases args with _ | ⟨name, args⟩
  · rcases h with h | h <;> injection h
  · rcases h with h | h
    all_goals
      rw [List.head?_cons, Option.some.injEq] at h
      subst h
    · exact parseList_cases false none args
    · show (∃ f, parseCheck args = .error f) ∨ ∃ c p, parseCheck args = .ok c ∧ c.path? = some p
      unfold parseCheck
      split
      · exact .inr ⟨_, _, rfl, rfl⟩
      · exact .inl ⟨_, rfl⟩

/-- All other arguments ask for a fixed text, which is not empty. -/
theorem parse_of_not_namesSource {args : List String} (h : ¬ NamesSource args) :
    ∃ t, parse args = .ok (.print t) ∧ t.status ≤ 2 ∧ String.join t.lines ≠ "" := by
  -- The calls are not printed, so that they do not matter to whether a text is empty.
  have husage (calls : List Call) :
      String.join ((FixedText.usagePrints calls).map Print.line) ≠ "" := by
    have hlines : (FixedText.usagePrints calls).map Print.line = usageLines := rfl
    rw [hlines]
    decide
  unfold parse
  split
  · exact ⟨_, rfl, Nat.zero_le 2, husage _⟩
  · exact absurd (.inl rfl) h
  · exact absurd (.inr rfl) h
  · split
    · exact ⟨_, rfl, Nat.zero_le 2, husage _⟩
    · split
      · exact ⟨_, rfl, Nat.zero_le 2, by decide⟩
      · exact ⟨_, rfl, Nat.le_refl 2, husage _⟩

end Command

section

variable {args : List String} {env : Surroundings}

/-- A run with a source fails before it prints, or answers for its lines. -/
theorem run_of_namesSource
    (hfiles : ∀ path bytes, env.files.read path = .ok bytes → bytes.size < maxPosition)
    (hstdin : ∀ bytes, env.stdin = .ok bytes → bytes.size < maxPosition)
    (h : NamesSource args) :
    (∃ f, ∀ stdout, run args env stdout = .failed f .empty) ∨
      ∃ lines status, status ≤ 1 ∧
        ∀ stdout, run args env stdout = .ofWritten status (stdout.writeAll lines) := by
  rcases Command.parse_of_namesSource h with ⟨f, hparse⟩ | ⟨c, path, hparse, hpath⟩
  · refine .inl ⟨f, fun stdout => ?_⟩
    rw [run, hparse]
  · rcases hread : env.read path with f | text
    · exact .inl ⟨f, run_of_read_error hparse hpath hread⟩
    · -- Whatever is read is as long as its bytes, which are few enough.
      have hsize : text.utf8ByteSize < maxPosition := by
        rcases Surroundings.holds_of_read hread with ⟨_, hbytes⟩ | ⟨_, hbytes⟩
        · exact hstdin _ hbytes
        · exact hfiles path _ hbytes
      rcases Command.exists_lines hpath hread hsize with ⟨lines, status, hstatus, hlines⟩
      refine .inr ⟨lines, status, hstatus, fun stdout => ?_⟩
      rw [run_of_parse hparse, hlines]

theorem mem_of_le_two {n : Nat} (h : n ≤ 2) : n ∈ [0, 1, 2] := by
  simp only [List.mem_cons, List.not_mem_nil, or_false]
  omega

/-- A sink without a bound refuses nothing. -/
theorem not_printRefused_of_room {stdout : Sink} (hout : stdout.room = none) :
    ¬ PrintRefused args env stdout := by
  rintro ⟨output, refusal, _, hrefused⟩
  rw [Sink.write_of_room hout] at hrefused
  injection hrefused

/-- A sink has something to refuse only if there is something to be printed. -/
theorem stdout_ne_of_printRefused {stdout : Sink} (h : PrintRefused args env stdout) :
    (run args env .unbounded).stdout ≠ "".toUTF8 := by
  rcases h with ⟨output, refusal, houtput, hrefused⟩
  intro hempty
  rw [houtput, String.toUTF8_eq_toByteArray, String.toUTF8_eq_toByteArray,
    String.toByteArray_inj] at hempty
  rw [hempty, Sink.write_empty] at hrefused
  injection hrefused

/-- A run that fails before it prints keeps to the usage text. -/
theorem keepsToUsage_of_failed {stdout : Sink} {f : Failure} {written : ByteArray}
    (h : run args env stdout = .failed f written) : KeepsToUsage args env stdout := by
  have hstatus : (run args env stdout).status = 2 := by
    rw [h]
    rfl
  exact ⟨hstatus ▸ mem_of_le_two (Nat.le_refl 2), by rw [h]; rfl, fun _ => hstatus⟩

/-- A run with a source keeps to the usage text on either kind of sink. -/
theorem keepsToUsage_of_namesSource
    (hfiles : ∀ path bytes, env.files.read path = .ok bytes → bytes.size < maxPosition)
    (hstdin : ∀ bytes, env.stdin = .ok bytes → bytes.size < maxPosition)
    (h : NamesSource args) {stdout : Sink} (hout : stdout.room = none ∨ stdout.room = some 0) :
    KeepsToUsage args env stdout := by
  -- The lines are the same on all sinks, so what is refused on one is what is printed
  -- on another.
  rcases run_of_namesSource hfiles hstdin h with ⟨f, hf⟩ | ⟨lines, status, hstatus, hlines⟩
  · exact keepsToUsage_of_failed (hf stdout)
  · have hall := hlines .unbounded
    have hrun := hlines stdout
    rw [Outcome.ofWritten_unbounded] at hall
    rcases hout with hout | hout
    · rw [Outcome.ofWritten_of_room status lines hout] at hrun
      refine ⟨?_, by rw [hrun], fun hrefused => absurd hrefused (not_printRefused_of_room hout)⟩
      rw [hrun]
      exact mem_of_le_two (Nat.le_succ_of_le hstatus)
    · rw [Outcome.ofWritten_of_room_zero status lines hout] at hrun
      by_cases hempty : String.join lines = ""
      · -- There is nothing to be refused.
        rw [if_pos hempty] at hrun
        refine ⟨?_, by rw [hrun], fun hrefused => ?_⟩
        · rw [hrun]
          exact mem_of_le_two (Nat.le_succ_of_le hstatus)
        · refine absurd ?_ (stdout_ne_of_printRefused hrefused)
          rw [hall, hempty]
      · rw [if_neg hempty] at hrun
        exact keepsToUsage_of_failed hrun

/-- Where everything is taken, a fixed text ends with a status of its own. -/
theorem keepsToUsage_print_of_room {t : FixedText} (hparse : Command.parse args = .ok (.print t))
    (hstatus : t.status ≤ 2) {stdout : Sink} (hout : stdout.room = none) :
    KeepsToUsage args env stdout := by
  have hrun : run args env stdout =
      ⟨t.status, stdout.written ++ (String.join t.lines).toUTF8, t.notice, none⟩ := by
    rw [run_of_parse hparse, Command.outcome, Sink.printAll_of_ok (Sink.writeAll_of_room hout _)]
    rfl
  refine ⟨?_, by rw [hrun], fun hrefused => absurd hrefused (not_printRefused_of_room hout)⟩
  rw [hrun]
  exact mem_of_le_two hstatus

/-- A run with a fixed text is given up where nothing is taken. -/
theorem isGivenUp_print_of_room_zero {t : FixedText}
    (hparse : Command.parse args = .ok (.print t)) (hlines : String.join t.lines ≠ "")
    {stdout : Sink} (hout : stdout.room = some 0) :
    (run args env stdout).IsGivenUp stdout.refusal := by
  have hrefused : stdout.writeAll (t.prints.map Print.line) =
      .error ⟨stdout.written, stdout.refusal⟩ := by
    rw [Sink.writeAll_of_room_zero hout, ← FixedText.lines, if_neg hlines]
  rcases Sink.printAll_of_error hrefused with ⟨front, p, back, next, _, _, _, hprint⟩
  have hrun : run args env stdout =
      .givenUp (.unprinted stdout.refusal p.calls) stdout.written t.notice := by
    rw [run_of_parse hparse, Command.outcome, hprint]
    rfl
  rw [hrun]
  refine ⟨rfl, ⟨_, rfl⟩, fun launch => ?_⟩
  -- The notice comes first, and then the report.
  rcases launch.exists_report_eq (.unprinted stdout.refusal p.calls) with
    ⟨before, behind, hreport⟩
  refine ⟨t.notice ++ before, behind, ?_⟩
  show t.notice ++ launch.report _ = _
  rw [hreport, ← String.append_assoc, ← String.append_assoc, ← String.append_assoc,
    ← String.append_assoc]
  rfl

/-- A run keeps to the usage text if all that it prints is taken or its command
    has a source. Every other run is given up, with a status of its own. -/
theorem keepsToUsage_iff
    (hfiles : ∀ path bytes, env.files.read path = .ok bytes → bytes.size < maxPosition)
    (hstdin : ∀ bytes, env.stdin = .ok bytes → bytes.size < maxPosition) {stdout : Sink}
    (hout : stdout.room = none ∨ stdout.room = some 0) :
    (KeepsToUsage args env stdout ↔ stdout.room = none ∨ NamesSource args) ∧
      (¬ KeepsToUsage args env stdout → (run args env stdout).IsGivenUp stdout.refusal) := by
  by_cases hsource : NamesSource args
  · have hkeeps := keepsToUsage_of_namesSource hfiles hstdin hsource hout
    exact ⟨iff_of_true hkeeps (.inr hsource), fun hnot => absurd hkeeps hnot⟩
  · -- A fixed text is taken as a whole or refused.
    rcases Command.parse_of_not_namesSource hsource with ⟨t, hparse, hstatus, hlines⟩
    rcases hout with hout | hout
    · have hkeeps : KeepsToUsage args env stdout :=
        keepsToUsage_print_of_room hparse hstatus hout
      exact ⟨iff_of_true hkeeps (.inl hout), fun hnot => absurd hkeeps hnot⟩
    · have hgiven : (run args env stdout).IsGivenUp stdout.refusal :=
        isGivenUp_print_of_room_zero hparse hlines hout
      refine ⟨iff_of_false (fun hkeeps => ?_) ?_, fun _ => hgiven⟩
      · exact absurd (hgiven.status ▸ hkeeps.status) (by decide)
      · rintro (hnone | h)
        · rw [hnone] at hout
          injection hout
        · exact hsource h

end

/-- A directory of one file with a soft failure in it. -/
def oneFileDirectory : Directory := Directory.ofList [("a.css", .file "!".toUTF8)]

/-- The files of this directory, and nothing on the standard input. -/
def oneFile : Surroundings := ⟨oneFileDirectory, .empty⟩

/-- The report on this file cannot be printed on a full device. -/
theorem keepsToUsage_iff_report :
    (∀ path bytes, oneFile.files.read path = .ok bytes → bytes.size < maxPosition) ∧
      (∀ bytes, oneFile.stdin = .ok bytes → bytes.size < maxPosition) ∧
      NamesSource ["check", "a.css"] ∧ KeepsToUsage ["check", "a.css"] oneFile .fullDevice := by
  -- The one file is a byte long, and the standard input is empty.
  have hfiles : ∀ path bytes, oneFile.files.read path = .ok bytes → bytes.size < maxPosition := by
    intro path bytes hread
    have hread : oneFileDirectory.read path = .ok bytes := hread
    rcases Directory.mem_of_read hread with ⟨p, hp⟩
    have hentries : oneFileDirectory = [(⟨.working 0, ["a.css"]⟩, .file "!".toUTF8)] := by rfl
    rw [hentries, List.mem_singleton, Prod.mk.injEq, Entry.file.injEq] at hp
    rw [hp.2]
    decide
  have hstdin : ∀ bytes, oneFile.stdin = .ok bytes → bytes.size < maxPosition := by
    intro bytes hbytes
    injection hbytes with hbytes
    rw [← hbytes]
    decide
  have hsource : NamesSource ["check", "a.css"] := .inr rfl
  have hkeeps : KeepsToUsage ["check", "a.css"] oneFile .fullDevice :=
    (keepsToUsage_iff hfiles hstdin (.inr rfl)).1.mpr (.inr hsource)
  exact ⟨hfiles, hstdin, hsource, hkeeps⟩

/-- The usage text itself is refused by a full device, at its first line, and the
    run does not end with a status that it knows. -/
theorem not_keepsToUsage_help :
    PrintRefused ["help"] .bare .fullDevice ∧
      (run ["help"] .bare .fullDevice).status = 101 ∧
      (run ["help"] .bare .fullDevice).abort = some (.unprinted Sink.noSpace
        [⟨"csslex::print_usage", .program, "main.rs", 93, 5⟩,
          ⟨"csslex::run", .program, "main.rs", 76, 13⟩,
          ⟨"csslex::main", .program, "main.rs", 19, 11⟩]) ∧
      ¬ KeepsToUsage ["help"] .bare .fullDevice := by
  have hparse : Command.parse ["help"] = .ok (.print .help) := rfl
  have hstatus : (run ["help"] .bare .fullDevice).status = 101 := rfl
  -- What a full device refuses is the text that is printed where everything is taken.
  refine ⟨⟨String.join usageLines, ⟨.empty, Sink.noSpace⟩, ?_, ?_⟩, hstatus, rfl, fun hkeeps => ?_⟩
  · rw [run_of_parse hparse, Command.outcome, Sink.printAll_of_ok (Sink.writeAll_of_room rfl _)]
    exact ByteArray.empty_append
  · rw [← Sink.writeAll_eq_write, Sink.writeAll_fullDevice]
    exact if_neg (by decide)
  · exact absurd (hstatus ▸ hkeeps.status) (by decide)

end CssTokens
