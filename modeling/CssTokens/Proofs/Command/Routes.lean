import CssTokens.Proofs.Command.Arguments
import CssTokens.Proofs.Input
import CssTokens.Proofs.Listing.ReadBack
import CssTokens.Proofs.Report.Lines

/-!
# Two Routes to the Source

The bytes of a source come from a file or from the standard input.

Whichever way they come, all of them are taken. A listing succeeds on
well-formed bytes and on no others, and the texts in it, put together, have
just these bytes. What a run leaves behind depends on the bytes alone and not
on the way they came, but for the path, which is printed where a message names
the source. This is said by one form for all paths, with gaps that the path
fills.

## Main definitions

* `Piece`, `Form`: What a run leaves behind, with gaps for the path.
* `Follows`: A text that has such gaps.
* `Invocation`: A command with a source, as it is written around the path.
* `Outcome.Lists`: What becomes of a listing of bytes.

## Theorems

* `Report.follows_lines`: A report has gaps for the path.
* `Outcome.exists_form`: So has what becomes of lines.
* `run_lists`: A listing of bytes.
* `Invocation.exists_form`: All routes to the same bytes.
* `run_byteExact`: Both together.
-/

namespace CssTokens

/-- A piece of what is printed: some text, or the path, whatever it is. -/
inductive Piece where
  | text (s : String)
  | path

/-- A piece with the path put in. -/
def Piece.fill (path : String) : Piece → String
  | .text s => s
  | .path => path

/-- Pieces one behind the other, with the path put in. -/
def fill (path : String) (ps : List Piece) : String := String.join (ps.map (Piece.fill path))

/-- What a run that is not given up leaves behind, with gaps for the path. -/
structure Form where
  status : Nat
  stdout : List Piece
  stderr : List Piece

/-- What a run leaves behind. -/
def Form.fill (form : Form) (path : String) : Outcome :=
  ⟨form.status, (CssTokens.fill path form.stdout).toUTF8, CssTokens.fill path form.stderr, none⟩

/-- A text that is the same for all paths, but for the gaps that they fill. -/
def Follows (f : String → String) : Prop := ∃ ps, ∀ path, f path = fill path ps

namespace Follows

theorem const (s : String) : Follows fun _ => s :=
  ⟨[.text s], fun _ => (String.empty_append).symm⟩

theorem append {f g : String → String} (hf : Follows f) (hg : Follows g) :
    Follows fun p => f p ++ g p := by
  rcases hf with ⟨ps, hps⟩
  rcases hg with ⟨qs, hqs⟩
  refine ⟨ps ++ qs, fun p => ?_⟩
  dsimp only
  rw [hps, hqs, fill, fill, fill, List.map_append, String.join_append]

/-- The path in front of a text. -/
theorem front (s : String) : Follows fun p => p ++ s :=
  ⟨[.path, .text s], fun p => by rw [fill]; exact (congrArg (· ++ s) String.empty_append).symm⟩

theorem join_map {α : Type} {f : String → α → String} (h : ∀ a, Follows fun p => f p a)
    (as : List α) : Follows fun p => String.join (as.map (f p)) := by
  induction as with
  | nil => exact const ""
  | cons a as ih =>
      simp only [List.map_cons, String.join_cons]
      exact (h a).append ih

end Follows

namespace Report

/-- A report has gaps for the path. -/
theorem follows_lines (r : Report) : Follows fun p => String.join (r.lines p) := by
  -- Every line begins with the path, and goes on as if there were none.
  have hlines : (fun p => String.join (r.lines p)) =
      fun p => String.join (r.entries.map fun l => p ++ l.body) :=
    funext fun p => congrArg String.join (lines_eq_map p r)
  rw [hlines]
  exact Follows.join_map (fun l : ReportLine => Follows.front l.body) _

/-- A report has something to say of every source. -/
theorem join_lines_ne (r : Report) (path : String) : String.join (r.lines path) ≠ "" := by
  intro h
  rw [lines, String.join_append, String.append_eq_empty_iff] at h
  rw [String.join_cons, String.join_nil, totalsLine, String.append_empty] at h
  exact absurd (String.append_eq_empty_iff.mp h.2).2 (by decide)

end Report

/-- What becomes of lines that are answered for has gaps for the path if the lines
    do. Whether there is anything to be printed must not hang on the path. -/
theorem Outcome.exists_form {lines : String → List String} (status : Nat)
    (hlines : Follows fun p => String.join (lines p))
    (hempty : (∀ p, String.join (lines p) = "") ∨ ∀ p, String.join (lines p) ≠ "")
    {stdout : Sink} (hout : stdout = .unbounded ∨ stdout = .fullDevice) :
    ∃ form : Form, ∀ p, ofWritten status (stdout.writeAll (lines p)) = form.fill p := by
  rcases hout with rfl | rfl
  · -- Everything is taken, so the gaps of the outcome are those of the lines.
    rcases hlines with ⟨ps, hps⟩
    refine ⟨⟨status, ps, []⟩, fun p => ?_⟩
    rw [ofWritten_unbounded, Form.fill, ← hps]
    rfl
  · -- A full device takes the lines for every path, or refuses them for every path.
    rcases hempty with hempty | hempty
    · refine ⟨⟨status, [], []⟩, fun p => ?_⟩
      rw [ofWritten_fullDevice, if_pos (hempty p)]
      rfl
    · refine ⟨⟨2, [], [.text (failed (.write Sink.noSpace) .empty).notice]⟩, fun p => ?_⟩
      rw [ofWritten_fullDevice, if_neg (hempty p)]
      rfl

/-- A command with a source, as it is written around the path. -/
inductive Invocation where
  /-- A listing, with so many options before the path and behind it. -/
  | list (before after : Nat)
  | check

namespace Invocation

/-- The arguments. -/
def args (path : String) : Invocation → List String
  | .list before after =>
      "lex" :: (List.replicate before "--no-trivia" ++
        path :: List.replicate after "--no-trivia")
  | .check => ["check", path]

/-- What they ask for. -/
def command (path : String) : Invocation → Command
  | .list before after => .list path (decide (0 < before + after))
  | .check => .check path

theorem path?_command (i : Invocation) (path : String) : (i.command path).path? = some path := by
  cases i <;> rfl

end Invocation

/-- The arguments are understood. -/
theorem Invocation.parse_args {path : String} (h : Command.isOption path = false)
    (i : Invocation) : Command.parse (i.args path) = .ok (i.command path) := by
  cases i with
  | list before after =>
      have hpath := Command.isOption_eq_false_iff.mp h
      have hmem : path ∈ List.replicate before "--no-trivia" ++
          path :: List.replicate after "--no-trivia" := by simp
      -- Every argument around the path is the option.
      have hnone (n : Nat) :
          (List.replicate n "--no-trivia").filter (Command.IsPath ·) = [] := by
        simp [Command.not_isPath_option]
      have hfaultless : Command.Faultless (List.replicate before "--no-trivia" ++
          path :: List.replicate after "--no-trivia") := by
        refine Command.faultless_iff.mpr ⟨?_, ?_⟩
        · simp only [List.mem_append, List.mem_cons, List.mem_replicate]
          rintro arg (⟨_, rfl⟩ | rfl | ⟨_, rfl⟩)
          · exact .inl rfl
          · exact .inr hpath
          · exact .inl rfl
        · simp [List.filter_append, hnone, hpath]
      rw [args, Command.parse_of_path hfaultless hmem hpath, command, Except.ok.injEq,
        Command.list.injEq, decide_eq_decide]
      refine ⟨rfl, ?_⟩
      simp only [List.mem_append, List.mem_cons, List.mem_replicate, hpath.ne_option.symm, and_true,
        false_or]
      omega
  | check => rfl

/-- The lines of a command on a text have gaps for the path. -/
theorem Invocation.exists_lines {text : String} (h : text.utf8ByteSize < maxPosition)
    (i : Invocation) :
    ∃ (lines : String → List String) (status : Nat), (Follows fun p => String.join (lines p)) ∧
      ((∀ p, String.join (lines p) = "") ∨ ∀ p, String.join (lines p) ≠ "") ∧
      ∀ (env : Surroundings) path, env.read path = .ok text → ∀ stdout,
        (i.command path).outcome env stdout = .ofWritten status (stdout.writeAll (lines path)) := by
  -- The lines of a listing do not name the path, those of a report do.
  cases i with
  | list before after =>
      rcases Listing.ofString_eq_ok h (decide (0 < before + after)) with ⟨l, hl, _⟩
      refine ⟨fun _ => l.lines, 0, .const _, ?_, fun env path hread =>
        Command.outcome_list hread hl⟩
      exact (Classical.em (String.join l.lines = "")).imp (fun h _ => h) fun h _ => h
  | check =>
      rcases Report.ofString_eq_ok h with ⟨r, events, hr, _⟩
      exact ⟨r.lines, _, r.follows_lines, .inr r.join_lines_ne, fun env path hread =>
        Command.outcome_check hread hr⟩

/-- What is left of a run on bytes that are no text. -/
theorem failed_notText (path : String) :
    Outcome.failed (.read path notText) .empty =
      ⟨2, .empty, "error: '" ++ path ++ "' contains invalid UTF-8 data\n", none⟩ := by
  have hfront : "error: '" = "error: " ++ "'" := by decide
  have hback : "' contains invalid UTF-8 data\n" = "' contains invalid UTF-8 data" ++ "\n" := by
    decide
  have hmessage : (Failure.read path notText).message =
      "'" ++ path ++ "' contains invalid UTF-8 data" := rfl
  rw [hfront, hback, Outcome.failed, hmessage]
  simp only [String.append_assoc]
  rfl

/-- A run on bytes that are no text. -/
theorem Invocation.run_of_not_wellFormed {env : Surroundings} {path : String}
    {bytes : ByteArray} (hpath : Command.isOption path = false) (henv : env.Holds path bytes)
    (hbytes : ¬ WellFormed bytes.data.toList) (i : Invocation) (stdout : Sink) :
    run (i.args path) env stdout =
      ⟨2, .empty, "error: '" ++ path ++ "' contains invalid UTF-8 data\n", none⟩ := by
  have hread := Surroundings.read_of_not_wellFormed henv hbytes
  rw [run_of_read_error (i.parse_args hpath) (i.path?_command path) hread, failed_notText]

/-- All routes to the same bytes lead to the same outcome, but for the path in
    it. -/
theorem Invocation.exists_form {bytes : ByteArray} (h : bytes.size < maxPosition)
    (i : Invocation) {stdout : Sink} (hout : stdout = .unbounded ∨ stdout = .fullDevice) :
    ∃ form : Form, ∀ env path, Command.isOption path = false →
      Surroundings.Holds env path bytes → run (i.args path) env stdout = form.fill path := by
  -- The form is chosen by the bytes, before a path is known.
  by_cases hbytes : WellFormed bytes.data.toList
  · rcases decode_of_wellFormed hbytes with ⟨text, rfl, hdecode⟩
    rcases i.exists_lines h with ⟨lines, status, hlines, hempty, hrun⟩
    rcases Outcome.exists_form status hlines hempty hout with ⟨form, hform⟩
    refine ⟨form, fun env path hpath henv => ?_⟩
    rw [run_of_parse (i.parse_args hpath),
      hrun env path (Surroundings.read_of_decode_eq_ok henv hdecode), hform]
  · refine ⟨⟨2, [], [.text "error: '", .path, .text "' contains invalid UTF-8 data\n"]⟩,
      fun env path hpath henv => ?_⟩
    rw [i.run_of_not_wellFormed hpath henv hbytes]
    rfl

/-- What becomes of a listing of bytes. -/
structure Outcome.Lists (o : Outcome) (path : String) (bytes : ByteArray) : Prop where
  status : o.status = 0 ↔ WellFormed bytes.data.toList
  /-- The texts of the listing have just these bytes. -/
  texts : WellFormed bytes.data.toList →
    ∃ output texts, o.stdout = output.toUTF8 ∧ (∀ launch, o.stderrOf launch = "") ∧
      readTexts? output = some texts ∧ (String.join texts).toUTF8 = bytes
  /-- Other bytes are refused as a whole. -/
  refused : ¬ WellFormed bytes.data.toList →
    o = ⟨2, .empty, "error: '" ++ path ++ "' contains invalid UTF-8 data\n", none⟩

/-- A listing of bytes. -/
theorem run_lists {env : Surroundings} {path : String} {bytes : ByteArray}
    (h : bytes.size < maxPosition) (hpath : Command.isOption path = false)
    (henv : env.Holds path bytes) : (run ["lex", path] env .unbounded).Lists path bytes := by
  have hparse : Command.parse ["lex", path] = .ok (.list path false) :=
    (Invocation.list 0 0).parse_args hpath
  by_cases hbytes : WellFormed bytes.data.toList
  · rcases decode_of_wellFormed hbytes with ⟨text, rfl, hdecode⟩
    rcases Listing.ofString_eq_ok h false with ⟨l, hl, _⟩
    -- The rows are read back from the output alone.
    rcases Listing.readTexts?_of_ofString h hl with ⟨texts, htexts, hjoin⟩
    have hrun : run ["lex", path] env .unbounded = ⟨0, l.output.toUTF8, "", none⟩ := by
      rw [run_of_parse hparse,
        Command.outcome_list (Surroundings.read_of_decode_eq_ok henv hdecode) hl,
        Outcome.ofWritten_unbounded]
      rfl
    rw [hrun]
    exact ⟨iff_of_true rfl hbytes, fun _ => ⟨_, texts, rfl, fun _ => rfl, htexts, by rw [hjoin]⟩,
      fun hnot => absurd hbytes hnot⟩
  · have hrun : run ["lex", path] env .unbounded =
        ⟨2, .empty, "error: '" ++ path ++ "' contains invalid UTF-8 data\n", none⟩ :=
      (Invocation.list 0 0).run_of_not_wellFormed hpath henv hbytes .unbounded
    rw [hrun]
    refine ⟨iff_of_false ?_ hbytes, fun hwf => absurd hwf hbytes, fun _ => rfl⟩
    exact Nat.succ_ne_zero 1

/-- Bytes are taken as they are, by a listing of them from anywhere, and the
    outcome of every command with a source is the same wherever the bytes come
    from, but for the path. -/
theorem run_byteExact {bytes : ByteArray} (h : bytes.size < maxPosition) :
    (∀ env path, Command.isOption path = false → Surroundings.Holds env path bytes →
      (run ["lex", path] env .unbounded).Lists path bytes) ∧
    ∀ (i : Invocation) (stdout : Sink), stdout = .unbounded ∨ stdout = .fullDevice →
      ∃ form : Form, ∀ env path, Command.isOption path = false →
        Surroundings.Holds env path bytes → run (i.args path) env stdout = form.fill path :=
  ⟨fun _ _ hpath henv => run_lists h hpath henv, fun i _ hout => i.exists_form h hout⟩

/-- A byte order mark in front and a carriage return before a line feed. -/
def marked : ByteArray := ⟨#[0xef, 0xbb, 0xbf, 0x61, 0x0d, 0x0a]⟩

/-- The same bytes in a file and on the standard input. -/
def markedTwice : Surroundings :=
  ⟨Directory.ofList [("a.css", .file marked)], (marked : StandardInput)⟩

theorem wellFormed_marked : WellFormed marked.data.toList :=
  wellFormed_iff.mpr ⟨['\ufeff', 'a', '\r', '\n'], by decide⟩

theorem holds_marked : markedTwice.Holds "a.css" marked ∧ markedTwice.Holds "-" marked :=
  ⟨.inr ⟨by decide, rfl⟩, .inl ⟨rfl, rfl⟩⟩

/-- Both routes to these bytes. -/
theorem run_byteExact_marked :
    marked.size < maxPosition ∧ WellFormed marked.data.toList ∧
      Command.isOption "a.css" = false ∧ Command.isOption "-" = false ∧
      markedTwice.Holds "a.css" marked ∧ markedTwice.Holds "-" marked ∧
      (run ["lex", "a.css"] markedTwice .unbounded).status = 0 ∧
      (∃ output texts, (run ["lex", "a.css"] markedTwice .unbounded).stdout = output.toUTF8 ∧
        readTexts? output = some texts ∧ (String.join texts).toUTF8 = marked) ∧
      ∃ form : Form, run ["check", "a.css"] markedTwice .unbounded = form.fill "a.css" ∧
        run ["check", "-"] markedTwice .unbounded = form.fill "-" := by
  have hsize : marked.size < maxPosition := by decide
  have hpath : Command.isOption "a.css" = false := by decide
  have hstdin : Command.isOption "-" = false := by decide
  rcases holds_marked with ⟨hfile, hinput⟩
  rcases run_byteExact hsize with ⟨hlists, hforms⟩
  -- The first half is applied to one of the routes, the second half to both.
  have hlist := hlists markedTwice "a.css" hpath hfile
  rcases hforms .check .unbounded (.inl rfl) with ⟨form, hform⟩
  rcases hlist.texts wellFormed_marked with ⟨output, texts, hout, _, hread, hjoin⟩
  exact ⟨hsize, wellFormed_marked, hpath, hstdin, hfile, hinput,
    hlist.status.mpr wellFormed_marked, ⟨output, texts, hout, hread, hjoin⟩, form,
    hform markedTwice "a.css" hpath hfile, hform markedTwice "-" hstdin hinput⟩

end CssTokens
