import CssTokens.Proofs.Command.ExitStatus
import CssTokens.Proofs.Command.Routes
import CssTokens.Proofs.Report.Findings

/-!
# What Decides the Exit Status

The exit status of a listing or a check, from the arguments to the output.

Three things can end such a run, and the first of them that does decides the
status. If there is no text at the path, the status is 2 and nothing is printed
but the failure to read it, whatever the sink. If there is a text but the sink
refuses what is to be printed, the status is 2 again, also when a check has found
something. Only then does it matter what is printed: a check ends with 1 if there
is a soft failure among the tokens and with 0 if there is none, and its warnings
do not matter; a listing ends with 0.

A sink without room refuses every report, because a report ends with a line of
totals. It takes a listing without a line, though, and then never learns of the
run. This is the listing of no text at all and, if trivia is left out, of a text
that is blank from one end to the other (`Plain.forall_isTrivia_tokens_iff`).

## Main definitions

* `Command.Invokes`: The arguments of a listing or a check of a path.
* `Token.IsListed`: The tokens that a listing has a line for.
* `EndsCheck`, `EndsList`, `Command.EndsOn`: The exit status for every sink.

## Theorems

* `Command.invokes_iff`: These arguments are all that are understood like this.
* `Listing.join_lines_eq_empty_iff`, `exists_isListed_iff`: The listings that are
  empty.
* `endsCheck_of_isClean_iff`, `endsList_of_lists`: The exit status, by the tokens.
* `run_status`: What decides the exit status.
-/

namespace CssTokens

/-- The arguments ask for a listing or a check of a path. -/
inductive Command.Invokes (path : String) : List String → Command → Prop where
  /-- A check has one argument, however it is written. -/
  | check : Invokes path ["check", path] (.check path)
  /-- A listing has one path, and the option any number of times. -/
  | list {args : List String} : Faultless args → path ∈ args → IsPath path →
      Invokes path ("lex" :: args) (.list path (decide ("--no-trivia" ∈ args)))

/-- A listing has a line for the token. -/
def Token.IsListed (skipTrivia : Bool) (t : Token) : Prop :=
  skipTrivia = true → t.kind.isTrivia = false

/-- How the checks of a text with these tokens end, by their sink. -/
structure EndsCheck (ts : List Token) (ends : Sink → Outcome) : Prop where
  found : ∀ s, s.room = none → ((ends s).status = 1 ↔ ∃ t ∈ ts, t.IsSoft)
  clean : ∀ s, s.room = none → ((ends s).status = 0 ↔ ∀ t ∈ ts, ¬ t.IsSoft)
  /-- Whatever is found, it cannot be told. -/
  refused : ∀ s, s.room = some 0 → (ends s).status = 2

/-- How the listings of a text with these tokens end, by their sink. -/
structure EndsList (skipTrivia : Bool) (text : String) (ts : List Token)
    (ends : Sink → Outcome) : Prop where
  taken : ∀ s, s.room = none → (ends s).status = 0
  refused : ∀ s, s.room = some 0 → ((ends s).status = 2 ↔ ∃ t ∈ ts, t.IsListed skipTrivia)
  /-- There is nothing to be refused. -/
  silent : ∀ s, s.room = some 0 → ((ends s).status = 0 ↔ ¬ ∃ t ∈ ts, t.IsListed skipTrivia)
  listed : (∃ t ∈ ts, t.IsListed skipTrivia) ↔
    text ≠ "" ∧ (skipTrivia = true → ∃ c ∈ text.toList, isBlank c = false)

/-- How the runs of a command end on a text with these tokens. -/
inductive Command.EndsOn (text : String) (ts : List Token) (ends : Sink → Outcome) :
    Command → Prop where
  | check {path : String} : EndsCheck ts ends → EndsOn text ts ends (.check path)
  | list {path : String} {skipTrivia : Bool} : EndsList skipTrivia text ts ends →
      EndsOn text ts ends (.list path skipTrivia)

namespace Command

variable {path : String} {args : List String} {c : Command}

theorem Invokes.parse_eq (h : Invokes path args c) : parse args = .ok c := by
  cases h with
  | check => rfl
  | list hargs hmem hpath => exact parse_of_path hargs hmem hpath

theorem Invokes.path?_eq (h : Invokes path args c) : c.path? = some path := by
  cases h <;> rfl

theorem invokes_of_parse_list (hparse : parse ("lex" :: args) = .ok c)
    (hc : c.path? = some path) : Invokes path ("lex" :: args) c := by
  rcases faultless_or_firstWrong args with hargs | ⟨text, hwrong⟩
  · -- Faultless arguments have a path if they are understood.
    by_cases hpath : ∃ p ∈ args, IsPath p
    · rcases hpath with ⟨p, hmem, hpath⟩
      rw [parse_of_path hargs hmem hpath, Except.ok.injEq] at hparse
      subst hparse
      injection hc with hc
      subst hc
      exact .list hargs hmem hpath
    · rw [parse_of_no_path hargs fun p hmem hp => hpath ⟨p, hmem, hp⟩] at hparse
      injection hparse
  · rw [parse_of_firstWrong hwrong] at hparse
    injection hparse

theorem invokes_of_parse_check (hparse : parse ("check" :: args) = .ok c)
    (hc : c.path? = some path) : Invokes path ("check" :: args) c := by
  have hcheck : parseCheck args = .ok c := hparse
  unfold parseCheck at hcheck
  split at hcheck
  · injection hcheck with hcheck
    subst hcheck
    injection hc with hc
    subst hc
    exact .check
  · injection hcheck

/-- No other arguments are understood as a listing or a check of the path. -/
theorem invokes_iff : Invokes path args c ↔ parse args = .ok c ∧ c.path? = some path := by
  -- The first argument decides; only `lex` and `check` have a path.
  refine ⟨fun h => ⟨h.parse_eq, h.path?_eq⟩, ?_⟩
  rintro ⟨hparse, hc⟩
  by_cases hsource : NamesSource args
  · rcases args with _ | ⟨name, args⟩
    · rcases hsource with h | h <;> injection h
    · rcases hsource with h | h
      all_goals
        rw [List.head?_cons, Option.some.injEq] at h
        subst h
      · exact invokes_of_parse_list hparse hc
      · exact invokes_of_parse_check hparse hc
  · -- Only a fixed text is printed, and it has no path.
    rcases parse_of_not_namesSource hsource with ⟨t, ht, _⟩
    rw [hparse, Except.ok.injEq] at ht
    rw [ht] at hc
    injection hc

end Command

theorem Kind.isTrivia_iff {k : Kind} : k.isTrivia = true ↔ k = .whitespace ∨ k = .comment := by
  cases k <;> simp [isTrivia]

/-- Every token is trivia exactly if every character is blank. -/
theorem Plain.forall_isTrivia_tokens_iff {cs : List Char} :
    (∀ x ∈ tokens cs, x.kind.isTrivia = true) ↔ ∀ c ∈ cs, isBlank c = true := by
  constructor
  · -- Trivia that comes out of a text is whitespace.
    have hblank : ∀ x ∈ tokens cs, x.kind.isTrivia = true → ∀ c ∈ x.chars, isBlank c = true := by
      refine forall_mem_tokens (fun cs k n h htrivia => ?_) cs
      have hcovers := covers_first h
      rcases Kind.isTrivia_iff.mp htrivia with rfl | rfl
      · exact hcovers.2.1
      · exact hcovers.elim
    intro h c hc
    rw [← flatten_tokens cs] at hc
    rcases List.mem_flatten.mp hc with ⟨chars, hchars, hmem⟩
    rcases List.mem_map.mp hchars with ⟨x, hx, rfl⟩
    exact hblank x hx (h x hx) c hmem
  · -- Blank characters make up one token, if there are any.
    intro h x hx
    by_cases hnil : cs = []
    · rw [hnil, tokens_nil] at hx
      exact absurd hx List.not_mem_nil
    · have hcovers : Covers .whitespace cs [] := ⟨hnil, h, rfl⟩
      rw [tokens_single hcovers, List.mem_singleton] at hx
      rw [hx]
      rfl

/-- The texts of which a token is listed. -/
theorem exists_isListed_iff {text : String} (skipTrivia : Bool) :
    (∃ t ∈ plainTokens text, t.IsListed skipTrivia) ↔
      text ≠ "" ∧ (skipTrivia = true → ∃ c ∈ text.toList, isBlank c = false) := by
  have htokens : (∃ t ∈ plainTokens text, t.IsListed skipTrivia) ↔
      ∃ x ∈ Plain.tokens text.toList, skipTrivia = true → x.kind.isTrivia = false := by
    simp only [plainTokens, List.mem_map, exists_exists_and_eq_and]
    rfl
  rw [htokens]
  cases skipTrivia with
  | false =>
      -- Every token is listed, and only the empty text has none.
      have hempty : Plain.tokens text.toList = [] ↔ text = "" := by
        constructor
        · intro h
          have hflatten := Plain.flatten_tokens text.toList
          rw [h] at hflatten
          exact String.toList_eq_nil_iff.mp hflatten.symm
        · rintro rfl
          exact Plain.tokens_nil
      simp [← hempty, List.eq_nil_iff_forall_not_mem]
  | true =>
      have hany : (∃ x ∈ Plain.tokens text.toList, x.kind.isTrivia = false) ↔
          ∃ c ∈ text.toList, isBlank c = false := by
        have hall : (∀ x ∈ Plain.tokens text.toList, x.kind.isTrivia = true) ↔
            ∀ c ∈ text.toList, isBlank c = true := Plain.forall_isTrivia_tokens_iff
        rw [← not_iff_not]
        simpa using hall
      simp only [forall_const, hany]
      refine ⟨fun hchar => ⟨?_, hchar⟩, And.right⟩
      -- The empty text has no character at all.
      rintro rfl
      rcases hchar with ⟨c, hc, _⟩
      exact List.not_mem_nil hc

/-- A listing is empty if it has no line. -/
theorem Listing.join_lines_eq_empty_iff (l : Listing) :
    String.join l.lines = "" ↔ l.entries = [] := by
  constructor
  · intro h
    have hcount := l.count_newline_output
    rw [output, h] at hcount
    exact List.eq_nil_of_length_eq_zero hcount.symm
  · intro h
    rw [lines, h]
    rfl

namespace Outcome

theorem status_ofWritten_of_room (status : Nat) (lines : List String) {s : Sink}
    (hs : s.room = none) : (ofWritten status (s.writeAll lines)).status = status := by
  rw [ofWritten_of_room status lines hs]

/-- A line that has to be written and cannot is a failure. -/
theorem status_ofWritten_of_room_zero (status : Nat) (lines : List String) {s : Sink}
    (hs : s.room = some 0) :
    (ofWritten status (s.writeAll lines)).status =
      if String.join lines = "" then status else 2 := by
  rw [ofWritten_of_room_zero status lines hs]
  by_cases hempty : String.join lines = ""
  · rw [if_pos hempty, if_pos hempty]
  · rw [if_neg hempty, if_neg hempty]
    rfl

end Outcome

/-- The exit status of a check, by the tokens. -/
theorem endsCheck_of_isClean_iff {path : String} {ts : List Token} {r : Report}
    (h : r.isClean = true ↔ ∀ t ∈ ts, ¬ t.IsSoft) :
    EndsCheck ts fun stdout =>
      .ofWritten (if r.isClean then 0 else 1) (stdout.writeAll (r.lines path)) := by
  -- Everything that is taken leaves the status to the report, and the totals are always
  -- refused.
  refine ⟨fun s hs => ?_, fun s hs => ?_, fun s hs => ?_⟩
  · have hsoft : (∃ t ∈ ts, t.IsSoft) ↔ ¬ r.isClean = true := by
      simp [h]
    rw [Outcome.status_ofWritten_of_room _ _ hs, hsoft]
    by_cases hclean : r.isClean = true <;> simp [hclean]
  · rw [Outcome.status_ofWritten_of_room _ _ hs, ← h]
    by_cases hclean : r.isClean = true <;> simp [hclean]
  · rw [Outcome.status_ofWritten_of_room_zero _ _ hs, if_neg (r.join_lines_ne path)]

/-- The exit status of a listing, by the tokens. -/
theorem endsList_of_lists {text : String} {skipTrivia : Bool} {l : Listing}
    (h : l.Lists skipTrivia (plainTokens text)) :
    EndsList skipTrivia text (plainTokens text) fun stdout =>
      .ofWritten 0 (stdout.writeAll l.lines) := by
  -- The sink has nothing to refuse exactly if no token is listed.
  have hempty : String.join l.lines = "" ↔
      ¬ ∃ t ∈ plainTokens text, t.IsListed skipTrivia := by
    rw [l.join_lines_eq_empty_iff, ← List.map_eq_nil_iff (f := Located.token), h.tokens,
      List.filter_eq_nil_iff]
    simp only [Token.IsListed, not_exists, not_and]
    refine forall₂_congr fun t _ => ?_
    cases skipTrivia <;> cases t.kind.isTrivia <;> decide
  refine ⟨fun s hs => ?_, fun s hs => ?_, fun s hs => ?_, exists_isListed_iff skipTrivia⟩
  · rw [Outcome.status_ofWritten_of_room _ _ hs]
  · rw [Outcome.status_ofWritten_of_room_zero _ _ hs, ← not_iff_not, ← hempty]
    by_cases hnone : String.join l.lines = "" <;> simp [hnone]
  · rw [Outcome.status_ofWritten_of_room_zero _ _ hs, ← hempty]
    by_cases hnone : String.join l.lines = "" <;> simp [hnone]

/-- What decides the exit status of a listing or a check: whether there is a text
    at the path, whether the sink takes what is to be printed, and the tokens. -/
theorem run_status {path : String} {args : List String} {c : Command}
    (hargs : Command.Invokes path args c) (env : Surroundings) :
    ((∃ e, env.Unreadable path e) ∨ ∃ text : String, env.Holds path text.toUTF8) ∧
      (∀ e, env.Unreadable path e → ∀ stdout, run args env stdout =
        ⟨2, .empty, "error: " ++ (Failure.read path e).message ++ "\n", none⟩) ∧
      ∀ text : String, env.Holds path text.toUTF8 → text.utf8ByteSize < maxPosition →
        ∃ ts, tokenize text = .ok ts ∧ c.EndsOn text ts (run args env) := by
  have hparse := hargs.parse_eq
  refine ⟨env.unreadable_or_holds path, fun e he stdout => ?_, fun text hholds h => ?_⟩
  · exact run_of_read_error hparse hargs.path?_eq (Surroundings.read_of_unreadable he) stdout
  · have hread := Surroundings.read_of_decode_eq_ok hholds (decode_toUTF8 text)
    -- A text is there and short enough, so there is a report or a listing, whose lines
    -- depend on the tokens only.
    cases hargs with
    | check =>
        rcases Report.ofString_eq_ok h with ⟨r, events, hr, _⟩
        have hts := tokenize_eq_ok h
        refine ⟨_, hts, .check ?_⟩
        rw [funext (run_of_parse hparse env), funext (Command.outcome_check hread hr)]
        exact endsCheck_of_isClean_iff (Report.isClean_iff_of_tokenize h hr hts)
    | list =>
        rcases Listing.ofString_lists h _ with ⟨l, ts, hl, hts, hlists⟩
        refine ⟨ts, hts, .list ?_⟩
        rw [funext (run_of_parse hparse env), funext (Command.outcome_list hread hl)]
        rw [tokenize_eq_ok h, Except.ok.injEq] at hts
        subst hts
        exact endsList_of_lists hlists

/-- Blanks on the standard input, and no file. -/
def blankInput : Surroundings := { Surroundings.bare with stdin := .ok "\t\n".toUTF8 }

/-- A soft failure that cannot be told, one that can, blanks that are left out,
    and a file that is not there. -/
theorem run_status_oneFile :
    Command.Invokes "a.css" ["check", "a.css"] (.check "a.css") ∧
      oneFile.Holds "a.css" "!".toUTF8 ∧ "!".utf8ByteSize < maxPosition ∧
      (run ["check", "a.css"] oneFile .unbounded).status = 1 ∧
      (run ["check", "a.css"] oneFile .fullDevice).status = 2 ∧
      (run ["lex", "--no-trivia", "-"] blankInput .fullDevice).status = 0 ∧
      ∀ stdout, run ["check", "b.css"] oneFile stdout =
        ⟨2, .empty, "error: cannot find file 'b.css'\n", none⟩ := by
  have hcheck : Command.Invokes "a.css" ["check", "a.css"] (.check "a.css") := .check
  have hholds : oneFile.Holds "a.css" "!".toUTF8 := .inr ⟨by decide, rfl⟩
  have h : "!".utf8ByteSize < maxPosition := by decide
  -- The one token of the file is a soft failure. Both its checks, and the listing of
  -- blanks, are cases of the general statement.
  have htokens : tokenize "!" = .ok [⟨.unmatched, "!"⟩] := by
    have htokens : Plain.tokens "!".toList = [⟨.unmatched, ['!']⟩] :=
      Plain.tokens_single ⟨'!', rfl, by unfold BeginsNothing; decide⟩
    rw [tokenize_eq_ok h, htokens]
    rfl
  rcases (run_status hcheck oneFile).2.2 "!" hholds h with ⟨ts, hts, hends⟩
  rw [htokens, Except.ok.injEq] at hts
  subst hts
  have hlist : Command.Invokes "-" ["lex", "--no-trivia", "-"] (.list "-" true) :=
    .list (Command.faultless_iff.mpr (by decide)) (by decide) (by decide)
  rcases (run_status hlist blankInput).2.2 "\t\n" (.inl ⟨rfl, rfl⟩) (by decide) with
    ⟨ts, _, hblank⟩
  have hmissing : oneFile.Unreadable "b.css" ⟨.notFound, "No such file or directory (os error 2)"⟩ :=
    .system (by decide) rfl
  refine ⟨hcheck, hholds, h, ?_, ?_, ?_, fun stdout => ?_⟩
  · cases hends with
    | check hends => exact (hends.found _ rfl).mpr ⟨_, List.mem_cons_self, .inr rfl⟩
  · cases hends with
    | check hends => exact hends.refused _ rfl
  · cases hblank with
    | list hblank =>
        refine (hblank.silent _ rfl).mpr fun hlisted => ?_
        have hall : ∀ c ∈ ['\t', '\n'], isBlank c = true := List.all_eq_true.mp rfl
        rcases (hblank.listed.mp hlisted).2 rfl with ⟨c, hc, hnot⟩
        rw [hall c hc] at hnot
        injection hnot
  · rw [(run_status .check oneFile).2.1 _ hmissing]
    rfl

end CssTokens
