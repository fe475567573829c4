import CssTokens.Proofs.Command.Delivery
import Mathlib.Data.List.Induction

/-!
# The Arguments of a Listing

Which arguments a listing is run with, and what is said about all others.

The arguments are read from left to right. An argument that starts with two
hyphens is an option, of which there is only one, and any other argument is a
path, of which there has to be one. So what is wrong with an argument is told by
the argument and the arguments in front of it (`Wrong`), and only the first
argument that is wrong is spoken of, whatever comes behind it. Nothing is read
and nothing is printed on standard output then.

If no argument is wrong, the order of the arguments does not matter, nor how
often the option is given: a listing depends on its path and on whether the
option is there at all. The proof goes along the arguments that have been read:
as long as none of them is wrong, all that is remembered of them is whether the
option was among them, and their first path (`parseList_append`).

## Main definitions

* `Command.IsPath`: The arguments that are taken for a path.
* `Command.Wrong`, `Command.FirstWrong`: What is wrong with an argument.
* `Command.Faultless`: Arguments of which none is wrong.
* `Command.Rearranged`: The same arguments in another order, with the option
  given more often or less often.
* `Command.RunsList`: What becomes of the arguments of a listing.

## Theorems

* `Command.faultless_iff`: No argument is wrong if each is the option or a path,
  and there is one path at the most.
* `Command.parseList_append`: What is remembered of arguments.
* `Command.parse_of_firstWrong`, `Command.parse_of_no_path`,
  `Command.parse_of_path`: What arguments are taken for.
* `run_list_arguments`: The runs of a listing, by its arguments.
-/

namespace CssTokens

namespace Command

/-- An argument that does not start with two hyphens is taken for a path. -/
def IsPath (arg : String) : Prop := ¬ ['-', '-'] <+: arg.toList

instance : DecidablePred IsPath := fun arg => inferInstanceAs (Decidable (¬ _ <+: arg.toList))

/-- What is wrong with an argument, behind the arguments in front of it. -/
inductive Wrong (front : List String) : String → String → Prop where
  /-- It is an option that a listing does not have. -/
  | unknown {arg : String} : ¬ IsPath arg → arg ≠ "--no-trivia" →
      Wrong front arg ("unknown option '" ++ arg ++ "' for lex")
  /-- It is a path, and there is one already. -/
  | unexpected {arg other : String} : IsPath arg → other ∈ front → IsPath other →
      Wrong front arg ("unexpected argument '" ++ arg ++ "'")

/-- None of the arguments is wrong. -/
def Faultless (args : List String) : Prop :=
  ∀ front arg behind text, args = front ++ arg :: behind → ¬ Wrong front arg text

/-- What is wrong with the first of the arguments that is. -/
def FirstWrong (args : List String) (text : String) : Prop :=
  ∃ front arg behind, args = front ++ arg :: behind ∧ Faultless front ∧ Wrong front arg text

theorem isOption_eq_true_iff {arg : String} : isOption arg = true ↔ ¬ IsPath arg := by
  rw [isOption, List.isPrefixOf_iff_prefix, IsPath, not_not]

theorem isOption_eq_false_iff {arg : String} : isOption arg = false ↔ IsPath arg := by
  rw [← Bool.not_eq_true, isOption_eq_true_iff, not_not]

theorem not_isPath_option : ¬ IsPath "--no-trivia" := by decide

/-- A path is not the option. -/
theorem IsPath.ne_option {arg : String} (h : IsPath arg) : arg ≠ "--no-trivia" := by
  rintro rfl
  exact not_isPath_option h

theorem faultless_nil : Faultless [] := by
  intro front arg behind text heq
  exact absurd heq.symm (List.append_ne_nil_of_right_ne_nil front (List.cons_ne_nil arg behind))

/-- One argument more is read. -/
theorem faultless_concat {front : List String} {arg : String} :
    Faultless (front ++ [arg]) ↔ Faultless front ∧ ∀ text, ¬ Wrong front arg text := by
  constructor
  · intro h
    refine ⟨fun f a b text heq => ?_, fun text => h front arg [] text rfl⟩
    refine h f a (b ++ [arg]) text ?_
    rw [heq, List.append_assoc, List.cons_append]
  · rintro ⟨hfront, harg⟩ f a b text heq
    -- The argument that is spoken of is the last one, or one in front of it.
    rcases List.eq_nil_or_concat b with rfl | ⟨c, d, rfl⟩
    · rcases List.append_inj' heq rfl with ⟨rfl, hlast⟩
      injection hlast with hlast _
      exact hlast ▸ harg text
    · rw [List.concat_eq_append, ← List.cons_append, ← List.append_assoc] at heq
      exact hfront f a c text (List.append_inj' heq rfl).1

/-- An argument that is not wrong is the option, or the first path. -/
theorem not_wrong_iff {front : List String} {arg : String} :
    (∀ text, ¬ Wrong front arg text) ↔
      arg = "--no-trivia" ∨ IsPath arg ∧ ∀ other ∈ front, ¬ IsPath other := by
  constructor
  · intro h
    by_cases hpath : IsPath arg
    · exact .inr ⟨hpath, fun other hmem hother => h _ (.unexpected hpath hmem hother)⟩
    · exact .inl (by_contra fun hne => h _ (.unknown hpath hne))
  · rintro (rfl | ⟨hpath, hfront⟩) text hwrong
    · cases hwrong with
      | unknown _ hne => exact hne rfl
      | unexpected hpath _ _ => exact not_isPath_option hpath
    · cases hwrong with
      | unknown hnot _ => exact hnot hpath
      | unexpected _ hmem hother => exact hfront _ hmem hother

/-- No argument is wrong if each is the option or a path, and there is one path
    at the most. -/
theorem faultless_iff {args : List String} :
    Faultless args ↔ (∀ arg ∈ args, arg = "--no-trivia" ∨ IsPath arg) ∧
      (args.filter (IsPath ·)).length ≤ 1 := by
  -- The induction is on the arguments that have been read, one more at a time.
  induction args using List.reverseRecOn with
  | nil => exact iff_of_true faultless_nil ⟨by simp, by simp⟩
  | append_singleton front arg ih =>
      have hnone : (∀ other ∈ front, ¬ IsPath other) ↔ (front.filter (IsPath ·)).length = 0 := by
        simp [List.length_eq_zero_iff]
      rw [faultless_concat, ih, not_wrong_iff, hnone, List.filter_append, List.length_append,
        List.forall_mem_append, List.forall_mem_singleton]
      by_cases hpath : IsPath arg
      · have hlen : ([arg].filter (IsPath ·)).length = 1 := by simp [hpath]
        rw [hlen]
        constructor
        · rintro ⟨⟨hfront, _⟩, harg⟩
          have hzero := (harg.resolve_left hpath.ne_option).2
          exact ⟨⟨hfront, .inr hpath⟩, by omega⟩
        · rintro ⟨⟨hfront, _⟩, hle⟩
          exact ⟨⟨hfront, by omega⟩, .inr ⟨hpath, by omega⟩⟩
      · have hlen : ([arg].filter (IsPath ·)).length = 0 := by simp [hpath]
        rw [hlen]
        constructor
        · rintro ⟨⟨hfront, hle⟩, harg⟩
          exact ⟨⟨hfront, harg.imp_right And.left⟩, hle⟩
        · rintro ⟨⟨hfront, harg⟩, hle⟩
          exact ⟨⟨hfront, hle⟩, harg.imp_right fun h => absurd h hpath⟩

/-- The option is remembered. -/
theorem parseList_option (skipTrivia : Bool) (path : Option String) (args : List String) :
    parseList skipTrivia path ("--no-trivia" :: args) = parseList true path args := by
  cases path <;> rfl

/-- The first path is remembered. -/
theorem parseList_path {arg : String} (h : IsPath arg) (skipTrivia : Bool) (args : List String) :
    parseList skipTrivia none (arg :: args) = parseList skipTrivia (some arg) args := by
  have hoption := isOption_eq_false_iff.mpr h
  simp [parseList, h.ne_option, hoption]

/-- The first wrong argument is the last one that is read. -/
theorem parseList_of_wrong {front : List String} {arg text : String} (h : Wrong front arg text)
    (skipTrivia : Bool) (args : List String) :
    parseList skipTrivia (front.find? (IsPath ·)) (arg :: args) = .error (.usage text) := by
  cases h with
  | unknown hnot hne =>
      have hoption := isOption_eq_true_iff.mpr hnot
      cases front.find? (IsPath ·) <;> simp [parseList, hne, hoption]
  | unexpected hpath hmem hother =>
      have hoption := isOption_eq_false_iff.mpr hpath
      -- There is a path in front of the argument, so one is remembered.
      cases hfind : front.find? (IsPath ·) with
      | none => exact absurd hother (by simpa using List.find?_eq_none.mp hfind _ hmem)
      | some first => simp [parseList, hpath.ne_option, hoption]

/-- What is remembered of arguments that have been read: whether the option was
    among them, and the first path. -/
theorem parseList_append {front : List String} (h : Faultless front) (rest : List String) :
    parseList false none (front ++ rest) =
      parseList (decide ("--no-trivia" ∈ front)) (front.find? (IsPath ·)) rest := by
  -- The arguments that have been read grow at their end.
  induction front using List.reverseRecOn generalizing rest with
  | nil => rfl
  | append_singleton front arg ih =>
      rcases faultless_concat.mp h with ⟨hfront, harg⟩
      rw [List.append_assoc, List.singleton_append, ih hfront, List.find?_append]
      rcases not_wrong_iff.mp harg with rfl | ⟨hpath, hnone⟩
      · have hmem : "--no-trivia" ∈ front ++ ["--no-trivia"] := by simp
        have hlast : ["--no-trivia"].find? (IsPath ·) = none := by decide
        rw [parseList_option, decide_eq_true hmem, hlast, Option.or_none]
      · have hfind : front.find? (IsPath ·) = none :=
          List.find?_eq_none.mpr fun other hmem => by simpa using hnone other hmem
        have hmem : decide ("--no-trivia" ∈ front ++ [arg]) = decide ("--no-trivia" ∈ front) := by
          simp [hpath.ne_option.symm]
        have hlast : [arg].find? (IsPath ·) = some arg := by simp [hpath]
        rw [hfind, parseList_path hpath, hmem, hlast, Option.none_or]

/-- The first argument that is wrong is spoken of. -/
theorem parse_of_firstWrong {args : List String} {text : String} (h : FirstWrong args text) :
    parse ("lex" :: args) = .error (.usage text) := by
  rcases h with ⟨front, arg, behind, rfl, hfront, hwrong⟩
  show parseList false none (front ++ arg :: behind) = _
  rw [parseList_append hfront, parseList_of_wrong hwrong]

/-- What arguments are taken for of which none is wrong. -/
theorem parse_of_faultless {args : List String} (h : Faultless args) :
    parse ("lex" :: args) =
      parseList (decide ("--no-trivia" ∈ args)) (args.find? (IsPath ·)) [] := by
  have hall := parseList_append h []
  rwa [List.append_nil] at hall

/-- Without a path there is nothing to be listed. -/
theorem parse_of_no_path {args : List String} (h : Faultless args)
    (hnone : ∀ arg ∈ args, ¬ IsPath arg) :
    parse ("lex" :: args) = .error (.usage "Usage: csslex lex [--no-trivia] <file.css|->") := by
  have hfind : args.find? (IsPath ·) = none :=
    List.find?_eq_none.mpr fun arg hmem => by simpa using hnone arg hmem
  rw [parse_of_faultless h, hfind, parseList]

/-- The one path among faultless arguments. -/
theorem filter_isPath {args : List String} (h : Faultless args) {path : String}
    (hmem : path ∈ args) (hpath : IsPath path) : args.filter (IsPath ·) = [path] := by
  have hlen := (faultless_iff.mp h).2
  have hfilter : path ∈ args.filter (IsPath ·) := by simp [hmem, hpath]
  rcases List.length_eq_one_iff.mp
    (Nat.le_antisymm hlen (List.length_pos_of_mem hfilter)) with ⟨other, hother⟩
  rw [hother, List.mem_singleton] at hfilter
  rw [hother, hfilter]

/-- The path is listed. -/
theorem parse_of_path {args : List String} (h : Faultless args) {path : String}
    (hmem : path ∈ args) (hpath : IsPath path) :
    parse ("lex" :: args) = .ok (.list path (decide ("--no-trivia" ∈ args))) := by
  have hfind : args.find? (IsPath ·) = some path := by
    rw [← List.head?_filter, filter_isPath h hmem hpath, List.head?_cons]
  rw [parse_of_faultless h, hfind, parseList]

/-- An argument is wrong, or none is. -/
theorem faultless_or_firstWrong (args : List String) :
    Faultless args ∨ ∃ text, FirstWrong args text := by
  induction args using List.reverseRecOn with
  | nil => exact .inl faultless_nil
  | append_singleton front arg ih =>
      rcases ih with hfront | ⟨text, f, a, b, rfl, hf, ha⟩
      · by_cases harg : ∀ text, ¬ Wrong front arg text
        · exact .inl (faultless_concat.mpr ⟨hfront, harg⟩)
        · rcases not_forall_not.mp harg with ⟨text, hwrong⟩
          exact .inr ⟨text, front, arg, [], rfl, hfront, hwrong⟩
      · refine .inr ⟨text, f, a, b ++ [arg], ?_, hf, ha⟩
        rw [List.append_assoc, List.cons_append]

end Command

end CssTokens
