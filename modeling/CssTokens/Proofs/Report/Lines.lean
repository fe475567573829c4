import CssTokens.Proofs.Listing.Lines
import Mathlib.Data.List.Forall2

/-!
# Reports Can Be Read Back

A printed report determines all of the report that is printed.

Every line begins with the path. The path may hold anything, also what looks
like a line, but it is the same on every line, so a reader who knows it knows
where each line goes on. What stands there tells at once which of the four
lines it is (`formOf_body`), and each of the four shows where it ends: a number
at the character behind it, a name at a space, a text at its closing quotation
mark. So the lines one behind the other determine the list of lines
(`output_eq_iff`). The lines of one kind can be picked out of it, and they
determine the report (`entries_eq_iff`), less the byte offsets of its findings,
which are not printed.

## Main definitions

* `ReportLine`, `ReportLine.body`: A line, and how it is printed behind the
  path.
* `ReportLine.formOf`: The kind of a line, from how it begins.
* `Report.entries`, `Report.output`: The lines of a report, and all of them in
  print.
* `Report.Agrees`: Reports that differ in nothing that is printed.

## Theorems

* `ReportLine.selfDelimiting_body`: A line shows where it ends.
* `Report.lines_eq_map`: Each line is the path and what is behind it.
* `Report.output_eq_iff`: The print determines the lines.
* `Report.entries_eq_iff`: The lines determine the report.
* `Report.writeTo_agrees`: What is written on a path.
-/

namespace CssTokens

/-- A line of a report, less the path. -/
inductive ReportLine where
  | warning (w : Warning)
  | finding (kind : Kind) (place : LineColumn) (text : String)
  | loss
  | totals (tokens findings : Nat)

/-- What kind of line it is. -/
inductive ReportLine.Form where
  | warning
  | finding
  | loss
  | totals
  deriving DecidableEq

namespace ReportLine

def form : ReportLine → Form
  | warning _ => .warning
  | finding _ _ _ => .finding
  | loss => .loss
  | totals _ _ => .totals

/-- A line as it is printed, behind the path. -/
def body : ReportLine → String
  | warning w =>
      ": warning: " ++ w.kind.description ++ " (byte " ++ Nat.repr w.offset ++ ")\n"
  | finding kind place text =>
      ":" ++ Nat.repr place.line ++ ":" ++ Nat.repr place.column ++ ": " ++ kind.name ++ " " ++
        quoted text ++ "\n"
  | loss => ": error: token text does not reproduce the input\n"
  | totals tokens findings =>
      ": " ++ Nat.repr tokens ++ " tokens, " ++ Nat.repr findings ++ " soft failures\n"

/-- The kind of line that some characters begin, by the two behind the colon. -/
def formOf (cs : List Char) : Form :=
  if cs[1]? = some ' ' then
    if cs[2]? = some 'w' then .warning else if cs[2]? = some 'e' then .loss else .totals
  else .finding

theorem toList_warning (w : Warning) :
    (warning w).body.toList = ": warning: ".toList ++
      ((w.kind.description.toList ++ [' '] ++ ['(']) ++
        ("byte ".toList ++ (digitsThen w.offset ')' ++ ['\n']))) := by
  simp only [body, String.toList_append]
  simp [digitsThen]

theorem toList_finding (kind : Kind) (place : LineColumn) (text : String) :
    (finding kind place text).body.toList = [':'] ++ (digitsThen place.line ':' ++
      (digitsThen place.column ':' ++ ([' '] ++ ((kind.name.toList ++ [' ']) ++
        ((quoted text).toList ++ ['\n']))))) := by
  simp only [body, String.toList_append]
  simp [digitsThen]

theorem toList_totals (tokens findings : Nat) :
    (totals tokens findings).body.toList = ": ".toList ++ (digitsThen tokens ' ' ++
      ("tokens, ".toList ++ (digitsThen findings ' ' ++ "soft failures\n".toList))) := by
  simp only [body, String.toList_append]
  simp [digitsThen]

end ReportLine

/-- The description of an issue shows where it ends by the parenthesis behind
    it. -/
theorem selfDelimiting_description :
    SelfDelimiting fun k : IssueKind => k.description.toList ++ [' '] ++ ['('] := by
  have hword (k : IssueKind) : ∀ x ∈ k.description.toList ++ [' '], (x != '(') = true := by
    cases k <;> exact List.all_eq_true.mp rfl
  have hinj (k l : IssueKind) (h : k.description.toList ++ [' '] = l.description.toList ++ [' ']) :
      k = l := by
    cases k <;> cases l
    · rfl
    · exact absurd h (by decide)
    · exact absurd h (by decide)
    · rfl
  exact selfDelimiting_word hword rfl hinj

namespace ReportLine

theorem selfDelimiting_warning : SelfDelimiting fun w => (warning w).body.toList := by
  have hnumber := (selfDelimiting_digitsThen (c := ')') rfl).append_const ['\n']
  have hparts := selfDelimiting_description.append (hnumber.const_append "byte ".toList)
  -- The parts of a line are in the order of print, and determine the warning.
  have hinj (v w : Warning) (h : (v.kind, v.offset) = (w.kind, w.offset)) : v = w := by
    rcases v with ⟨k, n⟩
    rcases w with ⟨l, m⟩
    simp only [Prod.mk.injEq] at h
    rw [h.1, h.2]
  have hline := (hparts.const_append ": warning: ".toList).comp
    (i := fun w : Warning => (w.kind, w.offset)) hinj
  simp only [toList_warning]
  exact hline

theorem selfDelimiting_finding :
    SelfDelimiting fun x : Kind × LineColumn × String => (finding x.1 x.2.1 x.2.2).body.toList := by
  have hcolon := selfDelimiting_digitsThen (c := ':') rfl
  have htext := selfDelimiting_name.append (selfDelimiting_quoted.append_const ['\n'])
  have hparts := hcolon.append (hcolon.append (htext.const_append [' ']))
  -- The place comes first in print, so the parts are put in that order.
  have hinj (x y : Kind × LineColumn × String)
      (h : (x.2.1.line, x.2.1.column, x.1, x.2.2) = (y.2.1.line, y.2.1.column, y.1, y.2.2)) :
      x = y := by
    rcases x with ⟨k, ⟨n, m⟩, t⟩
    rcases y with ⟨l, ⟨i, j⟩, u⟩
    simp only [Prod.mk.injEq] at h
    rcases h with ⟨rfl, rfl, rfl, rfl⟩
    rfl
  have hline := (hparts.const_append [':']).comp
    (i := fun x : Kind × LineColumn × String => (x.2.1.line, x.2.1.column, x.1, x.2.2)) hinj
  simp only [toList_finding]
  exact hline

theorem selfDelimiting_totals :
    SelfDelimiting fun x : Nat × Nat => (totals x.1 x.2).body.toList := by
  have hspace := selfDelimiting_digitsThen (c := ' ') rfl
  have hfindings := (hspace.append_const "soft failures\n".toList).const_append "tokens, ".toList
  have hline := (hspace.append hfindings).const_append ": ".toList
  simp only [toList_totals]
  exact hline

/-- What stands at the beginning of a line tells the four kinds apart. -/
theorem formOf_body (l : ReportLine) (r : List Char) : formOf (l.body.toList ++ r) = l.form := by
  -- Behind the colon there is the digit of a line number, or a space and a word or a
  -- count.
  cases l with
  | warning w => simp [toList_warning, form, formOf]
  | finding kind place text =>
      rcases toDigits_eq_cons place.line with ⟨c, cs, hline, hc⟩
      have hspace : c ≠ ' ' := by
        rintro rfl
        exact absurd hc (by decide)
      rw [toList_finding, digitsThen, hline]
      simp [formOf, form, hspace]
  | loss => simp [body, form, formOf]
  | totals tokens findings =>
      rcases toDigits_eq_cons tokens with ⟨c, cs, htokens, hc⟩
      have hletter : c ≠ 'w' ∧ c ≠ 'e' := by
        constructor <;> rintro rfl <;> exact absurd hc (by decide)
      rw [toList_totals, digitsThen, htokens]
      simp [formOf, form, hletter]

/-- A line shows where it ends. -/
theorem selfDelimiting_body : SelfDelimiting fun l : ReportLine => l.body.toList := by
  intro k l r s h
  -- Lines of two kinds differ at once, so both are of one kind, which shows where it
  -- ends.
  have hform : k.form = l.form := by rw [← formOf_body k r, h, formOf_body]
  cases k with
  | warning v =>
      cases l with
      | warning w =>
          rcases selfDelimiting_warning v w r s h with ⟨rfl, hrest⟩
          exact ⟨rfl, hrest⟩
      | _ => cases hform
  | finding kind place text =>
      cases l with
      | finding kind' place' text' =>
          rcases selfDelimiting_finding (kind, place, text) (kind', place', text') r s h
            with ⟨hparts, hrest⟩
          cases hparts
          exact ⟨rfl, hrest⟩
      | _ => cases hform
  | loss =>
      cases l with
      | loss => exact ⟨rfl, List.append_cancel_left h⟩
      | _ => cases hform
  | totals tokens findings =>
      cases l with
      | totals tokens' findings' =>
          rcases selfDelimiting_totals (tokens, findings) (tokens', findings') r s h
            with ⟨hparts, hrest⟩
          cases hparts
          exact ⟨rfl, hrest⟩
      | _ => cases hform

/-- The line behind a path shows where it ends. -/
theorem selfDelimiting_pathLine (path : String) :
    SelfDelimiting fun l : ReportLine => (path ++ l.body).toList := by
  simp only [String.toList_append]
  exact selfDelimiting_body.const_append path.toList

end ReportLine

/-- Findings that are printed alike. -/
structure Finding.Alike (f g : Finding) : Prop where
  kind : f.kind = g.kind
  place : f.place = g.place
  text : f.text = g.text

/-- The line of a finding. -/
def Finding.entry (f : Finding) : ReportLine := .finding f.kind f.place f.text

theorem Finding.entry_eq_iff {f g : Finding} : f.entry = g.entry ↔ f.Alike g := by
  constructor
  · intro h
    injection h with hkind hplace htext
    exact ⟨hkind, hplace, htext⟩
  · rintro ⟨hkind, hplace, htext⟩
    rw [entry, entry, hkind, hplace, htext]

namespace Report

/-- The lines of one kind. -/
def entriesOf (r : Report) : ReportLine.Form → List ReportLine
  | .warning => r.warnings.map .warning
  | .finding => r.findings.map Finding.entry
  | .loss => if r.lossless then [] else [.loss]
  | .totals => [.totals r.tokens r.findings.length]

/-- The lines of a report, less the path. -/
def entries (r : Report) : List ReportLine :=
  r.entriesOf .warning ++ (r.entriesOf .finding ++ (r.entriesOf .loss ++ r.entriesOf .totals))

theorem warningLine_eq (path : String) (w : Warning) :
    warningLine path w = path ++ (ReportLine.warning w).body := by
  simp only [warningLine, ReportLine.body, String.append_assoc]

theorem findingLine_eq (path : String) (f : Finding) :
    findingLine path f = path ++ f.entry.body := by
  simp only [findingLine, Finding.entry, ReportLine.body, String.append_assoc]

theorem totalsLine_eq (path : String) (r : Report) :
    totalsLine path r = path ++ (ReportLine.totals r.tokens r.findings.length).body := by
  simp only [totalsLine, ReportLine.body, String.append_assoc]

/-- Each line is the path and what is printed behind it. -/
theorem lines_eq_map (path : String) (r : Report) :
    r.lines path = r.entries.map fun l => path ++ l.body := by
  -- Each of the four parts of a report is a part of the list of lines.
  have hwarnings : r.warnings.map (warningLine path) =
      (r.entriesOf .warning).map fun l => path ++ l.body := by
    rw [entriesOf, List.map_map]
    exact List.map_congr_left fun w _ => warningLine_eq path w
  have hfindings : r.findings.map (findingLine path) =
      (r.entriesOf .finding).map fun l => path ++ l.body := by
    rw [entriesOf, List.map_map]
    exact List.map_congr_left fun f _ => findingLine_eq path f
  have hloss : (if r.lossless then [] else [lossLine path]) =
      (r.entriesOf .loss).map fun l => path ++ l.body := by
    cases hr : r.lossless <;> simp [entriesOf, hr, lossLine, ReportLine.body]
  rw [lines, entries, hwarnings, hfindings, hloss, totalsLine_eq, List.map_append,
    List.map_append, List.map_append, List.append_assoc, List.append_assoc]
  rfl

/-- A report in print. -/
def output (path : String) (r : Report) : String := String.join (r.lines path)

theorem toList_output (path : String) (r : Report) :
    (r.output path).toList = r.entries.flatMap fun l => (path ++ l.body).toList := by
  rw [output, lines_eq_map, String.toList_join, List.flatMap_map]

/-- The print determines the lines, whatever the path is. -/
theorem output_eq_iff {path : String} {r r' : Report} :
    r.output path = r'.output path ↔ r.entries = r'.entries := by
  constructor
  · intro h
    -- No line is empty, so that the lines can be told apart one by one.
    refine (ReportLine.selfDelimiting_pathLine path).flatMap_inj (fun l => ?_) ?_
    · cases l <;> simp [ReportLine.body]
    · rw [← toList_output, ← toList_output, h]
  · intro h
    rw [output, output, lines_eq_map, lines_eq_map, h]

theorem form_of_mem_entriesOf {r : Report} {form : ReportLine.Form} {l : ReportLine}
    (h : l ∈ r.entriesOf form) : l.form = form := by
  cases form with
  | warning =>
      rcases List.mem_map.mp h with ⟨w, _, rfl⟩
      rfl
  | finding =>
      rcases List.mem_map.mp h with ⟨f, _, rfl⟩
      rfl
  | loss =>
      rw [entriesOf] at h
      split at h
      · cases h
      · rw [List.mem_singleton.mp h]
        rfl
  | totals =>
      rw [List.mem_singleton.mp h]
      rfl

theorem filter_entriesOf (r : Report) (form other : ReportLine.Form) :
    (r.entriesOf other).filter (·.form = form) = if other = form then r.entriesOf form else [] := by
  split
  case isTrue h =>
      subst h
      exact List.filter_eq_self.mpr fun l hl => decide_eq_true (form_of_mem_entriesOf hl)
  case isFalse h =>
      refine List.filter_eq_nil_iff.mpr fun l hl hform => h ?_
      rw [← form_of_mem_entriesOf hl, of_decide_eq_true hform]

/-- The lines of a kind stand among all lines and can be picked out. -/
theorem filter_entries (r : Report) (form : ReportLine.Form) :
    r.entries.filter (·.form = form) = r.entriesOf form := by
  simp only [entries, List.filter_append, filter_entriesOf]
  cases form <;> simp

/-- Reports that differ in nothing that is printed. -/
structure Agrees (r r' : Report) : Prop where
  tokens : r.tokens = r'.tokens
  lossless : r.lossless = r'.lossless
  warnings : r.warnings = r'.warnings
  findings : List.Forall₂ Finding.Alike r.findings r'.findings

theorem map_entry_eq_iff {fs gs : List Finding} :
    fs.map Finding.entry = gs.map Finding.entry ↔ List.Forall₂ Finding.Alike fs gs := by
  rw [← List.forall₂_eq_eq_eq, List.forall₂_map_left_iff, List.forall₂_map_right_iff]
  simp only [Finding.entry_eq_iff]

/-- The lines determine all of the report that they show. -/
theorem entries_eq_iff {r r' : Report} : r.entries = r'.entries ↔ r.Agrees r' := by
  constructor
  · intro h
    -- The lines of each kind are picked out of both lists, and hold one field of the
    -- report.
    have hkind (form : ReportLine.Form) : r.entriesOf form = r'.entriesOf form := by
      rw [← filter_entries, ← filter_entries, h]
    have hwarnings : r.warnings = r'.warnings :=
      List.map_injective_iff.mpr (fun v w hvw => ReportLine.warning.inj hvw) (hkind .warning)
    have hlossless : r.lossless = r'.lossless := by
      have hloss := hkind .loss
      cases hr : r.lossless <;> cases hr' : r'.lossless <;> simp [entriesOf, hr, hr'] at hloss ⊢
    have htokens : r.tokens = r'.tokens := by
      have htotals := hkind .totals
      simp only [entriesOf, List.cons.injEq, ReportLine.totals.injEq] at htotals
      exact htotals.1.1
    exact ⟨htokens, hlossless, hwarnings, map_entry_eq_iff.mp (hkind .finding)⟩
  · rintro ⟨htokens, hlossless, hwarnings, hfindings⟩
    simp only [entries, entriesOf]
    rw [htokens, hlossless, hwarnings, map_entry_eq_iff.mpr hfindings, hfindings.length_eq]

/-- On every path the printed report determines all of the report but the byte
    offsets of its findings. -/
theorem writeTo_agrees (path : String) (r r' : Report) :
    (∀ s : Sink, r.writeTo path s = s.write (r.output path) ∧
      r'.writeTo path s = s.write (r'.output path)) ∧
    (r.output path = r'.output path ↔ r.Agrees r') := by
  refine ⟨fun s => ⟨?_, ?_⟩, ?_⟩
  · rw [writeTo, output, Sink.writeAll_eq_write]
  · rw [writeTo, output, Sink.writeAll_eq_write]
  · rw [output_eq_iff, entries_eq_iff]

end Report

end CssTokens
