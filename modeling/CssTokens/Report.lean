import CssTokens.LineColumn
import CssTokens.Output.Sink
import CssTokens.TokenStream

/-!
# Reports

What a check finds in a source.

A check reads all tokens of a source in one loop. It reports those of a soft
kind, each with its place, and the encoding issues of the source. It also puts
the texts of the tokens together again and compares them with the source, which
they must reproduce; an observer is warned if they do not. A report is clean
when there is no soft failure and the texts do reproduce the source; encoding
issues are warnings and do not matter to it.

## Main definitions

* `Finding`: A token of a soft kind and its place.
* `Warning`: An encoding issue.
* `Report`: All that a check finds.
* `Report.Tally`, `Report.gather`: The loop of a check.
* `Report.ofString`: The check of a source.
* `Report.lines`, `Report.writeTo`, `Report.print`: The report in print.
-/

namespace CssTokens

/-- A token of a soft kind and its place. -/
structure Finding where
  kind : Kind
  offset : Nat
  place : LineColumn
  text : String
  deriving DecidableEq

/-- An encoding issue and its byte offset. -/
structure Warning where
  kind : IssueKind
  offset : Nat
  deriving DecidableEq

/-- What a check finds. -/
structure Report where
  /-- How many tokens the source has. -/
  tokens : Nat
  findings : List Finding
  warnings : List Warning
  /-- Whether the texts of the tokens reproduce the source. -/
  lossless : Bool
  deriving DecidableEq

namespace Report

/-- What a check has gathered so far. -/
structure Tally where
  /-- The place behind all tokens so far. -/
  walk : Walk
  /-- Their texts, put together again. -/
  rebuilt : String
  findings : Array Finding
  tokens : Nat

namespace Tally

/-- Nothing so far. -/
def start : Tally := ⟨.start, "", #[], 0⟩

/-- One token more. A soft failure is put down with the place in front of it,
    and every token moves the place along. -/
def add (y : Tally) (x : Located) : Except Fault Tally := do
  let findings := if x.token.kind.isSoftFailure then
    y.findings.push ⟨x.token.kind, x.offset, y.walk.place, x.token.text⟩ else y.findings
  let walk ← y.walk.advance x.token.text
  return ⟨walk, y.rebuilt ++ x.token.text, findings, y.tokens + 1⟩

end Tally

/-- Gather all tokens that are left. The offset is that of the stream before it
    is asked. -/
def gather (s : TokenStream) (y : Tally) : Except Fault (Tally × TokenStream) :=
  let offset := s.pos
  match _h : s.next with
  | .error f => .error f
  | .ok (t, s') =>
      if _ht : t.isEnd then .ok (y, s')
      else
        match y.add ⟨offset, t⟩ with
        | .error f => .error f
        | .ok y' => gather s' y'
termination_by s.reader.remaining
decreasing_by exact TokenStream.remaining_lt_of_next _h (Bool.eq_false_iff.mpr _ht)

/-- The check of a source, and the events of the run. -/
def ofString (text : String) : Except Fault (Report × List Event) := do
  let source := Source.ofString text
  let (y, s) ← gather source.start.stream .start
  let warnings := source.issues.map fun i => ⟨i.kind, i.offset⟩
  let lossless := y.rebuilt == text
  let lossy := if lossless then [] else
    [.lossy text.utf8ByteSize y.rebuilt.utf8ByteSize]
  let finished := .checked y.tokens y.findings.size warnings.length
  return (⟨y.tokens, y.findings.toList, warnings, lossless⟩, s.events ++ lossy ++ [finished])

/-- No soft failure, and the source is reproduced. -/
def isClean (r : Report) : Bool := r.findings.isEmpty && r.lossless

/-- The line of a warning. -/
def warningLine (path : String) (w : Warning) : String :=
  path ++ ": warning: " ++ w.kind.description ++ " (byte " ++ Nat.repr w.offset ++ ")\n"

/-- The line of a soft failure. -/
def findingLine (path : String) (f : Finding) : String :=
  path ++ ":" ++ Nat.repr f.place.line ++ ":" ++ Nat.repr f.place.column ++ ": " ++
    f.kind.name ++ " " ++ quoted f.text ++ "\n"

/-- The line that a source which is not reproduced calls for. -/
def lossLine (path : String) : String :=
  path ++ ": error: token text does not reproduce the input\n"

/-- The line of the totals. -/
def totalsLine (path : String) (r : Report) : String :=
  path ++ ": " ++ Nat.repr r.tokens ++ " tokens, " ++ Nat.repr r.findings.length ++
    " soft failures\n"

/-- The lines of a report on the source at a path. -/
def lines (path : String) (r : Report) : List String :=
  r.warnings.map (warningLine path) ++ r.findings.map (findingLine path) ++
    (if r.lossless then [] else [lossLine path]) ++ [totalsLine path r]

/-- Write a report line by line. -/
def writeTo (path : String) (r : Report) (s : Sink) : Except Refusal Sink :=
  s.writeAll (r.lines path)

/-- Write a report, which has nothing to tell. -/
def print (path : String) (r : Report) (s : Sink) : Except Refusal (Unit × Sink) :=
  ((), ·) <$> r.writeTo path s

end Report

end CssTokens
