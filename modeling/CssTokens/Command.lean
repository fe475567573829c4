import CssTokens.Abort
import CssTokens.Input
import CssTokens.Listing
import CssTokens.Report

/-!
# Commands

The command line.

A command is made from the arguments alone, before anything is read. It then
reads its source, if it has one, and prints. The rows of a listing are printed
as they are made, a report when it is complete. A listing and a report answer
for a line that is refused with a failure like any other; the fixed texts do
not, and the run is given up there.

The exit status is 0 when all went well, 1 when a check found something, 2 for
a failure and for an unknown command, and 101 for a run that is given up.

## Main definitions

* `Print`, `FixedText`: What is printed without a source.
* `Command`, `Command.parse`: What the arguments ask for.
* `Outcome`, `Outcome.stderr`: What a run leaves behind.
* `Command.outcome`: A run of a command.
* `run`: A run of the program.
-/

namespace CssTokens

/-- The lines of the usage text. -/
def usageLines : List String :=
  ["csslex - lossless CSS tokenizer\n",
    "\n",
    "Usage: csslex <command> [options]\n",
    "\n",
    "Commands:\n",
    "  lex <file.css|->     Print one line per token (offset, kind, text)\n",
    "  check <file.css|->   Report bad strings and unmatched characters\n",
    "  help                 Show this help message\n",
    "  version              Show version information\n",
    "\n",
    "Lex options:\n",
    "  --no-trivia          Omit whitespace tokens\n",
    "\n",
    "Exit status: 0 clean, 1 soft failures found by check, 2 usage or I/O error.\n",
    "Set RUST_LOG (e.g. RUST_LOG=csslex=debug) to enable logging.\n"]

/-- The line of the version. -/
def versionLine : String := "csslex 0.1.0\n"

/-- A line of a fixed text, and the calls that print it, the innermost first. -/
structure Print where
  line : String
  calls : List Call
  deriving DecidableEq

/-- Print a line. If it is refused, it is known which calls were to print it. -/
def Sink.print (s : Sink) (p : Print) : Except (Refusal × List Call) Sink :=
  (s.write p.line).mapError (·, p.calls)

/-- Print several lines in order, up to the first one that is refused. -/
def Sink.printAll (s : Sink) (ps : List Print) : Except (Refusal × List Call) Sink :=
  ps.foldlM print s

/-- What is printed without a source. -/
structure FixedText where
  /-- What is printed on standard error, ahead of the text. -/
  notice : String
  prints : List Print
  /-- The exit status when all lines are taken. -/
  status : Nat
  deriving DecidableEq

namespace FixedText

/-- A call of a function of the program, and the place it has come to. -/
def callIn (function : String) (line column : Nat) : Call :=
  ⟨"csslex::" ++ function, .program, "main.rs", line, column⟩

/-- The usage text, printed inside of some calls. Each of its lines has a line of
    the code to itself. -/
def usagePrints (calls : List Call) : List Print :=
  usageLines.zipIdx.map fun (line, i) => ⟨line, callIn "print_usage" (93 + i) 5 :: calls⟩

/-- The usage text when nothing is asked for. -/
def nothing : FixedText := ⟨"", usagePrints [callIn "main" 15 9], 0⟩

/-- The usage text when it is asked for. -/
def help : FixedText := ⟨"", usagePrints [callIn "run" 76 13, callIn "main" 19 11], 0⟩

/-- The version. -/
def version : FixedText :=
  ⟨"", [⟨versionLine, [callIn "run" 80 13, callIn "main" 19 11]⟩], 0⟩

/-- The usage text when something else is asked for. -/
def unknown (name : String) : FixedText :=
  ⟨"Unknown command: " ++ name ++ "\n\n",
    usagePrints [callIn "run" 86 13, callIn "main" 19 11], 2⟩

/-- The lines of a fixed text. -/
def lines (t : FixedText) : List String := t.prints.map Print.line

end FixedText

/-- What the arguments ask for. -/
inductive Command where
  /-- Print a fixed text. -/
  | print (text : FixedText)
  /-- List the tokens of the source at a path. -/
  | list (path : String) (skipTrivia : Bool)
  /-- Check the source at a path. -/
  | check (path : String)
  deriving DecidableEq

namespace Command

/-- Whether an argument is written like an option. -/
def isOption (arg : String) : Bool := ['-', '-'].isPrefixOf arg.toList

/-- The arguments of a listing, from left to right: one path, and an option
    that may be repeated. -/
def parseList (skipTrivia : Bool) (path : Option String) : List String → Except Failure Command
  | [] =>
      match path with
      | some p => .ok (.list p skipTrivia)
      | none => .error (.usage "Usage: csslex lex [--no-trivia] <file.css|->")
  | arg :: args =>
      if arg == "--no-trivia" then parseList true path args
      else if isOption arg then .error (.usage ("unknown option '" ++ arg ++ "' for lex"))
      else match path with
        | none => parseList skipTrivia (some arg) args
        | some _ => .error (.usage ("unexpected argument '" ++ arg ++ "'"))

/-- The arguments of a check: one path, however it is written. -/
def parseCheck : List String → Except Failure Command
  | [path] => .ok (.check path)
  | _ => .error (.usage "Usage: csslex check <file.css|->")

/-- The arguments of the program. -/
def parse : List String → Except Failure Command
  | [] => .ok (.print .nothing)
  | "lex" :: args => parseList false none args
  | "check" :: args => parseCheck args
  | name :: _ =>
      if ["help", "--help", "-h"].contains name then .ok (.print .help)
      else if ["version", "--version", "-v"].contains name then .ok (.print .version)
      else .ok (.print (.unknown name))

/-- The path of the source that a command reads. -/
def path? : Command → Option String
  | .print _ => none
  | .list path _ => some path
  | .check path => some path

end Command

/-- What a run leaves behind. -/
structure Outcome where
  status : Nat
  stdout : ByteArray
  /-- What the program itself has printed on standard error. -/
  notice : String
  /-- Why the run was given up, if it was. -/
  abort : Option Abort

namespace Outcome

/-- All that is printed on standard error, for any launch. -/
def stderrOf (launch : Launch) (o : Outcome) : String :=
  match o.abort with
  | none => o.notice
  | some a => o.notice ++ launch.report a

/-- All that is printed on standard error, for the launch on record. -/
def stderr (o : Outcome) : String := o.stderrOf .recorded

/-- A run that a failure ends, with what it has written. -/
def failed (f : Failure) (written : ByteArray) : Outcome :=
  ⟨f.exitStatus, written, "error: " ++ f.message ++ "\n", none⟩

/-- A run that is given up, with what it has written. -/
def givenUp (a : Abort) (written : ByteArray) (notice : String) : Outcome :=
  ⟨101, written, notice, some a⟩

/-- A run that has written what it had to write, or as much as was taken. -/
def ofWritten (status : Nat) : Except Refusal Sink → Outcome
  | .ok s => ⟨status, s.written, "", none⟩
  | .error r => failed (.write r.error) r.written

/-- A run that has written the rows of a listing as they were made. -/
def ofListing : Listing.Ending Sink Refusal → Outcome
  | .finished _ s => ⟨0, s.written, "", none⟩
  | .refused r => failed (.write r.error) r.written
  | .faulted f s => givenUp (.fault f) s.written ""

/-- A run that has printed a fixed text, or as much as was taken. -/
def ofPrinted (t : FixedText) : Except (Refusal × List Call) Sink → Outcome
  | .ok s => ⟨t.status, s.written, t.notice, none⟩
  | .error (r, calls) => givenUp (.unprinted r.error calls) r.written t.notice

end Outcome

/-- A run of a command. -/
def Command.outcome (c : Command) (env : Surroundings) (stdout : Sink) : Outcome :=
  match c with
  | .print t => .ofPrinted t (stdout.printAll t.prints)
  | .list path skipTrivia =>
      match env.read path with
      | .error f => .failed f .empty
      | .ok text => .ofListing (Listing.writeText text skipTrivia stdout).1
  | .check path =>
      match env.read path with
      | .error f => .failed f .empty
      | .ok text =>
          match Report.ofString text with
          | .error f => .givenUp (.fault f) .empty ""
          | .ok (r, _) => .ofWritten (if r.isClean then 0 else 1) (r.writeTo path stdout)

/-- A run of the program. -/
def run (args : List String) (env : Surroundings) (stdout : Sink) : Outcome :=
  match Command.parse args with
  | .error f => .failed f .empty
  | .ok c => c.outcome env stdout

end CssTokens
