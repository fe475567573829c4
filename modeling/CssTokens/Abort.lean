import CssTokens.Failure
import CssTokens.Fault
import CssTokens.Text.Columns

/-!
# Aborted Runs

What is told of a run that is given up.

A run is given up at a fault, and when a line of a fixed text is refused. What
is told of it names the thread and the place in the code, gives the reason, and
lists the calls under way, the innermost first, or says how they can be listed.

The reason and the calls of the program are those of the run. All else depends
on how the program was built and launched, and is a parameter of the report: the
folders of the code, the thread, whether calls are listed at all, and the calls
under way at a fault, which may be met anywhere inside a loop over tokens.

## Main definitions

* `Call`: A function that is under way, and the place it has come to.
* `Abort`, `Abort.message`: Why a run is given up.
* `Launch`: How the program was built and launched.
* `Launch.report`: What is told.
* `Launch.recorded`: The launch whose reports are on record.

## Theorems

* `Launch.exists_report_eq`: The reason has a line of its own.
-/

namespace CssTokens

/-- Whose code a file holds. -/
inductive Origin where
  | library
  | program
  deriving DecidableEq

/-- A function that is under way, and the place in the code it has come to. -/
structure Call where
  function : String
  origin : Origin
  file : String
  line : Nat
  column : Nat
  deriving DecidableEq

/-- Why a run is given up. -/
inductive Abort where
  | fault (f : Fault)
  /-- A line of a fixed text was refused, with the calls of the program that were
      to print it, the innermost first. -/
  | unprinted (e : SystemError) (calls : List Call)
  deriving DecidableEq

/-- The reason in words. A cut inside a character has none of its own. -/
def Abort.message : Abort → String
  | .fault f => f.message?.getD "slice cuts a character"
  | .unprinted e _ => "failed printing to stdout: " ++ e.text

/-- How the program was built and launched. -/
structure Launch where
  /-- Where the code lay that the program was built from. -/
  folder : Origin → String
  /-- The number of the thread. -/
  thread : Nat
  /-- Whether the calls under way are listed. -/
  backtrace : Bool
  /-- The innermost call at a fault, and those around it. -/
  atFault : Fault → Call × List Call

namespace Launch

/-- The calls of the library that give a run up, the innermost first. -/
def givingUp : List Call :=
  [⟨"__rustc::rust_begin_unwind", .library, "std/src/panicking.rs", 679, 5⟩,
    ⟨"core::panicking::panic_fmt", .library, "core/src/panicking.rs", 80, 14⟩]

/-- The call of the library that notices a line that is refused. -/
def refusing : Call :=
  ⟨"std::io::stdio::print_to::<std::io::stdio::Stdout>", .library, "std/src/io/stdio.rs", 1168, 9⟩

/-- The call of the library that prints a line. -/
def printing : Call := ⟨"std::io::stdio::_print", .library, "std/src/io/stdio.rs", 1275, 5⟩

/-- The call of the library that starts the program. -/
def starting : Call :=
  ⟨"<fn() -> std::process::ExitCode as core::ops::function::FnOnce<()>>::call_once", .library,
    "core/src/ops/function.rs", 250, 5⟩

/-- The call that gives a run up, and those around it. -/
def calls (l : Launch) : Abort → Call × List Call
  | .fault f => l.atFault f
  | .unprinted _ calls => (refusing, printing :: calls)

/-- The place that a call has come to. -/
def place (l : Launch) (c : Call) : String :=
  l.folder c.origin ++ "/" ++ c.file ++ ":" ++ Nat.repr c.line ++ ":" ++ Nat.repr c.column

/-- The two lines of a call with its number. -/
def callLines (l : Launch) (c : Call) (number : Nat) : String :=
  alignRight 4 (Nat.repr number) ++ ": " ++ c.function ++ "\n             at " ++ l.place c ++ "\n"

/-- The calls under way, or how they can be listed. -/
def trail (l : Launch) (calls : List Call) : String :=
  if l.backtrace then
    "stack backtrace:\n" ++ String.join (calls.zipIdx.map fun (c, i) => l.callLines c i) ++
      "note: Some details are omitted, run with `RUST_BACKTRACE=full` for a verbose backtrace.\n"
  else "note: run with `RUST_BACKTRACE=1` environment variable to display a backtrace\n"

/-- The thread, and the place that its innermost call has come to. -/
def heading (l : Launch) (first : Call) : String :=
  "\nthread 'main' (" ++ Nat.repr l.thread ++ ") panicked at " ++ l.place first ++ ":"

/-- What is told of a run that is given up. -/
def report (l : Launch) (a : Abort) : String :=
  let (first, others) := l.calls a
  l.heading first ++ "\n" ++ a.message ++ "\n" ++
    l.trail (givingUp ++ first :: others ++ [starting])

/-- The launch whose reports are on record. Of a fault none is, so that nothing is
    known of the calls but the one that all others are inside of. -/
def recorded : Launch where
  folder
    | .library => "/rustc/b940084d7eb6a299eb4bfeb8e34901bc051e7ac4/library"
    | .program => "/".intercalate ["", "root", "workspace", "src", "compiler", "csslex", "src"]
  thread := 4
  backtrace := true
  atFault _ := (⟨"csslex::main", .program, "main.rs", 19, 11⟩, [])

/-- However the program was built and launched, the reason has a line of its
    own. -/
theorem exists_report_eq (l : Launch) (a : Abort) :
    ∃ front back, l.report a = front ++ "\n" ++ a.message ++ "\n" ++ back :=
  ⟨_, _, rfl⟩

end Launch

end CssTokens
