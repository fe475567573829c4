/-!
# Failures

Why a command stops before its work is done.

Tokenizing cannot fail, so all failures arise at the edge of the program: in
the arguments, in reading the input, in writing the output. What the system
says about a failed operation is a text and, where the wording of a failure
depends on it, a cause.

## Main definitions

* `Cause`, `SystemError`: What the system says.
* `Failure`: What a command says.
* `Failure.message`: The wording.
* `Failure.exitStatus`: The exit status, which is the same for all failures.
-/

namespace CssTokens

/-- The causes of a failed operation that are told apart. -/
inductive Cause where
  | notFound
  | permissionDenied
  /-- The bytes that were read are not UTF-8. -/
  | invalidText
  | other
  deriving DecidableEq

/-- What the system says about a failed operation. -/
structure SystemError where
  cause : Cause
  text : String
  deriving DecidableEq

/-- Why a command stops. -/
inductive Failure where
  /-- The arguments are missing or malformed. -/
  | usage (text : String)
  /-- The input could not be read as text. -/
  | read (path : String) (error : SystemError)
  /-- The output could not be written. -/
  | write (error : SystemError)
  deriving DecidableEq

namespace Failure

/-- The wording of a failure. -/
def message : Failure → String
  | .usage text => text
  | .read path error =>
      match error.cause with
      | .notFound => "cannot find file '" ++ path ++ "'"
      | .permissionDenied => "permission denied reading '" ++ path ++ "'"
      | .invalidText => "'" ++ path ++ "' contains invalid UTF-8 data"
      | .other => "error reading '" ++ path ++ "': " ++ error.text
  | .write error => "failed to write output: " ++ error.text

/-- What the system said, if the failure came from there. -/
def systemError? : Failure → Option SystemError
  | .usage _ => none
  | .read _ error => some error
  | .write error => some error

/-- The exit status of a failure. Status 1 is for what a check finds. -/
def exitStatus : Failure → Nat := fun _ => 2

end Failure

end CssTokens
