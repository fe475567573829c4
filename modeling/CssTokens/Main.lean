import CssTokens.Command

/-!
# The Program

The command line, run on real files and streams.

Everything that is decided is decided by `Command.parse`, by the loops of a
listing and a report, and by the outcomes; here their inputs are fetched and
their outputs are handed over.

## Main definitions

* `systemError`: What the system says, with the cause that matters.
* `readSource`: The bytes at a path or on standard input, as text.
* `writeLines`, `FixedText.finish`: The two ways to print.
* `main`: The program.
-/

namespace CssTokens

/-- The number of an error, which some calls hand over negated. -/
def errorNumber (code : UInt32) : Nat :=
  if code < 0x80000000 then code.toNat else (0 - code).toNat

/-- What the system says about an error, with the standard wording for the
    errors that reading a path or writing to a device commonly meets. -/
def numbered (cause : Cause) (code : UInt32) (details : String) : SystemError :=
  match errorNumber code with
  | 20 => Directory.notADirectory
  | 21 => Directory.isADirectory
  | 28 => Sink.noSpace
  | 36 => Directory.nameTooLong
  | n => ⟨cause, details ++ " (os error " ++ Nat.repr n ++ ")"⟩

/-- What the system says about a failed operation. -/
def systemError : IO.Error → SystemError
  | .noFileOrDirectory _ code details => numbered .notFound code details
  | .permissionDenied _ code details => numbered .permissionDenied code details
  | .inappropriateType _ code details => numbered .other code details
  | .invalidArgument _ code details => numbered .other code details
  | .resourceExhausted _ code details => numbered .other code details
  | .resourceVanished code details => numbered .other code details
  | .otherError code details => numbered .other code details
  | e => ⟨.other, toString e⟩

/-- All bytes that a stream still holds, after those already read. -/
partial def readAll (input : IO.FS.Stream) (bytes : ByteArray) : IO ByteArray := do
  let chunk ← input.read 65536
  if chunk.isEmpty then return bytes
  readAll input (bytes ++ chunk)

/-- The text at a path, or on standard input for `-`. -/
def readSource (path : String) : IO (Except Failure String) := do
  let bytes : Except SystemError ByteArray ←
    try
      if path == "-" then .ok <$> readAll (← IO.getStdin) .empty
      else .ok <$> IO.FS.readBinFile path
    catch e => pure (.error (systemError e))
  match bytes >>= decode with
  | .ok text => return .ok text
  | .error e => return .error (.read path e)

/-- Print what is left for standard error, and end the run. -/
def Outcome.finish (o : Outcome) : IO UInt32 := do
  (← IO.getStderr).putStr o.stderr
  return o.status.toUInt32

/-- Write lines, and end the run behind them. A line that is refused is a
    failure. -/
def writeLines (lines : List String) (behind : Outcome) : IO UInt32 := do
  try
    let out ← IO.getStdout
    for line in lines do
      out.putStr line
    out.flush
  catch e => return ← (Outcome.failed (.write (systemError e)) .empty).finish
  behind.finish

/-- Print a fixed text. A line that is refused is where the run is given up. -/
def FixedText.finish (t : FixedText) : IO UInt32 := do
  (← IO.getStderr).putStr t.notice
  let out ← IO.getStdout
  for p in t.prints do
    try
      out.putStr p.line
      out.flush
    catch e =>
      return ← (Outcome.givenUp (.unprinted (systemError e) p.calls) .empty "").finish
  return t.status.toUInt32

/-- List the tokens of a text. The rows in front of a fault are written. -/
def finishList (text : String) (skipTrivia : Bool) : IO UInt32 :=
  match (Listing.gather text skipTrivia).1 with
  | .finished _ kept => writeLines (kept.toList.map Located.line) ⟨0, .empty, "", none⟩
  | .faulted f kept =>
      writeLines (kept.toList.map Located.line) (.givenUp (.fault f) .empty "")
  | .refused e => nomatch e

/-- Report on a text. -/
def finishCheck (path text : String) : IO UInt32 :=
  match Report.ofString text with
  | .error f => (Outcome.givenUp (.fault f) .empty "").finish
  | .ok (r, _) => writeLines (r.lines path) ⟨if r.isClean then 0 else 1, .empty, "", none⟩

/-- Go on with the text at a path, if there is one. -/
def withSource (path : String) (next : String → IO UInt32) : IO UInt32 := do
  match ← readSource path with
  | .error f => (Outcome.failed f .empty).finish
  | .ok text => next text

end CssTokens

open CssTokens in
/-- The program. -/
def main (args : List String) : IO UInt32 := do
  match Command.parse args with
  | .error f => (Outcome.failed f .empty).finish
  | .ok (.print t) => t.finish
  | .ok (.list path skipTrivia) => withSource path fun text => finishList text skipTrivia
  | .ok (.check path) => withSource path (finishCheck path)
