import CssTokens.Input.Directory

/-!
# Input

Where a command takes its source from.

A source is a file or, for the path `-`, the standard input. Either way all
of its bytes are taken, and they must be UTF-8: nothing is left out at the
start and no line end is changed. What the system hands out is a parameter: any
path may have bytes or an error, and so may the standard input. A directory is
one such file system, and bytes are one such standard input.

## Main definitions

* `decode`: Bytes as text.
* `FileSystem`, `StandardInput`: What the system hands out.
* `Surroundings`: The files and the standard input of a run.
* `Surroundings.read`: The text at a path.
-/

namespace CssTokens

/-- The error of bytes that are not UTF-8. -/
def notText : SystemError := ⟨.invalidText, "stream did not contain valid UTF-8"⟩

/-- Bytes as text. -/
def decode (bytes : ByteArray) : Except SystemError String :=
  match String.fromUTF8? bytes with
  | some text => .ok text
  | none => .error notText

/-- What the system hands out at each path: bytes, or an error. -/
structure FileSystem where
  read : String → Except SystemError ByteArray

/-- A directory hands out its files. -/
instance : Coe Directory FileSystem := ⟨fun d => ⟨d.read⟩⟩

/-- What the standard input holds, or the error of reading it. -/
abbrev StandardInput := Except SystemError ByteArray

/-- A standard input that is over at once. -/
def StandardInput.empty : StandardInput := .ok .empty

instance : Coe ByteArray StandardInput := ⟨.ok⟩

/-- What a run can read. -/
structure Surroundings where
  files : FileSystem
  stdin : StandardInput

/-- No file at all, and nothing on the standard input. -/
def Surroundings.bare : Surroundings := ⟨([] : Directory), .empty⟩

/-- What the system hands out at a path. -/
def Surroundings.handedOut (env : Surroundings) (path : String) : Except SystemError ByteArray :=
  if path == "-" then env.stdin else env.files.read path

/-- The text at a path, or the failure to read it. -/
def Surroundings.read (env : Surroundings) (path : String) : Except Failure String :=
  match env.handedOut path >>= decode with
  | .ok text => .ok text
  | .error e => .error (.read path e)

end CssTokens
