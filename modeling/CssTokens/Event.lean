import CssTokens.Token

/-!
# Events

What a run tells an observer, apart from its output.

An event names what happened and carries the numbers and texts that belong to
it. Every token that is read is an event, and those of a soft kind are more
severe events, with their text. A command adds one event when it is done, and a
check warns before it if it cannot put its source together again.

Only what is told of the tokens of a text is kept. The one event that is told of
an input, its path and size, and the spans that say which command an event
belongs to are left out: neither depends on a token.

## Main definitions

* `Severity`, `Topic`: How grave an event is, and which part tells it.
* `Event`: What happened.
* `Event.fields`: The named values of an event, as text.
* `Level`, `Event.reaches`: What an observer asks for, and is told.
-/

namespace CssTokens

/-- How grave an event is. -/
inductive Severity where
  | warn
  | debug
  | trace
  deriving DecidableEq

/-- How much an observer asks for. Warnings are told at either level. -/
inductive Level where
  | debug
  | trace
  deriving DecidableEq

/-- Which part of the program tells an event. -/
inductive Topic where
  | reading
  | listing
  | checking
  deriving DecidableEq

/-- What happened. -/
inductive Event where
  /-- A token was read. -/
  | token (kind : Kind) (offset length : Nat)
  /-- A token of a soft kind was read. -/
  | softFailure (kind : Kind) (offset : Nat) (text : String)
  /-- A listing is done. -/
  | listed (tokens : Nat) (skipTrivia : Bool)
  /-- The texts of the tokens do not reproduce the source. -/
  | lossy (inputLength rebuiltLength : Nat)
  /-- A check is done. -/
  | checked (tokens findings issues : Nat)
  deriving DecidableEq

namespace Event

/-- The event of a token that was read at an offset. -/
def ofToken (offset : Nat) (t : Token) : Event :=
  if t.kind.isSoftFailure then .softFailure t.kind offset t.text
  else .token t.kind offset t.byteLength

/-- The severity of an event. -/
def severity : Event → Severity
  | .token .. => .trace
  | .lossy .. => .warn
  | _ => .debug

/-- The level that an observer must ask for at the least to be told. -/
def level (e : Event) : Level :=
  match e.severity with
  | .trace => .trace
  | .debug | .warn => .debug

/-- The part that tells an event. -/
def topic : Event → Topic
  | .token .. | .softFailure .. => .reading
  | .listed .. => .listing
  | .lossy .. | .checked .. => .checking

/-- The wording of an event. -/
def message : Event → String
  | .token .. => "token"
  | .softFailure .. => "soft failure"
  | .listed .. => "lex finished"
  | .lossy .. => "token text does not reproduce the input"
  | .checked .. => "check finished"

/-- The named values of an event, as text. -/
def fields (e : Event) : List (String × String) :=
  ("message", e.message) ::
    match e with
    | .token kind offset length =>
        [("kind", kind.name), ("pos", Nat.repr offset), ("len", Nat.repr length)]
    | .softFailure kind offset text =>
        [("kind", kind.name), ("pos", Nat.repr offset), ("text", quoted text)]
    | .listed tokens skipTrivia =>
        [("tokens", Nat.repr tokens), ("skip_trivia", if skipTrivia then "true" else "false")]
    | .lossy inputLength rebuiltLength =>
        [("input_len", Nat.repr inputLength), ("rebuilt_len", Nat.repr rebuiltLength)]
    | .checked tokens findings issues =>
        [("tokens", Nat.repr tokens), ("findings", Nat.repr findings),
          ("encoding_issues", Nat.repr issues)]

/-- Whether an observer of a level is told of an event. The trace level is
    told of everything. -/
def reaches (e : Event) : Level → Bool
  | .trace => true
  | .debug => e.level == .debug

end Event

end CssTokens
