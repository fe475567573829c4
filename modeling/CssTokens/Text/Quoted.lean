import CssTokens.Text.Unseen

/-!
# Quoted Text

How token text is printed on one line of a listing or a report.

The text stands between double quotation marks. Quotation marks and
backslashes in it carry a backslash, four control characters have a letter of
their own, and every other character without a form of its own is given by
its code point in hexadecimal. All else is printed as it is, so the printed
form never holds a line break and the text can be read back from it.

## Main definitions

* `escapeChar`: The printed form of one character.
* `quoted`: The printed form of a text.
* `unescape`: Reading printed characters back, up to the closing quotation
  mark.
* `unquote?`: Reading a printed text back.
-/

namespace CssTokens

/-- A code point in lower-case hexadecimal between braces, after `\u`. -/
def escapeCode (c : Char) : List Char :=
  '\\' :: 'u' :: '\x7b' :: (Nat.toDigits 16 c.toNat ++ ['\x7d'])

/-- The printed form of one character. The apostrophe needs no escape. -/
def escapeChar (c : Char) : List Char :=
  if c == '"' then ['\\', '"']
  else if c == '\\' then ['\\', '\\']
  else if c == '\t' then ['\\', 't']
  else if c == '\n' then ['\\', 'n']
  else if c == '\r' then ['\\', 'r']
  else if c == '\x00' then ['\\', '0']
  else if isUnseen c then escapeCode c
  else [c]

/-- The printed form of a text, between double quotation marks. -/
def quoted (text : String) : String :=
  String.ofList ('"' :: (text.toList.flatMap escapeChar ++ ['"']))

/-- The value of a hexadecimal digit in lower case. -/
def hexValue? (c : Char) : Option Nat :=
  if c.isDigit then some (c.toNat - '0'.toNat)
  else if 'a' ≤ c && c ≤ 'f' then some (c.toNat - 'a'.toNat + 10)
  else none

/-- The number that hexadecimal digits up to a closing brace make, behind the
    digits already read, and what follows the brace. -/
def readCode (n : Nat) : List Char → Option (Nat × List Char)
  | [] => none
  | c :: cs =>
      if c = '\x7d' then some (n, cs)
      else match hexValue? c with
        | some d => readCode (16 * n + d) cs
        | none => none

/-- The character that an escape stands for, behind its backslash, and what
    follows the escape. -/
def readEscape : List Char → Option (Char × List Char)
  | '"' :: cs => some ('"', cs)
  | '\\' :: cs => some ('\\', cs)
  | 't' :: cs => some ('\t', cs)
  | 'n' :: cs => some ('\n', cs)
  | 'r' :: cs => some ('\r', cs)
  | '0' :: cs => some ('\x00', cs)
  | 'u' :: '\x7b' :: cs => (readCode 0 cs).map fun (n, rest) => (Char.ofNat n, rest)
  | _ => none

theorem readCode_shorter {n m : Nat} {cs rest : List Char} (h : readCode n cs = some (m, rest)) :
    rest.length < cs.length := by
  fun_induction readCode n cs with
  | case1 => injection h
  | case2 n cs =>
      injection h with h
      injection h with _ h
      exact h ▸ Nat.lt_succ_self _
  | case3 n c cs hc d hd ih => exact Nat.lt_succ_of_lt (ih h)
  | case4 => injection h

theorem readEscape_shorter {c : Char} {cs rest : List Char}
    (h : readEscape cs = some (c, rest)) : rest.length < cs.length := by
  -- Only a code point takes a varying number of characters; it has a lemma of its own.
  unfold readEscape at h
  split at h
  case h_7 cs =>
    rcases Option.map_eq_some_iff.mp h with ⟨⟨n, r⟩, hr, heq⟩
    injection heq with _ heq
    have := readCode_shorter hr
    subst heq
    simp only [List.length_cons]
    omega
  case h_8 => injection h
  all_goals
    injection h with h
    injection h with _ h
    exact h ▸ Nat.lt_succ_self _

/-- The characters that a printed text stands for, up to the quotation mark
    that closes it, and what follows the mark. -/
def unescape (cs : List Char) : Option (List Char × List Char) :=
  match cs with
  | [] => none
  | '"' :: cs => some ([], cs)
  | '\\' :: cs =>
      match _h : readEscape cs with
      | none => none
      | some (c, rest) => (unescape rest).map fun (ds, rest) => (c :: ds, rest)
  | c :: cs => (unescape cs).map fun (ds, rest) => (c :: ds, rest)
termination_by cs.length
decreasing_by
  · have := readEscape_shorter _h
    simp only [List.length_cons]
    omega
  · simp only [List.length_cons]
    omega

/-- The text that a printed text stands for. -/
def unquote? (text : String) : Option String :=
  match text.toList with
  | '"' :: cs =>
      match unescape cs with
      | some (ds, []) => some (String.ofList ds)
      | _ => none
  | _ => none

end CssTokens
