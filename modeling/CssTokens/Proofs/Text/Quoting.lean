import CssTokens.Text.Quoted

/-!
# Reading Quoted Text Back

A printed text stands for one text only.

Reading undoes printing one character at a time: `unescape` finds the
character that the escape at the front stands for, and goes on behind the
escape (`unescape_escapeChar`). The closing quotation mark cannot be mistaken
for one in the text, because that one carries a backslash. Since reading stops
at the closing mark, a printed text is read back whatever follows it, and a
line that contains one can be taken apart.

## Theorems

* `readCode_toDigits`: A code point in hexadecimal is read back.
* `unescape_escapeChar`: One character is read back.
* `unescape_flatMap`: A text is read back, up to its closing quotation mark.
* `unquote?_quoted`: A printed text is read back.
* `newline_not_mem_quoted`: A printed text has no line feed.
-/

namespace CssTokens

/-- A hexadecimal digit is none of the characters that mean something else. -/
theorem digitChar_ne {n : Nat} {c : Char} (hn : n < 16) (hc : c = '\x7d' ∨ c = '\n') :
    n.digitChar ≠ c := by
  rcases hc with rfl | rfl <;> revert n <;> decide

theorem hexValue?_digitChar {n : Nat} (hn : n < 16) : hexValue? n.digitChar = some n := by
  revert n
  decide

/-- One digit more. -/
theorem readCode_digitChar {n d : Nat} (hd : d < 16) (cs : List Char) :
    readCode n (d.digitChar :: cs) = readCode (16 * n + d) cs := by
  rw [readCode, if_neg (digitChar_ne hd (Or.inl rfl)), hexValue?_digitChar hd]

/-- The digits of a number lead from zero to the number. -/
theorem readCode_toDigits (n : Nat) (cs : List Char) :
    readCode 0 (Nat.toDigits 16 n ++ cs) = readCode n cs := by
  -- The last digit comes off the end, so the induction is on the number.
  induction n using Nat.strongRecOn generalizing cs with
  | ind n ih =>
      by_cases hn : n < 16
      · rw [Nat.toDigits_of_lt_base hn, List.singleton_append, readCode_digitChar hn,
          Nat.mul_zero, Nat.zero_add]
      · have hn : 16 ≤ n := Nat.le_of_not_lt hn
        have hdiv : 16 * (n / 16) + n % 16 = n := Nat.div_add_mod n 16
        rw [Nat.toDigits_of_base_le (by decide) hn, List.append_assoc, ih (n / 16) (by omega),
          List.singleton_append, readCode_digitChar (Nat.mod_lt n (by decide)), hdiv]

/-- The escape of a code point is read back. -/
theorem readEscape_escapeCode (c : Char) (cs : List Char) :
    readEscape ('u' :: '\x7b' :: (Nat.toDigits 16 c.toNat ++ '\x7d' :: cs)) = some (c, cs) := by
  rw [readEscape, readCode_toDigits, readCode, if_pos rfl, Option.map_some]
  dsimp only
  rw [Char.ofNat_toNat]

theorem unescape_quote (cs : List Char) : unescape ('"' :: cs) = some ([], cs) := by
  rw [unescape]

theorem unescape_backslash {c : Char} {cs rest : List Char}
    (h : readEscape cs = some (c, rest)) :
    unescape ('\\' :: cs) = (unescape rest).map fun (ds, rest) => (c :: ds, rest) := by
  rw [unescape]
  split
  · next hnone =>
      rw [h] at hnone
      injection hnone
  · next d r hsome =>
      rw [h] at hsome
      injection hsome with hsome
      injection hsome with hc hrest
      rw [hc, hrest]

theorem unescape_other {c : Char} (hquote : c ≠ '"') (hslash : c ≠ '\\') (cs : List Char) :
    unescape (c :: cs) = (unescape cs).map fun (ds, rest) => (c :: ds, rest) := by
  rw [unescape]
  · exact hquote
  · exact hslash

/-- The characters that are printed as a letter behind a backslash. -/
def lettered : List Char := ['"', '\\', '\t', '\n', '\r', '\x00']

theorem escapeChar_of_not_mem {c : Char} (h : c ∉ lettered) :
    escapeChar c = if isUnseen c then escapeCode c else [c] := by
  simp only [lettered, List.mem_cons, List.not_mem_nil, or_false, not_or] at h
  unfold escapeChar
  simp [h]

/-- One character is read back. -/
theorem unescape_escapeChar (c : Char) (cs : List Char) :
    unescape (escapeChar c ++ cs) = (unescape cs).map fun (ds, rest) => (c :: ds, rest) := by
  by_cases hletter : c ∈ lettered
  · simp only [lettered, List.mem_cons, List.not_mem_nil, or_false] at hletter
    rcases hletter with rfl | rfl | rfl | rfl | rfl | rfl <;> exact unescape_backslash rfl
  · rw [escapeChar_of_not_mem hletter]
    split
    · simp only [escapeCode, List.cons_append, List.append_assoc, List.nil_append]
      exact unescape_backslash (readEscape_escapeCode c cs)
    · -- The character stands for itself.
      have hquote : c ≠ '"' := fun h => hletter (h ▸ by decide)
      have hslash : c ≠ '\\' := fun h => hletter (h ▸ by decide)
      exact unescape_other hquote hslash cs

/-- A text is read back, up to its closing quotation mark. -/
theorem unescape_flatMap (cs rest : List Char) :
    unescape (cs.flatMap escapeChar ++ '"' :: rest) = some (cs, rest) := by
  induction cs with
  | nil => exact unescape_quote rest
  | cons c cs ih =>
      rw [List.flatMap_cons, List.append_assoc, unescape_escapeChar, ih]
      rfl

/-- A printed text is read back. -/
theorem unquote?_quoted (text : String) : unquote? (quoted text) = some text := by
  have hread := unescape_flatMap text.toList []
  simp [unquote?, quoted, hread]

theorem newline_not_mem_toDigits (n : Nat) : '\n' ∉ Nat.toDigits 16 n := by
  induction n using Nat.strongRecOn with
  | ind n ih =>
      by_cases hn : n < 16
      · rw [Nat.toDigits_of_lt_base hn, List.mem_singleton]
        exact (digitChar_ne hn (Or.inr rfl)).symm
      · have hn : 16 ≤ n := Nat.le_of_not_lt hn
        rw [Nat.toDigits_of_base_le (by decide) hn, List.mem_append, List.mem_singleton, not_or]
        exact ⟨ih (n / 16) (by omega),
          (digitChar_ne (Nat.mod_lt n (by decide)) (Or.inr rfl)).symm⟩

theorem newline_not_mem_escapeChar (c : Char) : '\n' ∉ escapeChar c := by
  by_cases hletter : c ∈ lettered
  · simp only [lettered, List.mem_cons, List.not_mem_nil, or_false] at hletter
    rcases hletter with rfl | rfl | rfl | rfl | rfl | rfl <;> simp [escapeChar]
  · rw [escapeChar_of_not_mem hletter]
    split
    · simp [escapeCode, newline_not_mem_toDigits]
    · rw [List.mem_singleton]
      rintro rfl
      exact hletter (by decide)

/-- A printed text has no line feed. -/
theorem newline_not_mem_quoted (text : String) : '\n' ∉ (quoted text).toList := by
  rw [quoted, String.toList_ofList]
  simp [newline_not_mem_escapeChar]

end CssTokens
