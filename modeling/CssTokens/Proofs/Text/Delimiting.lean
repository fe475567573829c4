import CssTokens.Proofs.Text.Quoting

/-!
# Texts That End by Themselves

When printed things can stand one behind the other and still be told apart.

`SelfDelimiting` says that nothing printed is a proper front of anything else
printed. Then a reader who has come to the end of one thing knows it without
looking at what follows. Such forms can be put side by side, and lists of them
written one behind the other, and each time the whole determines its parts.
A quoted text is such a form. A word or a number is not, but it becomes one
together with the space behind it (`append_cons_inj`).

## Main definitions

* `SelfDelimiting`: What is printed shows where it ends.
* `digitsThen`: A number and the character behind it.

## Theorems

* `SelfDelimiting.append`, `SelfDelimiting.append_const`: Forms side by side.
* `SelfDelimiting.flatMap_inj`: Forms one behind the other.
* `append_cons_inj`, `selfDelimiting_word`: A run of characters and the one
  that ends it.
* `selfDelimiting_quoted`: Quoted text.
* `toDigits_inj`, `selfDelimiting_digitsThen`: A number is known by its decimal
  digits, and it ends at the character behind them.
-/

namespace CssTokens

/-- What is printed shows where it ends: two printed forms that begin the same
    text are those of the same thing. -/
def SelfDelimiting {α : Type} (f : α → List Char) : Prop :=
  ∀ a b r s, f a ++ r = f b ++ s → a = b ∧ r = s

namespace SelfDelimiting

variable {α β : Type} {f : α → List Char} {g : β → List Char}

/-- Two forms side by side. -/
theorem append (hf : SelfDelimiting f) (hg : SelfDelimiting g) :
    SelfDelimiting fun x : α × β => f x.1 ++ g x.2 := by
  intro x y r s h
  simp only [List.append_assoc] at h
  rcases hf _ _ _ _ h with ⟨hfst, h⟩
  rcases hg _ _ _ _ h with ⟨hsnd, hrest⟩
  exact ⟨Prod.ext hfst hsnd, hrest⟩

/-- A form with the same characters behind it each time. -/
theorem append_const (hf : SelfDelimiting f) (cs : List Char) :
    SelfDelimiting fun a => f a ++ cs := by
  intro a b r s h
  simp only [List.append_assoc] at h
  rcases hf _ _ _ _ h with ⟨hab, h⟩
  exact ⟨hab, List.append_cancel_left h⟩

/-- A form with the same characters in front of it each time. -/
theorem const_append (hf : SelfDelimiting f) (cs : List Char) :
    SelfDelimiting fun a => cs ++ f a := by
  intro a b r s h
  simp only [List.append_assoc] at h
  exact hf _ _ _ _ (List.append_cancel_left h)

/-- The form of a part that determines the whole. -/
theorem comp (hf : SelfDelimiting f) {i : β → α} (hi : ∀ a b, i a = i b → a = b) :
    SelfDelimiting fun b => f (i b) := by
  intro a b r s h
  rcases hf _ _ _ _ h with ⟨hab, hrest⟩
  exact ⟨hi a b hab, hrest⟩

/-- Forms one behind the other determine the list of things. -/
theorem flatMap_inj (hf : SelfDelimiting f) (hne : ∀ a, f a ≠ []) {xs ys : List α}
    (h : xs.flatMap f = ys.flatMap f) : xs = ys := by
  -- The first form shows where it ends, which leaves the forms of the rest. That no form
  -- is empty rules out lists of two lengths.
  induction xs generalizing ys with
  | nil =>
      cases ys with
      | nil => rfl
      | cons y ys =>
          rw [List.flatMap_nil, List.flatMap_cons] at h
          exact absurd (List.append_eq_nil_iff.mp h.symm).1 (hne y)
  | cons x xs ih =>
      cases ys with
      | nil =>
          rw [List.flatMap_nil, List.flatMap_cons] at h
          exact absurd (List.append_eq_nil_iff.mp h).1 (hne x)
      | cons y ys =>
          rw [List.flatMap_cons, List.flatMap_cons] at h
          rcases hf _ _ _ _ h with ⟨rfl, hrest⟩
          rw [ih hrest]

end SelfDelimiting

/-- A run of characters in a class and the first one that is not in it. -/
theorem append_cons_inj {test : Char → Bool} {t u r s : List Char} {c d : Char}
    (ht : ∀ x ∈ t, test x = true) (hu : ∀ x ∈ u, test x = true) (hc : test c = false)
    (hd : test d = false) (h : t ++ c :: r = u ++ d :: s) : t = u ∧ c :: r = d :: s := by
  have hrun := congrArg (List.takeWhile test) h
  rw [List.takeWhile_append_of_pos ht, List.takeWhile_append_of_pos hu,
    List.takeWhile_cons_of_neg (Bool.eq_false_iff.mp hc),
    List.takeWhile_cons_of_neg (Bool.eq_false_iff.mp hd), List.append_nil, List.append_nil] at hrun
  subst hrun
  exact ⟨rfl, List.append_cancel_left h⟩

/-- A word in a class, and a character behind it that is not in the class. -/
theorem selfDelimiting_word {α : Type} {f : α → List Char} {test : Char → Bool} {c : Char}
    (hf : ∀ a, ∀ x ∈ f a, test x = true) (hc : test c = false)
    (hinj : ∀ a b, f a = f b → a = b) : SelfDelimiting fun a => f a ++ [c] := by
  intro a b r s h
  simp only [List.append_assoc, List.singleton_append] at h
  rcases append_cons_inj (hf a) (hf b) hc hc h with ⟨hword, hrest⟩
  injection hrest with _ hrest
  exact ⟨hinj a b hword, hrest⟩

theorem selfDelimiting_quoted : SelfDelimiting fun text => (quoted text).toList := by
  intro t u r s h
  simp only [quoted, String.toList_ofList, List.cons_append, List.append_assoc, List.nil_append,
    List.cons.injEq, true_and] at h
  -- What is read back is the text and what follows it.
  have hread := congrArg unescape h
  rw [unescape_flatMap, unescape_flatMap, Option.some.injEq, Prod.mk.injEq, String.toList_inj]
    at hread
  exact hread

/-- A number is known by its decimal digits. -/
theorem toDigits_inj {n m : Nat} (h : Nat.toDigits 10 n = Nat.toDigits 10 m) : n = m := by
  have hvalue := congrArg (fun cs => Nat.ofDigitChars 10 cs 0) h
  simp only [Nat.ofDigitChars_ten_toDigits] at hvalue
  exact hvalue

/-- A number and the character behind it. -/
def digitsThen (n : Nat) (c : Char) : List Char := Nat.toDigits 10 n ++ [c]

/-- A number shows where it ends by a character that is no digit. -/
theorem selfDelimiting_digitsThen {c : Char} (hc : c.isDigit = false) :
    SelfDelimiting fun n => digitsThen n c := by
  have hdigits (n : Nat) : ∀ x ∈ Nat.toDigits 10 n, x.isDigit = true :=
    fun x hx => Nat.isDigit_of_mem_toDigits (by decide) (by decide) hx
  exact selfDelimiting_word hdigits hc fun n m h => toDigits_inj h

/-- Decimal digits begin with a digit. -/
theorem toDigits_eq_cons (n : Nat) :
    ∃ c cs, Nat.toDigits 10 n = c :: cs ∧ c.isDigit = true := by
  cases h : Nat.toDigits 10 n with
  | nil => exact absurd h Nat.toDigits_ne_nil
  | cons c cs =>
      have hmem : c ∈ Nat.toDigits 10 n := h ▸ List.mem_cons_self
      exact ⟨c, cs, rfl, Nat.isDigit_of_mem_toDigits (by decide) (by decide) hmem⟩

end CssTokens
