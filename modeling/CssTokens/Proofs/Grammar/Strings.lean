import CssTokens.Grammar
import CssTokens.Proofs.Plain.Rules

/-!
# The Grammar of Strings

How the rest of a string, behind its opening quote, is made up.

A string has a body, in which each line break has a backslash right before it,
and one of four ends: its quote, a line break that is not protected, the end
of the text, or a last backslash that stays outside. `StringEnd` lists them.
Reading finds one of them, and each of them is what reading finds. Both
directions go along the body, two characters at a time where a backslash
protects a line break.

## Main definitions

* `StringEnd`: The characters up to the end of a string, by how it ends.

## Theorems

* `IsStringBody.cons`, `IsStringBody.escape`: A body grows at its front.
* `IsStringBody.of_cons`, `IsStringBody.of_escape`: And shrinks there.
* `StringEnd.covers`, `stringEnd_of_covers`: The grammar of string tokens.
* `Plain.stringEnd_stringRest`: Reading finds a string of the grammar.
* `Plain.stringRest_append`: Reading passes over a body.
* `Plain.stringRest_of_stringEnd`: Reading finds every string of the grammar.
-/

namespace CssTokens

theorem getLast?_cons_of_getLast? {α : Type} {a b : α} {as : List α} (h : as.getLast? = some b) :
    (a :: as).getLast? = some b := by
  rw [List.getLast?_cons, h, Option.getD_some]

theorem IsStringBody.nil (quote : Char) : IsStringBody quote [] := by
  refine ⟨List.not_mem_nil, ?_⟩
  intro before c after heq _
  exact absurd heq.symm (List.append_ne_nil_of_right_ne_nil before (List.cons_ne_nil c after))

theorem IsStringBody.cons {quote c : Char} {body : List Char} (hq : c ≠ quote)
    (hc : isNewline c = false) (hb : IsStringBody quote body) : IsStringBody quote (c :: body) := by
  refine ⟨?_, ?_⟩
  · rw [List.mem_cons]
    rintro (rfl | hmem)
    · exact hq rfl
    · exact hb.1 hmem
  · intro before d after heq hd
    -- A line break at the front is excluded; one behind it is protected as
    -- in the body.
    cases before with
    | nil =>
        injection heq with hcd _
        rw [hcd, hd] at hc
        injection hc
    | cons e before =>
        injection heq with _ heq
        exact getLast?_cons_of_getLast? (hb.2 before d after heq hd)

theorem IsStringBody.escape {quote d : Char} {body : List Char} (hq : isQuote quote = true)
    (hd : isNewline d = true) (hb : IsStringBody quote body) :
    IsStringBody quote ('\\' :: d :: body) := by
  rcases isQuote_spec hq with ⟨_, _, hslash, hline⟩
  refine ⟨?_, ?_⟩
  · rw [List.mem_cons, List.mem_cons]
    rintro (rfl | rfl | hmem)
    · exact hslash rfl
    · rw [hd] at hline
      injection hline
    · exact hb.1 hmem
  · intro before e after heq he
    -- The backslash is no line break, the line break behind it is protected
    -- by it, and all others are as in the body.
    cases before with
    | nil =>
        injection heq with hcd _
        rw [← hcd] at he
        injection he
    | cons a before =>
        injection heq with ha heq
        rw [← ha]
        cases before with
        | nil => rfl
        | cons b before =>
            injection heq with _ heq
            exact getLast?_cons_of_getLast?
              (getLast?_cons_of_getLast? (hb.2 before e after heq he))

/-- The first character of a body is not a line break. -/
theorem IsStringBody.head {quote c : Char} {body : List Char}
    (hb : IsStringBody quote (c :: body)) : c ≠ quote ∧ isNewline c = false := by
  refine ⟨?_, ?_⟩
  · rintro rfl
    exact hb.1 List.mem_cons_self
  · rw [Bool.eq_false_iff]
    intro hc
    have := hb.2 [] c body rfl hc
    injection this

/-- A body shrinks at its front, if that takes no protection from a line
    break. -/
theorem IsStringBody.of_cons {quote c : Char} {body : List Char}
    (hb : IsStringBody quote (c :: body))
    (hc : c = '\\' → Plain.starts isNewline body = false) : IsStringBody quote body := by
  refine ⟨fun hmem => hb.1 (List.mem_cons_of_mem c hmem), ?_⟩
  intro before d after heq hd
  have hlast := hb.2 (c :: before) d after (by rw [heq]; rfl) hd
  cases before with
  | nil =>
      rw [List.getLast?_singleton, Option.some.injEq] at hlast
      have hstart := hc hlast
      rw [heq] at hstart
      exact absurd hd (Bool.eq_false_iff.mp hstart)
  | cons e before =>
      rw [List.getLast?_cons_cons] at hlast
      exact hlast

theorem IsStringBody.of_escape {quote d : Char} {body : List Char} (hd : isNewline d = true)
    (hb : IsStringBody quote ('\\' :: d :: body)) : IsStringBody quote body := by
  refine ⟨fun hmem => hb.1 (List.mem_cons_of_mem _ (List.mem_cons_of_mem d hmem)), ?_⟩
  intro before e after heq he
  have hlast := hb.2 ('\\' :: d :: before) e after (by rw [heq]; rfl) he
  rw [List.getLast?_cons_cons] at hlast
  cases before with
  | nil =>
      rw [List.getLast?_singleton, Option.some.injEq] at hlast
      exact absurd hlast (ne_backslash_of_isNewline hd)
  | cons a before =>
      rw [List.getLast?_cons_cons] at hlast
      exact hlast

/-- The characters up to the end of a string, behind its opening quote, and
    those that follow: by how the string ends. -/
inductive StringEnd (quote : Char) : Kind → List Char → List Char → Prop where
  /-- The quote. -/
  | closed {body rest : List Char} :
      IsStringBody quote body → StringEnd quote .string (body ++ [quote]) rest
  /-- A line break that nothing protects. -/
  | broken {body rest : List Char} {c : Char} :
      IsStringBody quote body → isNewline c = true → body.getLast? ≠ some '\\' →
      StringEnd quote .badString (body ++ [c]) rest
  /-- The end of the text. -/
  | cut {body : List Char} :
      IsStringBody quote body → body.getLast? ≠ some '\\' → StringEnd quote .string body []
  /-- The last backslash of the text, which stays outside. -/
  | beforeBackslash {body : List Char} :
      IsStringBody quote body → StringEnd quote .string body ['\\']

theorem getLast?_cons_ne {c : Char} {body : List Char} (hc : c = '\\' → body ≠ [])
    (hb : body.getLast? ≠ some '\\') : (c :: body).getLast? ≠ some '\\' := by
  cases body with
  | nil =>
      rw [List.getLast?_singleton, Ne, Option.some.injEq]
      intro heq
      exact hc heq rfl
  | cons d body =>
      rw [List.getLast?_cons_cons]
      exact hb

/-- One character more in front of the body, which does not take part in what
    follows it. -/
theorem StringEnd.cons {quote c : Char} {k : Kind} {t r : List Char} (hq : c ≠ quote)
    (hc : isNewline c = false)
    (hs : c = '\\' → ∃ d ds, t ++ r = d :: ds ∧ isNewline d = false)
    (h : StringEnd quote k t r) : StringEnd quote k (c :: t) r := by
  -- Only a backslash at the end of the body could protect what follows, and
  -- then something follows that it does not protect.
  cases h with
  | closed hb => exact .closed (hb.cons hq hc)
  | @broken body rest e hb he hl =>
      refine .broken (hb.cons hq hc) he (getLast?_cons_ne ?_ hl)
      rintro hslash rfl
      rcases hs hslash with ⟨d, ds, heq, hd⟩
      injection heq with hed
      rw [hed, hd] at he
      injection he
  | cut hb hl =>
      refine .cut (hb.cons hq hc) (getLast?_cons_ne ?_ hl)
      rintro hslash rfl
      rcases hs hslash with ⟨d, ds, heq, _⟩
      injection heq
  | beforeBackslash hb => exact .beforeBackslash (hb.cons hq hc)

/-- A line break with its backslash more in front of the body. -/
theorem StringEnd.escape {quote d : Char} {k : Kind} {t r : List Char}
    (hq : isQuote quote = true) (hd : isNewline d = true) (h : StringEnd quote k t r) :
    StringEnd quote k ('\\' :: d :: t) r := by
  have hne := ne_backslash_of_isNewline hd
  have hlast {body : List Char} (hl : body.getLast? ≠ some '\\') :
      ('\\' :: d :: body).getLast? ≠ some '\\' :=
    getLast?_cons_ne (fun _ => List.cons_ne_nil d body)
      (getLast?_cons_ne (fun heq => absurd heq hne) hl)
  cases h with
  | closed hb => exact .closed (hb.escape hq hd)
  | broken hb he hl => exact .broken (hb.escape hq hd) he (hlast hl)
  | cut hb hl => exact .cut (hb.escape hq hd) (hlast hl)
  | beforeBackslash hb => exact .beforeBackslash (hb.escape hq hd)

theorem StringEnd.covers {quote : Char} {k : Kind} {t r : List Char} (hq : isQuote quote = true)
    (h : StringEnd quote k t r) : Covers k (quote :: t) r := by
  cases h with
  | closed hb => exact ⟨quote, _, hq, hb, Or.inl rfl⟩
  | broken hb hc hl => exact ⟨quote, _, _, hq, hb, hc, rfl, hl⟩
  | cut hb hl => exact ⟨quote, _, hq, hb, Or.inr ⟨rfl, Or.inl ⟨rfl, hl⟩⟩⟩
  | beforeBackslash hb => exact ⟨quote, _, hq, hb, Or.inr ⟨rfl, Or.inr rfl⟩⟩

theorem stringEnd_of_covers {k : Kind} {cs r : List Char} (hk : k = .string ∨ k = .badString)
    (h : Covers k cs r) :
    ∃ quote t, cs = quote :: t ∧ isQuote quote = true ∧ StringEnd quote k t r := by
  rcases hk with rfl | rfl
  · rcases h with ⟨quote, body, hq, hb, rfl | ⟨rfl, ⟨rfl, hl⟩ | rfl⟩⟩
    · exact ⟨quote, body ++ [quote], rfl, hq, .closed hb⟩
    · exact ⟨quote, body, rfl, hq, .cut hb hl⟩
    · exact ⟨quote, body, rfl, hq, .beforeBackslash hb⟩
  · rcases h with ⟨quote, body, c, hq, hb, hc, rfl, hl⟩
    exact ⟨quote, body ++ [c], rfl, hq, .broken hb hc hl⟩

namespace Plain

/-- Reading finds a string of the grammar. -/
theorem stringEnd_stringRest {quote : Char} (hq : isQuote quote = true) (cs : List Char) :
    StringEnd quote (stringRest quote cs).1 (cs.take (stringRest quote cs).2)
      (cs.drop (stringRest quote cs).2) := by
  -- The induction is on the reading: each way it goes on is a way to grow.
  fun_induction stringRest quote cs with
  | case1 => exact .cut (.nil quote) (by decide)
  | case2 cs => exact .closed (.nil quote)
  | case3 c cs hne hc => exact .broken (.nil quote) hc (by decide)
  | case4 => exact .beforeBackslash (.nil quote)
  | case5 d ds hd hne hc r ih => exact ih.escape hq hd
  | case6 d ds hd r hne hc ih =>
      refine ih.cons hne (by decide) fun _ => ⟨d, ds, ?_, Bool.eq_false_iff.mpr hd⟩
      exact List.take_append_drop ..
  | case7 c cs hne hc hother r ih =>
      exact ih.cons hne (Bool.eq_false_iff.mpr hc) fun heq => absurd heq hother

/-- Reading passes over a body, if what follows is not protected by it. -/
theorem stringRest_append {quote : Char} (hq : isQuote quote = true) {body r : List Char}
    (hb : IsStringBody quote body)
    (hr : body.getLast? = some '\\' → ∃ d ds, r = d :: ds ∧ isNewline d = false) :
    stringRest quote (body ++ r) =
      ((stringRest quote r).1, (stringRest quote r).2 + body.length) := by
  have hslash := (isQuote_spec hq).2.2.1.symm
  -- The induction is on the reading of the body alone, which sees the same
  -- characters until the body is over.
  fun_induction stringRest quote body with
  | case1 => rfl
  | case2 cs => exact absurd List.mem_cons_self hb.1
  | case3 c cs hne hc =>
      rw [hb.head.2] at hc
      injection hc
  | case4 =>
      -- The last backslash of the body meets what follows.
      rcases hr rfl with ⟨d, ds, rfl, hd⟩
      exact stringRest_backslash hslash hd ds
  | case5 d ds hd hne hc _ ih =>
      have hlast (hl : ds.getLast? = some '\\') :=
        hr (getLast?_cons_of_getLast? (getLast?_cons_of_getLast? hl))
      rw [List.cons_append, List.cons_append, stringRest_escape hslash hd,
        ih (hb.of_escape hd) hlast]
      rfl
  | case6 d ds hd _ hne hc ih =>
      have hd : isNewline d = false := Bool.eq_false_iff.mpr hd
      rw [List.cons_append, List.cons_append, stringRest_backslash hslash hd, ← List.cons_append,
        ih (hb.of_cons fun _ => hd) fun hl => hr (getLast?_cons_of_getLast? hl)]
      rfl
  | case7 c cs hne hc hother _ ih =>
      have hstop : isStop quote c = false := by
        rw [isStop, Bool.or_eq_false_iff, Bool.or_eq_false_iff, beq_eq_false_iff_ne,
          beq_eq_false_iff_ne]
        exact ⟨⟨hne, hother⟩, Bool.eq_false_iff.mpr hc⟩
      rw [List.cons_append, stringRest_other hstop,
        ih (hb.of_cons fun heq => absurd heq hother) fun hl => hr (getLast?_cons_of_getLast? hl)]
      rfl

/-- Reading finds every string of the grammar. -/
theorem stringRest_of_stringEnd {quote : Char} {k : Kind} {t r : List Char}
    (hq : isQuote quote = true) (h : StringEnd quote k t r) :
    stringRest quote (t ++ r) = (k, t.length) := by
  rcases isQuote_spec hq with ⟨_, _, hslash, hline⟩
  -- Past the body one character decides, or the end of the text.
  cases h with
  | closed hb =>
      rw [List.append_assoc, List.singleton_append,
        stringRest_append hq hb fun _ => ⟨quote, r, rfl, hline⟩, stringRest_quote,
        List.length_append, Nat.add_comm]
      rfl
  | @broken body _ c hb hc hl =>
      have hne : c ≠ quote := by
        rintro rfl
        rw [hc] at hline
        injection hline
      rw [List.append_assoc, List.singleton_append,
        stringRest_append hq hb fun h => absurd h hl, stringRest_newline hne hc,
        List.length_append, Nat.add_comm]
      rfl
  | cut hb hl =>
      rw [stringRest_append hq hb fun h => absurd h hl, stringRest, Nat.zero_add]
  | beforeBackslash hb =>
      rw [stringRest_append hq hb fun _ => ⟨'\\', [], rfl, by decide⟩,
        stringRest_last_backslash hslash.symm, Nat.zero_add]

end Plain

end CssTokens
