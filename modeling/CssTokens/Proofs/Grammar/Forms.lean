import CssTokens.Grammar
import CssTokens.Proofs.Plain.Rules

/-!
# The Grammar of Names and Numbers

How the runs, names and numbers of a text are made up.

A run in a class is as long as it can be. Reading one from `t ++ r` takes
exactly `t`, if all of `t` is in the class and `r` does not start in it; and
what it takes is always of this form. Names and numbers are put together from
runs, and for each of them there are the same two statements: what reading
finds has the form, and reading finds what has the form.

## Theorems

* `Plain.run_append`, `Plain.forall_take_run`: Runs.
* `Plain.covers_name`, `Plain.name_of_covers`: Names.
* `Plain.isNumeral_numeral`, `Plain.numeral_append`: Numerals.
* `Plain.covers_number`, `Plain.number_of_covers`: Numbers, with what belongs
  to them.
-/

namespace CssTokens

namespace Plain

/-- All of a run is in its class. -/
theorem forall_take_run (test : Char → Bool) (cs : List Char) :
    ∀ c ∈ cs.take (run test cs), test c = true := by
  induction cs with
  | nil =>
      intro c hc
      exact absurd hc List.not_mem_nil
  | cons d cs ih =>
      intro c hc
      by_cases hd : test d = true
      · rw [run_cons hd, List.take_succ_cons, List.mem_cons] at hc
        rcases hc with rfl | hc
        · exact hd
        · exact ih c hc
      · rw [run_cons_of_false (Bool.eq_false_iff.mpr hd), List.take_zero] at hc
        exact absurd hc List.not_mem_nil

/-- A run goes on to its end. -/
theorem run_append {test : Char → Bool} {t r : List Char} (ht : ∀ c ∈ t, test c = true)
    (hr : starts test r = false) : run test (t ++ r) = t.length := by
  induction t with
  | nil =>
      cases r with
      | nil => rfl
      | cons c r => exact run_cons_of_false hr r
  | cons c t ih =>
      rw [List.cons_append, run_cons (ht c List.mem_cons_self), List.length_cons,
        ih fun d hd => ht d (List.mem_cons_of_mem c hd)]

theorem starts_eq_false_of_imp {test test' : Char → Bool} {r : List Char}
    (himp : ∀ c, test c = true → test' c = true) (hr : starts test' r = false) :
    starts test r = false := by
  cases r with
  | nil => rfl
  | cons c r =>
      rw [starts, Bool.eq_false_iff]
      intro hc
      exact Bool.eq_false_iff.mp hr (himp c hc)

theorem isName_take_run {cs : List Char} (hcs : starts isNameStart cs = true) :
    IsName (cs.take (run isNameChar cs)) := by
  cases cs with
  | nil => injection hcs
  | cons c cs =>
      rw [run_cons (isNameChar_of_isNameStart hcs), List.take_succ_cons]
      exact ⟨c, _, rfl, hcs, forall_take_run isNameChar cs⟩

/-- A name starts as one, and all of it is a run. -/
theorem isName_spec {t : List Char} (ht : IsName t) (r : List Char) :
    starts isNameStart (t ++ r) = true ∧ ∀ c ∈ t, isNameChar c = true := by
  rcases ht with ⟨c, ds, rfl, hc, hds⟩
  refine ⟨hc, ?_⟩
  intro d hd
  rcases List.mem_cons.mp hd with rfl | hd
  · exact isNameChar_of_isNameStart hc
  · exact hds d hd

theorem run_isName {t r : List Char} (ht : IsName t) (hr : starts isNameChar r = false) :
    run isNameChar (t ++ r) = t.length :=
  run_append (isName_spec ht r).2 hr

/-- A name that is found has the form that goes with what is behind it. -/
theorem covers_name {cs : List Char} (hcs : starts isNameStart cs = true) :
    Covers (name cs).1 (cs.take (name cs).2) (cs.drop (name cs).2) := by
  have hform := isName_take_run hcs
  have hend := starts_drop_run isNameChar cs
  unfold name
  dsimp only
  by_cases hopen : '(' ∈ (cs.drop (run isNameChar cs)).take 2
  · rw [if_pos hopen]
    cases hurl : isUrl (cs.take (run isNameChar cs)) with
    | true => exact ⟨hform, hend, hopen, hurl⟩
    | false => exact ⟨hform, hend, hopen, hurl⟩
  · rw [if_neg hopen]
    exact ⟨hform, hend, hopen⟩

theorem name_append {t r : List Char} (ht : IsName t) (hr : starts isNameChar r = false) :
    name (t ++ r) = if '(' ∈ r.take 2 then (if isUrl t then .url else .function, t.length)
      else (.ident, t.length) := by
  unfold name
  dsimp only
  rw [run_isName ht hr, List.drop_left, List.take_left]

/-- Reading finds every name of the grammar. -/
theorem name_of_covers {k : Kind} {t r : List Char} (h : Covers k t r)
    (hk : k = .ident ∨ k = .function ∨ k = .url) :
    IsName t ∧ name (t ++ r) = (k, t.length) := by
  rcases hk with rfl | rfl | rfl
  · rcases h with ⟨hform, hend, hopen⟩
    exact ⟨hform, (name_append hform hend).trans (if_neg hopen)⟩
  · rcases h with ⟨hform, hend, hopen, hurl⟩
    rw [name_append hform hend, hurl]
    exact ⟨hform, if_pos hopen⟩
  · rcases h with ⟨hform, hend, hopen, hurl⟩
    rw [name_append hform hend, hurl]
    exact ⟨hform, if_pos hopen⟩

theorem not_point_mem {cs : List Char} (h : ∀ c ∈ cs, c.isDigit = true) : '.' ∉ cs := by
  intro hmem
  have hdigit := h '.' hmem
  injection hdigit

/-- What reading finds at the front of a number is a numeral, and it is not
    followed by more of it. -/
theorem isNumeral_numeral {c : Char} {cs : List Char}
    (hc : c.isDigit = true ∨ c = '.' ∧ starts Char.isDigit cs = true) :
    IsNumeral ((c :: cs).take (numeral (c :: cs))) ∧
      starts Char.isDigit ((c :: cs).drop (numeral (c :: cs))) = false ∧
      ('.' ∉ (c :: cs).take (numeral (c :: cs)) →
        starts (· == '.') ((c :: cs).drop (numeral (c :: cs))) = false) := by
  have hwhole := forall_take_run Char.isDigit (c :: cs)
  -- Whether a point comes behind the first digits decides what the numeral is.
  cases hs : starts (· == '.') ((c :: cs).drop (run Char.isDigit (c :: cs))) with
  | true =>
      rcases starts_beq_iff.mp hs with ⟨ds, hd⟩
      have htake : (c :: cs).take (numeral (c :: cs)) =
          (c :: cs).take (run Char.isDigit (c :: cs)) ++
            '.' :: ds.take (run Char.isDigit ds) := by
        rw [numeral_of_point hd, Nat.add_assoc, List.take_add, hd, Nat.add_comm 1,
          List.take_succ_cons]
      have hdrop : (c :: cs).drop (numeral (c :: cs)) = ds.drop (run Char.isDigit ds) := by
        rw [numeral_of_point hd, Nat.add_assoc, ← List.drop_drop, hd, Nat.add_comm 1,
          List.drop_succ_cons]
      rw [htake, hdrop]
      refine ⟨⟨_, _, hwhole, forall_take_run Char.isDigit ds, Or.inr ⟨rfl, ?_⟩⟩,
        starts_drop_run Char.isDigit ds, ?_⟩
      · rcases hc with hc | ⟨rfl, hcs⟩
        · -- There are digits in front of the point.
          rw [run_cons hc, List.take_succ_cons]
          exact Or.inl (List.cons_ne_nil c _)
        · -- The point comes first, and the digits are behind it.
          have hds : cs = ds := by
            injection hd
          cases ds with
          | nil =>
              rw [hds] at hcs
              injection hcs
          | cons d ds =>
              rw [hds, starts] at hcs
              rw [run_cons hcs, List.take_succ_cons]
              exact Or.inr (List.cons_ne_nil d _)
      · -- The numeral has a point, so a second one may follow it.
        intro hmem
        exact absurd (List.mem_append_right _ List.mem_cons_self) hmem
  | false =>
      rw [numeral_of_no_point hs]
      refine ⟨⟨_, [], hwhole, List.forall_mem_nil _, Or.inl ⟨rfl, ?_⟩⟩,
        starts_drop_run Char.isDigit (c :: cs), fun _ => hs⟩
      rcases hc with hc | ⟨rfl, _⟩
      · rw [run_cons hc, List.take_succ_cons]
        exact List.cons_ne_nil c _
      · injection hs

/-- Reading finds every numeral, if what follows does not make it longer. -/
theorem numeral_append {t r : List Char} (ht : IsNumeral t) (hr : starts Char.isDigit r = false)
    (hpoint : '.' ∉ t → starts (· == '.') r = false) : numeral (t ++ r) = t.length := by
  rcases ht with ⟨whole, part, hwhole, hpart, ⟨rfl, _⟩ | ⟨rfl, _⟩⟩
  · -- Digits alone: the run takes them all, and no point comes behind them.
    have hrun : run Char.isDigit (t ++ r) = t.length := run_append hwhole hr
    rw [numeral_of_no_point, hrun]
    rw [hrun, List.drop_left]
    exact hpoint (not_point_mem hwhole)
  · -- The run stops at the point, and a second run starts behind it.
    have hrun : run Char.isDigit (whole ++ '.' :: (part ++ r)) = whole.length :=
      run_append hwhole rfl
    have hdrop : (whole ++ '.' :: (part ++ r)).drop
        (run Char.isDigit (whole ++ '.' :: (part ++ r))) = '.' :: (part ++ r) := by
      rw [hrun, List.drop_left]
    rw [List.append_assoc, List.cons_append, numeral_of_point hdrop, hrun, run_append hpart hr,
      List.length_append, List.length_cons]
    omega

/-- A numeral starts with a digit, or with a point and a digit. -/
theorem isNumeral_starts {t : List Char} (ht : IsNumeral t) :
    ∃ c cs, t = c :: cs ∧
      (c.isDigit = true ∨ c = '.' ∧ ∀ r, starts Char.isDigit (cs ++ r) = true) := by
  rcases ht with ⟨whole, part, hwhole, hpart, h⟩
  -- No digits in front of the point means that there is a digit behind it.
  cases whole with
  | nil =>
      rcases h with ⟨_, hne⟩ | ⟨rfl, hne⟩
      · exact absurd rfl hne
      · cases part with
        | nil => exact absurd rfl (hne.resolve_left fun hw => hw rfl)
        | cons d ds => exact ⟨'.', d :: ds, rfl, Or.inr ⟨rfl, fun r => hpart d List.mem_cons_self⟩⟩
  | cons d ds =>
      have hd := hwhole d List.mem_cons_self
      rcases h with ⟨rfl, _⟩ | ⟨rfl, _⟩
      · exact ⟨d, ds, rfl, Or.inl hd⟩
      · exact ⟨d, ds ++ '.' :: part, rfl, Or.inl hd⟩

/-- What reading finds as a number has the form of its kind. -/
theorem covers_number {c : Char} {cs : List Char}
    (hc : c.isDigit = true ∨ c = '.' ∧ starts Char.isDigit cs = true) :
    Covers (number (c :: cs)).1 ((c :: cs).take (number (c :: cs)).2)
      ((c :: cs).drop (number (c :: cs)).2) := by
  rcases isNumeral_numeral hc with ⟨hform, hdigit, hpoint⟩
  generalize c :: cs = t at *
  -- The character behind the numeral decides: a percent sign, a name
  -- character, or neither.
  cases hs : starts (· == '%') (t.drop (numeral t)) with
  | true =>
      rcases starts_beq_iff.mp hs with ⟨ds, hd⟩
      rw [number_of_percent hd]
      refine ⟨t.take (numeral t), ?_, hform⟩
      rw [List.take_add, hd]
      rfl
  | false =>
      rw [number_of_no_percent hs]
      cases hn : starts isNameChar (t.drop (numeral t)) with
      | false => exact ⟨hform, hn, hs, hpoint⟩
      | true =>
          rw [if_pos rfl]
          cases hd : t.drop (numeral t) with
          | nil =>
              rw [hd] at hn
              injection hn
          | cons u us =>
              rw [hd, starts] at hn hdigit
              refine ⟨t.take (numeral t), u, us.take (run isNameChar us), ?_, hform, hn, hdigit,
                forall_take_run isNameChar us, ?_⟩
              · rw [List.take_add, hd, run_cons hn, List.take_succ_cons]
              · rw [← List.drop_drop, hd, run_cons hn, List.drop_succ_cons]
                exact starts_drop_run isNameChar us

/-- Reading finds every number of the grammar. -/
theorem number_of_covers {k : Kind} {t r : List Char} (h : Covers k t r)
    (hk : k = .number ∨ k = .percentage ∨ k = .dimension) : number (t ++ r) = (k, t.length) := by
  rcases hk with rfl | rfl | rfl
  · rcases h with ⟨hform, hname, hpercent, hpoint⟩
    -- A digit would be a name character, and none follows.
    have hdigit := starts_eq_false_of_imp (fun c => isNameChar_of_isDigit) hname
    have hlen := numeral_append hform hdigit hpoint
    have hdrop : (t ++ r).drop (numeral (t ++ r)) = r := by
      rw [hlen, List.drop_left]
    rw [number_of_no_percent, hdrop, hname, hlen]
    · rfl
    · rw [hdrop]
      exact hpercent
  · rcases h with ⟨ds, rfl, hform⟩
    have hlen : numeral (ds ++ '%' :: r) = ds.length := numeral_append hform rfl fun _ => rfl
    have hdrop : (ds ++ '%' :: r).drop (numeral (ds ++ '%' :: r)) = '%' :: r := by
      rw [hlen, List.drop_left]
    rw [List.append_assoc, List.singleton_append, number_of_percent hdrop, hlen,
      List.length_append]
    rfl
  · rcases h with ⟨ds, u, us, rfl, hform, hu, hdigit, hus, hname⟩
    -- The unit starts with a name character, so it adds nothing to the numeral
    -- and is no percent sign.
    have hpoint : (u == '.') = false := by
      rw [beq_eq_false_iff_ne]
      rintro rfl
      injection hu
    have hpercent : (u == '%') = false := by
      rw [beq_eq_false_iff_ne]
      rintro rfl
      injection hu
    have hlen : numeral (ds ++ u :: (us ++ r)) = ds.length :=
      numeral_append hform hdigit fun _ => hpoint
    have hdrop : (ds ++ u :: (us ++ r)).drop (numeral (ds ++ u :: (us ++ r))) = u :: (us ++ r) := by
      rw [hlen, List.drop_left]
    rw [List.append_assoc, List.cons_append, number_of_no_percent, hdrop, hlen, starts, hu,
      if_pos rfl, run_cons hu, run_append hus hname, List.length_append, List.length_cons]
    rw [hdrop]
    exact hpercent

end Plain

end CssTokens
