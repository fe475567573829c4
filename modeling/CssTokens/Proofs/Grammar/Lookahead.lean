import CssTokens.Proofs.Grammar.Streams

/-!
# What a Token Sees of What Follows

How the form of a token hangs on the text behind it.

A form looks at little of the rest. Most kinds ask that some class does not
begin there, so they are content with every rest that begins in no more
classes. A string asks more only when the end of the text cuts it off; with
its end on it, it may be followed by anything. What is left are the names: two
characters behind a name decide between its three kinds. So a token may be put
before another rest, and all that can change is the kind of a name
(`Covers.change_rest`).

Along a stream this makes two characters enough: where the first two
characters of a rest stay the same, the tokens in front of it stay
(`IsStream.change_rest`).

## Main definitions

* `Kind.isName`: The kinds of names.
* `nameKind`: The kind of a name, by what follows it.
* `Kind.before`: The kind of what was read, before another rest.

## Theorems

* `covers_name_iff`: The names, all three kinds at once.
* `Kind.before_eq`: Where a kind stays.
* `Covers.closed_string`: A string with its end on it, before any rest.
* `Covers.change_rest`: A form before another rest.
* `IsStream.change_rest`: The tokens in front of another rest.
-/

namespace CssTokens

/-- An identifier, or the name of a function. -/
def Kind.isName : Kind → Bool
  | .ident | .function | .url => true
  | _ => false

/-- The kind of a name, by what follows it. -/
def nameKind (cs rest : List Char) : Kind :=
  if '(' ∈ rest.take 2 then (if Plain.isUrl cs then .url else .function) else .ident

/-- The kind of what was read, before another rest: only that of a name can
    change. -/
def Kind.before (k : Kind) (cs rest : List Char) : Kind :=
  if k.isName then nameKind cs rest else k

theorem nameKind_of_opensSoon {rest : List Char} (h : OpensSoon rest) (cs : List Char) :
    nameKind cs rest = if Plain.isUrl cs then .url else .function :=
  if_pos h

theorem nameKind_of_not_opensSoon {rest : List Char} (h : ¬ OpensSoon rest) (cs : List Char) :
    nameKind cs rest = .ident :=
  if_neg h

theorem isName_nameKind (cs rest : List Char) : (nameKind cs rest).isName = true := by
  unfold nameKind
  split
  · split <;> rfl
  · rfl

/-- The names, all three kinds at once. -/
theorem covers_name_iff {k : Kind} (hk : k.isName = true) {t r : List Char} :
    Covers k t r ↔ IsName t ∧ Plain.starts isNameChar r = false ∧ k = nameKind t r := by
  -- The three names differ in whether a call is ahead and in whether they spell `url`,
  -- and these decide the kind.
  constructor
  · intro h
    cases k with
    | ident => exact ⟨h.1, h.2.1, (nameKind_of_not_opensSoon h.2.2 t).symm⟩
    | function =>
        rcases h with ⟨hname, hend, hopen, hurl⟩
        refine ⟨hname, hend, ?_⟩
        rw [nameKind_of_opensSoon hopen, hurl]
        rfl
    | url =>
        rcases h with ⟨hname, hend, hopen, hurl⟩
        refine ⟨hname, hend, ?_⟩
        rw [nameKind_of_opensSoon hopen, hurl]
        rfl
    | _ => injection hk
  · rintro ⟨hname, hend, rfl⟩
    by_cases hopen : OpensSoon r
    · rw [nameKind_of_opensSoon hopen]
      cases hurl : Plain.isUrl t with
      | true => exact ⟨hname, hend, hopen, hurl⟩
      | false => exact ⟨hname, hend, hopen, hurl⟩
    · rw [nameKind_of_not_opensSoon hopen]
      exact ⟨hname, hend, hopen⟩

/-- A kind stays, if as much of a call is ahead as before. -/
theorem Kind.before_eq {k : Kind} {t r r' : List Char} (h : Covers k t r)
    (hopen : Plain.starts isNameChar r = false → (OpensSoon r' ↔ OpensSoon r)) :
    k.before t r' = k := by
  unfold Kind.before
  split
  · next hk =>
      -- The rest matters to the kind of a name only by whether a call is ahead.
      rcases (covers_name_iff hk).mp h with ⟨_, hend, hkind⟩
      rw [hkind]
      exact ite_congr (propext (hopen hend)) (fun _ => rfl) fun _ => rfl
  · rfl

/-- A string that the end of the text does not cut off has its end on it, and
    may be followed by anything. -/
theorem Covers.closed_string {t r : List Char} (h : Covers .string t r) (hnil : r ≠ [])
    (hslash : r ≠ ['\\']) (r' : List Char) : Covers .string t r' := by
  rcases h with ⟨quote, body, hq, hb, rfl | ⟨rfl, ⟨rfl, _⟩ | rfl⟩⟩
  · exact ⟨quote, body, hq, hb, Or.inl rfl⟩
  · exact absurd rfl hnil
  · exact absurd rfl hslash

/-- What has a form before one rest has it before another that begins in no
    more classes. Names change their kind, and strings answer for themselves:
    theirs is the one form that may ask for the end of the text. -/
theorem Covers.change_rest {k : Kind} {t r r' : List Char} (h : Covers k t r)
    (hstarts : ∀ test, Plain.starts test r = false → Plain.starts test r' = false)
    (hstring : k = .string → Covers .string t r') : Covers (k.before t r') t r' := by
  -- The three names are one case, since their kind follows the rest.
  have hname (hk : k.isName = true) : Covers (k.before t r') t r' := by
    rcases (covers_name_iff hk).mp h with ⟨hform, hend, _⟩
    rw [Kind.before, if_pos hk, covers_name_iff (isName_nameKind t r')]
    exact ⟨hform, hstarts _ hend, rfl⟩
  -- All other forms keep their kind, and what they ask of the rest is that it does not
  -- begin in some class.
  cases k with
  | ident => exact hname rfl
  | function => exact hname rfl
  | url => exact hname rfl
  | whitespace => exact ⟨h.1, h.2.1, hstarts _ h.2.2⟩
  | leftParen => exact h
  | rightParen => exact h
  | leftBrace => exact h
  | rightBrace => exact h
  | colon => exact h
  | semicolon => exact h
  | comma => exact h
  | hash =>
      rcases h with ⟨ds, ht, hds, hend⟩
      exact ⟨ds, ht, hds, hstarts _ hend⟩
  | atKeyword =>
      rcases h with ⟨ds, ht, hds, hend⟩
      exact ⟨ds, ht, hds, hstarts _ hend⟩
  | number =>
      rcases h with ⟨hnum, hend, hpercent, hpoint⟩
      exact ⟨hnum, hstarts _ hend, hstarts _ hpercent, fun hmem => hstarts _ (hpoint hmem)⟩
  | percentage => exact h
  | dimension =>
      rcases h with ⟨ds, c, us, ht, hds, hc, hdigit, hus, hend⟩
      exact ⟨ds, c, us, ht, hds, hc, hdigit, hus, hstarts _ hend⟩
  | string => exact hstring rfl
  | badString => exact h
  | unmatched =>
      rcases h with ⟨c, ht, hblank, hquote, hpunct, hstart, hdigit, hmark, hpoint⟩
      exact ⟨c, ht, hblank, hquote, hpunct, hstart, hdigit, fun heq => hstarts _ (hmark heq),
        fun heq => hstarts _ (hpoint heq)⟩
  | «at» => exact h.elim
  | comment => exact h.elim
  | cdo => exact h.elim
  | cdc => exact h.elim
  | eof => exact h.elim

/-- Two characters of the rest are all that a form looks at, once they are
    there. -/
theorem Covers.of_take_two {k : Kind} {t r r' : List Char} (h : Covers k t r)
    (htake : r.take 2 = r'.take 2) (hlen : 2 ≤ r.length) : Covers k t r' := by
  -- Whether a rest begins in a class is decided by its first character, whether a call
  -- is ahead by its first two.
  have hstarts (test : Char → Bool) : Plain.starts test r' = Plain.starts test r := by
    cases r with
    | nil => exact absurd hlen (by decide)
    | cons c r =>
        cases r' with
        | nil => injection htake
        | cons d r' =>
            injection htake with hcd _
            rw [hcd, Plain.starts, Plain.starts]
  have hkeep : k.before t r' = k := by
    refine Kind.before_eq h fun _ => ?_
    rw [OpensSoon, OpensSoon, htake]
  have hform := h.change_rest (fun test => (hstarts test).trans) ?_
  · rw [hkeep] at hform
    exact hform
  · -- A string that the end of the text cuts off has at most one character behind it.
    rintro rfl
    refine h.closed_string ?_ ?_ r'
    · rintro rfl
      exact absurd hlen (by decide)
    · rintro rfl
      exact absurd hlen (by decide)

/-- The texts of a stream, one behind the other, are what it makes up. -/
theorem IsStream.flatten_eq {xs : List Lexeme} {cs : List Char} (h : IsStream xs cs) :
    (xs.map Lexeme.chars).flatten = cs :=
  (isStream_iff_forall.mp h).1

/-- The first lexeme of a stream has its form before the texts of the others,
    and they are a stream of their own. -/
theorem IsStream.of_cons {x : Lexeme} {xs : List Lexeme} {cs : List Char}
    (h : IsStream (x :: xs) cs) :
    Covers x.kind x.chars (xs.map Lexeme.chars).flatten ∧
      IsStream xs (xs.map Lexeme.chars).flatten := by
  cases h with
  | cons hx hxs =>
      rw [hxs.flatten_eq]
      exact ⟨hx, hxs⟩

/-- The tokens in front of a rest stay, if its first two characters do. The
    induction is on the tokens in front: each of them sees the first two
    characters of what is behind it. -/
theorem IsStream.change_rest {xs ys ys' : List Lexeme} {cs r r' : List Char}
    (h : IsStream (xs ++ ys) cs) (hys : IsStream ys r) (hys' : IsStream ys' r')
    (htake : r.take 2 = r'.take 2) (hlen : 2 ≤ r.length) :
    IsStream (xs ++ ys') ((xs.map Lexeme.chars).flatten ++ r') := by
  induction xs generalizing cs with
  | nil => exact hys'
  | cons x xs ih =>
      rcases h.of_cons with ⟨hx, hxs⟩
      have hrest : IsStream (xs ++ ys') ((xs.map Lexeme.chars).flatten ++ r') := ih hxs
      -- The texts of the tokens behind count as well, and leave fewer characters of the rest
      -- to be seen.
      have htakes (n : Nat) : r.take (2 - n) = r'.take (2 - n) := by
        rw [← Nat.min_eq_left (Nat.sub_le 2 n), ← List.take_take, htake, List.take_take]
      have hform : Covers x.kind x.chars ((xs.map Lexeme.chars).flatten ++ r) := by
        rw [← hys.flatten_eq, ← List.flatten_append, ← List.map_append]
        exact hx
      rw [List.map_cons, List.flatten_cons, List.append_assoc]
      refine .cons (hform.of_take_two ?_ ?_) hrest
      · rw [List.take_append, List.take_append, htakes]
      · rw [List.length_append]
        omega

end CssTokens
