import CssTokens.Proofs.Grammar.Lookahead
import CssTokens.Proofs.TokenStream.Spans

/-!
# Tokens of a Text That Grows

A token stays what it is when more text comes, once two bytes are behind it.

The form of a kind looks at what follows a token, but only so far. Most kinds
look at one character. A name looks at two, for the parenthesis; and two bytes
are enough for that, because a name is followed by an ASCII character if by
any. A string looks at one character to tell whether the text cuts it off. So
a form before a rest of two bytes is a form before any longer rest
(`Covers.append`), and by the grammar that makes it the token which is read
there. Every token before it has more than two bytes behind it, so the whole
list up to it stays (`locateFrom_append`).

## Theorems

* `opensSoon_append`: The parenthesis behind a name, when more text comes.
* `Covers.append`: A form before two bytes is a form before more.
* `locateFrom_append`: The tokens that have two bytes behind them.
* `locate_append_stable`: The tokens of a text and those of a longer one.
-/

namespace CssTokens

theorem Plain.starts_append (test : Char → Bool) {r : List Char} (hr : r ≠ [])
    (more : List Char) : starts test (r ++ more) = starts test r := by
  cases r with
  | nil => exact absurd rfl hr
  | cons c r => rfl

/-- The first two characters stay the first two, unless they are not there
    yet. One character may be two bytes long, but then a name goes on in it. -/
theorem opensSoon_append {r : List Char} (hname : Plain.starts isNameChar r = false)
    (hlen : 2 ≤ byteCount r) (more : List Char) : OpensSoon (r ++ more) ↔ OpensSoon r := by
  cases r with
  | nil => exact absurd hlen (by decide)
  | cons c r =>
      cases r with
      | nil =>
          have hascii : c.toNat < 0x80 := ascii_of_not_isNameChar hname
          rw [byteCount_cons, byteCount_nil, utf8Size_of_ascii hascii] at hlen
          omega
      | cons d r => exact Iff.rfl

/-- What has a form before two bytes has it before any longer rest. -/
theorem Covers.append {k : Kind} {t r : List Char} (h : Covers k t r) (hlen : 2 ≤ byteCount r)
    (more : List Char) : Covers k t (r ++ more) := by
  have hr : r ≠ [] := by
    rintro rfl
    exact absurd hlen (by decide)
  have hslash : r ≠ ['\\'] := by
    rintro rfl
    exact absurd hlen (by decide)
  -- The next character is there already, and so is the call behind a name.
  have hkeep := Kind.before_eq h fun hend => opensSoon_append hend hlen more
  have hform := h.change_rest (fun test => (Plain.starts_append test hr more).trans) fun hk =>
    Covers.closed_string (hk ▸ h) hr hslash (r ++ more)
  rw [hkeep] at hform
  exact hform

/-- More text leaves every token as it is that has two bytes behind it. The
    induction is on the tokens of the shorter text. -/
theorem locateFrom_append (cs more : List Char) (p i : Nat) (x : Located)
    (hx : (locateFrom p (Plain.tokens cs))[i]? = some x)
    (hend : x.offset + x.token.byteLength + 2 ≤ p + byteCount cs) :
    (locateFrom p (Plain.tokens (cs ++ more)))[i]? = some x := by
  fun_induction Plain.tokens cs generalizing p i with
  | case1 cs hfirst =>
      rw [locateFrom, List.getElem?_nil] at hx
      injection hx
  | case2 cs k n hfirst ih =>
      have hbytes := byteCount_take_add_drop cs n
      -- Two bytes are behind the first token, because they are behind the one
      -- in question, which is this one or a later one.
      have hroom : 2 ≤ byteCount (cs.drop n) := by
        cases i with
        | zero =>
            injection hx with hx
            rw [← hx, byteLength_token] at hend
            dsimp only at hend
            omega
        | succ i =>
            have hmem : x ∈ locateFrom (p + byteCount (cs.take n)) (Plain.tokens (cs.drop n)) :=
              List.mem_of_getElem? (i := i) hx
            have := le_offset_of_mem_locateFrom hmem
            omega
      -- The token keeps its form, so it is read again, and the rest follows.
      have hform := (Plain.covers_first hfirst).append hroom more
      have hlonger : Plain.tokens (cs ++ more) =
          ⟨k, cs.take n⟩ :: Plain.tokens (cs.drop n ++ more) := by
        rw [← Plain.tokens_of_covers hform, ← List.append_assoc, List.take_append_drop]
      rw [hlonger]
      cases i with
      | zero => exact hx
      | succ i => exact ih _ _ hx (by dsimp only; omega)

/-- The tokens of a text that have two bytes behind them are those of every
    longer text, at the same places of the list and at the same offsets. -/
theorem locate_append_stable {s t : String} (h : (s ++ t).utf8ByteSize < maxPosition) :
    ∃ xs ys σ τ, locate s = .ok (xs, σ) ∧ tokenize s = .ok (xs.map Located.token) ∧
      locate (s ++ t) = .ok (ys, τ) ∧ tokenize (s ++ t) = .ok (ys.map Located.token) ∧
      ∀ (i : Nat) (x : Located), xs[i]? = some x →
        x.offset + x.token.byteLength + 2 ≤ s.utf8ByteSize → ys[i]? = some x := by
  have hs : s.utf8ByteSize < maxPosition := by
    rw [String.utf8ByteSize_append] at h
    omega
  refine ⟨_, _, _, _, locate_eq_ok hs, tokenize_of_reads (reads_ofString hs), locate_eq_ok h,
    tokenize_of_reads (reads_ofString h), ?_⟩
  intro i x hx hend
  rw [String.toList_append]
  apply locateFrom_append _ _ _ _ _ hx
  rw [Nat.zero_add, ← utf8ByteSize_eq_byteCount]
  exact hend

/-- A name with a semicolon and a space behind it stays an identifier when a
    parenthesis comes. -/
theorem locate_append_stable_parenthesis :
    ("a; " ++ "(").utf8ByteSize < maxPosition ∧
      ∃ ys τ, locate ("a; " ++ "(") = .ok (ys, τ) ∧ ys[0]? = some ⟨0, .ident, "a"⟩ := by
  have h : ("a; " ++ "(").utf8ByteSize < maxPosition := by decide
  rcases locate_append_stable h with ⟨xs, ys, σ, τ, hs, _, hst, _, hstable⟩
  refine ⟨h, ys, τ, hst, hstable 0 ⟨0, .ident, "a"⟩ ?_ (by decide)⟩
  rw [locate_eq_ok (by decide), Except.ok.injEq, Prod.mk.injEq] at hs
  rw [← hs.1]
  show (locateFrom 0 (Plain.tokens ['a', ';', ' ']))[0]? = _
  rw [Plain.tokens_cons (k := .ident) (n := 1) rfl]
  rfl

end CssTokens
