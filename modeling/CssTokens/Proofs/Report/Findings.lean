import CssTokens.Proofs.Drivers
import CssTokens.Proofs.LineColumn.Order
import CssTokens.Proofs.TokenStream.Calls

/-!
# What a Report Finds

A report names every soft failure of a text, each at its place, and nothing
else.

Two positions move along the tokens: the byte offset, which the stream keeps,
and the line and column, which the report keeps for itself. Here both are told
by the text in front of a token. `findingsIn` states from the tokens alone
what has to be found, and `findingsFrom_eq` shows that the walk along the
tokens finds it.

The findings come in the order of the text, and no two of them share a place.
For the offsets it is enough that no token is empty. For lines and columns it
matters as well that a soft failure does not begin with a line feed, which
could be the second half of a line end that is already counted.

## Main definitions

* `Finding.ofToken`, `findingsIn`: What is to be found among tokens.
* `Report.Describes`: What a report says about a text and its tokens.

## Theorems

* `Plain.soft_tokens`: What a soft failure begins with.
* `findingsFrom_eq`: The findings, by the tokens in front of each.
* `findingsFrom_spec`: Each finding stands in the text.
* `findingsFrom_pairwise`: The findings are in order.
* `Report.isClean_iff_of_tokenize`: The reports that are clean.
* `Report.describes_of_lt`: The report on a text.
-/

namespace CssTokens

/-- The finding that a token makes, behind the tokens in front of it. -/
def Finding.ofToken (front : List Token) (t : Token) : Finding :=
  let before := String.join (front.map Token.text)
  ⟨t.kind, before.utf8ByteSize, LineColumn.behind before.toList, t.text⟩

/-- A string that a line break ended, or a character that begins nothing. -/
def Token.IsSoft (t : Token) : Prop := t.kind = .badString ∨ t.kind = .unmatched

instance (t : Token) : Decidable t.IsSoft :=
  inferInstanceAs (Decidable (t.kind = .badString ∨ t.kind = .unmatched))

/-- What is to be found among tokens, in their order. -/
def findingsIn (ts : List Token) : List Finding :=
  (ts.zipIdx.filter fun x => x.1.IsSoft).map fun x => Finding.ofToken (ts.take x.2) x.1

/-- What a report says about a text and its tokens. -/
structure Report.Describes (r : Report) (text : String) (ts : List Token) : Prop where
  tokens : r.tokens = ts.length
  findings : r.findings = findingsIn ts
  /-- Each finding stands in the text, at its offset and its place. -/
  located : ∀ f ∈ r.findings, ∃ before behind, text = before ++ f.text ++ behind ∧
    before.utf8ByteSize = f.offset ∧ LineColumn.behind before.toList = f.place
  offsets : r.findings.Pairwise fun f g => f.offset < g.offset
  places : r.findings.Pairwise fun f g => f.place.Before g.place
  lossless : r.lossless = true
  /-- Only soft failures matter, whatever the warnings are. -/
  isClean_iff : r.isClean = true ↔ ∀ t ∈ ts, ¬ t.IsSoft

theorem Kind.isSoftFailure_iff {k : Kind} :
    k.isSoftFailure = true ↔ k = .badString ∨ k = .unmatched := by
  cases k <;> simp [isSoftFailure]

theorem isSoft_iff {t : Token} : t.IsSoft ↔ t.kind.isSoftFailure = true :=
  Kind.isSoftFailure_iff.symm

/-- A soft failure begins with a character that is not a line feed. -/
theorem Plain.soft_tokens (cs : List Char) :
    ∀ x ∈ tokens cs, x.kind.isSoftFailure = true → ∃ d ds, x.chars = d :: ds ∧ d ≠ '\n' := by
  refine forall_mem_tokens (fun cs k n h hsoft => ?_) cs
  have hcovers := covers_first h
  rcases Kind.isSoftFailure_iff.mp hsoft with rfl | rfl
  · -- A string begins with its quote.
    rcases hcovers with ⟨quote, body, c, hquote, _, _, heq, _⟩
    refine ⟨quote, body ++ [c], heq, ?_⟩
    rintro rfl
    exact absurd hquote (by decide)
  · -- A line feed begins a whitespace token.
    rcases hcovers with ⟨c, heq, hblank, _⟩
    refine ⟨c, [], heq, ?_⟩
    rintro rfl
    exact absurd hblank (by decide)

/-- The findings along lexemes, by the lexemes in front of each. -/
theorem findingsFrom_eq (front xs : List Lexeme) :
    findingsFrom (front.map Lexeme.chars).flatten (byteCount (front.map Lexeme.chars).flatten) xs =
      (((xs.map Lexeme.token).zipIdx front.length).filter fun x => x.1.IsSoft).map fun x =>
        Finding.ofToken (((front ++ xs).map Lexeme.token).take x.2) x.1 := by
  -- The lexemes in front grow by the first one, which moves the indices along with them.
  induction xs generalizing front with
  | nil => rfl
  | cons x xs ih =>
      have hfront := ih (front ++ [x])
      simp only [List.map_append, List.flatten_append, List.map_cons, List.map_nil,
        List.flatten_singleton, byteCount_append, List.length_append, List.length_singleton,
        List.append_assoc, List.singleton_append] at hfront
      simp only [findingsFrom, List.map_cons, List.zipIdx_cons, List.filter_cons, List.map_append,
        decide_eq_true_eq, hfront]
      -- What is found is put down with all that stands in front of it.
      by_cases hsoft : x.token.IsSoft
      · have hx : x.kind.isSoftFailure = true := isSoft_iff.mp hsoft
        have htake : (front.map Lexeme.token ++ x.token :: xs.map Lexeme.token).take front.length =
            front.map Lexeme.token := List.take_left' (List.length_map _)
        rw [if_pos hx, if_pos hsoft, List.map_cons, htake, Finding.ofToken]
        dsimp only
        rw [utf8ByteSize_eq_byteCount, toList_join_token]
        rfl
      · have hx : ¬ x.kind.isSoftFailure = true := fun h => hsoft (isSoft_iff.mpr h)
        rw [if_neg hx, if_neg hsoft]

/-- Each finding along lexemes stands in their text. -/
theorem findingsFrom_spec {before : List Char} {p : Nat} {xs : List Lexeme} :
    ∀ f ∈ findingsFrom before p xs, ∃ ds es,
      (xs.map Lexeme.chars).flatten = ds ++ f.text.toList ++ es ∧
        f.offset = p + byteCount ds ∧ f.place = LineColumn.behind (before ++ ds) := by
  induction xs generalizing before p with
  | nil => exact List.forall_mem_nil _
  | cons x xs ih =>
      intro f hf
      rw [findingsFrom] at hf
      -- What is found further on stands behind the text of the first lexeme.
      have hrest : f ∈ findingsFrom (before ++ x.chars) (p + byteCount x.chars) xs →
          ∃ ds es, ((x :: xs).map Lexeme.chars).flatten = ds ++ f.text.toList ++ es ∧
            f.offset = p + byteCount ds ∧ f.place = LineColumn.behind (before ++ ds) := by
        intro hmem
        rcases ih f hmem with ⟨ds, es, htext, hoffset, hplace⟩
        refine ⟨x.chars ++ ds, es, ?_, ?_, ?_⟩
        · rw [List.map_cons, List.flatten_cons, htext]
          simp only [List.append_assoc]
        · rw [hoffset, byteCount_append, Nat.add_assoc]
        · rw [hplace, List.append_assoc]
      -- A soft lexeme is itself the first thing found, with nothing in front of it.
      by_cases hsoft : x.kind.isSoftFailure = true
      · rw [if_pos hsoft] at hf
        rcases List.mem_cons.mp hf with rfl | hmem
        · refine ⟨[], (xs.map Lexeme.chars).flatten, ?_, ?_, ?_⟩
          · rw [Lexeme.token, String.toList_ofList]
            rfl
          · simp
          · simp
        · exact hrest hmem
      · rw [if_neg hsoft] at hf
        exact hrest hf

/-- The findings along lexemes are in order. -/
theorem findingsFrom_pairwise {xs : List Lexeme}
    (hsoft : ∀ x ∈ xs, x.kind.isSoftFailure = true → ∃ d ds, x.chars = d :: ds ∧ d ≠ '\n')
    (before : List Char) (p : Nat) :
    (findingsFrom before p xs).Pairwise fun f g =>
      f.offset < g.offset ∧ f.place.Before g.place := by
  induction xs generalizing before p with
  | nil => exact List.Pairwise.nil
  | cons x xs ih =>
      have hrest := ih (fun y hy => hsoft y (List.mem_cons_of_mem x hy)) (before ++ x.chars)
        (p + byteCount x.chars)
      rw [findingsFrom]
      by_cases hx : x.kind.isSoftFailure = true
      · rw [if_pos hx]
        refine List.pairwise_cons.mpr ⟨?_, hrest⟩
        intro g hg
        -- A later finding stands behind the first lexeme, which is not empty and does not
        -- begin with a line feed, so both its offset and its place are later.
        rcases hsoft x List.mem_cons_self hx with ⟨d, ds, hchars, hd⟩
        rcases findingsFrom_spec g hg with ⟨es, _, _, hoffset, hplace⟩
        constructor
        · have hpos : d.utf8Size > 0 := d.utf8Size_pos
          simp only [hoffset, hchars, byteCount_cons]
          omega
        · rw [hplace, hchars, List.append_assoc, List.cons_append]
          exact LineColumn.behind_append_cons hd before (ds ++ es)
      · rw [if_neg hx]
        exact hrest

/-- Nothing is found exactly where nothing is soft. -/
theorem findingsFrom_eq_nil_iff {before : List Char} {p : Nat} {xs : List Lexeme} :
    findingsFrom before p xs = [] ↔ ∀ x ∈ xs, ¬ x.token.IsSoft := by
  induction xs generalizing before p with
  | nil => simp [findingsFrom]
  | cons x xs ih =>
      rw [findingsFrom, List.forall_mem_cons]
      by_cases hsoft : x.kind.isSoftFailure = true
      · rw [if_pos hsoft]
        have hx : x.token.IsSoft := isSoft_iff.mpr hsoft
        simp [hx]
      · rw [if_neg hsoft, ih]
        have hx : ¬ x.token.IsSoft := fun h => hsoft (isSoft_iff.mp h)
        simp [hx]

/-- A report is clean if no token is a soft failure. -/
theorem Report.isClean_iff_of_tokenize {text : String} (h : text.utf8ByteSize < maxPosition)
    {r : Report} {events : List Event} (hr : ofString text = .ok (r, events)) {ts : List Token}
    (hts : tokenize text = .ok ts) : r.isClean = true ↔ ∀ t ∈ ts, ¬ t.IsSoft := by
  rcases ofString_eq_ok h with ⟨r', events', hr', _, hfindings, hlossless⟩
  rw [hr, Except.ok.injEq, Prod.mk.injEq] at hr'
  rw [tokenize_eq_ok h, Except.ok.injEq] at hts
  rw [hr'.1, ← hts, isClean, hlossless, Bool.and_true, List.isEmpty_iff, hfindings,
    findingsFrom_eq_nil_iff, List.forall_mem_map]

/-- The report on a text. -/
theorem Report.describes_of_lt {text : String} (h : text.utf8ByteSize < maxPosition) :
    ∃ r events ts, Report.ofString text = .ok (r, events) ∧ tokenize text = .ok ts ∧
      r.Describes text ts := by
  rcases Report.ofString_eq_ok h with ⟨r, events, hr, htokens, hfindings, hlossless⟩
  have horder := findingsFrom_pairwise (Plain.soft_tokens text.toList) [] 0
  refine ⟨r, events, _, hr, tokenize_eq_ok h, ?_, ?_, ?_, ?_, ?_, hlossless, ?_⟩
  · rw [htokens, List.length_map]
  · rw [hfindings]
    exact findingsFrom_eq [] (Plain.tokens text.toList)
  · intro f hf
    rw [hfindings] at hf
    -- The finding cuts the text into what is in front of it, its own text and the rest.
    rcases findingsFrom_spec f hf with ⟨ds, es, htext, hoffset, hplace⟩
    rw [Plain.flatten_tokens] at htext
    refine ⟨String.ofList ds, String.ofList es, ?_, ?_, ?_⟩
    · rw [← String.toList_inj, htext]
      simp
    · rw [utf8ByteSize_eq_byteCount, String.toList_ofList, hoffset, Nat.zero_add]
    · rw [String.toList_ofList, hplace, List.nil_append]
  · rw [hfindings]
    exact horder.imp And.left
  · rw [hfindings]
    exact horder.imp And.right
  · rw [isClean, hlossless, Bool.and_true, List.isEmpty_iff, hfindings, findingsFrom_eq_nil_iff,
      List.forall_mem_map]

/-- A string that the first half of a line end ends, with the second half and a
    stray character behind it. -/
theorem Report.describes_pair :
    "é'a\r\n!".utf8ByteSize < maxPosition ∧
      ∃ r events ts, Report.ofString "é'a\r\n!" = .ok (r, events) ∧
        tokenize "é'a\r\n!" = .ok ts ∧ r.Describes "é'a\r\n!" ts := by
  have h : "é'a\r\n!".utf8ByteSize < maxPosition := by decide
  exact ⟨h, Report.describes_of_lt h⟩

end CssTokens
