import CssTokens.Proofs.Drivers
import CssTokens.Proofs.Text.Delimiting

/-!
# Listings Can Be Read Back

A listing holds one line for each token, and a listing with all tokens
determines the text.

The columns of a line are as wide as they have to be, so a line cannot be cut
at fixed places. But each column shows where it ends: the offset and the name
of the kind at the space behind them, which neither of them contains, and the
text at its closing quotation mark. So a line determines its token, and the
lines one behind the other determine the tokens with their offsets
(`entries_eq_of_output_eq`). Text that looks like a line, or that holds a line
end, is quoted and cannot be taken for one.

## Main definitions

* `offsetColumn`, `nameColumn`: The first columns, each with the space behind
  it.
* `Listing.output`: All lines, one behind the other.
* `Listing.Lists`: What a listing says about the tokens of a text.

## Theorems

* `selfDelimiting_line`: A line shows where it ends.
* `Listing.entries_eq_of_output_eq`: The lines determine the tokens.
* `Listing.count_newline_output`: As many line feeds as tokens.
* `Listing.determines_text`: The listings of two texts.
-/

namespace CssTokens

/-- The first column of a line, and the space behind it. -/
def offsetColumn (n : Nat) : List Char :=
  List.replicate (6 - (Nat.repr n).length) ' ' ++ Nat.toDigits 10 n ++ [' ']

/-- The second column of a line, and the space behind it. -/
def nameColumn (k : Kind) : List Char :=
  k.name.toList ++ ' ' :: List.replicate (16 - k.name.length) ' '

theorem toList_line (t : Located) :
    t.line.toList = offsetColumn t.offset ++
      (nameColumn t.token.kind ++ ((quoted t.token.text).toList ++ ['\n'])) := by
  have hpadding (n : Nat) (cs : List Char) :
      List.replicate n ' ' ++ ' ' :: cs = ' ' :: (List.replicate n ' ' ++ cs) := by
    rw [← List.cons_append, ← List.replicate_succ, List.replicate_succ', List.append_assoc,
      List.singleton_append]
  simp [Located.line, alignRight, alignLeft, offsetColumn, nameColumn, hpadding]

theorem selfDelimiting_offsetColumn : SelfDelimiting offsetColumn := by
  intro n m r s h
  rcases toDigits_eq_cons n with ⟨c, cs, hn, hc⟩
  rcases toDigits_eq_cons m with ⟨d, ds, hm, hd⟩
  have hspace (e : Char) (he : e.isDigit = true) : (e == ' ') = false := by
    rw [beq_eq_false_iff_ne]
    rintro rfl
    exact absurd he (by decide)
  have hpadding (k : Nat) : ∀ x ∈ List.replicate k ' ', (x == ' ') = true := by
    intro x hx
    rw [List.eq_of_mem_replicate hx, beq_self_eq_true]
  simp only [offsetColumn, List.append_assoc] at h
  -- The spaces end at the first digit.
  have hcolumn : digitsThen n ' ' ++ r = digitsThen m ' ' ++ s := by
    simp only [digitsThen, List.append_assoc]
    rw [hn, hm, List.cons_append, List.cons_append] at h ⊢
    exact (append_cons_inj (hpadding _) (hpadding _) (hspace c hc) (hspace d hd) h).2
  exact selfDelimiting_digitsThen rfl n m r s hcolumn

theorem Kind.mem_all (k : Kind) : k ∈ all := by
  cases k <;> decide

/-- No two kinds have the same name. -/
theorem Kind.name_inj {a b : Kind} (h : a.name = b.name) : a = b := by
  have hall : ∀ a ∈ all, ∀ b ∈ all, a.name = b.name → a = b := by decide
  exact hall a a.mem_all b b.mem_all h

/-- The name of a kind is one word. -/
theorem Kind.name_word (k : Kind) : ∀ c ∈ k.name.toList, (c != ' ' && c != '\n') = true := by
  have hall : (k.name.toList.all fun c => c != ' ' && c != '\n') = true := by
    cases k <;> rfl
  exact List.all_eq_true.mp hall

/-- The name of a kind shows where it ends by the space behind it. -/
theorem selfDelimiting_name : SelfDelimiting fun k : Kind => k.name.toList ++ [' '] :=
  selfDelimiting_word Kind.name_word rfl fun _ _ h => Kind.name_inj (String.toList_inj.mp h)

theorem selfDelimiting_nameColumn : SelfDelimiting nameColumn := by
  intro a b r s h
  have hsplit (k : Kind) (t : List Char) : nameColumn k ++ t =
      (k.name.toList ++ [' ']) ++ (List.replicate (16 - k.name.length) ' ' ++ t) := by
    simp [nameColumn]
  rw [hsplit, hsplit] at h
  rcases selfDelimiting_name a b _ _ h with ⟨rfl, hrest⟩
  exact ⟨rfl, List.append_cancel_left hrest⟩

/-- A line shows where it ends. -/
theorem selfDelimiting_line : SelfDelimiting fun t : Located => t.line.toList := by
  have hcolumns := selfDelimiting_offsetColumn.append
    (selfDelimiting_nameColumn.append (selfDelimiting_quoted.append_const ['\n']))
  -- The three columns are all that there is to a token and its offset.
  have hparts (t u : Located) (h : (t.offset, t.token.kind, t.token.text) =
      (u.offset, u.token.kind, u.token.text)) : t = u := by
    rcases t with ⟨n, ⟨k, text⟩⟩
    rcases u with ⟨m, ⟨l, other⟩⟩
    simp only [Prod.mk.injEq] at h
    rcases h with ⟨rfl, rfl, rfl⟩
    rfl
  have hline := hcolumns.comp
    (i := fun t : Located => (t.offset, t.token.kind, t.token.text)) hparts
  simp only [toList_line]
  exact hline

namespace Listing

/-- All lines, one behind the other. -/
def output (l : Listing) : String := String.join l.lines

theorem toList_output (l : Listing) :
    l.output.toList = l.entries.flatMap fun t => t.line.toList := by
  rw [output, lines, String.toList_join, List.flatMap_map]

/-- The lines determine the tokens and their offsets. -/
theorem entries_eq_of_output_eq {l l' : Listing} (h : l.output = l'.output) :
    l.entries = l'.entries := by
  refine selfDelimiting_line.flatMap_inj (fun t => ?_) ?_
  · simp [toList_line]
  · rw [← toList_output, ← toList_output, h]

/-- A line has one line feed, at its end. -/
theorem newline_not_mem_columns (t : Located) :
    '\n' ∉ offsetColumn t.offset ++ (nameColumn t.token.kind ++ (quoted t.token.text).toList) := by
  have hdigits : '\n' ∉ Nat.toDigits 10 t.offset := by
    intro h
    exact absurd (Nat.isDigit_of_mem_toDigits (by decide) (by decide) h) (by decide)
  have hname : '\n' ∉ t.token.kind.name.toList := by
    intro h
    exact absurd (t.token.kind.name_word _ h) (by decide)
  simp [offsetColumn, nameColumn, hdigits, hname, newline_not_mem_quoted]

theorem line_eq_append_newline (t : Located) :
    ∃ front, t.line = front ++ "\n" ∧ '\n' ∉ front.toList := by
  refine ⟨String.ofList
    (offsetColumn t.offset ++ (nameColumn t.token.kind ++ (quoted t.token.text).toList)), ?_, ?_⟩
  · rw [← String.toList_inj, toList_line]
    simp
  · rw [String.toList_ofList]
    exact newline_not_mem_columns t

/-- As many line feeds as tokens. -/
theorem count_newline_output (l : Listing) :
    l.output.toList.count '\n' = l.entries.length := by
  have hline (t : Located) : t.line.toList.count '\n' = 1 := by
    rcases line_eq_append_newline t with ⟨front, heq, hfront⟩
    rw [heq, String.toList_append, List.count_append, List.count_eq_zero.mpr hfront]
    rfl
  rw [toList_output]
  induction l.entries with
  | nil => rfl
  | cons t ts ih =>
      rw [List.flatMap_cons, List.count_append, hline, ih, List.length_cons, Nat.add_comm]

/-- What a listing says about the tokens of a text. -/
structure Lists (l : Listing) (skipTrivia : Bool) (ts : List Token) : Prop where
  /-- The tokens in their order, less trivia where it is left out. -/
  tokens : l.entries.map Located.token = ts.filter fun t => !(skipTrivia && t.kind.isTrivia)
  /-- A sink without a bound takes all of it. -/
  written : ∀ s : Sink, s.room = none →
    l.writeTo s = .ok { s with written := s.written ++ l.output.toUTF8 }
  /-- There is a line for each token, and a line has one line feed, at its
      end. -/
  lines : l.lines.length = l.count ∧
    ∀ line ∈ l.lines, ∃ front, line = front ++ "\n" ∧ '\n' ∉ front.toList
  newlines : l.output.toList.count '\n' = l.count

/-- The listing of a text. -/
theorem ofString_lists {text : String} (h : text.utf8ByteSize < maxPosition)
    (skipTrivia : Bool) :
    ∃ l ts, ofString text skipTrivia = .ok l ∧ tokenize text = .ok ts ∧ l.Lists skipTrivia ts := by
  rcases ofString_eq_ok h skipTrivia with ⟨l, hl, hentries, hcount⟩
  refine ⟨l, _, hl, tokenize_eq_ok h, ?_, fun s hs => Sink.writeAll_of_room hs l.lines, ?_, ?_⟩
  · rw [hentries, ← map_token_locateFrom 0, List.filter_map]
    rfl
  · refine ⟨(List.length_map _).trans hcount.symm, fun line hline => ?_⟩
    rcases List.mem_map.mp hline with ⟨t, _, rfl⟩
    exact line_eq_append_newline t
  · rw [count_newline_output, hcount]

/-- The texts of all tokens are the text. -/
theorem join_text_entries {text : String} (h : text.utf8ByteSize < maxPosition) {l : Listing}
    (hl : ofString text false = .ok l) :
    String.join (l.entries.map fun t => t.token.text) = text := by
  rcases ofString_eq_ok h false with ⟨k, hk, hentries, _⟩
  rw [hl, Except.ok.injEq] at hk
  have hall : (locateFrom 0 (Plain.tokens text.toList)).filter
      (fun t => !(false && t.token.kind.isTrivia)) = locateFrom 0 (Plain.tokens text.toList) :=
    List.filter_eq_self.mpr fun _ _ => rfl
  rw [hk, hentries, hall, join_text_locateFrom, Plain.flatten_tokens, String.ofList_toList]

/-- Every listing has a line for each token it lists, whether it is kept or
    written as it is made, and the listings of two texts with all of their tokens
    are the same only if the texts are. -/
theorem determines_text {text other : String} (h : text.utf8ByteSize < maxPosition)
    (h' : other.utf8ByteSize < maxPosition) :
    (∀ skipTrivia, ∃ l ts, ofString text skipTrivia = .ok l ∧ tokenize text = .ok ts ∧
      l.Lists skipTrivia ts ∧ ∀ s, (writeText text skipTrivia s).1 = .ofPrinted (l.print s)) ∧
    ∃ l l', ofString text false = .ok l ∧ ofString other false = .ok l' ∧
      ∀ s : Sink, s.room = none → l.writeTo s = l'.writeTo s →
        l.entries = l'.entries ∧ text = other := by
  refine ⟨fun skipTrivia => ?_, ?_⟩
  · rcases ofString_lists h skipTrivia with ⟨l, ts, hl, hts, hlists⟩
    exact ⟨l, ts, hl, hts, hlists, fst_writeText hl⟩
  -- Equal bytes are equal texts, whose lines are told apart, and the tokens on them make
  -- up the sources.
  rcases ofString_lists h false with ⟨l, _, hl, _, hlists⟩
  rcases ofString_lists h' false with ⟨l', _, hl', _, hlists'⟩
  refine ⟨l, l', hl, hl', ?_⟩
  intro s hs hwrite
  rw [hlists.written s hs, hlists'.written s hs, Except.ok.injEq, Sink.mk.injEq,
    ByteArray.append_right_inj] at hwrite
  have houtput : l.output = l'.output := String.toByteArray_inj.mp hwrite.1
  have hentries := entries_eq_of_output_eq houtput
  refine ⟨hentries, ?_⟩
  rw [← join_text_entries h hl, hentries, join_text_entries h' hl']

/-- A text that is quoted as a listing would be, and one with a line end in a
    string. -/
theorem determines_text_line_end :
    "'\n0 Ident \"a\"".utf8ByteSize < maxPosition ∧ "'\\\n".utf8ByteSize < maxPosition ∧
      (∀ skipTrivia, ∃ l ts, ofString "'\n0 Ident \"a\"" skipTrivia = .ok l ∧
        tokenize "'\n0 Ident \"a\"" = .ok ts ∧ l.Lists skipTrivia ts ∧
        ∀ s, (writeText "'\n0 Ident \"a\"" skipTrivia s).1 = .ofPrinted (l.print s)) ∧
      ∃ l l', ofString "'\n0 Ident \"a\"" false = .ok l ∧ ofString "'\\\n" false = .ok l' ∧
        ∀ s : Sink, s.room = none → l.writeTo s = l'.writeTo s →
          l.entries = l'.entries ∧ "'\n0 Ident \"a\"" = "'\\\n" := by
  have h : "'\n0 Ident \"a\"".utf8ByteSize < maxPosition := by decide
  have h' : "'\\\n".utf8ByteSize < maxPosition := by decide
  exact ⟨h, h', determines_text h h'⟩

end Listing

end CssTokens
