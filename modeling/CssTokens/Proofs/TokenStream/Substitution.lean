import CssTokens.Proofs.CharGroup
import CssTokens.Proofs.TokenStream.Refinement

/-!
# Tokens of a Text With Other Characters

Tokenization sees of each character its group, and no more.

Let the characters of a text be replaced, each by one of the same group, and
the two quotes kept or exchanged. Then every test of the reading has the same
answer at every place, and so every way to read takes as many characters as
before and yields the same kind (`Plain.first_map`). The tokens are those of
the text with their characters replaced. Neither the number of bytes of a
character nor the case of a letter is seen, and a NUL is a character like any
other that begins nothing.

Each way to read has its own lemma, which speaks of the tests that this way
makes. For strings the induction is on the reading itself.

## Main definitions

* `Lexeme.map`, `Token.map`: A token with each of its characters replaced.

## Theorems

* `Plain.run_map`, `Plain.stringRest_map`, `Plain.name_map`,
  `Plain.number_map`: The ways to read.
* `Plain.first_map`: The first token has the same kind and length.
* `Plain.tokens_map`: All of the tokens.
* `tokenize_map`: The tokens of the text with other characters.
-/

namespace CssTokens

namespace Plain

theorem run_map {test : Char → Bool} {f : Char → Char} (ht : ∀ c, test (f c) = test c)
    (cs : List Char) : run test (cs.map f) = run test cs := by
  induction cs with
  | nil => rfl
  | cons c cs ih =>
      by_cases hc : test c = true
      · rw [List.map_cons, run_cons ((ht c).trans hc), run_cons hc, ih]
      · have hc : test c = false := Bool.eq_false_iff.mpr hc
        rw [List.map_cons, run_cons_of_false ((ht c).trans hc), run_cons_of_false hc]

theorem starts_map {test : Char → Bool} {f : Char → Char} (ht : ∀ c, test (f c) = test c)
    (cs : List Char) : starts test (cs.map f) = starts test cs := by
  cases cs with
  | nil => rfl
  | cons c cs => exact ht c

section Groups

variable {f : Char → Char} (hf : KeepsGroups f)

include hf

theorem starts_mark_map {m : Char} (hm : m ∈ CharGroup.marks) (cs : List Char) :
    starts (· == m) (cs.map f) = starts (· == m) cs := by
  refine starts_map (fun c => ?_) cs
  rw [Bool.eq_iff_iff, beq_iff_eq, beq_iff_eq, hf.eq_mark_iff hm]

theorem mem_map_mark {m : Char} (hm : m ∈ CharGroup.marks) (cs : List Char) :
    m ∈ cs.map f ↔ m ∈ cs := by
  induction cs with
  | nil => exact Iff.rfl
  | cons c cs ih =>
      rw [List.map_cons, List.mem_cons, List.mem_cons, ih, eq_comm, hf.eq_mark_iff hm, eq_comm]

theorem isUrl_map (word : List Char) : isUrl (word.map f) = isUrl word := by
  rw [Bool.eq_iff_iff, isUrl, isUrl, decide_eq_true_eq, decide_eq_true_eq]
  -- Only a word of three letters can be the one.
  rcases word with _ | ⟨a, _ | ⟨b, _ | ⟨c, _ | ⟨d, ds⟩⟩⟩⟩
  case cons.cons.cons.nil =>
    simp only [List.map_cons, List.map_nil, List.cons.injEq, and_true]
    rw [hf.toLower_eq_iff (by decide), hf.toLower_eq_iff (by decide),
      hf.toLower_eq_iff (by decide)]
  all_goals simp

/-- The rest of a string has the same kind and length. -/
theorem stringRest_map {quote : Char} (hq : isQuote quote = true) (cs : List Char) :
    stringRest (f quote) (cs.map f) = stringRest quote cs := by
  have hslash : '\\' ≠ quote := (isQuote_spec hq).2.2.1.symm
  have hfq : isQuote (f quote) = true := (hf.isQuote quote).trans hq
  have hfslash : '\\' ≠ f quote := (isQuote_spec hfq).2.2.1.symm
  have hback : f '\\' = '\\' := (hf.eq_mark_iff (by decide) '\\').mpr rfl
  -- The induction is on the reading: each way it goes on is also the way that
  -- it goes on behind the map.
  fun_induction stringRest quote cs with
  | case1 => rfl
  | case2 cs => rw [List.map_cons, stringRest_quote]
  | case3 c cs hne hc =>
      rw [List.map_cons]
      exact stringRest_newline (fun heq => hne ((hf.eq_quote_iff hq c).mp heq))
        ((hf.isNewline c).trans hc) _
  | case4 =>
      rw [List.map_cons, List.map_nil, hback]
      exact stringRest_last_backslash hfslash
  | case5 d ds hd hne hc r ih =>
      rw [List.map_cons, List.map_cons, hback,
        stringRest_escape hfslash ((hf.isNewline d).trans hd), ih]
  | case6 d ds hd r hne hc ih =>
      rw [List.map_cons] at ih
      rw [List.map_cons, List.map_cons, hback, stringRest_backslash hfslash
        ((hf.isNewline d).trans (Bool.eq_false_iff.mpr hd)), ih]
  | case7 c cs hne hc hother r ih =>
      have hstop : isStop (f quote) (f c) = false := by
        rw [isStop, Bool.or_eq_false_iff, Bool.or_eq_false_iff, beq_eq_false_iff_ne,
          beq_eq_false_iff_ne, Ne, hf.eq_quote_iff hq, Ne, hf.eq_mark_iff (by decide),
          hf.isNewline]
        exact ⟨⟨hne, hother⟩, Bool.eq_false_iff.mpr hc⟩
      rw [List.map_cons, stringRest_other hstop, ih]

theorem name_map (cs : List Char) : name (cs.map f) = name cs := by
  unfold name
  dsimp only
  rw [run_map hf.isNameChar, ← List.map_drop, ← List.map_take, ← List.map_take, isUrl_map hf]
  by_cases hopen : '(' ∈ (cs.drop (run isNameChar cs)).take 2
  · rw [if_pos ((mem_map_mark hf (by decide) _).mpr hopen), if_pos hopen]
  · rw [if_neg (fun h => hopen ((mem_map_mark hf (by decide) _).mp h)), if_neg hopen]

theorem numeral_map (cs : List Char) : numeral (cs.map f) = numeral cs := by
  have hrun := run_map hf.isDigit cs
  have hdrop : (cs.map f).drop (run Char.isDigit (cs.map f)) =
      (cs.drop (run Char.isDigit cs)).map f := by
    rw [hrun, List.map_drop]
  have hpoint : f '.' = '.' := (hf.eq_mark_iff (by decide) '.').mpr rfl
  cases hs : starts (· == '.') (cs.drop (run Char.isDigit cs)) with
  | true =>
      rcases starts_beq_iff.mp hs with ⟨ds, hd⟩
      rw [hd, List.map_cons, hpoint] at hdrop
      rw [numeral_of_point hdrop, numeral_of_point hd, hrun, run_map hf.isDigit]
  | false =>
      rw [numeral_of_no_point, numeral_of_no_point hs, hrun]
      rw [hdrop, starts_mark_map hf (by decide), hs]

theorem number_map (cs : List Char) : number (cs.map f) = number cs := by
  have hnumeral := numeral_map hf cs
  have hdrop : (cs.map f).drop (numeral (cs.map f)) = (cs.drop (numeral cs)).map f := by
    rw [hnumeral, List.map_drop]
  have hpercent : f '%' = '%' := (hf.eq_mark_iff (by decide) '%').mpr rfl
  cases hs : starts (· == '%') (cs.drop (numeral cs)) with
  | true =>
      rcases starts_beq_iff.mp hs with ⟨ds, hd⟩
      rw [hd, List.map_cons, hpercent] at hdrop
      rw [number_of_percent hdrop, number_of_percent hd, hnumeral]
  | false =>
      rw [number_of_no_percent, number_of_no_percent hs, hdrop, hnumeral, starts_map hf.isNameChar,
        run_map hf.isNameChar]
      rw [hdrop, starts_mark_map hf (by decide), hs]

theorem ofLead_map {c : Char} {l : Lead} (hl : l.Holds c) (cs : List Char) :
    ofLead (f c) (cs.map f) l = ofLead c cs l := by
  have hname := name_map hf (c :: cs)
  have hnumber := number_map hf (c :: cs)
  rw [List.map_cons] at hname hnumber
  -- One case for each group; each of them reads by tests that are kept.
  cases l with
  | blank => rw [ofLead, ofLead, run_map hf.isBlank]
  | quote => rw [ofLead, ofLead, stringRest_map hf hl]
  | punctuation kind => rfl
  | mark kind => rw [ofLead, ofLead, starts_map hf.isNameStart, run_map hf.isNameChar]
  | nameStart => rw [ofLead, ofLead, hname]
  | digit => rw [ofLead, ofLead, hnumber]
  | point => rw [ofLead, ofLead, starts_map hf.isDigit, hnumber]
  | other => rfl

theorem first_map (cs : List Char) : first (cs.map f) = first cs := by
  cases cs with
  | nil => rfl
  | cons c cs =>
      rw [List.map_cons, first, first, firstAt_eq_ofLead, firstAt_eq_ofLead, hf.lead,
        ofLead_map hf (Lead.ofChar_holds c)]

end Groups

end Plain

/-- A lexeme with each of its characters replaced. -/
def Lexeme.map (f : Char → Char) (x : Lexeme) : Lexeme := ⟨x.kind, x.chars.map f⟩

/-- A token with each character of its text replaced. -/
def Token.map (f : Char → Char) (t : Token) : Token := ⟨t.kind, t.text.map f⟩

theorem token_map (f : Char → Char) (x : Lexeme) : (x.map f).token = x.token.map f := by
  rw [Lexeme.map, Lexeme.token, Lexeme.token, Token.map, Token.mk.injEq, ← String.toList_inj,
    String.toList_map, String.toList_ofList, String.toList_ofList]
  exact ⟨rfl, rfl⟩

theorem Plain.tokens_map {f : Char → Char} (hf : KeepsGroups f) (cs : List Char) :
    tokens (cs.map f) = (tokens cs).map (Lexeme.map f) := by
  fun_induction tokens cs with
  | case1 cs h =>
      rw [eq_nil_of_first_eq_none h]
      exact tokens_nil
  | case2 cs k n h ih =>
      have hfirst : first (cs.map f) = some (k, n) := (first_map hf cs).trans h
      rw [tokens_cons hfirst, ← List.map_drop, ih, ← List.map_take]
      rfl

/-- The tokens of a text with other characters are the tokens of the text, with
    other characters. -/
theorem tokenize_map {f : Char → Char} (hf : KeepsGroups f) {text : String}
    (h : text.utf8ByteSize < maxPosition) (hmap : (text.map f).utf8ByteSize < maxPosition) :
    ∃ ts, tokenize text = .ok ts ∧ tokenize (text.map f) = .ok (ts.map (Token.map f)) := by
  have htokens : ((Plain.tokens text.toList).map (Lexeme.map f)).map Lexeme.token =
      ((Plain.tokens text.toList).map Lexeme.token).map (Token.map f) := by
    rw [List.map_map, List.map_map]
    exact List.map_congr_left fun x _ => token_map f x
  refine ⟨_, tokenize_eq_ok h, ?_⟩
  rw [tokenize_eq_ok hmap, String.toList_map, Plain.tokens_map hf, htokens]

/-- One quote for the other, and three more characters for others of their
    groups. -/
def disguise : Char → Char
  | '"' => '\''
  | '\'' => '"'
  | 'a' => '€'
  | 'U' => 'u'
  | '!' => '\x00'
  | c => c

theorem keepsGroups_disguise : KeepsGroups disguise := by
  constructor
  · intro c
    unfold disguise
    split <;> rfl
  · exact Or.inr ⟨rfl, rfl⟩

/-- A wider character in a function name, a NUL for a stray character, and a
    string with the other quote. -/
theorem tokenize_map_disguise :
    KeepsGroups disguise ∧ "aU(!'b".utf8ByteSize < maxPosition ∧
      ("aU(!'b".map disguise).utf8ByteSize < maxPosition ∧
      ∃ ts, tokenize "aU(!'b" = .ok ts ∧
        tokenize ("aU(!'b".map disguise) = .ok (ts.map (Token.map disguise)) := by
  have h : "aU(!'b".utf8ByteSize < maxPosition := by decide
  have hdisguised : "aU(!'b".map disguise = "€u(\x00\"b" := by
    rw [← String.toList_inj, String.toList_map]
    rfl
  have hmap : ("aU(!'b".map disguise).utf8ByteSize < maxPosition := by
    rw [hdisguised]
    decide
  exact ⟨keepsGroups_disguise, h, hmap, tokenize_map keepsGroups_disguise h hmap⟩

end CssTokens
