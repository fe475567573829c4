import CssTokens.Proofs.TokenStream.Calls
import CssTokens.Proofs.TokenStream.Characterization

/-!
# Streams That Start Inside a Text

A stream may start between any two characters of a text. What it hands out is
then decided by the characters ahead.

The same characters lie ahead of a stream over the rest of the text alone, so
the two hand out the same tokens, call by call. What lies in front of the
place shows in the positions only: it adds its bytes to one and its characters
to the other. The two sources differ in length and in padding, and neither
matters, because a reader between characters is `placed` and `placed` readers
are told by the characters ahead.

A place between two characters need not be one between two tokens. Where it
is, the tokens of the whole text go on as those of the rest
(`IsStream.of_append`).

## Main definitions

* `Resumes`: What a stream inside a text shares with one over the rest.

## Theorems

* `advanceBy_start_of_le`, `advanceBy_start`: The step from the start.
* `resumes_placed`: A stream behind a text in front.
* `tokenize_join_of_append`: The tokens past some of the tokens.
* `resumes_of_isValid`: A stream that starts between two characters.
-/

namespace CssTokens

open Reader

namespace Reader

/-- A step from the start leads anywhere that a position can tell. -/
theorem advanceBy_start_of_le (s : Source) {p : Nat} (hp : p ≤ maxPosition) :
    s.start.advanceBy p = .ok (s.start.moveTo p) := by
  have hsum : s.start.pos + p = p := Nat.zero_add p
  rw [advanceBy, addPosition_of_le (by omega), ok_map, hsum]

/-- The step from the start of a text to a place inside it. -/
theorem advanceBy_start {before behind : String}
    (h : (before ++ behind).utf8ByteSize ≤ maxPosition) :
    (Source.ofString (before ++ behind)).start.advanceBy before.utf8ByteSize =
      .ok (placed (before ++ behind) before.length) := by
  rw [String.utf8ByteSize_append] at h
  rw [placed_length_append]
  exact advanceBy_start_of_le _ (by omega)

end Reader

/-- What a stream inside a text, with `before` in front and `behind` ahead,
    shares with a stream over `behind` alone. -/
structure Resumes (before behind : String) (s : TokenStream) : Prop where
  /-- Any number of calls hands out the same tokens. The positions differ by
      what is in front, in bytes and in characters. -/
  calls : ∀ n, ∃ ts u v m, s.calls n = .ok (ts, u) ∧
    (TokenStream.ofString behind).calls n = .ok (ts, v) ∧
    u.pos = before.utf8ByteSize + v.pos ∧
    v.charPosition = .ok m ∧ u.charPosition = .ok (before.length + m)
  /-- Read to the end, the stream gives the tokens of what is ahead. -/
  drain : ∃ found u, s.drain #[] = .ok (found, u) ∧
    tokenize behind = .ok (found.toList.map Located.token)
  /-- So do its items. -/
  collect : ∃ ts u, s.collect #[] = .ok (ts, u) ∧ tokenize behind = .ok ts.toList

/-- A stream behind a text in front, whatever it has told. -/
theorem resumes_placed {before behind : String}
    (h : (before ++ behind).utf8ByteSize < maxPosition) (told : List Event) :
    Resumes before behind ⟨placed (before ++ behind) before.length, told⟩ := by
  have hbehind : behind.utf8ByteSize < maxPosition := by
    rw [String.utf8ByteSize_append] at h
    omega
  have hahead := drop_length_append before behind
  constructor
  · intro n
    -- Both streams have the same tokens ahead, and cover as many characters.
    have hinside := TokenStream.calls_placed h n (congrArg Plain.tokens hahead) told
    have halone := TokenStream.calls_ofString hbehind n
    generalize hm : charCount ((Plain.tokens behind.toList).take n) = m at hinside halone
    have hle : m ≤ behind.length := by
      have := charCount_take_le (Plain.tokens behind.toList) n
      rw [Plain.charCount_tokens, String.length_toList] at this
      omega
    have hinsideLe : before.length + m ≤ (before ++ behind).length := by
      rw [String.length_append]
      omega
    exact ⟨_, _, _, m, hinside, halone, pos_placed_append before behind m,
      charPosition_placed (Nat.le_of_lt hbehind) hle,
      charPosition_placed (Nat.le_of_lt h) hinsideLe⟩
  · refine ⟨_, _, (TokenStream.reads_placed h hahead told).drain #[], ?_⟩
    rw [tokenize_eq_ok hbehind, Array.empty_append, List.toList_toArray, map_token_locateFrom]
  · refine ⟨_, _, (TokenStream.reads_placed h hahead told).collect #[], ?_⟩
    rw [tokenize_eq_ok hbehind, Array.empty_append, List.toList_toArray, map_token_locateFrom]

/-- Past some of the tokens of a text, the others are the tokens of what is
    left of the text. -/
theorem tokenize_join_of_append {text : String} (h : text.utf8ByteSize < maxPosition)
    {ts us : List Token} (htokens : tokenize text = .ok (ts ++ us)) :
    text = String.join (ts.map Token.text) ++ String.join (us.map Token.text) ∧
      tokenize (String.join (us.map Token.text)) = .ok us := by
  rw [tokenize_eq_ok_iff_isStream h, List.map_append] at htokens
  have htext : text = String.join (ts.map Token.text) ++ String.join (us.map Token.text) := by
    rw [← String.toList_inj, ← (isStream_iff_forall.mp htokens).1, List.map_append,
      List.flatten_append, String.toList_append, toList_join_text, toList_join_text]
  have hsize : (String.join (us.map Token.text)).utf8ByteSize < maxPosition := by
    rw [htext, String.utf8ByteSize_append] at h
    omega
  refine ⟨htext, ?_⟩
  rw [tokenize_eq_ok_iff_isStream hsize, toList_join_text]
  exact htokens.of_append

/-- A stream that starts between two characters of a text reads what is ahead
    as a text of its own. Between two tokens it reads the tokens that are
    left. -/
theorem resumes_of_isValid {text : String} (h : text.utf8ByteSize < maxPosition) {p : Nat}
    (hp : String.Pos.Raw.IsValid text ⟨p⟩) :
    ∃ before behind r, text = before ++ behind ∧ before.utf8ByteSize = p ∧
      (Source.ofString text).start.advanceBy p = .ok r ∧
      (∀ told, Resumes before behind ⟨r, told⟩) ∧
      ∀ ts us, tokenize text = .ok (ts ++ us) → String.join (ts.map Token.text) = before →
        tokenize behind = .ok us := by
  rcases String.Pos.Raw.isValid_iff_exists_append.mp hp with ⟨before, behind, rfl, hbefore⟩
  have hsize : before.utf8ByteSize = p := (congrArg String.Pos.Raw.byteIdx hbefore).symm
  refine ⟨before, behind, _, rfl, hsize, ?_, resumes_placed h, ?_⟩
  · rw [← hsize]
    exact advanceBy_start (Nat.le_of_lt h)
  · intro ts us htokens hjoin
    rcases tokenize_join_of_append h htokens with ⟨htext, hrest⟩
    -- What is left of the text behind the first tokens is what is ahead.
    rw [hjoin, String.append_right_inj] at htext
    rw [htext]
    exact hrest

/-- A place inside a string. The quote that opens it is in front, and the one
    that closes it opens another string. -/
theorem resumes_inside_string :
    "'a€'b".utf8ByteSize < maxPosition ∧ String.Pos.Raw.IsValid "'a€'b" ⟨5⟩ ∧
      ∃ before behind r, "'a€'b" = before ++ behind ∧ before.utf8ByteSize = 5 ∧
        (Source.ofString "'a€'b").start.advanceBy 5 = .ok r ∧
        (∀ told, Resumes before behind ⟨r, told⟩) ∧
        ∀ ts us, tokenize "'a€'b" = .ok (ts ++ us) → String.join (ts.map Token.text) = before →
          tokenize behind = .ok us := by
  have h : "'a€'b".utf8ByteSize < maxPosition := by decide
  have hp : String.Pos.Raw.IsValid "'a€'b" ⟨5⟩ :=
    String.Pos.Raw.isValid_iff_exists_append.mpr ⟨"'a€", "'b", by decide, rfl⟩
  exact ⟨h, hp, resumes_of_isValid h hp⟩

end CssTokens
