import CssTokens.Proofs.TokenStream.Lossless
import CssTokens.TokenStream.Session

/-!
# Requests to a Token Stream

What a stream answers to a series of requests of all kinds.

A stream may be asked for one token or for several, for a token further on or
for its position, in any order and past the end of the text. Each request uses
up some of the tokens that are left, and how many is known from their number
alone (`StreamRequest.uses`). What is answered is a matter of the tokens behind
and the tokens ahead (`StreamRequest.reply`). So a series of requests is told
by a single number, that of the tokens used so far: no token is handed out
twice, and none is left out.

`Between` is the invariant. A stream keeps to it when it stands in a text with
some of its tokens behind and the others ahead; one token moves from one side
to the other with each call, and every request is made of calls. Both positions
can then be read off the tokens behind.

## Main definitions

* `StreamRequest.uses`, `StreamRequest.reply`: One request, by the tokens.
* `StreamRequest.replies`: A series of them.
* `TokenStream.Between`: The tokens behind a stream and those ahead of it.
* `TokenStream.Behind`: How many of the tokens are behind it.
* `TokenStream.answers`: The answers to requests, with the stream behind each.
* `TokenStream.InOrder`: What holds of a series of requests.

## Theorems

* `Plain.tokens_drop`: What is ahead behind some of the tokens.
* `Between.next_cons`, `Between.next_nil`: One call.
* `Between.answer`: One request.
* `Behind.answer`, `Behind.answers`: One request, and a series of them.
* `serve_of_answers`: What a session writes down.
* `answers_inOrder`: A series of requests from the start of a text.
-/

namespace CssTokens

open Reader

namespace StreamRequest

/-- How many tokens a request uses up, of those that are left. -/
def uses (left : Nat) : StreamRequest → Nat
  | .token => min 1 left
  | .next => min 1 left
  | .nth n => min (n + 1) left
  | .take n => min n left
  | .collect => left
  | .charPosition => 0

/-- What a request is answered, by the tokens behind and the tokens ahead. -/
def reply (behind ahead : List Token) : StreamRequest → StreamAnswer
  | .token => .token (ahead.head?.getD .endOfInput)
  | .next => .item ahead.head?
  | .nth n => .item ahead[n]?
  | .take n => .items (ahead.take n)
  | .collect => .items ahead
  | .charPosition => .count (String.join (behind.map Token.text)).length

/-- What requests are answered when `c` of the tokens are used, each answer
    with the number of tokens used by then. -/
def replies (ts : List Token) (c : Nat) : List StreamRequest → List (StreamAnswer × Nat)
  | [] => []
  | r :: rs =>
      let c' := c + r.uses (ts.length - c)
      (r.reply (ts.take c) (ts.drop c), c') :: replies ts c' rs

theorem uses_le (left : Nat) (r : StreamRequest) : r.uses left ≤ left := by
  cases r <;> simp only [uses] <;> omega

/-- The number of tokens used does not decrease, and is that of some of the
    tokens. -/
theorem replies_bounds {ts : List Token} {c : Nat} (hc : c ≤ ts.length)
    (rs : List StreamRequest) :
    (∀ x ∈ replies ts c rs, c ≤ x.2 ∧ x.2 ≤ ts.length) ∧
      (replies ts c rs).Pairwise fun x y => x.2 ≤ y.2 := by
  -- A request uses no more tokens than are left, so the number stays in bounds, and it
  -- only grows.
  induction rs generalizing c with
  | nil => exact ⟨List.forall_mem_nil _, List.Pairwise.nil⟩
  | cons r rs ih =>
      have huses := uses_le (ts.length - c) r
      rcases ih (c := c + r.uses (ts.length - c)) (by omega) with ⟨hbounds, hsorted⟩
      constructor
      · refine List.forall_mem_cons.mpr ⟨⟨Nat.le_add_right _ _, by dsimp only; omega⟩, ?_⟩
        intro x hx
        have := hbounds x hx
        omega
      · exact List.pairwise_cons.mpr ⟨fun x hx => (hbounds x hx).1, hsorted⟩

end StreamRequest

theorem charCount_append (ys xs : List Lexeme) :
    charCount (ys ++ xs) = charCount ys + charCount xs := by
  induction ys with
  | nil => rw [List.nil_append, charCount_nil, Nat.zero_add]
  | cons y ys ih => rw [List.cons_append, charCount_cons, charCount_cons, ih, Nat.add_assoc]

theorem charCount_eq_length (xs : List Lexeme) :
    charCount xs = (xs.map Lexeme.chars).flatten.length := by
  induction xs with
  | nil => rfl
  | cons x xs ih => rw [charCount_cons, List.map_cons, List.flatten_cons, List.length_append, ih]

/-- What is ahead behind some of the tokens are the other tokens. -/
theorem Plain.tokens_drop {cs : List Char} {ys xs : List Lexeme} (h : ys ++ xs = tokens cs) :
    tokens (cs.drop (charCount ys)) = xs := by
  induction ys generalizing cs with
  | nil => exact h.symm
  | cons y ys ih =>
      -- The first token has as many characters as its length says, so they come off the text
      -- at once.
      cases hfirst : first cs with
      | none =>
          rw [eq_nil_of_first_eq_none hfirst, tokens_nil] at h
          injection h
      | some r =>
          have hbounds := first_bounds hfirst
          rw [tokens_cons hfirst, List.cons_append] at h
          injection h with hy hrest
          have hlen : y.chars.length = r.2 := by
            rw [hy, List.length_take]
            omega
          rw [charCount_cons, hlen, ← List.drop_drop]
          exact ih hrest

namespace TokenStream

/-- A stream in a text, with the tokens `ys` behind it and `xs` ahead. -/
def Between (text : String) (ys xs : List Lexeme) (s : TokenStream) : Prop :=
  ys ++ xs = Plain.tokens text.toList ∧ ∃ told, s = ⟨placed text (charCount ys), told⟩

namespace Between

variable {text : String} {ys xs : List Lexeme} {x : Lexeme} {s : TokenStream}

theorem start (text : String) : Between text [] (Plain.tokens text.toList) (ofString text) :=
  ⟨rfl, [], rfl⟩

theorem drop_eq (hs : Between text ys xs s) :
    Plain.tokens (text.toList.drop (charCount ys)) = xs :=
  Plain.tokens_drop hs.1

/-- The tokens behind cover the text up to where the stream stands. -/
theorem take_eq (hs : Between text ys xs s) :
    text.toList.take (charCount ys) = (ys.map Lexeme.chars).flatten := by
  have htext := Plain.flatten_tokens text.toList
  rw [← hs.1, List.map_append, List.flatten_append] at htext
  rw [← htext, charCount_eq_length, List.take_left]

/-- A call with a token ahead hands it out and moves behind it. -/
theorem next_cons (h : text.utf8ByteSize < maxPosition) (hs : Between text ys (x :: xs) s) :
    ∃ s', s.next = .ok (x.token, s') ∧ x.token.isEnd = false ∧
      Between text (ys ++ [x]) xs s' := by
  have hahead := hs.drop_eq
  rcases hs with ⟨htokens, told, rfl⟩
  -- That a token is ahead excludes the end of the text.
  cases hfirst : Plain.first (text.toList.drop (charCount ys)) with
  | none =>
      rw [Plain.eq_nil_of_first_eq_none hfirst, Plain.tokens_nil] at hahead
      injection hahead
  | some r =>
      have hbounds := Plain.first_bounds hfirst
      rw [Plain.tokens_cons hfirst] at hahead
      injection hahead with hx _
      subst hx
      have hcount : charCount [Lexeme.mk r.1 ((text.toList.drop (charCount ys)).take r.2)] =
          r.2 := by
        rw [charCount_cons, charCount_nil, List.length_take, Nat.min_eq_left hbounds.2,
          Nat.add_zero]
      refine ⟨_, next_placed h hfirst told, ?_, ?_, ?_⟩
      · exact beq_eq_false_iff_ne.mpr (Plain.first_kind hfirst).1
      · rw [List.append_assoc, List.singleton_append]
        exact htokens
      · rw [charCount_append, hcount]
        exact ⟨_, rfl⟩

/-- A call with nothing ahead hands out the end token and stays. -/
theorem next_nil (h : text.utf8ByteSize < maxPosition) (hs : Between text ys [] s) :
    s.next = .ok (.endOfInput, s) := by
  have hahead := hs.drop_eq
  rcases hs with ⟨_, told, rfl⟩
  refine next_placed_end (Nat.le_of_lt h) ?_ told
  have htext := Plain.flatten_tokens (text.toList.drop (charCount ys))
  rw [hahead] at htext
  exact htext.symm

/-- A stream that passes over tokens uses them up, as far as they go. -/
theorem skip (h : text.utf8ByteSize < maxPosition) (n : Nat) (hs : Between text ys xs s) :
    ∃ s', TokenStream.skip n s = .ok (decide (n ≤ xs.length), s') ∧
      Between text (ys ++ xs.take n) (xs.drop n) s' := by
  -- The induction is on the number; the tokens used move from the ones ahead to the ones
  -- behind.
  induction n generalizing ys xs s with
  | zero =>
      rw [List.take_zero, List.append_nil, List.drop_zero, decide_eq_true (Nat.zero_le _)]
      exact ⟨s, rfl, hs⟩
  | succ n ih =>
      cases xs with
      | nil =>
          rw [List.take_nil, List.append_nil, List.drop_nil, TokenStream.skip, hs.next_nil h,
            ok_bind]
          exact ⟨s, rfl, hs⟩
      | cons x xs =>
          rcases hs.next_cons h with ⟨s₁, hnext, hend, hs₁⟩
          rcases ih hs₁ with ⟨s', hskip, hs'⟩
          refine ⟨s', ?_, ?_⟩
          · rw [TokenStream.skip, hnext, ok_bind]
            dsimp only
            rw [if_neg (Bool.eq_false_iff.mp hend), List.length_cons]
            simp only [Nat.succ_le_succ_iff]
            exact hskip
          · rw [List.take_succ_cons, List.drop_succ_cons, List.append_cons]
            exact hs'

/-- Several tokens at once. -/
theorem take (h : text.utf8ByteSize < maxPosition) (n : Nat) (hs : Between text ys xs s)
    (found : Array Token) :
    ∃ s', TokenStream.take n s found =
        .ok (found ++ ((xs.take n).map Lexeme.token).toArray, s') ∧
      Between text (ys ++ xs.take n) (xs.drop n) s' := by
  -- As for passing over tokens, but the ones used are also kept.
  induction n generalizing ys xs s found with
  | zero =>
      rw [List.take_zero, List.append_nil, List.drop_zero]
      exact ⟨s, by simp [TokenStream.take], hs⟩
  | succ n ih =>
      cases xs with
      | nil =>
          rw [List.take_nil, List.append_nil, List.drop_nil, TokenStream.take, hs.next_nil h,
            ok_bind]
          exact ⟨s, by simp [Token.isEnd, Token.endOfInput, pure, Except.pure], hs⟩
      | cons x xs =>
          rcases hs.next_cons h with ⟨s₁, hnext, hend, hs₁⟩
          rcases ih hs₁ (found.push x.token) with ⟨s', htake, hs'⟩
          refine ⟨s', ?_, ?_⟩
          · rw [TokenStream.take, hnext, ok_bind]
            dsimp only
            rw [if_neg (Bool.eq_false_iff.mp hend), List.take_succ_cons, List.map_cons,
              ← List.push_append_toArray]
            exact htake
          · rw [List.take_succ_cons, List.drop_succ_cons, List.append_cons]
            exact hs'

/-- The next token, unless there is none. -/
theorem next? (h : text.utf8ByteSize < maxPosition) (hs : Between text ys xs s) :
    ∃ s', s.next? = .ok ((xs.map Lexeme.token).head?, s') ∧
      Between text (ys ++ xs.take 1) (xs.drop 1) s' := by
  cases xs with
  | nil =>
      rw [TokenStream.next?, hs.next_nil h, List.take_nil, List.append_nil]
      exact ⟨s, rfl, hs⟩
  | cons x xs =>
      rcases hs.next_cons h with ⟨s', hnext, hend, hs'⟩
      refine ⟨s', ?_, hs'⟩
      rw [TokenStream.next?, hnext, ok_bind]
      dsimp only
      rw [if_neg (Bool.eq_false_iff.mp hend)]
      rfl

/-- The token that many tokens ahead. The ones in front of it are used up as
    well, and all of them are when there are not so many. -/
theorem nth? (h : text.utf8ByteSize < maxPosition) (n : Nat) (hs : Between text ys xs s) :
    ∃ s', s.nth? n = .ok ((xs.map Lexeme.token)[n]?, s') ∧
      Between text (ys ++ xs.take (n + 1)) (xs.drop (n + 1)) s' := by
  rcases hs.skip h n with ⟨s₁, hskip, hs₁⟩
  rw [TokenStream.nth?, hskip, ok_bind]
  dsimp only
  -- Passing over the tokens in front tells whether there are so many, and the next one
  -- is asked for only then.
  by_cases hn : n ≤ xs.length
  · rcases hs₁.next? h with ⟨s', hnext, hs'⟩
    refine ⟨s', ?_, ?_⟩
    · rw [if_pos (decide_eq_true hn), hnext, List.map_drop, List.head?_drop]
    · rw [List.append_assoc, List.drop_drop, ← List.take_add] at hs'
      exact hs'
  · -- The tokens are over before there are so many.
    have hlen : xs.length ≤ n := Nat.le_of_not_le hn
    refine ⟨s₁, ?_, ?_⟩
    · rw [if_neg (Bool.eq_false_iff.mp (decide_eq_false hn)), List.getElem?_eq_none]
      · rfl
      · rw [List.length_map]
        exact hlen
    · rw [List.take_of_length_le hlen, List.drop_eq_nil_iff.mpr hlen] at hs₁
      rw [List.take_of_length_le (Nat.le_succ_of_le hlen),
        List.drop_eq_nil_iff.mpr (Nat.le_succ_of_le hlen)]
      exact hs₁

/-- All tokens that are left. -/
theorem collect (h : text.utf8ByteSize < maxPosition) (hs : Between text ys xs s) :
    ∃ s', s.collect #[] = .ok ((xs.map Lexeme.token).toArray, s') ∧
      Between text (ys ++ xs) [] s' := by
  have hahead := hs.drop_eq
  rcases hs with ⟨htokens, told, rfl⟩
  -- All tokens ahead are used, so the stream stands at the end.
  have hcount : charCount ys + (text.toList.drop (charCount ys)).length = charCount (ys ++ xs) := by
    rw [← Plain.charCount_tokens (text.toList.drop (charCount ys)), hahead, charCount_append]
  have hcollect := (reads_placed h (n := charCount ys) rfl told).collect #[]
  rw [Array.empty_append, map_token_locateFrom, hahead, hcount] at hcollect
  refine ⟨_, hcollect, ?_, _, rfl⟩
  rw [List.append_nil]
  exact htokens

theorem pos_eq (hs : Between text ys xs s) :
    s.pos = (String.join ((ys.map Lexeme.token).map Token.text)).utf8ByteSize := by
  have htake := hs.take_eq
  rcases hs with ⟨_, told, rfl⟩
  rw [utf8ByteSize_eq_byteCount, toList_join_token, ← htake]
  rfl

theorem charPosition_eq (h : text.utf8ByteSize < maxPosition) (hs : Between text ys xs s) :
    s.charPosition = .ok (String.join ((ys.map Lexeme.token).map Token.text)).length := by
  rw [← String.length_toList, toList_join_token, ← charCount_eq_length]
  have hle := charCount_take_le (ys ++ xs) ys.length
  rw [List.take_left, hs.1, Plain.charCount_tokens, String.length_toList] at hle
  rcases hs with ⟨_, told, rfl⟩
  exact charPosition_placed (Nat.le_of_lt h) hle

/-- One request uses up the tokens that it is answered with. -/
theorem answer (h : text.utf8ByteSize < maxPosition) (hs : Between text ys xs s)
    (r : StreamRequest) :
    ∃ s', s.answer r = .ok (r.reply (ys.map Lexeme.token) (xs.map Lexeme.token), s') ∧
      Between text (ys ++ xs.take (r.uses xs.length)) (xs.drop (r.uses xs.length)) s' := by
  -- What a request uses is bounded by what is left, and `take` and `drop` need no bound.
  cases r with
  | token =>
      rw [StreamRequest.uses, ← List.take_eq_take_min, ← List.drop_eq_drop_min,
        TokenStream.answer]
      cases xs with
      | nil =>
          rw [hs.next_nil h, List.take_nil, List.append_nil]
          exact ⟨s, rfl, hs⟩
      | cons x xs =>
          rcases hs.next_cons h with ⟨s', hnext, _, hs'⟩
          rw [hnext]
          exact ⟨s', rfl, hs'⟩
  | next =>
      rcases hs.next? h with ⟨s', hnext, hs'⟩
      rw [StreamRequest.uses, ← List.take_eq_take_min, ← List.drop_eq_drop_min,
        TokenStream.answer, hnext]
      exact ⟨s', rfl, hs'⟩
  | nth n =>
      rcases hs.nth? h n with ⟨s', hnth, hs'⟩
      rw [StreamRequest.uses, ← List.take_eq_take_min, ← List.drop_eq_drop_min,
        TokenStream.answer, hnth]
      exact ⟨s', rfl, hs'⟩
  | take n =>
      rcases hs.take h n #[] with ⟨s', htake, hs'⟩
      rw [StreamRequest.uses, ← List.take_eq_take_min, ← List.drop_eq_drop_min,
        TokenStream.answer, htake, Array.empty_append, ok_bind, List.map_take]
      exact ⟨s', rfl, hs'⟩
  | collect =>
      rcases hs.collect h with ⟨s', hcollect, hs'⟩
      rw [StreamRequest.uses, List.take_length, List.drop_length, TokenStream.answer, hcollect,
        ok_bind]
      exact ⟨s', rfl, hs'⟩
  | charPosition =>
      rw [StreamRequest.uses, List.take_zero, List.append_nil, List.drop_zero, TokenStream.answer,
        hs.charPosition_eq h]
      exact ⟨s, rfl, hs⟩

end Between

/-- The answers to requests, each with the stream behind it. -/
def answers (s : TokenStream) : List StreamRequest →
    Except Fault (List (StreamAnswer × TokenStream))
  | [] => .ok []
  | r :: rs => do
      let (a, s') ← s.answer r
      let rest ← s'.answers rs
      return (a, s') :: rest

theorem exists_frontText_eq (ts : List Token) {c d : Nat} (h : c ≤ d) :
    ∃ more, frontText ts d = frontText ts c ++ more := by
  rw [← Nat.add_sub_cancel' h]
  exact ⟨_, frontText_add ts c (d - c)⟩

/-- More tokens have a longer text, in bytes and in characters. -/
theorem frontText_mono (ts : List Token) {c d : Nat} (h : c ≤ d) :
    (frontText ts c).utf8ByteSize ≤ (frontText ts d).utf8ByteSize ∧
      (frontText ts c).length ≤ (frontText ts d).length := by
  rcases exists_frontText_eq ts h with ⟨more, hmore⟩
  rw [hmore, String.utf8ByteSize_append, String.length_append]
  exact ⟨Nat.le_add_right _ _, Nat.le_add_right _ _⟩

/-- The text of the first tokens ends between two characters of the text. -/
theorem isValid_frontText {text : String} {ts : List Token}
    (htext : String.join (ts.map Token.text) = text) {c : Nat} (hc : c ≤ ts.length) :
    String.Pos.Raw.IsValid text ⟨(frontText ts c).utf8ByteSize⟩ ∧
      (frontText ts c).utf8ByteSize ≤ text.utf8ByteSize := by
  have hall : frontText ts ts.length = text := by rw [frontText, List.take_length, htext]
  rcases exists_frontText_eq ts hc with ⟨more, hmore⟩
  rw [hall] at hmore
  refine ⟨String.Pos.Raw.isValid_iff_exists_append.mpr ⟨_, _, hmore, ?_⟩, ?_⟩
  · exact String.Pos.Raw.ext_iff.mpr rfl
  · rw [← hall]
    exact (frontText_mono ts hc).1

/-- A stream in a text with the tokens `ts`, the first `c` of them behind it. -/
def Behind (text : String) (ts : List Token) (c : Nat) (s : TokenStream) : Prop :=
  ∃ ys xs, Between text ys xs s ∧ ys.length = c ∧ (ys ++ xs).map Lexeme.token = ts

namespace Behind

variable {text : String} {ts : List Token} {c : Nat} {s : TokenStream}

/-- One request uses up the next tokens. -/
theorem answer (h : text.utf8ByteSize < maxPosition) (hs : Behind text ts c s)
    (r : StreamRequest) :
    ∃ s', s.answer r = .ok (r.reply (ts.take c) (ts.drop c), s') ∧
      Behind text ts (c + r.uses (ts.length - c)) s' := by
  rcases hs with ⟨ys, xs, hs, rfl, rfl⟩
  rcases hs.answer h r with ⟨s', hanswer, hs'⟩
  have huses := StreamRequest.uses_le xs.length r
  have hleft : ((ys ++ xs).map Lexeme.token).length - ys.length = xs.length := by
    rw [List.length_map, List.length_append, Nat.add_sub_cancel_left]
  rw [List.map_append, List.take_left' (List.length_map _), List.drop_left' (List.length_map _),
    ← List.map_append, hleft]
  refine ⟨s', hanswer, _, _, hs', ?_, ?_⟩
  · rw [List.length_append, List.length_take, Nat.min_eq_left huses]
  · rw [List.append_assoc, List.take_append_drop]

/-- Both positions are those behind the first tokens. -/
theorem pos_eq (hs : Behind text ts c s) : s.pos = (frontText ts c).utf8ByteSize := by
  rcases hs with ⟨ys, xs, hs, rfl, rfl⟩
  rw [hs.pos_eq, frontText, List.map_append, List.take_left' (List.length_map _)]

theorem charPosition_eq (h : text.utf8ByteSize < maxPosition) (hs : Behind text ts c s) :
    s.charPosition = .ok (frontText ts c).length := by
  rcases hs with ⟨ys, xs, hs, rfl, rfl⟩
  rw [hs.charPosition_eq h, frontText, List.map_append, List.take_left' (List.length_map _)]

/-- The answers to requests, by the number of tokens used. -/
theorem answers (h : text.utf8ByteSize < maxPosition) (hs : Behind text ts c s)
    (rs : List StreamRequest) :
    ∃ found, s.answers rs = .ok found ∧
      (found.map fun x => (x.1, x.2.pos, x.2.charPosition)) =
        (StreamRequest.replies ts c rs).map fun y =>
          (y.1, (frontText ts y.2).utf8ByteSize, .ok (frontText ts y.2).length) := by
  -- The induction is on the requests; what carries it is how many tokens are behind.
  induction rs generalizing c s with
  | nil => exact ⟨[], rfl, rfl⟩
  | cons r rs ih =>
      rcases hs.answer h r with ⟨s', hanswer, hs'⟩
      rcases ih hs' with ⟨found, hfound, hmap⟩
      refine ⟨(r.reply (ts.take c) (ts.drop c), s') :: found, ?_, ?_⟩
      · rw [TokenStream.answers, hanswer, ok_bind]
        dsimp only
        rw [hfound, ok_bind]
        rfl
      · -- The stream stands behind the tokens that are used by now.
        rw [StreamRequest.replies, List.map_cons, List.map_cons, hmap, hs'.pos_eq,
          hs'.charPosition_eq h]

end Behind

/-- A session writes down the answers and the positions behind them. -/
theorem serve_of_answers {s : TokenStream} {rs : List StreamRequest}
    {found : List (StreamAnswer × TokenStream)} (hfound : s.answers rs = .ok found)
    (done : Array (StreamAnswer × Nat)) :
    serve answer pos done s rs = ⟨done ++ (found.map fun x => (x.1, x.2.pos)).toArray, none⟩ := by
  induction rs generalizing s found done with
  | nil =>
      injection hfound with hfound
      rw [← hfound, serve, List.map_nil, Array.append_empty]
  | cons r rs ih =>
      -- A session has no answer to write down where the answers end, so it is followed along
      -- them.
      rcases bind_eq_ok.mp hfound with ⟨⟨a, s'⟩, hanswer, hrest⟩
      rcases bind_eq_ok.mp hrest with ⟨rest, hrest, heq⟩
      injection heq with heq
      rw [← heq, serve, hanswer]
      dsimp only
      rw [ih hrest, List.map_cons, List.push_append_toArray]

/-- What holds of the answers to requests, which are made in order to a stream
    at the start of a text with the tokens `ts`. -/
structure InOrder (text : String) (ts : List Token) (rs : List StreamRequest)
    (found : List (StreamAnswer × TokenStream)) : Prop where
  /-- They are what a session writes down, each with the byte position. -/
  session : run text 0 rs = ⟨(found.map fun x => (x.1, x.2.pos)).toArray, none⟩
  /-- They are those of the tokens, and behind each of them both positions are
      those behind the tokens that are used by then. -/
  replies : (found.map fun x => (x.1, x.2.pos, x.2.charPosition)) =
    (StreamRequest.replies ts 0 rs).map fun y =>
      (y.1, (frontText ts y.2).utf8ByteSize, .ok (frontText ts y.2).length)
  /-- A byte position is between two characters and not past the end. -/
  inside : ∀ x ∈ found, String.Pos.Raw.IsValid text ⟨x.2.pos⟩ ∧ x.2.pos ≤ text.utf8ByteSize
  /-- No position decreases. -/
  pos_sorted : (found.map fun x => x.2.pos).Pairwise (· ≤ ·)
  charPosition_sorted : ∃ ns : List Nat,
    (found.map fun x => x.2.charPosition) = ns.map Except.ok ∧ ns.Pairwise (· ≤ ·)

/-- Requests to a stream at the start of a text are answered by its tokens, in
    their order, whatever is asked. -/
theorem answers_inOrder {text : String} (h : text.utf8ByteSize < maxPosition)
    (rs : List StreamRequest) :
    ∃ ts found, tokenize text = .ok ts ∧ (ofString text).answers rs = .ok found ∧
      InOrder text ts rs found := by
  have htokens := tokenize_eq_ok h
  generalize hts : (Plain.tokens text.toList).map Lexeme.token = ts at htokens
  have hstart : Behind text ts 0 (ofString text) := ⟨[], _, Between.start text, rfl, hts⟩
  rcases hstart.answers h rs with ⟨found, hfound, hreplies⟩
  have hbounds := StreamRequest.replies_bounds (Nat.zero_le ts.length) rs
  -- Bytes and characters are counted by the same numbers of tokens, and only these have
  -- to be sorted.
  have hpos := congrArg (List.map fun x => x.2.1) hreplies
  have hchar := congrArg (List.map fun x => x.2.2) hreplies
  simp only [List.map_map, Function.comp_def] at hpos hchar
  refine ⟨ts, found, htokens, hfound, ?_, hreplies, ?_, ?_, ?_⟩
  · -- A step over no bytes stays at the start.
    have hstart : (Source.ofString text).start.advanceBy 0 = .ok (Source.ofString text).start := rfl
    rw [run, hstart]
    show serve answer pos #[] (ofString text) rs = _
    rw [serve_of_answers hfound, Array.empty_append]
  · -- A position is the length of what is in front.
    intro x hx
    have hmem := List.mem_map_of_mem (f := fun x => x.2.pos) hx
    rw [hpos] at hmem
    rcases List.mem_map.mp hmem with ⟨y, hy, heq⟩
    rw [← heq]
    exact isValid_frontText (hts ▸ join_text_tokens text) (hbounds.1 y hy).2
  · rw [hpos, List.pairwise_map]
    exact hbounds.2.imp fun hle => (frontText_mono ts hle).1
  · refine ⟨(StreamRequest.replies ts 0 rs).map fun y => (frontText ts y.2).length, ?_, ?_⟩
    · rw [hchar, List.map_map]
      rfl
    · rw [List.pairwise_map]
      exact hbounds.2.imp fun hle => (frontText_mono ts hle).2

/-- A text of two tokens, asked for its position, for more tokens than there
    are, and then for some more. -/
theorem answers_inOrder_past_end :
    "€ ".utf8ByteSize < maxPosition ∧
      ∃ ts found, tokenize "€ " = .ok ts ∧
        (ofString "€ ").answers [.charPosition, .take 0, .nth 1, .token, .next, .nth 0, .collect] =
          .ok found ∧
        InOrder "€ " ts [.charPosition, .take 0, .nth 1, .token, .next, .nth 0, .collect] found :=
  ⟨by decide, answers_inOrder (by decide) _⟩

end TokenStream

end CssTokens
