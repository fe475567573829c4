import CssTokens.Proofs.TokenStream.Refinement

/-!
# Calls on a Token Stream

What any number of calls hands out, and where it leaves the stream.

`calls` asks a stream for its next token a fixed number of times, whether or
not the text is over. By then the stream has handed out as many of the tokens
of the text as it was asked for, and the end token for every call that was
too many (`calls_placed`). One induction on the number of calls, with the
single call at its step, gives the tokens, the place and the events at once.

## Main definitions

* `TokenStream.calls`: The next token, a number of times.
* `charCount`: The number of characters that lexemes cover.

## Theorems

* `Plain.length_tokens_le`: No more tokens than characters.
* `Plain.forall_mem_tokens`: What is true of every first token.
* `TokenStream.calls_placed`, `TokenStream.calls_ofString`: Any number of calls.
* `TokenStream.calls_end`: Calls behind the end.
* `TokenStream.next_inside_of_room`, `TokenStream.next_inside`: One call before
  the end, by the text around it.
-/

namespace CssTokens

open Reader

/-- The number of characters that lexemes cover. -/
def charCount : List Lexeme → Nat
  | [] => 0
  | x :: xs => x.chars.length + charCount xs

@[simp]
theorem charCount_nil : charCount [] = 0 := rfl

@[simp]
theorem charCount_cons (x : Lexeme) (xs : List Lexeme) :
    charCount (x :: xs) = x.chars.length + charCount xs := rfl

/-- Some lexemes cover no more characters than all of them. -/
theorem charCount_take_le (xs : List Lexeme) (n : Nat) : charCount (xs.take n) ≤ charCount xs := by
  induction xs generalizing n with
  | nil => simp
  | cons x xs ih =>
      cases n with
      | zero => simp
      | succ n =>
          have := ih n
          simp only [List.take_succ_cons, charCount_cons]
          omega

namespace Plain

/-- The tokens cover the text. -/
theorem charCount_tokens (cs : List Char) : charCount (tokens cs) = cs.length := by
  fun_induction tokens cs with
  | case1 cs h =>
      rw [eq_nil_of_first_eq_none h]
      rfl
  | case2 cs k n h ih =>
      have hbounds := first_bounds h
      rw [charCount_cons, ih, List.length_take, List.length_drop]
      omega

/-- What is true of every first token is true of all tokens. -/
theorem forall_mem_tokens {P : Lexeme → Prop}
    (hfirst : ∀ cs k n, first cs = some (k, n) → P ⟨k, cs.take n⟩) (cs : List Char) :
    ∀ x ∈ tokens cs, P x := by
  fun_induction tokens cs with
  | case1 cs h => exact List.forall_mem_nil P
  | case2 cs k n h ih => exact List.forall_mem_cons.mpr ⟨hfirst cs k n h, ih⟩

theorem chars_ne_nil_of_first {cs : List Char} {k : Kind} {n : Nat}
    (h : first cs = some (k, n)) : cs.take n ≠ [] := by
  have hbounds := first_bounds h
  intro heq
  have hlen := congrArg List.length heq
  rw [List.length_take, List.length_nil] at hlen
  omega

/-- No token is empty, and none is of the end kind or a reserved kind. -/
theorem tokens_spec (cs : List Char) :
    ∀ x ∈ tokens cs, x.chars ≠ [] ∧ x.kind ≠ .eof ∧ x.kind.isReserved = false :=
  forall_mem_tokens (P := fun x => x.chars ≠ [] ∧ x.kind ≠ .eof ∧ x.kind.isReserved = false)
    (fun _ _ _ h => ⟨chars_ne_nil_of_first h, first_kind h⟩) cs

/-- No more tokens than characters. -/
theorem length_tokens_le (cs : List Char) : (tokens cs).length ≤ cs.length := by
  fun_induction tokens cs with
  | case1 cs h => exact Nat.zero_le _
  | case2 cs k n h ih =>
      have hbounds := first_bounds h
      rw [List.length_drop] at ih
      rw [List.length_cons]
      omega

end Plain

namespace TokenStream

/-- The next token, a number of times. -/
def calls : Nat → TokenStream → Except Fault (List Token × TokenStream)
  | 0, s => .ok ([], s)
  | n + 1, s => do
      let (t, s') ← s.next
      let (ts, s'') ← calls n s'
      return (t :: ts, s'')

theorem calls_succ {n : Nat} {s s' s'' : TokenStream} {t : Token} {ts : List Token}
    (hnext : s.next = .ok (t, s')) (hcalls : calls n s' = .ok (ts, s'')) :
    calls (n + 1) s = .ok (t :: ts, s'') := by
  rw [calls, hnext, ok_bind]
  show calls n s' >>= _ = _
  rw [hcalls, ok_bind]
  rfl

/-- Behind the end every call hands out the end token, and nothing changes. -/
theorem calls_end {text : String} (h : text.utf8ByteSize ≤ maxPosition) {n : Nat}
    (hd : text.toList.drop n = []) (told : List Event) (m : Nat) :
    calls m ⟨placed text n, told⟩ =
      .ok (List.replicate m Token.endOfInput, ⟨placed text n, told⟩) := by
  induction m with
  | zero => rfl
  | succ m ih =>
      rw [List.replicate_succ]
      exact calls_succ (next_placed_end h hd told) ih

/-- Any number of calls: the tokens that are ahead, as far as they go, and the
    end token from then on. -/
theorem calls_placed {text : String} (h : text.utf8ByteSize < maxPosition) (m : Nat) {n : Nat}
    {xs : List Lexeme} (hxs : Plain.tokens (text.toList.drop n) = xs) (told : List Event) :
    calls m ⟨placed text n, told⟩ =
      .ok ((xs.take m).map Lexeme.token ++ List.replicate (m - xs.length) Token.endOfInput,
        ⟨placed text (n + charCount (xs.take m)),
          (((locateFrom (placed text n).pos xs).take m).map Located.event).reverse ++ told⟩) := by
  induction m generalizing n xs told with
  | zero =>
      rw [List.take_zero, List.take_zero, Nat.zero_sub]
      rfl
  | succ m ih =>
      -- Either the text is over, and stays so, or one token is taken and the
      -- other calls start behind it.
      cases hf : Plain.first (text.toList.drop n) with
      | none =>
          have hd := Plain.eq_nil_of_first_eq_none hf
          rw [hd, Plain.tokens_nil] at hxs
          subst hxs
          exact calls_end (Nat.le_of_lt h) hd told (m + 1)
      | some r =>
          have hbounds := Plain.first_bounds hf
          rw [Plain.tokens_cons hf, List.drop_drop] at hxs
          subst hxs
          have hlen : ((text.toList.drop n).take r.2).length = r.2 := by
            rw [List.length_take]
            omega
          rw [calls_succ (next_placed h hf told) (ih rfl _), List.take_succ_cons, List.map_cons,
            List.cons_append, List.length_cons, Nat.add_sub_add_right, charCount_cons, hlen,
            ← Nat.add_assoc, locateFrom, List.take_succ_cons, List.map_cons, List.reverse_cons,
            List.append_assoc, pos_placed_add]
          rfl

/-- Any number of calls from the start of a text. -/
theorem calls_ofString {text : String} (h : text.utf8ByteSize < maxPosition) (m : Nat) :
    calls m (ofString text) =
      .ok (((Plain.tokens text.toList).take m).map Lexeme.token ++
          List.replicate (m - (Plain.tokens text.toList).length) Token.endOfInput,
        ⟨placed text (charCount ((Plain.tokens text.toList).take m)),
          (((locateFrom 0 (Plain.tokens text.toList)).take m).map Located.event).reverse⟩) := by
  have hstart : Plain.tokens (text.toList.drop 0) = Plain.tokens text.toList := by
    rw [List.drop_zero]
  have hcalls := calls_placed h m hstart []
  rw [Nat.zero_add, List.append_nil] at hcalls
  exact hcalls

/-- One call before the end takes a piece of the text, from where the stream
    stands to where it leaves it, if the position behind a name has a
    successor. -/
theorem next_inside_of_room {text : String} (h : text.utf8ByteSize ≤ maxPosition) {n : Nat}
    (hroom : RoomBehindName text n) (hpos : (placed text n).pos < text.utf8ByteSize)
    (told : List Event) :
    ∃ t s' before behind, next ⟨placed text n, told⟩ = .ok (t, s') ∧
      t.text ≠ "" ∧ t.kind ≠ .eof ∧ t.kind.isReserved = false ∧
      text = before ++ t.text ++ behind ∧ before.utf8ByteSize = (placed text n).pos ∧
      (before ++ t.text).utf8ByteSize = s'.pos := by
  cases hf : Plain.first (text.toList.drop n) with
  | none =>
      -- Nothing is ahead, so the stream would be at the end.
      have hsize := pos_placed_add_drop text n
      rw [Plain.eq_nil_of_first_eq_none hf, byteCount_nil] at hsize
      omega
  | some r =>
      -- The pieces are the characters in front of the token, and those behind.
      refine ⟨_, _, String.ofList (text.toList.take n),
        String.ofList ((text.toList.drop n).drop r.2), next_placed_of_room h hroom hf told, ?_,
        (Plain.first_kind hf).1, (Plain.first_kind hf).2, ?_, ?_, ?_⟩
      · intro heq
        have hchars := congrArg String.toList heq
        rw [Lexeme.token, String.toList_ofList] at hchars
        exact Plain.chars_ne_nil_of_first hf hchars
      · rw [Lexeme.token, ← String.ofList_append, ← String.ofList_append, List.append_assoc,
          List.take_append_drop, List.take_append_drop, String.ofList_toList]
      · rw [utf8ByteSize_eq_byteCount, String.toList_ofList, pos_placed]
      · show _ = (placed text (n + r.2)).pos
        rw [Lexeme.token, ← String.ofList_append, utf8ByteSize_eq_byteCount, String.toList_ofList,
          byteCount_append, pos_placed_add, pos_placed]

/-- One call before the end of a text that is not too long. -/
theorem next_inside {text : String} (h : text.utf8ByteSize < maxPosition) {n : Nat}
    (hpos : (placed text n).pos < text.utf8ByteSize) (told : List Event) :
    ∃ t s' before behind, next ⟨placed text n, told⟩ = .ok (t, s') ∧
      t.text ≠ "" ∧ t.kind ≠ .eof ∧ t.kind.isReserved = false ∧
      text = before ++ t.text ++ behind ∧ before.utf8ByteSize = (placed text n).pos ∧
      (before ++ t.text).utf8ByteSize = s'.pos :=
  next_inside_of_room (Nat.le_of_lt h) (roomBehindName_of_lt h n) hpos told

end TokenStream

end CssTokens
