import CssTokens.TokenStream

/-!
# Loops over a Stream

What a stream hands out, whoever asks it.

A stream may be emptied by a loop of any form: one asks for items, another one
for tokens with their offsets, a third one writes rows as it goes. What they
have in common is the calls. A chain of calls from one stream to another, up to
the end token, is a relation between the two and the tokens handed out
(`Reads`), and every loop is related to it by an induction of its own. So two
loops agree because each of them makes these calls, and not because one is
defined by the other.

## Main definitions

* `Located.event`: What is told of a token.
* `TokenStream.Reads`: The calls that empty a stream.

## Theorems

* `events_of_next`, `Reads.events`: What a stream tells.
* `Reads.drain`, `Reads.collect`: The loops of the stream itself.
-/

namespace CssTokens

/-- What is told of a token that was read. -/
def Located.event (x : Located) : Event := Event.ofToken x.offset x.token

namespace TokenStream

/-- The calls that empty a stream, with the tokens that they hand out. The
    offset of a token is that of the stream before the call. -/
inductive Reads : TokenStream → List Located → TokenStream → Prop where
  | ended {s e : TokenStream} {t : Token} (hnext : s.next = .ok (t, e)) (hend : t.isEnd = true) :
      Reads s [] e
  | token {s s' e : TokenStream} {t : Token} {xs : List Located} (hnext : s.next = .ok (t, s'))
      (hmore : t.isEnd = false) (hrest : Reads s' xs e) : Reads s (⟨s.pos, t⟩ :: xs) e

variable {s s' e : TokenStream} {t : Token} {xs : List Located}

/-- A call tells of its token, unless it is the end token. -/
theorem events_of_next (hnext : s.next = .ok (t, s')) :
    s'.events = s.events ++ if t.isEnd then [] else [Located.event ⟨s.pos, t⟩] := by
  rcases bind_eq_ok.mp hnext with ⟨⟨t', r⟩, _, h⟩
  injection h with h
  injection h with ht hs
  subst ht hs
  rw [events]
  dsimp only
  by_cases hend : t'.isEnd = true
  · rw [if_pos hend, if_pos hend, List.append_nil, events]
  · rw [if_neg hend, if_neg hend, List.reverse_cons]
    rfl

/-- A stream is drained by one call, and by draining what the call leaves
    unless it hands out the end token. -/
theorem drain_of_next (hnext : s.next = .ok (t, s')) (found : Array Located) :
    s.drain found = if t.isEnd then .ok (found, s') else s'.drain (found.push ⟨s.pos, t⟩) := by
  rw [drain]
  -- The loop keeps the equation of its call for the measure, so the call is looked at in
  -- each case.
  split
  · next f hf =>
      rw [hnext] at hf
      injection hf
  · next t' s'' heq =>
      rw [hnext] at heq
      injection heq with heq
      injection heq with h1 h2
      rw [← h1, ← h2]
      rfl

/-- The items of a stream are collected by one call, and by collecting what it
    leaves unless it hands out the end token. -/
theorem collect_of_next (hnext : s.next = .ok (t, s')) (found : Array Token) :
    s.collect found = if t.isEnd then .ok (found, s') else s'.collect (found.push t) := by
  have hitem : s.next? = .ok (if t.isEnd then none else some t, s') := by
    rw [next?, hnext]
    rfl
  rw [collect]
  -- The item is looked at, and it is there exactly if the token is not the end token.
  split
  · next f hf =>
      rw [hitem] at hf
      injection hf
  · next s'' heq =>
      rw [hitem] at heq
      injection heq with heq
      injection heq with hnone hs
      subst hs
      split at hnone
      · next hend => rw [if_pos hend]
      · injection hnone
  · next t' s'' heq =>
      rw [hitem] at heq
      injection heq with heq
      injection heq with hsome hs
      subst hs
      split at hsome
      · injection hsome
      · next hend =>
          injection hsome with hsome
          rw [if_neg hend, hsome]

namespace Reads

/-- The calls tell of every token that they hand out, and of nothing else. -/
theorem events (h : s.Reads xs e) : e.events = s.events ++ xs.map Located.event := by
  induction h with
  | ended hnext hend => rw [events_of_next hnext, if_pos hend, List.map_nil]
  | token hnext hmore _ ih =>
      rw [ih, events_of_next hnext, if_neg (Bool.eq_false_iff.mp hmore), List.map_cons,
        List.append_assoc, List.singleton_append]

/-- A loop over tokens finds them with their offsets. -/
theorem drain (h : s.Reads xs e) (found : Array Located) :
    s.drain found = .ok (found ++ xs.toArray, e) := by
  induction h generalizing found with
  | ended hnext hend => rw [drain_of_next hnext, if_pos hend, Array.append_empty]
  | token hnext hmore _ ih =>
      rw [drain_of_next hnext, if_neg (Bool.eq_false_iff.mp hmore), ih, List.push_append_toArray]

/-- A loop over items finds the same tokens. -/
theorem collect (h : s.Reads xs e) (found : Array Token) :
    s.collect found = .ok (found ++ (xs.map Located.token).toArray, e) := by
  induction h generalizing found with
  | ended hnext hend => rw [collect_of_next hnext, if_pos hend, List.map_nil, Array.append_empty]
  | token hnext hmore _ ih =>
      rw [collect_of_next hnext, if_neg (Bool.eq_false_iff.mp hmore), ih, List.map_cons,
        List.push_append_toArray]

end Reads

end TokenStream

end CssTokens
