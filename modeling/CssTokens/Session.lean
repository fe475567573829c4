import CssTokens.Fault

/-!
# Sessions

A series of requests to something that has a position.

Requests are served in order. Each one that has an answer is written down
together with the position after it; the first one that meets a fault ends the
session.

## Main definitions

* `Transcript`: The answers of a session and the fault that ended it, if any.
* `serve`: A session.
-/

namespace CssTokens

/-- What a session has given: answers with the positions after them, and the
    fault that ended it early. -/
structure Transcript (α : Type) where
  answers : Array (α × Nat)
  fault : Option Fault

/-- Serve requests in order, after those already answered, until one meets a
    fault. -/
def serve {σ ρ α : Type} (answer : σ → ρ → Except Fault (α × σ)) (pos : σ → Nat)
    (answers : Array (α × Nat)) (s : σ) : List ρ → Transcript α
  | [] => ⟨answers, none⟩
  | r :: rs =>
      match answer s r with
      | .error f => ⟨answers, some f⟩
      | .ok (a, s') => serve answer pos (answers.push (a, pos s')) s' rs

end CssTokens
