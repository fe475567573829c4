/-!
# Faults

What may be wrong with a request to a source.

Reading is by byte position, and a position is a 32-bit word. A request can
name a byte that the source does not hold, a stretch of text that leaves the
source or cuts a character, or a position that no word can express. Each of
these is a `Fault`, and every operation that can meet one returns its result
in `Except Fault`.

## Main definitions

* `maxPosition`: The greatest position.
* `Fault`: The five causes.
* `Fault.message?`: The wording of a cause, for those that have one.
* `addPosition`: Addition of positions.

## Theorems

* `bind_eq_ok`, `map_eq_ok`: When a chain of requests has an answer.
* `ok_bind`, `ok_map`: A chain goes on behind an answer.
* `addPosition_eq_ok`: An addition that succeeds is that of numbers.
-/

namespace CssTokens

/-- The greatest byte position a 32-bit word can express. -/
def maxPosition : Nat := 4294967295

/-- Why a request to a source has no answer. -/
inductive Fault where
  /-- A slice would stop past the end of the source. -/
  | sliceEndPastSource (stop length : Nat)
  /-- A slice would start after its own end. -/
  | sliceStartPastEnd (start stop : Nat)
  /-- A byte was asked for at or past the end of the padding. -/
  | indexOutOfBounds (length index : Nat)
  /-- A position or a count would exceed `maxPosition`. -/
  | positionOverflow
  /-- A slice would start or stop inside a character. -/
  | insideCharacter
  deriving DecidableEq

/-- The wording of a fault. A cut inside a character has none of its own. -/
def Fault.message? : Fault → Option String
  | .sliceEndPastSource stop length =>
      some s!"slice end {stop} exceeds source length {length}"
  | .sliceStartPastEnd start stop => some s!"slice start {start} exceeds end {stop}"
  | .indexOutOfBounds length index =>
      some s!"index out of bounds: the len is {length} but the index is {index}"
  | .positionOverflow => some "attempt to add with overflow"
  | .insideCharacter => none

theorem bind_eq_ok {ε α β : Type} {x : Except ε α} {f : α → Except ε β} {b : β} :
    (x >>= f) = .ok b ↔ ∃ a, x = .ok a ∧ f a = .ok b := by
  cases x with
  | error e => simp [bind, Except.bind]
  | ok a => simp [bind, Except.bind]

theorem map_eq_ok {ε α β : Type} {x : Except ε α} {f : α → β} {b : β} :
    (f <$> x) = .ok b ↔ ∃ a, x = .ok a ∧ f a = b := by
  cases x with
  | error e => simp [Functor.map, Except.map]
  | ok a => simp [Functor.map, Except.map]

theorem ok_bind {ε α β : Type} (a : α) (f : α → Except ε β) : (Except.ok a >>= f) = f a := rfl

theorem ok_map {ε α β : Type} (a : α) (f : α → β) :
    f <$> (Except.ok a : Except ε α) = .ok (f a) := rfl

/-- The position `n` bytes after `p`, or an overflow when no word expresses it. -/
def addPosition (p n : Nat) : Except Fault Nat :=
  if p + n ≤ maxPosition then .ok (p + n) else .error .positionOverflow

theorem addPosition_eq_ok {p n q : Nat} (h : addPosition p n = .ok q) :
    q = p + n ∧ q ≤ maxPosition := by
  unfold addPosition at h
  split at h
  · next hle =>
      injection h with h
      exact ⟨h.symm, h ▸ hle⟩
  · injection h

theorem addPosition_of_le {p n : Nat} (h : p + n ≤ maxPosition) : addPosition p n = .ok (p + n) :=
  if_pos h

end CssTokens
