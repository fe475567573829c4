import CssTokens.Listing
import CssTokens.Proofs.LineColumn.Walking
import CssTokens.Proofs.Output.Sinks
import CssTokens.Proofs.TokenStream.Refinement
import CssTokens.Report

/-!
# Listings and Reports of a Text

What the two drivers make of the tokens of a text.

Each driver empties a stream by a loop of its own. The loop of a listing passes
over trivia, counts its rows and ends early at a row that is refused, so what it
leaves is that of writing the rows that are not left out, one after the other.
The loop of a report carries a place along, and puts texts together. Both are
followed along the calls that empty the stream (`TokenStream.Reads`).

Neither meets a fault of its own on a text: a walk stays behind the characters
it has seen, whose number a position can tell. So a driver is a function of the
plain tokens, and `Listing.ofString_eq_ok` and `Report.ofString_eq` give it.

## Main definitions

* `Listing.Ending.ofPrinted`: The end of a loop, by what became of its rows.
* `findingsFrom`: The soft failures among lexemes, with their places.

## Theorems

* `Listing.rows_finished`, `Listing.rows_refused`: The loop of a listing.
* `Listing.ofString_of_reads`, `Listing.ofString_eq_ok`: The listing of a text.
* `Listing.writeText_finished`, `Listing.writeText_refused`,
  `Listing.fst_writeText`: A listing that is written as it is made.
* `Report.gather_of_reads`: The loop of a report.
* `Report.foldlM_add`: What is gathered along lexemes.
* `Report.gather_ofString`: The loop over a text.
* `Report.ofString_eq`: The report on a text, and what it tells.
-/

namespace CssTokens

open Reader

variable {text : String} {xs : List Located}

namespace Listing

/-- The tokens that are not left out of a listing. -/
def shown (skipTrivia : Bool) (xs : List Located) : List Located :=
  xs.filter fun x => !(skipTrivia && x.token.kind.isTrivia)

variable {σ ε : Type} {put : σ → Located → Except ε σ} {s s' e : TokenStream} {skipTrivia : Bool}

theorem shown_cons_of_pos {x : Located} (h : (skipTrivia && x.token.kind.isTrivia) = true)
    (xs : List Located) : shown skipTrivia (x :: xs) = shown skipTrivia xs :=
  List.filter_cons_of_neg (by rw [h]; decide)

theorem shown_cons_of_neg {x : Located} (h : ¬ (skipTrivia && x.token.kind.isTrivia) = true)
    (xs : List Located) : shown skipTrivia (x :: xs) = x :: shown skipTrivia xs :=
  List.filter_cons_of_pos (by rw [Bool.eq_false_iff.mpr h]; decide)

/-- One turn of the loop of a listing. -/
theorem rows_of_next {t : Token} (hnext : s.next = .ok (t, s')) (out : σ) (count : Nat) :
    rows put skipTrivia s out count =
      if t.isEnd then (.finished count out, s'.events ++ [.listed count skipTrivia])
      else if skipTrivia && t.kind.isTrivia then rows put skipTrivia s' out count
      else
        match put out ⟨s.pos, t⟩ with
        | .error err => (.refused err, s'.events)
        | .ok out' => rows put skipTrivia s' out' (count + 1) := by
  -- The loop keeps the equation of its call for the measure, so it is taken apart by
  -- what the call gives.
  rw [rows]
  split
  · next f hf =>
      rw [hnext] at hf
      injection hf
  · next t' s'' heq =>
      rw [hnext] at heq
      injection heq with heq
      injection heq with h1 h2
      subst h1 h2
      rfl

/-- A loop whose rows are all taken counts them, and tells so at the end. -/
theorem rows_finished (h : s.Reads xs e) {out out' : σ} {count : Nat}
    (hput : (shown skipTrivia xs).foldlM put out = .ok out') :
    rows put skipTrivia s out count =
      (.finished (count + (shown skipTrivia xs).length) out',
        e.events ++ [.listed (count + (shown skipTrivia xs).length) skipTrivia]) := by
  -- The induction is on the calls, with the rows and the count of those that were made
  -- before.
  induction h generalizing out count with
  | ended hnext hend =>
      injection hput with hput
      rw [rows_of_next hnext, if_pos hend, hput]
      rfl
  | @token s s' e t xs hnext hmore _ ih =>
      rw [rows_of_next hnext, if_neg (Bool.eq_false_iff.mp hmore)]
      by_cases htrivia : (skipTrivia && t.kind.isTrivia) = true
      · -- The token is passed over, and not counted.
        rw [shown_cons_of_pos htrivia] at hput ⊢
        rw [if_pos htrivia, ih hput]
      · rw [shown_cons_of_neg htrivia] at hput ⊢
        rw [List.foldlM_cons] at hput
        rcases bind_eq_ok.mp hput with ⟨next, hrow, hrest⟩
        have hcount : count + ((shown skipTrivia xs).length + 1) =
            count + 1 + (shown skipTrivia xs).length := by omega
        rw [if_neg htrivia, hrow, List.length_cons, hcount]
        exact ih hrest

/-- A loop ends at the first row that is refused, and has told of the tokens up
    to it, also of those that are left out. -/
theorem rows_refused (h : s.Reads xs e) {out : σ} {err : ε} (count : Nat)
    (hput : (shown skipTrivia xs).foldlM put out = .error err) :
    ∃ front x back out', xs = front ++ x :: back ∧
      (shown skipTrivia front).foldlM put out = .ok out' ∧ put out' x = .error err ∧
      rows put skipTrivia s out count =
        (.refused err, s.events ++ (front ++ [x]).map Located.event) := by
  induction h generalizing out count with
  | ended hnext hend => injection hput
  | @token s s' e t xs hnext hmore _ ih =>
      have hevents := TokenStream.events_of_next hnext
      rw [if_neg (Bool.eq_false_iff.mp hmore)] at hevents
      by_cases htrivia : (skipTrivia && t.kind.isTrivia) = true
      · rw [shown_cons_of_pos htrivia] at hput
        rcases ih count hput with ⟨front, x, back, out', rfl, hfront, hx, hrows⟩
        refine ⟨⟨s.pos, t⟩ :: front, x, back, out', rfl, ?_, hx, ?_⟩
        · rwa [shown_cons_of_pos htrivia]
        · rw [rows_of_next hnext, if_neg (Bool.eq_false_iff.mp hmore), if_pos htrivia, hrows,
            hevents, List.append_assoc]
          rfl
      · rw [shown_cons_of_neg htrivia, List.foldlM_cons] at hput
        -- The row of the first token is the one that is refused, or a later one is.
        rcases hrow : put out ⟨s.pos, t⟩ with err' | next
        · rw [hrow] at hput
          injection hput with hput
          refine ⟨[], ⟨s.pos, t⟩, xs, out, rfl, rfl, hput ▸ hrow, ?_⟩
          rw [rows_of_next hnext, if_neg (Bool.eq_false_iff.mp hmore), if_neg htrivia, hrow, hevents,
            hput]
          rfl
        · rw [hrow, ok_bind] at hput
          rcases ih (count + 1) hput with ⟨front, x, back, out', rfl, hfront, hx, hrows⟩
          refine ⟨⟨s.pos, t⟩ :: front, x, back, out', rfl, ?_, hx, ?_⟩
          · rw [shown_cons_of_neg htrivia, List.foldlM_cons, hrow, ok_bind, hfront]
          · rw [rows_of_next hnext, if_neg (Bool.eq_false_iff.mp hmore), if_neg htrivia, hrow]
            dsimp only
            rw [hrows, hevents, List.append_assoc]
            rfl

/-- A loop that finishes has emptied its stream. -/
theorem exists_reads_of_rows {out : σ} {count n : Nat} {final : σ} {told : List Event}
    (h : rows put skipTrivia s out count = (.finished n final, told)) :
    ∃ xs e, s.Reads xs e := by
  -- Only an end that is reached says anything, and a row is passed on the way whether it
  -- is written or not.
  fun_induction rows put skipTrivia s out count with
  | case1 => injection h with h; injection h
  | case2 s out count t s' hnext hend => exact ⟨[], s', .ended hnext hend⟩
  | case3 s out count t s' hnext hend htrivia ih =>
      rcases ih h with ⟨xs, e, hrest⟩
      exact ⟨_, e, .token hnext (Bool.eq_false_iff.mpr hend) hrest⟩
  | case4 => injection h with h; injection h
  | case5 s out count offset t s' hnext hend htrivia out' hrow ih =>
      rcases ih h with ⟨xs, e, hrest⟩
      exact ⟨_, e, .token hnext (Bool.eq_false_iff.mpr hend) hrest⟩

/-- Rows that are kept are all of them. -/
theorem foldlM_keep (xs : List Located) (kept : Array Located) :
    xs.foldlM keep kept = .ok (kept ++ xs.toArray) := by
  induction xs generalizing kept with
  | nil =>
      rw [Array.append_empty]
      rfl
  | cons x xs ih => rw [List.foldlM_cons, keep, ok_bind, ih, List.push_append_toArray]

/-- The listing of a text, by the calls that empty its stream. -/
theorem ofString_of_reads (h : (TokenStream.ofString text).Reads xs e) (skipTrivia : Bool) :
    ofString text skipTrivia =
      .ok ⟨shown skipTrivia xs, (shown skipTrivia xs).length,
        xs.map Located.event ++ [.listed (shown skipTrivia xs).length skipTrivia]⟩ := by
  have htold : e.events = xs.map Located.event := h.events
  rw [ofString, gather, rows_finished h (foldlM_keep _ _), htold, Nat.zero_add, Array.empty_append]

/-- A listing that was kept is one of all that its stream held. -/
theorem exists_reads_of_ofString {l : Listing} (hl : ofString text skipTrivia = .ok l) :
    ∃ xs e, (TokenStream.ofString text).Reads xs e := by
  rw [ofString] at hl
  split at hl
  · next hgather => exact exists_reads_of_rows hgather
  · injection hl
  · next err _ _ => exact err.elim

/-- A listing that was kept is written row by row. -/
theorem writeTo_eq_foldlM (l : Listing) (s : Sink) : l.writeTo s = l.entries.foldlM writeRow s := by
  rw [writeTo, lines, Sink.writeAll, List.foldlM_map]
  rfl

/-- Written as it is made, a listing is written like one that was kept, if it is
    taken as a whole. -/
theorem writeText_finished (h : (TokenStream.ofString text).Reads xs e) {l : Listing}
    (hl : ofString text skipTrivia = .ok l) {sink out : Sink} (hout : l.writeTo sink = .ok out) :
    writeText text skipTrivia sink = (.finished l.count out, l.events) := by
  rw [ofString_of_reads h, Except.ok.injEq] at hl
  subst hl
  rw [writeTo_eq_foldlM] at hout
  rw [writeText, rows_finished h hout, h.events, Nat.zero_add]
  rfl

/-- A row that is refused ends the listing, and nothing is told of what is
    behind it. -/
theorem writeText_refused (h : (TokenStream.ofString text).Reads xs e) {l : Listing}
    (hl : ofString text skipTrivia = .ok l) {sink : Sink} {r : Refusal}
    (hout : l.writeTo sink = .error r) :
    ∃ front x back out, xs = front ++ x :: back ∧
      sink.writeAll ((shown skipTrivia front).map Located.line) = .ok out ∧
      out.write x.line = .error r ∧
      writeText text skipTrivia sink = (.refused r, (front ++ [x]).map Located.event) := by
  rw [ofString_of_reads h, Except.ok.injEq] at hl
  subst hl
  rw [writeTo_eq_foldlM] at hout
  rcases rows_refused h 0 hout with ⟨front, x, back, out, hxs, hfront, hx, hrows⟩
  refine ⟨front, x, back, out, hxs, ?_, hx, hrows⟩
  rw [Sink.writeAll, List.foldlM_map]
  exact hfront

/-- The listing of a text. -/
theorem ofString_eq_ok (h : text.utf8ByteSize < maxPosition) (skipTrivia : Bool) :
    ∃ l, ofString text skipTrivia = .ok l ∧
      l.entries = ((locateFrom 0 (Plain.tokens text.toList)).filter
        fun t => !(skipTrivia && t.token.kind.isTrivia)) ∧ l.count = l.entries.length :=
  ⟨_, ofString_of_reads (reads_ofString h) skipTrivia, rfl, rfl⟩

/-- The end of a loop that writes rows, by what became of them. -/
def Ending.ofPrinted {σ ε : Type} : Except ε (Nat × σ) → Ending σ ε
  | .ok (count, out) => .finished count out
  | .error err => .refused err

/-- Written as it is made, a listing ends like one that was kept. -/
theorem fst_writeText {l : Listing} (hl : ofString text skipTrivia = .ok l) (sink : Sink) :
    (writeText text skipTrivia sink).1 = .ofPrinted (l.print sink) := by
  rcases exists_reads_of_ofString hl with ⟨xs, e, hreads⟩
  rw [print]
  rcases hout : l.writeTo sink with r | out
  · rcases writeText_refused hreads hl hout with ⟨_, _, _, _, _, _, _, htext⟩
    rw [htext]
    rfl
  · rw [writeText_finished hreads hl hout]
    rfl

end Listing

/-- The soft failures among lexemes, behind what comes before them. -/
def findingsFrom (before : List Char) (p : Nat) : List Lexeme → List Finding
  | [] => []
  | x :: xs =>
      let rest := findingsFrom (before ++ x.chars) (p + byteCount x.chars) xs
      if x.kind.isSoftFailure then
        ⟨x.kind, p, LineColumn.behind before, x.token.text⟩ :: rest
      else rest

/-- The texts of lexemes, put together, are their characters. -/
theorem join_text_locateFrom (p : Nat) (xs : List Lexeme) :
    String.join ((locateFrom p xs).map fun t => t.token.text) =
      String.ofList (xs.map Lexeme.chars).flatten := by
  have hmap : (locateFrom p xs).map (fun t => t.token.text) =
      (xs.map Lexeme.token).map Token.text := by
    rw [← map_token_locateFrom p, List.map_map]
    rfl
  rw [← String.toList_inj, hmap, toList_join_token, String.toList_ofList]

namespace Report

variable {s s' e : TokenStream}

/-- One turn of the loop of a check. -/
theorem gather_of_next {t : Token} (hnext : s.next = .ok (t, s')) (y : Tally) :
    gather s y =
      if t.isEnd then .ok (y, s')
      else y.add ⟨s.pos, t⟩ >>= gather s' := by
  -- As for the rows, the call is taken apart first.
  rw [gather]
  split
  · next f hf =>
      rw [hnext] at hf
      injection hf
  · next t' s'' heq =>
      rw [hnext] at heq
      injection heq with heq
      injection heq with h1 h2
      subst h1 h2
      by_cases hend : t.isEnd = true
      · rw [dif_pos hend, if_pos hend]
      · rw [dif_neg hend, if_neg hend]
        cases y.add ⟨s.pos, t⟩ <;> rfl

/-- The loop of a check adds one token after the other. -/
theorem gather_of_reads (h : s.Reads xs e) (y : Tally) :
    gather s y = (·, e) <$> xs.foldlM Tally.add y := by
  induction h generalizing y with
  | ended hnext hend =>
      rw [gather_of_next hnext, if_pos hend]
      rfl
  | token hnext hmore _ ih =>
      rw [gather_of_next hnext, if_neg (Bool.eq_false_iff.mp hmore), List.foldlM_cons]
      cases y.add _ with
      | error f => rfl
      | ok y' => exact ih y'

/-- What is gathered along lexemes, with a walk behind what comes before them. -/
theorem foldlM_add {xs : List Lexeme} {before : List Char} {p : Nat} (y : Tally)
    (hwalk : y.walk = Walk.behind before)
    (h : (before ++ (xs.map Lexeme.chars).flatten).length < maxPosition) :
    (locateFrom p xs).foldlM Tally.add y =
      .ok ⟨Walk.behind (before ++ (xs.map Lexeme.chars).flatten),
        y.rebuilt ++ String.ofList (xs.map Lexeme.chars).flatten,
        y.findings ++ (findingsFrom before p xs).toArray, y.tokens + xs.length⟩ := by
  induction xs generalizing before p y with
  | nil =>
      rcases y with ⟨walk, rebuilt, findings, tokens⟩
      rw [locateFrom, findingsFrom, List.map_nil, List.flatten_nil, List.append_nil, String.ofList_nil,
        String.append_empty, Array.append_empty, ← hwalk]
      rfl
  | cons x xs ih =>
      rw [List.map_cons, List.flatten_cons, ← List.append_assoc] at h ⊢
      have htext : x.token.text.toList = x.chars := String.toList_ofList
      -- The walk goes along the text of the token, whatever its kind.
      have hadvance : y.walk.advance x.token.text =
          .ok (Walk.behind (before ++ x.chars)) := by
        rw [hwalk, Walk.advance_behind, htext]
        rw [htext]
        rw [List.length_append] at h
        omega
      have hadd : y.add ⟨p, x.token⟩ = .ok ⟨Walk.behind (before ++ x.chars),
          y.rebuilt ++ x.token.text,
          if x.kind.isSoftFailure then
            y.findings.push ⟨x.kind, p, LineColumn.behind before, x.token.text⟩
          else y.findings, y.tokens + 1⟩ := by
        rw [Tally.add, hadvance, ok_bind, hwalk]
        rfl
      rw [locateFrom, List.foldlM_cons, hadd, ok_bind, ih _ rfl h, findingsFrom]
      dsimp only
      rw [String.ofList_append, ← String.append_assoc, List.length_cons, Nat.add_assoc,
        Nat.add_comm 1]
      -- Only a soft failure is put down.
      by_cases hsoft : x.kind.isSoftFailure = true
      · rw [if_pos hsoft, if_pos hsoft, List.push_append_toArray]
        rfl
      · rw [if_neg hsoft, if_neg hsoft]
        rfl

/-- What the loop of a check has gathered at the end of a text: the place behind
    it, the text itself, its soft failures and the number of its tokens. -/
theorem gather_ofString (h : text.utf8ByteSize < maxPosition)
    (hreads : (TokenStream.ofString text).Reads (locateFrom 0 (Plain.tokens text.toList)) e) :
    gather (TokenStream.ofString text) .start =
      .ok (⟨Walk.behind text.toList, text, (findingsFrom [] 0 (Plain.tokens text.toList)).toArray,
        (Plain.tokens text.toList).length⟩, e) := by
  have hflatten := Plain.flatten_tokens text.toList
  have hlen : ([] ++ ((Plain.tokens text.toList).map Lexeme.chars).flatten).length <
      maxPosition := by
    rw [List.nil_append, hflatten, String.length_toList]
    exact Nat.lt_of_le_of_lt (length_le_utf8ByteSize text) h
  have hstart : Tally.start = ⟨Walk.start, "", #[], 0⟩ := rfl
  rw [gather_of_reads hreads, foldlM_add .start Walk.start_eq_behind hlen, ok_map, hflatten, hstart,
    String.ofList_toList, String.empty_append, Array.empty_append, Nat.zero_add, List.nil_append]

/-- The report on a text. Every token is told of, then the report itself; there is
    nothing to be warned of, since the texts do make up the source. -/
theorem ofString_eq (h : text.utf8ByteSize < maxPosition) :
    ofString text = .ok (⟨(Plain.tokens text.toList).length,
        findingsFrom [] 0 (Plain.tokens text.toList),
        (Source.ofString text).issues.map fun i => ⟨i.kind, i.offset⟩, true⟩,
      (locateFrom 0 (Plain.tokens text.toList)).map Located.event ++
        [.checked (Plain.tokens text.toList).length
          (findingsFrom [] 0 (Plain.tokens text.toList)).length
          ((Source.ofString text).issues.map fun i => Warning.mk i.kind i.offset).length]) := by
  have hreads := reads_ofString h
  -- A check asks a stream at the start, as everyone does.
  have hstream : (Source.ofString text).start.stream = TokenStream.ofString text := rfl
  rw [ofString]
  dsimp only
  rw [hstream, gather_ofString h hreads, ok_bind]
  dsimp only
  rw [beq_self_eq_true, if_pos rfl, List.append_nil, hreads.events]
  rfl

/-- The report on a text. -/
theorem ofString_eq_ok (h : text.utf8ByteSize < maxPosition) :
    ∃ r events, Report.ofString text = .ok (r, events) ∧
      r.tokens = (Plain.tokens text.toList).length ∧
      r.findings = findingsFrom [] 0 (Plain.tokens text.toList) ∧ r.lossless = true :=
  ⟨_, _, ofString_eq h, rfl, rfl, rfl⟩

end Report

end CssTokens
