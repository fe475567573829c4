import CssTokens.Proofs.Report.Findings

/-!
# The Drivers Agree

A listing and a report see the tokens that a plain reading of the text finds,
each at the same offset, and tell an observer the same about them.

Whoever reads a text makes the same calls to its stream, in a loop of his own.
So there is one list of tokens with their offsets (`withOffsets`): the offset
of a token is the byte length of all texts in front of it, and one thing that
an observer is told of each (`Located.record`). A listing has a row for every
token that it does not leave out; leaving some out takes away rows and changes
none, and a row that is refused ends the listing there and then. When a driver
is done it tells one event more, with the counts of its own result. A check
would warn of a source that it cannot put together again, but there is none.

What a row looks like and what an observer is told is said here by the columns
and the fields, not by the functions that print them.

## Main definitions

* `withOffsets`: Tokens in order, each with the byte length of what is in front.
* `AlignedRight`, `AlignedLeft`: Columns of a width at the least.
* `Located.IsRow`: The row of a token.
* `Event.record`, `Located.record`: What an observer is told.
* `Listing.Shows`, `Report.Sums`: What a driver makes of the tokens.

## Theorems

* `locateFrom_eq_withOffsets`: The offsets of a stream are those of the texts.
* `Located.isRow_line`: A line of a listing is a row.
* `Located.record_event`: What an observer is told of a token.
* `Listing.shows_of_reads`: A listing, by the calls that empty its stream.
* `Report.sums_of_lt`: A report, by its tokens.
* `drivers_agree`: The listings and the report of a text.
-/

namespace CssTokens

open Reader

/-- Tokens in order, each with the byte length of the texts in front of it. -/
def withOffsets (ts : List Token) : List Located :=
  ts.zipIdx.map fun x => ⟨(frontText ts x.2).utf8ByteSize, x.1⟩

/-- A text at the right end of a column of a width at the least. -/
def AlignedRight (width : Nat) (text column : String) : Prop :=
  ∃ n, column = String.ofList (List.replicate n ' ') ++ text ∧
    column.length = max width text.length

/-- A text at the left end of a column of a width at the least. -/
def AlignedLeft (width : Nat) (text column : String) : Prop :=
  ∃ n, column = text ++ String.ofList (List.replicate n ' ') ∧
    column.length = max width text.length

/-- The row of a token: the offset, the name of the kind, the quoted text. -/
def Located.IsRow (x : Located) (line : String) : Prop :=
  ∃ offset name, AlignedRight 6 (Nat.repr x.offset) offset ∧
    AlignedLeft 16 x.token.kind.name name ∧
    line = offset ++ " " ++ name ++ " " ++ quoted x.token.text ++ "\n"

/-- What an observer is told: how grave it is, which part tells it, and the named
    values. -/
structure Record where
  severity : Severity
  topic : Topic
  fields : List (String × String)

/-- What an observer is told of an event. -/
def Event.record (e : Event) : Record := ⟨e.severity, e.topic, e.fields⟩

/-- What an observer is told of a token at an offset. -/
def Located.record (x : Located) : Record :=
  if x.token.IsSoft then
    ⟨.debug, .reading, [("message", "soft failure"), ("kind", x.token.kind.name),
      ("pos", Nat.repr x.offset), ("text", quoted x.token.text)]⟩
  else
    ⟨.trace, .reading, [("message", "token"), ("kind", x.token.kind.name),
      ("pos", Nat.repr x.offset), ("len", Nat.repr x.token.text.utf8ByteSize)]⟩

/-- What a listing of a text makes of its tokens, and what it tells behind all
    that was told of them. -/
structure Listing.Shows (l : Listing) (text : String) (skipTrivia : Bool) (ts : List Token)
    (told : List Event) : Prop where
  /-- The listing can be kept as a whole. -/
  kept : ofString text skipTrivia = .ok l
  /-- Every token that is not left out, with its offset among all tokens. -/
  entries : l.entries =
    (withOffsets ts).filter fun x => !(skipTrivia && x.token.kind.isTrivia)
  /-- One row for each of them. -/
  lines : l.lines = l.entries.map Located.line
  rows : ∀ x ∈ l.entries, x.IsRow x.line
  /-- What the loop has counted. -/
  count : l.count = l.lines.length
  events : ∃ e, l.events = told ++ [e] ∧
    e.record = ⟨.debug, .listing, [("message", "lex finished"), ("tokens", Nat.repr l.count),
      ("skip_trivia", if skipTrivia then "true" else "false")]⟩
  /-- Written as it is made, it has the same rows, count and events. -/
  written : ∀ s : Sink, s.room = none → writeText text skipTrivia s =
    (.finished l.count { s with written := s.written ++ (String.join l.lines).toUTF8 }, l.events)
  /-- A sink that takes all of it makes no difference to the count and to the
      events. -/
  taken : ∀ s out, s.writeAll l.lines = .ok out →
    writeText text skipTrivia s = (.finished l.count out, l.events)
  /-- The first row that is refused is the last token that is told of. -/
  refused : ∀ s r, s.writeAll l.lines = .error r →
    ∃ front x back out, withOffsets ts = front ++ x :: back ∧
      s.writeAll ((front.filter fun x => !(skipTrivia && x.token.kind.isTrivia)).map
        Located.line) = .ok out ∧
      out.write x.line = .error r ∧
      writeText text skipTrivia s = (.refused r, told.take (front.length + 1))

/-- What a report makes of tokens, and what it tells behind all that was told
    of them. -/
structure Report.Sums (r : Report) (events : List Event) (ts : List Token)
    (told : List Event) : Prop where
  tokens : r.tokens = ts.length
  /-- The soft failures, with their offsets among all tokens. -/
  findings : (r.findings.map fun f => Located.mk f.offset ⟨f.kind, f.text⟩) =
    (withOffsets ts).filter fun x => x.token.IsSoft
  events : ∃ e, events = told ++ [e] ∧
    e.record = ⟨.debug, .checking, [("message", "check finished"), ("tokens", Nat.repr r.tokens),
      ("findings", Nat.repr r.findings.length),
      ("encoding_issues", Nat.repr r.warnings.length)]⟩

/-- The offsets of a stream are the byte lengths of the texts in front. -/
theorem locateFrom_eq (front xs : List Lexeme) :
    locateFrom (byteCount (front.map Lexeme.chars).flatten) xs =
      ((xs.map Lexeme.token).zipIdx front.length).map fun x =>
        ⟨(frontText ((front ++ xs).map Lexeme.token) x.2).utf8ByteSize, x.1⟩ := by
  -- The induction moves the first lexeme to those in front, which is what the offset
  -- counts.
  induction xs generalizing front with
  | nil => rfl
  | cons x xs ih =>
      have hrest := ih (front ++ [x])
      have hfront : frontText ((front ++ x :: xs).map Lexeme.token) front.length =
          String.join ((front.map Lexeme.token).map Token.text) := by
        rw [frontText, List.map_append, List.take_left' (List.length_map _)]
      rw [List.map_append, List.flatten_append, byteCount_append, List.map_singleton,
        List.flatten_singleton, List.length_append, List.length_singleton,
        ← List.append_cons] at hrest
      rw [locateFrom, hrest, List.map_cons, List.zipIdx_cons, List.map_cons, hfront,
        utf8ByteSize_eq_byteCount, toList_join_token]

theorem locateFrom_eq_withOffsets (xs : List Lexeme) :
    locateFrom 0 xs = withOffsets (xs.map Lexeme.token) := locateFrom_eq [] xs

theorem alignedRight_alignRight (width : Nat) (text : String) :
    AlignedRight width text (alignRight width text) := by
  refine ⟨_, rfl, ?_⟩
  rw [alignRight, String.length_append, String.length_ofList, List.length_replicate]
  omega

theorem alignedLeft_alignLeft (width : Nat) (text : String) :
    AlignedLeft width text (alignLeft width text) := by
  refine ⟨_, rfl, ?_⟩
  rw [alignLeft, String.length_append, String.length_ofList, List.length_replicate]
  omega

/-- A line of a listing is a row. -/
theorem Located.isRow_line (x : Located) : x.IsRow x.line :=
  ⟨_, _, alignedRight_alignRight 6 _, alignedLeft_alignLeft 16 _, rfl⟩

/-- What an observer is told of the event of a token. -/
theorem Located.record_event (x : Located) : x.event.record = x.record := by
  by_cases hsoft : x.token.IsSoft
  · rw [Located.event, Event.ofToken, if_pos (isSoft_iff.mp hsoft), Located.record, if_pos hsoft]
    rfl
  · have hkind : ¬ x.token.kind.isSoftFailure = true := fun h => hsoft (isSoft_iff.mpr h)
    rw [Located.event, Event.ofToken, if_neg hkind, Located.record, if_neg hsoft]
    rfl

/-- A listing, by the calls that empty its stream. -/
theorem Listing.shows_of_reads {text : String} {ts : List Token} {e : TokenStream}
    (h : (TokenStream.ofString text).Reads (withOffsets ts) e) (skipTrivia : Bool) :
    ∃ l : Listing, l.Shows text skipTrivia ts ((withOffsets ts).map Located.event) := by
  have hl := ofString_of_reads h skipTrivia
  refine ⟨_, hl, rfl, rfl, fun x _ => x.isRow_line, (List.length_map _).symm, ⟨_, rfl, rfl⟩,
    ?_, ?_, ?_⟩
  · intro s hroom
    exact writeText_finished h hl (Sink.writeAll_of_room hroom _)
  · intro s out hout
    exact writeText_finished h hl hout
  · intro s r hout
    -- The events are those of the tokens up to the row that is refused, so they are as
    -- many of all events.
    rcases writeText_refused h hl hout with ⟨front, x, back, out, hxs, hfront, hx, htext⟩
    have htake : (front ++ x :: back).take (front.length + 1) = front ++ [x] := by
      rw [List.append_cons front x back]
      exact List.take_left' List.length_append
    refine ⟨front, x, back, out, hxs, hfront, hx, ?_⟩
    rw [htext, hxs, ← List.map_take, htake]

/-- The tokens that are found are the soft failures. -/
theorem map_findingsIn (ts : List Token) :
    ((findingsIn ts).map fun f => Located.mk f.offset ⟨f.kind, f.text⟩) =
      (withOffsets ts).filter fun x => x.token.IsSoft := by
  -- A finding without its place is a token with its offset.
  rw [withOffsets, List.filter_map, findingsIn, List.map_map]
  rfl

/-- A report, by its tokens. Behind them only the report itself is told of. -/
theorem Report.sums_of_lt {text : String} (h : text.utf8ByteSize < maxPosition) {ts : List Token}
    (hts : tokenize text = .ok ts) {r : Report} {events : List Event}
    (hr : ofString text = .ok (r, events)) :
    r.Sums events ts ((withOffsets ts).map Located.event) := by
  rw [tokenize_eq_ok h, Except.ok.injEq] at hts
  rw [ofString_eq h, Except.ok.injEq, Prod.mk.injEq] at hr
  rcases hr with ⟨rfl, rfl⟩
  subst hts
  refine ⟨(List.length_map _).symm, ?_, ?_⟩
  · have hfound : findingsFrom [] 0 (Plain.tokens text.toList) =
        findingsIn ((Plain.tokens text.toList).map Lexeme.token) := findingsFrom_eq [] _
    rw [hfound, map_findingsIn]
  · rw [locateFrom_eq_withOffsets]
    exact ⟨_, rfl, rfl⟩

/-- The loops over a text agree on its tokens, and on what is told of them: that
    of its items, that of its tokens with their offsets, those of the listings and
    that of the report. -/
theorem drivers_agree {text : String} (h : text.utf8ByteSize < maxPosition) :
    ∃ ts s, tokenize text = .ok ts ∧
      (TokenStream.ofString text).collect #[] = .ok (ts.toArray, s) ∧
      locate text = .ok (withOffsets ts, s) ∧
      s.events.map Event.record = (withOffsets ts).map Located.record ∧
      (∃ all short : Listing, all.Shows text false ts s.events ∧
        short.Shows text true ts s.events ∧ short.lines.Sublist all.lines) ∧
      ∃ r events, Report.ofString text = .ok (r, events) ∧ r.Sums events ts s.events := by
  have hreads := reads_ofString h
  have htokens := tokenize_eq_ok h
  rw [locateFrom_eq_withOffsets] at hreads
  -- From here on the tokens matter only as what the calls hand out.
  generalize hts : (Plain.tokens text.toList).map Lexeme.token = ts at hreads htokens
  -- Every loop is followed along the same calls, and each of them tells the same.
  have hmap : (withOffsets ts).map Located.token = ts := by
    rw [← hts, ← locateFrom_eq_withOffsets, map_token_locateFrom]
  have htold := hreads.events
  rw [show (TokenStream.ofString text).events = [] from rfl, List.nil_append] at htold
  refine ⟨ts, _, htokens, ?_, locate_of_reads hreads, ?_, ?_, ?_⟩
  · rw [hreads.collect, Array.empty_append, hmap]
  · rw [htold, List.map_map]
    exact List.map_congr_left fun x _ => x.record_event
  · rcases Listing.shows_of_reads hreads false with ⟨all, hall⟩
    rcases Listing.shows_of_reads hreads true with ⟨short, hshort⟩
    rw [htold]
    refine ⟨all, short, hall, hshort, ?_⟩
    have hwhole : all.entries = withOffsets ts := hall.entries.trans
      (List.filter_eq_self.mpr fun _ _ => rfl)
    rw [hall.lines, hshort.lines, hwhole, hshort.entries]
    exact List.filter_sublist.map _
  · rcases Report.ofString_eq_ok h with ⟨r, events, hreport, _⟩
    rw [htold]
    exact ⟨r, events, hreport, Report.sums_of_lt h htokens hreport⟩

/-- A string that a line break ends, with trivia behind it, and a character of
    three bytes in front. -/
theorem drivers_agree_line_break :
    "€'\n \x00".utf8ByteSize < maxPosition ∧
      ∃ ts s, tokenize "€'\n \x00" = .ok ts ∧
        (TokenStream.ofString "€'\n \x00").collect #[] = .ok (ts.toArray, s) ∧
        locate "€'\n \x00" = .ok (withOffsets ts, s) ∧
        s.events.map Event.record = (withOffsets ts).map Located.record ∧
        (∃ all short : Listing, all.Shows "€'\n \x00" false ts s.events ∧
          short.Shows "€'\n \x00" true ts s.events ∧ short.lines.Sublist all.lines) ∧
        ∃ r events, Report.ofString "€'\n \x00" = .ok (r, events) ∧
          r.Sums events ts s.events :=
  ⟨by decide, drivers_agree (by decide)⟩

end CssTokens
