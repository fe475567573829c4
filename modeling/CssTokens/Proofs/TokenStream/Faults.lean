import CssTokens.Proofs.TokenStream.Restart

/-!
# When a First Call Faults

What the first call of a stream does, wherever the stream starts.

A stream may be started at any position at all, inside a character or behind
the end, and over a text as long as a position can tell. Its first call has an
answer but for two reasons. From inside a character no token has a text, for a
text is cut out between two characters. And behind a name the reader looks one
position further than the name goes: there is no such position if the name
ends a text of the greatest length.

The two are all. Every other way to read stays between characters and looks no
further than the end of the text. At the end, and behind it, the answer is the
end token.

## Main definitions

* `NameToLastPosition`: A name that ends a text of the greatest length.
* `FaultsAt`: Where a stream has nothing to hand out but a fault.
* `FirstCall`: What the first call does.

## Theorems

* `Token.isValid_of_read`: Only between characters a token is read.
* `next_nameToLastPosition`: The look behind the last position.
* `roomBehindName_of_not_nameToLastPosition`: No other name is too long.
* `firstCall_of_le`: The first call, from any position.
-/

namespace CssTokens

open Reader

/-- What is left of the text at a position is a name, and the text is as long
    as a position can tell. -/
def NameToLastPosition (text : String) (p : Nat) : Prop :=
  text.utf8ByteSize = maxPosition ∧
    ∃ before name, text = before ++ name ∧ before.utf8ByteSize = p ∧ IsName name.toList

/-- A position that a stream cannot go on from. -/
def FaultsAt (text : String) (p : Nat) : Prop :=
  p < text.utf8ByteSize ∧ (¬ String.Pos.Raw.IsValid text ⟨p⟩ ∨ NameToLastPosition text p)

/-- The first call of a stream that stands at a position of a text. -/
structure FirstCall (text : String) (p : Nat) (s : TokenStream) : Prop where
  /-- It faults at these positions and at no others. -/
  faults : (∃ f, s.next = .error f) ↔ FaultsAt text p
  /-- At the end it hands out the end token, and the stream stays. -/
  at_end : text.utf8ByteSize ≤ p → s.next = .ok (Token.endOfInput, s) ∧ s.pos = p
  /-- Before the end it hands out the text from where the stream stands to
      where it leaves it, between characters. -/
  takes : p < text.utf8ByteSize → ¬ FaultsAt text p →
    ∃ t s' before behind, s.next = .ok (t, s') ∧ t.text ≠ "" ∧ t.kind ≠ .eof ∧
      text = before ++ t.text ++ behind ∧ before.utf8ByteSize = p ∧
      (before ++ t.text).utf8ByteSize = s'.pos ∧
      String.Pos.Raw.IsValid text ⟨s'.pos⟩ ∧ s'.pos ≤ text.utf8ByteSize

/-- The name is all that is left at the position. -/
theorem NameToLastPosition.isName {before behind : String}
    (h : NameToLastPosition (before ++ behind) before.utf8ByteSize) : IsName behind.toList := by
  rcases h with ⟨_, front, name, htext, hfront, hname⟩
  have hchars := congrArg String.toList htext
  rw [String.toList_append, String.toList_append] at hchars
  rw [utf8ByteSize_eq_byteCount, utf8ByteSize_eq_byteCount] at hfront
  rw [(append_inj_of_byteCount hchars hfront.symm).2]
  exact hname

theorem utf8ByteSize_replicate (n : Nat) :
    (String.ofList (List.replicate n 'a')).utf8ByteSize = n := by
  rw [utf8ByteSize_eq_byteCount, String.toList_ofList]
  induction n with
  | zero => rfl
  | succ n ih =>
      have hwidth : 'a'.utf8Size = 1 := rfl
      rw [List.replicate_succ, byteCount_cons, ih]
      omega

/-- There is such a text, with letters only. -/
theorem nameToLastPosition_replicate {n : Nat} (hn : n = maxPosition) :
    NameToLastPosition (String.ofList (List.replicate n 'a')) 0 := by
  have hne : n ≠ 0 := by
    rw [hn]
    decide
  rcases Nat.exists_eq_succ_of_ne_zero hne with ⟨k, hk⟩
  refine ⟨(utf8ByteSize_replicate n).trans hn, "", _, String.empty_append.symm, rfl, ?_⟩
  rw [String.toList_ofList, hk]
  refine ⟨'a', List.replicate k 'a', List.replicate_succ, rfl, ?_⟩
  intro c hc
  rw [List.eq_of_mem_replicate hc]
  rfl

/-- A token is read from between characters, if the source is not over. -/
theorem Token.isValid_of_read {r s : Reader} {t : Token} (h : Token.read r = .ok (t, s))
    (hpos : r.pos < r.sourceLength) : String.Pos.Raw.IsValid r.source.padded ⟨r.pos⟩ := by
  unfold Token.read Token.readBy at h
  have hend : ¬ r.atEnd = true := by
    simp only [Reader.atEnd, decide_eq_true_eq]
    omega
  rw [if_neg hend] at h
  rcases bind_eq_ok.mp h with ⟨⟨k, e⟩, hkind, h⟩
  rcases bind_eq_ok.mp h with ⟨text, htext, _⟩
  have hsource := (readKindBy_advances hpos hkind).source
  rw [← hsource]
  exact Source.isValid_of_slice htext

/-- Behind the last position the look at two bytes has no answer. -/
theorem opensCall_overflow {text : String} {n : Nat} (hd : text.toList.drop n = [])
    (hpos : (placed text n).pos = maxPosition) :
    opensCall (placed text n) = .error .positionOverflow := by
  have hpeek : (placed text n).peek = .error .positionOverflow := by
    rw [peek, addPosition, hpos, if_neg (by omega)]
    rfl
  rw [opensCall, current_placed, hd, ok_bind, hpeek]
  rfl

theorem readName_overflow {before name : String}
    (hsize : (before ++ name).utf8ByteSize = maxPosition) (hname : IsName name.toList) :
    readName (placed (before ++ name) before.length) = .error .positionOverflow := by
  have hd := drop_length_append before name
  have hrun := Plain.run_isName hname (r := []) rfl
  rw [List.append_nil] at hrun
  -- The run of the name ends with the text, and so at the last position.
  have hend : (before ++ name).toList.drop (before.length + name.toList.length) = [] := by
    rw [← List.drop_drop, hd, List.drop_length]
  have hpos := pos_placed_add_drop (before ++ name) (before.length + name.toList.length)
  rw [hend, byteCount_nil, hsize] at hpos
  rw [readName, skipName_placed (Nat.le_of_eq hsize), hd, hrun, ok_bind,
    opensCall_overflow hend hpos]
  rfl

/-- Only a name that goes to the last position has none behind it. -/
theorem roomBehindName_of_not_nameToLastPosition {before behind : String}
    (h : (before ++ behind).utf8ByteSize ≤ maxPosition)
    (hlast : ¬ NameToLastPosition (before ++ behind) before.utf8ByteSize) :
    RoomBehindName (before ++ behind) before.length := by
  intro hstart
  have hsum := pos_placed_add_drop (before ++ behind)
    (before.length + Plain.run isNameChar behind.toList)
  rw [drop_length_append] at hstart ⊢
  -- If there were no room, the name would be what the hypothesis excludes.
  by_cases hpos : (placed (before ++ behind)
      (before.length + Plain.run isNameChar behind.toList)).pos < maxPosition
  · exact hpos
  · -- At the last position nothing is left behind the name.
    rw [← List.drop_drop, drop_length_append] at hsum
    have hnil : behind.toList.drop (Plain.run isNameChar behind.toList) = [] :=
      eq_nil_of_byteCount (by omega)
    have hform := Plain.isName_take_run hstart
    rw [List.take_of_length_le (List.drop_eq_nil_iff.mp hnil)] at hform
    exact absurd ⟨by omega, before, behind, rfl, rfl, hform⟩ hlast

namespace TokenStream

theorem not_error_of_ok {s : TokenStream} {r : Token × TokenStream}
    (h : s.next = .ok r) : ¬ ∃ f, s.next = .error f := by
  rintro ⟨f, hf⟩
  rw [h] at hf
  injection hf

/-- The look behind a name that goes to the last position. -/
theorem next_nameToLastPosition {before name : String}
    (hsize : (before ++ name).utf8ByteSize = maxPosition) (hname : IsName name.toList)
    (told : List Event) :
    next ⟨placed (before ++ name) before.length, told⟩ = .error .positionOverflow := by
  have hread := readName_overflow hsize hname
  have hd := drop_length_append before name
  rcases hname with ⟨c, ds, hcs, hc, _⟩
  rw [hcs] at hd
  have hkind : readKindBy .plain (placed (before ++ name) before.length) = .error .positionOverflow := by
    rw [readKindBy, current_placed, hd, ok_bind, asciiBased_ofChar.byteAhead_cons,
      Lead.ofChar_of_holds (l := .nameStart) hc]
    exact hread
  rw [next, Token.read, Token.readBy, atEnd_placed (Nat.le_of_eq hsize), hd, hkind]
  rfl

/-- Inside a character there is no token. -/
theorem next_inside_character {text : String} (h : text.utf8ByteSize ≤ maxPosition) {p : Nat}
    (hp : p < text.utf8ByteSize) (hinside : ¬ String.Pos.Raw.IsValid text ⟨p⟩)
    (told : List Event) :
    ∃ f, next ⟨(Source.ofString text).start.moveTo p, told⟩ = .error f := by
  -- A token that is read has whole characters, so its first byte would begin one.
  cases hnext : next ⟨(Source.ofString text).start.moveTo p, told⟩ with
  | error f => exact ⟨f, rfl⟩
  | ok r =>
      rcases bind_eq_ok.mp hnext with ⟨⟨t, e⟩, hread, _⟩
      have hlen : p < (Source.ofString text).length := by
        rw [Source.length_ofString h]
        exact hp
      have hvalid := Token.isValid_of_read hread hlen
      exact absurd (Source.isValid_of_isValid_padded hp hvalid) hinside

/-- At the end and behind it a call hands out the end token. -/
theorem next_behind_end {text : String} (h : text.utf8ByteSize ≤ maxPosition) {p : Nat}
    (hp : text.utf8ByteSize ≤ p) (told : List Event) :
    next ⟨(Source.ofString text).start.moveTo p, told⟩ =
      .ok (Token.endOfInput, ⟨(Source.ofString text).start.moveTo p, told⟩) := by
  have hend : ((Source.ofString text).start.moveTo p).atEnd = true := by
    rw [atEnd, decide_eq_true_eq]
    show (Source.ofString text).length ≤ p
    rw [Source.length_ofString h]
    exact hp
  rw [next, Token.read, Token.readBy, if_pos hend]
  rfl

end TokenStream

theorem FirstCall.of_error {text : String} {p : Nat} {s : TokenStream} {f : Fault}
    (hnext : s.next = .error f) (hfaults : FaultsAt text p) : FirstCall text p s where
  faults := iff_of_true ⟨f, hnext⟩ hfaults
  at_end hle := absurd hfaults.1 (Nat.not_lt.mpr hle)
  takes _ hne := absurd hfaults hne

/-- The first call where the text goes on and there is room for a name. -/
theorem firstCall_of_room {before behind : String}
    (h : (before ++ behind).utf8ByteSize ≤ maxPosition)
    (hp : before.utf8ByteSize < (before ++ behind).utf8ByteSize)
    (hlast : ¬ NameToLastPosition (before ++ behind) before.utf8ByteSize) (told : List Event) :
    FirstCall (before ++ behind) before.utf8ByteSize
      ⟨placed (before ++ behind) before.length, told⟩ := by
  have hpos : (placed (before ++ behind) before.length).pos = before.utf8ByteSize :=
    congrArg Reader.pos (placed_length_append before behind)
  have hroom := roomBehindName_of_not_nameToLastPosition h hlast
  rcases TokenStream.next_inside_of_room h hroom (hpos ▸ hp) told with
    ⟨t, s', front, back, hnext, hne, hkind, _, htext, hfront, hend⟩
  rw [hpos] at hfront
  have hvalid : String.Pos.Raw.IsValid (before ++ behind) ⟨s'.pos⟩ := by
    refine String.Pos.Raw.isValid_iff_exists_append.mpr ⟨_, _, htext, ?_⟩
    rw [← hend]
    rfl
  -- The position is between two characters, so neither reason for a fault is there.
  constructor
  · refine iff_of_false (TokenStream.not_error_of_ok hnext) ?_
    rintro ⟨_, hinside | hname⟩
    · exact hinside (String.Pos.Raw.isValid_iff_exists_append.mpr ⟨before, behind, rfl, rfl⟩)
    · exact hlast hname
  · intro hle
    omega
  · intro _ _
    refine ⟨t, s', front, back, hnext, hne, hkind, htext, hfront, hend, hvalid, ?_⟩
    rw [htext, String.utf8ByteSize_append]
    omega

/-- The first call of a stream, from any position that can be told and over any
    text whose length can be told. -/
theorem firstCall_of_le {text : String} (h : text.utf8ByteSize ≤ maxPosition) {p : Nat}
    (hp : p ≤ maxPosition) :
    ∃ r, (Source.ofString text).start.advanceBy p = .ok r ∧
      ∀ told, FirstCall text p ⟨r, told⟩ := by
  refine ⟨_, advanceBy_start_of_le _ hp, fun told => ?_⟩
  -- Four places: at the end or behind it, in front of a name that is too long, in front
  -- of anything else, and inside of a character.
  by_cases hend : text.utf8ByteSize ≤ p
  · have hnext := TokenStream.next_behind_end h hend told
    constructor
    · refine iff_of_false (TokenStream.not_error_of_ok hnext) ?_
      exact fun hfaults => absurd hfaults.1 (Nat.not_lt.mpr hend)
    · exact fun _ => ⟨hnext, rfl⟩
    · intro hlt
      omega
  have hlt : p < text.utf8ByteSize := by omega
  by_cases hvalid : String.Pos.Raw.IsValid text ⟨p⟩
  · rcases String.Pos.Raw.isValid_iff_exists_append.mp hvalid with ⟨before, behind, rfl, hbefore⟩
    have hbefore : p = before.utf8ByteSize := congrArg String.Pos.Raw.byteIdx hbefore
    subst hbefore
    rw [← placed_length_append]
    by_cases hlast : NameToLastPosition (before ++ behind) before.utf8ByteSize
    · exact .of_error (TokenStream.next_nameToLastPosition hlast.1 hlast.isName told)
        ⟨hlt, Or.inr hlast⟩
    · exact firstCall_of_room h hlt hlast told
  · rcases TokenStream.next_inside_character h hlt hvalid told with ⟨f, hf⟩
    exact .of_error hf ⟨hlt, Or.inl hvalid⟩

/-- A text of letters only, as long as a text may be. -/
theorem firstCall_longest_name :
    (String.ofList (List.replicate maxPosition 'a')).utf8ByteSize ≤ maxPosition ∧
      0 ≤ maxPosition ∧
      ∃ r f, (Source.ofString (String.ofList (List.replicate maxPosition 'a'))).start.advanceBy 0 =
        .ok r ∧ r.stream.next = .error f := by
  have hsize := utf8ByteSize_replicate maxPosition
  have hname := nameToLastPosition_replicate (n := maxPosition) rfl
  have hpos : 0 < (String.ofList (List.replicate maxPosition 'a')).utf8ByteSize := by
    rw [hsize]
    decide
  rcases firstCall_of_le (Nat.le_of_eq hsize) (Nat.zero_le maxPosition) with ⟨r, hr, hcall⟩
  rcases (hcall []).faults.mpr ⟨hpos, Or.inr hname⟩ with ⟨f, hf⟩
  exact ⟨Nat.le_of_eq hsize, Nat.zero_le maxPosition, r, f, hr, hf⟩

end CssTokens
