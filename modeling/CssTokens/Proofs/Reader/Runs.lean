import CssTokens.Proofs.Token.Reading

/-!
# Runs of Bytes and Runs of Characters

What a run over the bytes of a class steps over, told in characters.

The tests on bytes are asked of every byte, and the table of the bytes of names
accepts those that continue a character just as it accepts those that begin one.
From between two characters this makes no difference: the first byte of a
character is accepted if the character is in the class, and then all of its bytes
are. So a run stops behind the longest run of characters in the class, and there
it is between two characters again.

Zero is in none of the classes that are run over, and it is what is behind the
text. So a run needs no test for the end, and it stops at a NUL character as it
would if the text ended there.

## Main definitions

* `LongestRun`: The longest run of characters in a class at the front of a text.
* `RunsOver`: A movement over the characters in a class, wherever it starts.
* `StopsBehind`: What such a movement does at one place.
* `RunsFrom`: What the tests and the runs of the tokenizer do at a place.

## Theorems

* `longestRun_takeWhile`: There is a longest run.
* `takeWhile_append_null`: A NUL character ends it as the end of the text does.
* `RunsOver.exists_stopsBehind`: One run, from any place between two characters.
* `exists_byteAt?_class`: The byte behind a text, as the character there.
* `exists_runsFrom_of_isValid`: All runs, and the test that begins a name.
-/

namespace CssTokens

open Reader

/-- The longest text at the front of another one whose characters are all in a
    class. -/
structure LongestRun (test : Char → Bool) (text run : String) : Prop where
  front : ∃ rest, run ++ rest = text
  all : ∀ c ∈ run.toList, test c = true
  longest : ∀ other rest, other ++ rest = text → (∀ c ∈ other.toList, test c = true) →
    other.utf8ByteSize ≤ run.utf8ByteSize

/-- A movement leads over the characters in a class. -/
def RunsOver (move : Reader → Except Fault Reader) (test : Char → Bool) : Prop :=
  ∀ text : String, text.utf8ByteSize ≤ maxPosition → ∀ n,
    move (placed text n) = .ok (placed text (n + Plain.run test (text.toList.drop n)))

/-- A movement from behind `front` leads over `run`, which is as much of the
    text ahead as is in a class, and stops in front of `rest`. -/
structure StopsBehind (move : Reader → Except Fault Reader) (test : Char → Bool)
    (front run rest : String) : Prop where
  longest : LongestRun test (run ++ rest) run
  moved : move (atOffset (front ++ (run ++ rest)) front.utf8ByteSize) =
    .ok (atOffset (front ++ (run ++ rest)) (front.utf8ByteSize + run.utf8ByteSize))
  /-- It stops between two characters. -/
  boundary : CutAt (front ++ (run ++ rest)) (front.utf8ByteSize + run.utf8ByteSize)
    (front ++ run) rest
  le_size : front.utf8ByteSize + run.utf8ByteSize ≤ (front ++ (run ++ rest)).utf8ByteSize
  /-- It stops no later than at a NUL character, and if the text ended in front
      of that it would stop at the same place. -/
  null : ∀ ahead beyond, ahead ++ ("\x00" ++ beyond) = run ++ rest →
    run.utf8ByteSize ≤ ahead.utf8ByteSize ∧
      move (atOffset (front ++ ahead) front.utf8ByteSize) =
        .ok (atOffset (front ++ ahead) (front.utf8ByteSize + run.utf8ByteSize))

/-- What the tests and the runs do between `front` and `behind`. -/
structure RunsFrom (front behind : String) : Prop where
  /-- The byte there is classed as the character there. -/
  first : front.utf8ByteSize < (front ++ behind).utf8ByteSize →
    ∃ c rest b, String.singleton c ++ rest = behind ∧
      byteAt? (front ++ behind) front.utf8ByteSize = some b ∧
      isNameStartByte b = isNameStart c
  name : ∃ run rest, run ++ rest = behind ∧ StopsBehind skipName isNameChar front run rest
  digits : ∃ run rest, run ++ rest = behind ∧ StopsBehind skipDigits Char.isDigit front run rest
  blanks : ∃ run rest, run ++ rest = behind ∧ StopsBehind skipBlanks isBlank front run rest

theorem takeWhile_append_dropWhile_toList (test : Char → Bool) (text : String) :
    String.ofList (text.toList.takeWhile test) ++ String.ofList (text.toList.dropWhile test) =
      text := by
  rw [← String.ofList_append, List.takeWhile_append_dropWhile, String.ofList_toList]

/-- The characters up to the first one outside a class. -/
theorem longestRun_takeWhile (test : Char → Bool) (text : String) :
    LongestRun test text (String.ofList (text.toList.takeWhile test)) where
  front := ⟨_, takeWhile_append_dropWhile_toList test text⟩
  all := by
    rw [String.toList_ofList]
    exact List.all_eq_true.mp List.all_takeWhile
  longest := by
    rintro other rest rfl hall
    -- The run starts with all of the other text.
    rw [utf8ByteSize_eq_byteCount, utf8ByteSize_eq_byteCount, String.toList_ofList,
      String.toList_append, List.takeWhile_append_of_pos hall, byteCount_append]
    exact Nat.le_add_right _ _

/-- A NUL character ends a run as the end of the text does. -/
theorem takeWhile_append_null {test : Char → Bool} (hnull : test '\x00' = false)
    (cs ds : List Char) : (cs ++ '\x00' :: ds).takeWhile test = cs.takeWhile test := by
  induction cs with
  | nil => exact List.takeWhile_cons_of_neg (Bool.eq_false_iff.mp hnull)
  | cons c cs ih =>
      rw [List.cons_append, List.takeWhile_cons, List.takeWhile_cons, ih]

namespace RunsOver

variable {move : Reader → Except Fault Reader} {test : Char → Bool}

/-- Where a movement leads to in bytes. -/
theorem move_atOffset (hmove : RunsOver move test) {front behind : String}
    (h : (front ++ behind).utf8ByteSize ≤ maxPosition) :
    move (atOffset (front ++ behind) front.utf8ByteSize) =
      .ok (atOffset (front ++ behind)
        (front.utf8ByteSize + (String.ofList (behind.toList.takeWhile test)).utf8ByteSize)) := by
  have hstart : atOffset (front ++ behind) front.utf8ByteSize =
      placed (front ++ behind) front.length := (placed_length_append front behind).symm
  have hrun := List.prefix_iff_eq_take.mp (List.takeWhile_prefix test (l := behind.toList))
  -- As many characters as the run has take up the bytes of the run.
  have hpos := pos_placed_append front behind (Plain.run test behind.toList)
  rw [pos_placed behind, Plain.run, ← hrun] at hpos
  rw [hstart, hmove _ h, drop_length_append, utf8ByteSize_eq_byteCount (String.ofList _),
    String.toList_ofList, ← hpos]
  rfl

/-- A movement from between two characters stops behind the longest run. -/
theorem exists_stopsBehind (hmove : RunsOver move test) (hnull : test '\x00' = false)
    {front behind : String} (h : (front ++ behind).utf8ByteSize ≤ maxPosition) :
    ∃ run rest, run ++ rest = behind ∧ StopsBehind move test front run rest := by
  have hbehind := takeWhile_append_dropWhile_toList test behind
  refine ⟨_, _, hbehind, ?_⟩
  constructor
  case longest =>
    rw [hbehind]
    exact longestRun_takeWhile test behind
  case moved =>
    rw [hbehind]
    exact hmove.move_atOffset h
  case boundary => exact ⟨String.append_assoc, String.utf8ByteSize_append⟩
  case le_size =>
    rw [String.utf8ByteSize_append, String.utf8ByteSize_append]
    omega
  case null =>
    intro ahead beyond heq
    rw [hbehind] at heq
    -- In front of the NUL character the run is the same.
    have hsame : behind.toList.takeWhile test = ahead.toList.takeWhile test := by
      rw [← heq, String.toList_append, String.toList_append]
      exact takeWhile_append_null hnull ahead.toList beyond.toList
    have hahead := congrArg String.utf8ByteSize (takeWhile_append_dropWhile_toList test ahead)
    have hsize : (front ++ ahead).utf8ByteSize ≤ maxPosition := by
      rw [← heq, ← String.append_assoc, String.utf8ByteSize_append] at h
      omega
    rw [String.utf8ByteSize_append] at hahead
    rw [hsame]
    exact ⟨by omega, hmove.move_atOffset hsize⟩

end RunsOver

/-- The byte behind a text is classed as the character behind it. -/
theorem exists_byteAt?_class (front : String) {behind : String} (h : behind ≠ "") :
    ∃ c rest b, String.singleton c ++ rest = behind ∧
      byteAt? (front ++ behind) front.utf8ByteSize = some b ∧
      isNameStartByte b = isNameStart c := by
  cases hchars : behind.toList with
  | nil => exact absurd (String.toList_eq_nil_iff.mp hchars) h
  | cons c cs =>
      rcases leadWidth_utf8EncodeChar c with ⟨b, bs, heq, -⟩
      refine ⟨c, String.ofList cs, b, ?_, ?_, ?_⟩
      · rw [← String.toList_inj, hchars]
        simp
      · rw [byteAt?_append_size, byteAt?_eq_getElem?, hchars, bytesOf_cons, heq]
        rfl
      · rw [isNameStartByte_eq]
        exact asciiBased_isNameStart.of_mem_bytes (heq ▸ List.mem_cons_self)

/-- From every place between two characters of a text, what is asked of its bytes
    is answered as for its characters. -/
theorem exists_runsFrom_of_isValid {text : String} (h : text.utf8ByteSize ≤ maxPosition)
    {p : Nat} (hp : String.Pos.Raw.IsValid text ⟨p⟩) :
    ∃ front behind, CutAt text p front behind ∧ RunsFrom front behind := by
  rcases String.Pos.Raw.isValid_iff_exists_append.mp hp with ⟨front, behind, rfl, hfront⟩
  refine ⟨front, behind, ⟨rfl, (congrArg String.Pos.Raw.byteIdx hfront).symm⟩, ?_⟩
  constructor
  case first =>
    intro hlt
    refine exists_byteAt?_class front ?_
    rintro rfl
    rw [String.append_empty] at hlt
    exact absurd hlt (Nat.lt_irrefl _)
  case name => exact RunsOver.exists_stopsBehind @skipName_placed rfl h
  case digits => exact RunsOver.exists_stopsBehind @skipDigits_placed rfl h
  case blanks => exact RunsOver.exists_stopsBehind @skipBlanks_placed rfl h

/-- A place in front of a name that a NUL character ends. -/
theorem runsFrom_before_null :
    "€é-1\x00b".utf8ByteSize ≤ maxPosition ∧ String.Pos.Raw.IsValid "€é-1\x00b" ⟨3⟩ ∧
      ∃ front behind, CutAt "€é-1\x00b" 3 front behind ∧ RunsFrom front behind := by
  have h : "€é-1\x00b".utf8ByteSize ≤ maxPosition := by decide
  have hp : String.Pos.Raw.IsValid "€é-1\x00b" ⟨3⟩ :=
    String.Pos.Raw.isValid_iff_exists_append.mpr ⟨"€", "é-1\x00b", by decide, rfl⟩
  exact ⟨h, hp, exists_runsFrom_of_isValid h hp⟩

end CssTokens
