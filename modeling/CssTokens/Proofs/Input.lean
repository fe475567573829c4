import CssTokens.Input
import CssTokens.Proofs.Text.WellFormed

/-!
# Reading a Source

The text of a source and its bytes.

Bytes are read as a text exactly if they are well-formed, and the text then has
these bytes. Whether they come from a file or from the standard input makes no
difference to the text; it is the path that a failure speaks of.

## Main definitions

* `Surroundings.Holds`: The bytes that a run finds at a path.
* `Surroundings.Unreadable`: Why there is no text at a path.

## Theorems

* `Directory.mem_of_read`: What is read is what an entry holds.
* `decode_of_wellFormed`, `decode_of_not_wellFormed`: What is read as a text.
* `Surroundings.read_eq_of_holds`: Both ways lead to the decoder.
* `Surroundings.holds_of_read`: A text that is read has the bytes at the path.
* `Surroundings.unreadable_or_holds`: There is a text at a path, or a reason why
  not.
-/

namespace CssTokens

/-- Bytes are read as the text whose bytes they are. -/
theorem decode_toUTF8 (text : String) : decode text.toUTF8 = .ok text := by
  unfold decode String.fromUTF8?
  rw [String.toUTF8_eq_toByteArray, dif_pos text.isValidUTF8]
  rfl

/-- Well-formed bytes are read as a text, of which they are the bytes. -/
theorem decode_of_wellFormed {bytes : ByteArray} (h : WellFormed bytes.data.toList) :
    ∃ text : String, text.toUTF8 = bytes ∧ decode bytes = .ok text := by
  rcases exists_toUTF8_of_wellFormed h with ⟨text, rfl⟩
  exact ⟨text, rfl, decode_toUTF8 text⟩

/-- Other bytes are not read as a text. -/
theorem decode_of_not_wellFormed {bytes : ByteArray} (h : ¬ WellFormed bytes.data.toList) :
    decode bytes = .error notText := by
  unfold decode String.fromUTF8?
  split
  · next text htext =>
      split at htext
      · next hvalid =>
          -- Valid bytes are those of a text.
          exact absurd (wellFormed_toUTF8 (String.fromUTF8 bytes hvalid)) h
      · injection htext
  · rfl

/-- A text that is read has the bytes that it is read from. -/
theorem toUTF8_of_decode_eq_ok {bytes : ByteArray} {text : String}
    (h : decode bytes = .ok text) : text.toUTF8 = bytes := by
  by_cases hbytes : WellFormed bytes.data.toList
  · rcases decode_of_wellFormed hbytes with ⟨other, hother, hdecode⟩
    rw [h, Except.ok.injEq] at hdecode
    rw [hdecode, hother]
  · rw [decode_of_not_wellFormed hbytes] at h
    injection h

/-- What is read from a directory is what one of its entries holds. -/
theorem Directory.mem_of_read {d : Directory} {path : String} {bytes : ByteArray}
    (h : d.read path = .ok bytes) : ∃ p, (p, .file bytes) ∈ d := by
  unfold Directory.read at h
  -- Three checks of the path come first, and then its names are followed.
  split at h
  · injection h
  · split at h
    · injection h
    · split at h
      · injection h
      · rcases bind_eq_ok.mp h with ⟨place, _, hplace⟩
        split at hplace
        · next content hentry =>
            -- A place without names is a folder; any other is looked up.
            injection hplace with hplace
            subst hplace
            unfold Directory.entry? at hentry
            split at hentry
            · injection hentry with hentry
              injection hentry
            · rcases Option.map_eq_some_iff.mp hentry with ⟨⟨p, e⟩, hfound, rfl⟩
              exact ⟨p, List.mem_of_find?_eq_some hfound⟩
        · injection hplace

namespace Surroundings

/-- The bytes that a run finds at a path. -/
def Holds (env : Surroundings) (path : String) (bytes : ByteArray) : Prop :=
  (path = "-" ∧ env.stdin = .ok bytes) ∨ (path ≠ "-" ∧ env.files.read path = .ok bytes)

/-- Why there is no text at a path. -/
inductive Unreadable (env : Surroundings) (path : String) : SystemError → Prop where
  /-- The system does not hand out a file. -/
  | system {e : SystemError} : path ≠ "-" → env.files.read path = .error e → Unreadable env path e
  /-- The system does not hand out the standard input. -/
  | input {e : SystemError} : path = "-" → env.stdin = .error e → Unreadable env path e
  /-- What is there are not the bytes of a text. -/
  | notText {bytes : ByteArray} : env.Holds path bytes → ¬ WellFormed bytes.data.toList →
      Unreadable env path CssTokens.notText

variable {env : Surroundings} {path : String} {bytes : ByteArray}

theorem handedOut_input (env : Surroundings) : env.handedOut "-" = env.stdin := rfl

theorem handedOut_file (env : Surroundings) (h : path ≠ "-") :
    env.handedOut path = env.files.read path := if_neg (mt beq_iff_eq.mp h)

/-- What a run finds at a path is what the system hands out. -/
theorem holds_iff : env.Holds path bytes ↔ env.handedOut path = .ok bytes := by
  by_cases hpath : path = "-"
  · rw [hpath, handedOut_input]
    simp [Holds]
  · rw [handedOut_file env hpath]
    simp [Holds, hpath]

/-- A text is what is handed out, decoded. -/
theorem read_eq (env : Surroundings) (path : String) :
    env.read path = (env.handedOut path >>= decode).mapError (.read path) := by
  rw [read]
  cases env.handedOut path >>= decode <;> rfl

/-- Both ways lead to the decoder. -/
theorem read_eq_of_holds (h : env.Holds path bytes) :
    env.read path = (decode bytes).mapError (.read path) := by
  rw [read_eq, holds_iff.mp h, ok_bind]

theorem read_of_decode_eq_ok (h : env.Holds path bytes) {text : String}
    (hdecode : decode bytes = .ok text) : env.read path = .ok text := by
  rw [read_eq_of_holds h, hdecode]
  rfl

theorem read_of_not_wellFormed (h : env.Holds path bytes)
    (hbytes : ¬ WellFormed bytes.data.toList) : env.read path = .error (.read path notText) := by
  rw [read_eq_of_holds h, decode_of_not_wellFormed hbytes]
  rfl

/-- Without a text there is nothing to be read. -/
theorem read_of_unreadable {e : SystemError} (h : env.Unreadable path e) :
    env.read path = .error (.read path e) := by
  cases h with
  | system hpath hread =>
      rw [read_eq, handedOut_file env hpath, hread]
      rfl
  | input hpath hread =>
      rw [hpath, read_eq, handedOut_input, hread]
      rfl
  | notText hbytes hnot => exact read_of_not_wellFormed hbytes hnot

/-- There is a text at a path, or a reason why not. -/
theorem unreadable_or_holds (env : Surroundings) (path : String) :
    (∃ e, env.Unreadable path e) ∨ ∃ text : String, env.Holds path text.toUTF8 := by
  rcases hbytes : env.handedOut path with e | bytes
  · -- The system hands out nothing, in one place or the other.
    refine .inl ⟨e, ?_⟩
    by_cases hpath : path = "-"
    · exact .input hpath (by rw [← handedOut_input, ← hpath, hbytes])
    · exact .system hpath (by rw [← handedOut_file env hpath, hbytes])
  · -- Bytes are the bytes of a text, or they are no text.
    have hholds := holds_iff.mpr hbytes
    by_cases hwf : WellFormed bytes.data.toList
    · rcases decode_of_wellFormed hwf with ⟨text, rfl, _⟩
      exact .inr ⟨text, hholds⟩
    · exact .inl ⟨_, .notText hholds hwf⟩

/-- A text that is read has the bytes at the path. -/
theorem holds_of_read {text : String} (h : env.read path = .ok text) :
    env.Holds path text.toUTF8 := by
  -- What is read is decoded, and decoding gives the bytes back.
  rw [read_eq] at h
  rcases hbytes : env.handedOut path with e | bytes
  · rw [hbytes] at h
    injection h
  · rw [hbytes, ok_bind] at h
    rcases hdecode : decode bytes with e | other
    · rw [hdecode] at h
      injection h
    · rw [hdecode] at h
      injection h with h
      rw [← h, toUTF8_of_decode_eq_ok hdecode]
      exact holds_iff.mpr hbytes

end Surroundings

end CssTokens
