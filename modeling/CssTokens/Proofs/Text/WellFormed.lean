import CssTokens.Proofs.Text.Encoding

/-!
# Well-Formed Bytes

Which bytes are the UTF-8 form of a text.

The first byte of a character announces how many continuation bytes follow it,
and the bits behind the markers make up a code point. The bytes are a form of
the character if the code point is one of a character, which leaves out the
surrogates and all that lies above them all, and if it takes as many bytes as
are spent on it. Bytes are well-formed if they can be cut into such forms.

This is said without a decoder. The forms turn out to be those that characters
have, so well-formed bytes are the bytes of texts and of nothing else.

## Main definitions

* `Spells`: The code point that the bits behind the markers make up.
* `IsCharForm`, `WellFormed`: The bytes of a character, and of a text.

## Theorems

* `utf8EncodeChar_eq_cons`: The bytes of a character, by their ranges.
* `isCharForm_iff`: The forms are those that characters have.
* `wellFormed_iff`: Well-formed bytes are the bytes of some characters.
* `wellFormed_toUTF8`, `exists_toUTF8_of_wellFormed`: The bytes of a text.
-/

namespace CssTokens

/-- A continuation byte. -/
def IsTrail (b : UInt8) : Prop := 0x80 ≤ b.toNat ∧ b.toNat < 0xc0

/-- The bytes of one length and the code point that the bits behind their
    markers make up. -/
inductive Spells : List UInt8 → Nat → Prop where
  | one {a : UInt8} {v : Nat} (ha : a.toNat < 0x80) (hv : v = a.toNat) : Spells [a] v
  | two {a b : UInt8} {v : Nat} (ha : 0xc0 ≤ a.toNat ∧ a.toNat < 0xe0) (hb : IsTrail b)
      (hv : v = 0x40 * (a.toNat - 0xc0) + (b.toNat - 0x80)) : Spells [a, b] v
  | three {a b c : UInt8} {v : Nat} (ha : 0xe0 ≤ a.toNat ∧ a.toNat < 0xf0) (hb : IsTrail b)
      (hc : IsTrail c)
      (hv : v = 0x1000 * (a.toNat - 0xe0) + 0x40 * (b.toNat - 0x80) + (c.toNat - 0x80)) :
      Spells [a, b, c] v
  | four {a b c d : UInt8} {v : Nat} (ha : 0xf0 ≤ a.toNat ∧ a.toNat < 0xf8) (hb : IsTrail b)
      (hc : IsTrail c) (hd : IsTrail d)
      (hv : v = 0x40000 * (a.toNat - 0xf0) + 0x1000 * (b.toNat - 0x80) +
        0x40 * (c.toNat - 0x80) + (d.toNat - 0x80)) :
      Spells [a, b, c, d] v

/-- The least code point that takes so many bytes. -/
def leastCode : Nat → Nat
  | 0 | 1 => 0
  | 2 => 0x80
  | 3 => 0x800
  | _ => 0x10000

/-- The bytes of one character: no surrogate, nothing above 10FFFF, and no
    byte more than the code point takes. -/
def IsCharForm (bs : List UInt8) : Prop :=
  ∃ v, Spells bs v ∧ leastCode bs.length ≤ v ∧ v.isValidChar

/-- The bytes of a text. -/
inductive WellFormed : List UInt8 → Prop where
  | nil : WellFormed []
  | append {form rest : List UInt8} :
      IsCharForm form → WellFormed rest → WellFormed (form ++ rest)

/-- The bytes of a character spell its code point. -/
theorem spells_utf8EncodeChar (c : Char) : Spells (String.utf8EncodeChar c) c.val.toNat := by
  have hmax : c.val.toNat < 0x110000 := by
    have := c.valid
    unfold UInt32.isValidChar Nat.isValidChar at this
    omega
  unfold String.utf8EncodeChar
  dsimp only
  generalize c.val.toNat = v at hmax ⊢
  -- One case for each length, in which the bits are put together again.
  split
  · refine Spells.one ?_ ?_ <;> rw [UInt8.toNat_ofNat'] <;> omega
  · split
    · refine Spells.two ⟨?_, ?_⟩ ⟨?_, ?_⟩ ?_ <;> simp only [UInt8.toNat_ofNat'] <;> omega
    · split
      · refine Spells.three ⟨?_, ?_⟩ ⟨?_, ?_⟩ ⟨?_, ?_⟩ ?_ <;>
          simp only [UInt8.toNat_ofNat'] <;> omega
      · refine Spells.four ⟨?_, ?_⟩ ⟨?_, ?_⟩ ⟨?_, ?_⟩ ⟨?_, ?_⟩ ?_ <;>
          simp only [UInt8.toNat_ofNat'] <;> omega

/-- A character is a byte below `0x80`, or a byte from `0xc0` on and
    continuation bytes behind it. -/
theorem utf8EncodeChar_eq_cons (c : Char) :
    ∃ b bs, String.utf8EncodeChar c = b :: bs ∧ (∀ x ∈ bs, IsTrail x) ∧
      (bs = [] ∨ 0xc0 ≤ b.toNat) := by
  have hspells := spells_utf8EncodeChar c
  generalize String.utf8EncodeChar c = form at hspells ⊢
  cases hspells with
  | one => exact ⟨_, _, rfl, by simp, Or.inl rfl⟩
  | two ha hb => exact ⟨_, _, rfl, by simp [hb], Or.inr ha.1⟩
  | three ha hb hc => exact ⟨_, _, rfl, by simp [hb, hc], Or.inr (by omega)⟩
  | four ha hb hc hd => exact ⟨_, _, rfl, by simp [hb, hc, hd], Or.inr (by omega)⟩

/-- A character takes as many bytes as its code point calls for. -/
theorem leastCode_length_utf8EncodeChar (c : Char) :
    leastCode (String.utf8EncodeChar c).length ≤ c.val.toNat := by
  unfold String.utf8EncodeChar
  dsimp only
  generalize c.val.toNat = v
  split
  · exact Nat.zero_le v
  · split
    · simp only [List.length_cons, List.length_nil, leastCode]
      omega
    · split
      all_goals
        simp only [List.length_cons, List.length_nil, leastCode]
        omega

/-- The bytes of a character are the only ones that spell its code point in no
    more bytes than it takes. -/
theorem utf8EncodeChar_of_spells {c : Char} {bs : List UInt8} (h : Spells bs c.val.toNat)
    (hleast : leastCode bs.length ≤ c.val.toNat) : String.utf8EncodeChar c = bs := by
  unfold String.utf8EncodeChar
  dsimp only
  generalize c.val.toNat = v at h hleast ⊢
  -- The length bounds the code point from both sides, and each byte is one
  -- digit of it.
  cases h with
  | one ha hv =>
      rw [if_pos (by omega), hv, UInt8.ofNat_toNat]
  | two ha hb hv =>
      simp only [IsTrail, leastCode, List.length_cons, List.length_nil] at hb hleast
      rw [if_neg (by omega), if_pos (by omega)]
      simp only [List.cons.injEq, ← UInt8.toNat_inj, UInt8.toNat_ofNat', and_true]
      omega
  | three ha hb hc hv =>
      simp only [IsTrail, leastCode, List.length_cons, List.length_nil] at hb hc hleast
      rw [if_neg (by omega), if_neg (by omega), if_pos (by omega)]
      simp only [List.cons.injEq, ← UInt8.toNat_inj, UInt8.toNat_ofNat', and_true]
      omega
  | four ha hb hc hd hv =>
      simp only [IsTrail, leastCode, List.length_cons, List.length_nil] at hb hc hd hleast
      rw [if_neg (by omega), if_neg (by omega), if_neg (by omega)]
      simp only [List.cons.injEq, ← UInt8.toNat_inj, UInt8.toNat_ofNat', and_true]
      omega

/-- The forms are those that characters have. -/
theorem isCharForm_iff {bs : List UInt8} :
    IsCharForm bs ↔ ∃ c, String.utf8EncodeChar c = bs := by
  constructor
  · rintro ⟨v, hspells, hleast, hvalid⟩
    -- A code point of a character is that of some character.
    have hv : (Char.ofNatAux v hvalid).val.toNat = v := rfl
    rw [← hv] at hspells hleast
    exact ⟨_, utf8EncodeChar_of_spells hspells hleast⟩
  · rintro ⟨c, rfl⟩
    exact ⟨c.val.toNat, spells_utf8EncodeChar c, leastCode_length_utf8EncodeChar c, c.valid⟩

/-- Well-formed bytes are the bytes of some characters. -/
theorem wellFormed_iff {bs : List UInt8} : WellFormed bs ↔ ∃ cs, bytesOf cs = bs := by
  constructor
  · intro h
    induction h with
    | nil => exact ⟨[], rfl⟩
    | append hform _ ih =>
        rcases isCharForm_iff.mp hform with ⟨c, rfl⟩
        rcases ih with ⟨cs, rfl⟩
        exact ⟨c :: cs, bytesOf_cons c cs⟩
  · rintro ⟨cs, rfl⟩
    induction cs with
    | nil => exact WellFormed.nil
    | cons c cs ih =>
        rw [bytesOf_cons]
        exact WellFormed.append (isCharForm_iff.mpr ⟨c, rfl⟩) ih

/-- The bytes of a text are well-formed. -/
theorem wellFormed_toUTF8 (text : String) : WellFormed text.toUTF8.data.toList := by
  refine wellFormed_iff.mpr ⟨text.toList, ?_⟩
  rw [String.toUTF8_eq_toByteArray, toByteArray_eq_bytesOf, List.data_toByteArray]

/-- Well-formed bytes are those of a text. -/
theorem exists_toUTF8_of_wellFormed {bytes : ByteArray} (h : WellFormed bytes.data.toList) :
    ∃ text : String, text.toUTF8 = bytes := by
  rcases wellFormed_iff.mp h with ⟨cs, hcs⟩
  refine ⟨String.ofList cs, ?_⟩
  rw [String.toUTF8_eq_toByteArray, toByteArray_eq_bytesOf, String.toList_ofList, hcs]
  exact ByteArray.ext (by rw [List.data_toByteArray])

end CssTokens
