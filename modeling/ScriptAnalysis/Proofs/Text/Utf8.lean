import ScriptAnalysis.Text.Utf8

/-!
# Reading back an encoded text

The bytes of a text are read as the characters of the text, without an ill-formed piece.

* `Utf8.pieces_encodeChar`: one character, whatever follows it.
* `Utf8.decodeLossy_encode`: a whole text.
-/

namespace ScriptAnalysis

namespace Utf8

/-- The value of a byte that is given by a number below 256. -/
theorem toNat_ofNat_of_lt {n : Nat} (h : n < 256) : (UInt8.ofNat n).toNat = n := by
  rw [UInt8.toNat_ofNat']
  exact Nat.mod_eq_of_lt h

/-- The last byte of a character completes it. -/
theorem pieces_last {low high bits n : Nat} {rest : List UInt8} (hn : n < 256) (hlow : low ≤ n)
    (hhigh : n ≤ high) :
    pieces (some ⟨0, low, high, bits⟩) (UInt8.ofNat n :: rest) =
      some (Char.ofNat (bits * 64 + (n - 0x80))) :: pieces none rest := by
  simp [pieces, Partial.next, toNat_ofNat_of_lt hn, hlow, hhigh]

/-- A byte inside a character, before its last one, adds six bits. -/
theorem pieces_inner {owed low high bits n : Nat} {rest : List UInt8} (hn : n < 256)
    (hlow : low ≤ n) (hhigh : n ≤ high) :
    pieces (some ⟨owed + 1, low, high, bits⟩) (UInt8.ofNat n :: rest) =
      pieces (some ⟨owed, 0x80, 0xBF, bits * 64 + (n - 0x80)⟩) rest := by
  simp [pieces, Partial.next, toNat_ofNat_of_lt hn, hlow, hhigh]

/-- The first byte of a character of several bytes starts it. -/
theorem pieces_first {n : Nat} {state : Partial} {rest : List UInt8} (hn : n < 256)
    (hfirst : first n = .more state) :
    pieces none (UInt8.ofNat n :: rest) = pieces (some state) rest := by
  simp [pieces, toNat_ofNat_of_lt hn, hfirst]

/-- Three bytes are read as a character when the first of them admits the second. -/
theorem pieces_three {v low high : Nat} {rest : List UInt8} (hv : v < 0x10000)
    (hfirst : first (v / 4096 % 16 + 224) = .more ⟨1, low, high, v / 4096⟩)
    (hlow : low ≤ v / 64 % 64 + 128) (hhigh : v / 64 % 64 + 128 ≤ high) :
    pieces none (UInt8.ofNat (v / 4096 % 16 + 224) :: UInt8.ofNat (v / 64 % 64 + 128) ::
        UInt8.ofNat (v % 64 + 128) :: rest) =
      some (Char.ofNat v) :: pieces none rest := by
  have hbits : (v / 4096 * 64 + (v / 64 % 64 + 128 - 128)) * 64 + (v % 64 + 128 - 128) = v := by
    omega
  rw [pieces_first (by omega) hfirst, pieces_inner (by omega) hlow hhigh,
    pieces_last (by omega) (by omega) (by omega), hbits]

/-- Four bytes are read as a character when the first of them admits the second. -/
theorem pieces_four {v low high : Nat} {rest : List UInt8} (hv : v < 0x110000)
    (hfirst : first (v / 262144 % 8 + 240) = .more ⟨2, low, high, v / 262144⟩)
    (hlow : low ≤ v / 4096 % 64 + 128) (hhigh : v / 4096 % 64 + 128 ≤ high) :
    pieces none (UInt8.ofNat (v / 262144 % 8 + 240) :: UInt8.ofNat (v / 4096 % 64 + 128) ::
        UInt8.ofNat (v / 64 % 64 + 128) :: UInt8.ofNat (v % 64 + 128) :: rest) =
      some (Char.ofNat v) :: pieces none rest := by
  have hbits : ((v / 262144 * 64 + (v / 4096 % 64 + 128 - 128)) * 64 + (v / 64 % 64 + 128 - 128)) *
      64 + (v % 64 + 128 - 128) = v := by
    omega
  rw [pieces_first (by omega) hfirst, pieces_inner (by omega) hlow hhigh,
    pieces_inner (by omega) (by omega) (by omega), pieces_last (by omega) (by omega) (by omega),
    hbits]

/-- The first byte of a character of two bytes. -/
theorem first_of_two {v : Nat} (hlow : 0x7F < v) (hhigh : v ≤ 0x7FF) :
    first (v / 64 % 32 + 192) = .more ⟨0, 0x80, 0xBF, v / 64⟩ := by
  have hbits : v / 64 % 32 + 192 - 0xC0 = v / 64 := by omega
  rw [first, if_neg (by omega), if_pos (by omega), hbits]

/-- The first byte of a character of three bytes bounds the second one, against overlong forms and
surrogates. -/
theorem first_of_three {v : Nat} (hlow : 0x7FF < v) (hhigh : v ≤ 0xFFFF)
    (hvalid : v < 0xD800 ∨ 0xDFFF < v) :
    ∃ low high, first (v / 4096 % 16 + 224) = .more ⟨1, low, high, v / 4096⟩ ∧
      low ≤ v / 64 % 64 + 128 ∧ v / 64 % 64 + 128 ≤ high := by
  have hbits : v / 4096 % 16 + 224 - 0xE0 = v / 4096 := by omega
  -- The first byte is 0xE0, 0xED or another one of its kind.
  rcases Nat.eq_zero_or_pos (v / 4096) with hzero | hpos
  · refine ⟨0xA0, 0xBF, ?_, by omega, by omega⟩
    rw [first, if_neg (by omega), if_neg (by omega), if_pos (by omega), hzero]
  · by_cases hsurrogate : v / 4096 = 13
    · refine ⟨0x80, 0x9F, ?_, by omega, by omega⟩
      rw [first, if_neg (by omega), if_neg (by omega), if_neg (by omega), if_pos (by omega),
        hsurrogate]
    · refine ⟨0x80, 0xBF, ?_, by omega, by omega⟩
      rw [first, if_neg (by omega), if_neg (by omega), if_neg (by omega), if_neg (by omega),
        if_pos (by omega), hbits]

/-- The first byte of a character of four bytes bounds the second one, against overlong forms and
values past the last code point. -/
theorem first_of_four {v : Nat} (hlow : 0xFFFF < v) (hhigh : v < 0x110000) :
    ∃ low high, first (v / 262144 % 8 + 240) = .more ⟨2, low, high, v / 262144⟩ ∧
      low ≤ v / 4096 % 64 + 128 ∧ v / 4096 % 64 + 128 ≤ high := by
  have hbits : v / 262144 % 8 + 240 - 0xF0 = v / 262144 := by omega
  -- The first byte is 0xF0, 0xF4 or one between them.
  rcases Nat.eq_zero_or_pos (v / 262144) with hzero | hpos
  · refine ⟨0x90, 0xBF, ?_, by omega, by omega⟩
    rw [first, if_neg (by omega), if_neg (by omega), if_neg (by omega), if_neg (by omega),
      if_neg (by omega), if_pos (by omega), hzero]
  · by_cases hlast : v / 262144 = 4
    · refine ⟨0x80, 0x8F, ?_, by omega, by omega⟩
      rw [first, if_neg (by omega), if_neg (by omega), if_neg (by omega), if_neg (by omega),
        if_neg (by omega), if_neg (by omega), if_neg (by omega), if_pos (by omega), hlast]
    · refine ⟨0x80, 0xBF, ?_, by omega, by omega⟩
      rw [first, if_neg (by omega), if_neg (by omega), if_neg (by omega), if_neg (by omega),
        if_neg (by omega), if_neg (by omega), if_pos (by omega), hbits]

/-- The bytes of a character in front of other bytes are read as the character. -/
theorem pieces_encodeChar (c : Char) (rest : List UInt8) :
    pieces none (String.utf8EncodeChar c ++ rest) = some c :: pieces none rest := by
  have hvalid : c.val.toNat < 0xD800 ∨ 0xDFFF < c.val.toNat ∧ c.val.toNat < 0x110000 := c.valid
  have hchar : Char.ofNat c.val.toNat = c := Char.ofNat_toNat c
  rw [String.utf8EncodeChar]
  generalize c.val.toNat = v at hvalid hchar
  rw [← hchar]
  -- The number of bytes follows the size of the code point.
  split
  · next hone =>
    have hn : v < 256 := by omega
    simp only [List.cons_append, List.nil_append, pieces, toNat_ofNat_of_lt hn, first, if_pos hone]
  · next hone =>
    split
    · next htwo =>
      have hbits : v / 64 * 64 + (v % 64 + 128 - 128) = v := by omega
      simp only [List.cons_append, List.nil_append]
      rw [pieces_first (by omega) (first_of_two (by omega) htwo),
        pieces_last (by omega) (by omega) (by omega), hbits]
    · next htwo =>
      split
      · next hthree =>
        obtain ⟨low, high, hfirst, hlow, hhigh⟩ :=
          first_of_three (Nat.lt_of_not_le htwo) hthree (by omega)
        exact pieces_three (by omega) hfirst hlow hhigh
      · next hthree =>
        obtain ⟨low, high, hfirst, hlow, hhigh⟩ :=
          first_of_four (Nat.lt_of_not_le hthree) (by omega)
        exact pieces_four (by omega) hfirst hlow hhigh

/-- The bytes of a text are read as the characters of the text. -/
theorem pieces_encode (text : Text) : pieces none (encode text) = text.map some := by
  induction text with
  | nil => rfl
  | cons c rest ih =>
    rw [encode, List.flatMap_cons, pieces_encodeChar, List.map_cons, ← encode, ih]

/-- An encoded text is read back as it was. -/
@[simp]
theorem decodeLossy_encode (text : Text) : decodeLossy (encode text) = text := by
  rw [decodeLossy, pieces_encode, List.map_map]
  exact List.map_id text

end Utf8

end ScriptAnalysis
