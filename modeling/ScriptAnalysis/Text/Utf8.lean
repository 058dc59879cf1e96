import ScriptAnalysis.Text.Basic

/-!
# Reading UTF-8

A file is a list of bytes. Reading cuts it into well-formed characters and ill-formed pieces, a
piece being the longest run of bytes that begins some well-formed character but does not finish it,
or a single byte that begins none. Two readings are built on the cut:

* `Utf8.decodeLossy` writes the replacement character for each ill-formed piece;
* `Utf8.decode?` accepts only bytes without such pieces.
-/

namespace ScriptAnalysis

namespace Utf8

/-- A character whose first bytes have been read. -/
structure Partial where
  /-- How many further bytes follow the next one. -/
  owed : Nat
  /-- The least value that the next byte may have. -/
  low : Nat
  /-- The greatest value that the next byte may have. -/
  high : Nat
  /-- The bits read so far. -/
  bits : Nat

/-- What the next byte made of a character. -/
inductive Progress where
  /-- The character is complete. -/
  | complete (c : Char)
  /-- More bytes are needed. -/
  | more (state : Partial)
  /-- The byte cannot stand here. -/
  | refused

/-- The effect of a byte between two characters. The bounds on the second byte rule out overlong
forms, surrogates and values past the last code point. -/
def first (byte : Nat) : Progress :=
  if byte ≤ 0x7F then .complete (Char.ofNat byte)
  else if 0xC2 ≤ byte ∧ byte ≤ 0xDF then .more ⟨0, 0x80, 0xBF, byte - 0xC0⟩
  else if byte = 0xE0 then .more ⟨1, 0xA0, 0xBF, 0⟩
  else if byte = 0xED then .more ⟨1, 0x80, 0x9F, 0xD⟩
  else if 0xE1 ≤ byte ∧ byte ≤ 0xEF then .more ⟨1, 0x80, 0xBF, byte - 0xE0⟩
  else if byte = 0xF0 then .more ⟨2, 0x90, 0xBF, 0⟩
  else if 0xF1 ≤ byte ∧ byte ≤ 0xF3 then .more ⟨2, 0x80, 0xBF, byte - 0xF0⟩
  else if byte = 0xF4 then .more ⟨2, 0x80, 0x8F, 4⟩
  else .refused

/-- The effect of a byte inside a character. -/
def Partial.next (state : Partial) (byte : Nat) : Progress :=
  if state.low ≤ byte ∧ byte ≤ state.high then
    let bits := state.bits * 64 + (byte - 0x80)
    -- Only the second byte of a character has bounds of its own.
    match state.owed with
    | 0 => .complete (Char.ofNat bits)
    | owed + 1 => .more ⟨owed, 0x80, 0xBF, bits⟩
  else .refused

/-- The pieces of `bytes` when `state` is the character being read, if any: the characters, with
`none` for each ill-formed piece. A byte that a started character refuses ends it and is read again
from between two characters. -/
def pieces : Option Partial → List UInt8 → List (Option Char)
  | none, [] => []
  -- The bytes end inside a character.
  | some _, [] => [none]
  | none, byte :: bytes =>
    match first byte.toNat with
    | .complete c => some c :: pieces none bytes
    | .more state => pieces (some state) bytes
    | .refused => none :: pieces none bytes
  | some state, byte :: bytes =>
    match state.next byte.toNat with
    | .complete c => some c :: pieces none bytes
    | .more state => pieces (some state) bytes
    | .refused =>
      -- The started character is given up, and the byte starts afresh.
      match first byte.toNat with
      | .complete c => none :: some c :: pieces none bytes
      | .more state => none :: pieces (some state) bytes
      | .refused => none :: none :: pieces none bytes

/-- The text of `bytes`, with the replacement character for each ill-formed piece. -/
def decodeLossy (bytes : List UInt8) : Text :=
  (pieces none bytes).map (·.getD '\uFFFD')

/-- The text of `bytes`, if they are well formed. -/
def decode? (bytes : List UInt8) : Option Text :=
  (pieces none bytes).mapM id

/-- The bytes of a text. -/
def encode (text : Text) : List UInt8 :=
  text.flatMap String.utf8EncodeChar

/-- The number of bytes of a text. -/
def size : Text → Nat
  | [] => 0
  | c :: rest => c.utf8Size + size rest

/-- The size of a text is the length of its encoding. -/
theorem length_encode (text : Text) : (encode text).length = size text := by
  induction text with
  | nil => rfl
  | cons c rest ih =>
    simp only [encode] at ih ⊢
    simp [size, ih]

/-- Every character takes at least one byte. -/
theorem length_le_size (text : Text) : text.length ≤ size text := by
  induction text with
  | nil => exact Nat.le_refl 0
  | cons c rest ih =>
    have hc := c.utf8Size_pos
    simp only [size, List.length_cons]
    omega

end Utf8

end ScriptAnalysis
