import ScriptAnalysis.Text.Basic

/-!
# Readers

A reader takes a value from the front of a text and leaves the rest, or fails. Failing gives back
what was taken, so that alternatives start from the same place.

* `Reader.many`: as many values as the text holds, bounded by its length.
-/

namespace ScriptAnalysis

/-- Takes a value from the front of a text. -/
abbrev Reader := StateT Text Option

namespace Reader

/-- The characters at the front that satisfy `accept`. -/
def takeWhile (accept : Char → Bool) : Reader Text :=
  fun input => some (input.takeWhile accept, input.dropWhile accept)

/-- At least one character that satisfies `accept`. -/
def takeWhile1 (accept : Char → Bool) : Reader Text := do
  let taken ← takeWhile accept
  guard (taken ≠ [])
  return taken

/-- One character that satisfies `accept`. -/
def satisfy (accept : Char → Bool) : Reader Char
  | c :: rest => if accept c then some (c, rest) else none
  | [] => none

/-- The character `c`. -/
def char (c : Char) : Reader Unit := do
  let _ ← satisfy (· == c)

/-- The text `expected`. -/
def literal : Text → Reader Unit
  | [] => return ()
  | c :: rest => do char c; literal rest

/-- The end of the text. -/
def finish : Reader Unit
  | [] => some ((), [])
  | _ => none

/-- At most `limit` values of `item`. -/
def atMost {α : Type} (item : Reader α) : (limit : Nat) → Reader (List α)
  | 0 => return []
  | limit + 1 => do
    match ← optional item with
    | none => return []
    | some value => return value :: (← atMost item limit)

/-- As many values of `item` as follow each other. Each of them takes at least one character, so
there are no more than characters. -/
def many {α : Type} (item : Reader α) : Reader (List α) :=
  fun input => atMost item input.length input

/-- The number written by `count` decimal digits. -/
def digits : (count : Nat) → Reader Nat
  | 0 => return 0
  | count + 1 => do
    let c ← satisfy Char.isDigit
    return (c.toNat - '0'.toNat) * 10 ^ count + (← digits count)

end Reader

end ScriptAnalysis
