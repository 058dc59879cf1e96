import ScriptAnalysis.Text.CaseTable
import ScriptAnalysis.Text.Basic

/-!
# Lower case

Full lower-casing of a text, independent of any language. Each character maps to its lower-case
form, which is one code point except for `U+0130`. The capital sigma alone depends on its
surroundings: at the end of a word it maps to the final form of the small letter.
-/

namespace ScriptAnalysis

namespace Text

/-- Whether a character is upper, lower or title case. -/
def isCased (c : Char) : Bool :=
  casedRanges.any (·.contains c.toNat)

/-- Whether a character is skipped when the case context of a letter is judged. -/
def isCaseIgnorable (c : Char) : Bool :=
  caseIgnorableRanges.any (·.contains c.toNat)

/-- The lower-case form of a character outside any context. -/
def lowerChar (c : Char) : Text :=
  if c.toNat < 0x80 then [c.toLower]
  -- The one letter whose lower-case form has two code points.
  else if c.toNat = 0x130 then ['i', '\u0307']
  else [((lowerRuns.findSome? (·.partner? c.toNat)).map Char.ofNat).getD c]

/-- Whether the first character that case context does not ignore is a cased one. -/
def startsCased (text : Text) : Bool :=
  match text.dropWhile isCaseIgnorable with
  | [] => false
  | c :: _ => isCased c

/-- The small letter for a capital sigma: the final form after a cased character when none
follows. `before` lists the preceding characters, nearest first. -/
def lowerSigma (before after : Text) : Char :=
  if startsCased before && !startsCased after then 'ς' else 'σ'

/-- Lower case of a text that follows the characters `before`, nearest first. -/
def lowerAfter (before : Text) : Text → Text
  | [] => []
  | c :: rest =>
    (if c = 'Σ' then [lowerSigma before rest] else lowerChar c) ++ lowerAfter (c :: before) rest

/-- The lower-case form of a text. -/
def lowercase (text : Text) : Text :=
  lowerAfter [] text

end Text

end ScriptAnalysis
