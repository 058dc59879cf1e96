import ScriptAnalysis.Text.Basic

/-!
# Blank characters

The characters that separate words: the code points with the Unicode property `White_Space`. The
zero-width space and the byte order mark are not among them.
-/

namespace ScriptAnalysis

namespace Text

/-- Whether a character is white space: a space, a line or paragraph break, or one of the
typographic spaces. -/
def isBlank (c : Char) : Bool :=
  let code := c.toNat
  (0x09 ≤ code && code ≤ 0x0D) || code == 0x20 || code == 0x85 || code == 0xA0 ||
    code == 0x1680 || (0x2000 ≤ code && code ≤ 0x200A) || code == 0x2028 || code == 0x2029 ||
    code == 0x202F || code == 0x205F || code == 0x3000

/-- Text without the blanks at its two ends. -/
def trim (text : Text) : Text :=
  ((text.dropWhile isBlank).reverse.dropWhile isBlank).reverse

end Text

end ScriptAnalysis
