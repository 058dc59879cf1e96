import ScriptAnalysis.Text.Basic

/-!
# Lines of a text

A line ends at a line feed, and a carriage return right before the line feed belongs to the line
end. Any other carriage return is part of its line. A text that ends with a line feed has no empty
line after it.
-/

namespace ScriptAnalysis

namespace Text

/-- Drop one carriage return from the end of a line. -/
def dropReturn : Text → Text
  | [] => []
  | ['\r'] => []
  | c :: rest => c :: dropReturn rest

/-- Put a character in front of a text that is already cut at its line feeds: into the lines that
end with a line feed and what follows the last of them. -/
def consFeeds (c : Char) : List Text × Text → List Text × Text
  | (ended, last) =>
    if c = '\n' then ([] :: ended, last)
    else
      match ended with
      | [] => ([], c :: last)
      | line :: others => ((c :: line) :: others, last)

/-- The lines of a text that end with a line feed, still with their carriage returns, and what
follows the last line feed. -/
def splitFeeds (text : Text) : List Text × Text :=
  text.foldr consFeeds ([], [])

/-- The lines of a text, without their line ends. -/
def lines (text : Text) : List Text :=
  let (ended, last) := splitFeeds text
  ended.map dropReturn ++ if last = [] then [] else [last]

end Text

end ScriptAnalysis
