import ScriptAnalysis.Text.Lowercase

/-!
# Names of symbols

A script has two kinds of symbols, subroutines and variables. A name is an identifier, compared in
lower case; in a script, a variable is written with the sigil `$`, which is not part of its name.

* `SymbolKind.name?`: the name that a token of a script stands for.
-/

namespace ScriptAnalysis

/-- The kinds of symbols. -/
inductive SymbolKind where
  /-- A subroutine. -/
  | subroutine
  /-- A variable. -/
  | var
  deriving DecidableEq, Repr

/-- Whether a character may start an identifier in lower case. -/
def isNameStart (c : Char) : Bool :=
  ('a' ≤ c && c ≤ 'z') || c == '_'

/-- Whether a character may stand in an identifier in lower case. -/
def isNamePart (c : Char) : Bool :=
  isNameStart c || ('0' ≤ c && c ≤ '9')

/-- Whether a text is an identifier in lower case. -/
def isIdentifier : Text → Bool
  | [] => false
  | c :: rest => isNameStart c && rest.all isNamePart

/-- The subroutine that a token names. -/
def subroutineName? (text : Text) : Option Text :=
  let lowered := Text.lowercase text
  if isIdentifier lowered then some lowered else none

/-- The variable that a token names. -/
def variableName? (text : Text) : Option Text :=
  match Text.lowercase text with
  | '$' :: name => if isIdentifier name then some name else none
  | _ => none

namespace SymbolKind

/-- The word for a kind of symbols. -/
def word : SymbolKind → String
  | subroutine => "subroutine"
  | var => "variable"

/-- The symbol of a kind that a token names. -/
def name? : SymbolKind → Text → Option Text
  | subroutine => subroutineName?
  | var => variableName?

end SymbolKind

end ScriptAnalysis
