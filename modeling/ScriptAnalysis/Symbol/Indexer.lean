import ScriptAnalysis.Include.Walk
import ScriptAnalysis.Symbol.Index

/-!
# Finding symbols

A subroutine occurs as the first argument of the command that defines subroutines or of the one
that calls them. A variable occurs in every argument that is written as one; it is defined by the
first argument of an assignment command. The lines of the visited scripts are recorded in an index
one after the other.

* `SymbolKind.record`: the index with what is found on a line.
* `SymbolKind.index`: the index of an include closure.
* `SymbolKind.mention?`: the symbol under the cursor.
-/

namespace ScriptAnalysis

/-- A symbol with the place of its name on a line. -/
structure Mention where
  /-- The name of the symbol. -/
  name : Text
  /-- Where the name is written. -/
  span : Span
  deriving DecidableEq, Repr

/-- Whether a line defines or calls a subroutine, if it does. -/
def subroutineUsage? (vocabulary : Vocabulary) (code : CodeLine) : Option Usage :=
  if code.commandName = vocabulary.subroutineKeyword then some .definition
  else if code.commandName = vocabulary.callKeyword then some .reference
  else none

/-- The index with the subroutine that a line of the file `path` defines or calls. -/
def recordSubroutine (vocabulary : Vocabulary) (path : Path) (index : SymbolIndex)
    (code : CodeLine) : SymbolIndex :=
  match subroutineUsage? vocabulary code, code.argument? with
  | some usage, some token =>
    match subroutineName? token.text with
    | some name => index.add usage name ⟨path, token.span code.line⟩
    | none => index
  | _, _ => index

/-- The index with the variables in the arguments of a line of the file `path`. -/
def recordVariables (vocabulary : Vocabulary) (path : Path) (index : SymbolIndex)
    (code : CodeLine) : SymbolIndex :=
  code.arguments.zipIdx.foldl (fun index (token, position) =>
    match variableName? token.text with
    | some name =>
      if position = 0 ∧ vocabulary.isAssignment code.commandName = true then
        index.addDefinition name ⟨path, token.span code.line⟩
      else index.addReference name ⟨path, token.span code.line⟩
    | none => index) index

namespace SymbolKind

/-- The index with the symbols of a kind on a line of the file `path`. -/
def record (kind : SymbolKind) (vocabulary : Vocabulary) (path : Path) (index : SymbolIndex)
    (code : CodeLine) : SymbolIndex :=
  match kind with
  | subroutine => recordSubroutine vocabulary path index code
  | var => recordVariables vocabulary path index code

/-- The index of a kind of symbols in the scripts that a walk visited, line after line. -/
def indexOf (kind : SymbolKind) (vocabulary : Vocabulary) (visits : List Visit) : SymbolIndex :=
  visits.foldl
    (fun index visit => visit.lines.foldl (kind.record vocabulary visit.path) index) .empty

/-- The index of a kind of symbols in the include closure of `root`, whose content is `text` if
that is given. -/
def index (kind : SymbolKind) (fs : FileSystem) (vocabulary : Vocabulary) (root : Path)
    (text : Option Text) : SymbolIndex :=
  kind.indexOf vocabulary (Include.walk fs vocabulary root text)

/-- The token of a line of code under column `column` that may name a symbol: the first argument of
a definition or call for a subroutine, any token for a variable. -/
def tokenAt? (kind : SymbolKind) (vocabulary : Vocabulary) (code : CodeLine) (column : Nat) :
    Option Token :=
  match kind with
  | subroutine =>
    match subroutineUsage? vocabulary code with
    | some _ => code.argument?.filter (·.covers column)
    | none => none
  | var => code.tokens.find? (·.covers column)

/-- The symbol under column `column` of line number `line`, whose characters are `raw`. -/
def mention? (kind : SymbolKind) (vocabulary : Vocabulary) (raw : Text) (line column : Nat) :
    Option Mention := do
  let code ← CodeLine.ofLine? line raw
  let token ← kind.tokenAt? vocabulary code column
  let name ← kind.name? token.text
  return ⟨name, token.span line⟩

end SymbolKind

end ScriptAnalysis
