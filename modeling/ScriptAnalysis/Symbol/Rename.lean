import ScriptAnalysis.Symbol.Index
import ScriptAnalysis.Vocabulary.Basic

/-!
# Renaming a symbol

A rename replaces the name at every definition and every reference. Only a symbol with a definition
can be renamed, and only to an identifier. The new name of a variable may be given with or without
its sigil, and is written with it.

* `SymbolIndex.lookUp`: the definitions of a name, or why there are none.
* `SymbolIndex.rename`: the edits of a rename.
-/

namespace ScriptAnalysis

/-- Why a symbol cannot be looked up or renamed. -/
inductive SymbolError where
  /-- The symbol exists without a definition. -/
  | builtin (kind : SymbolKind) (name : Text)
  /-- The symbol has no definition. -/
  | notFound (kind : SymbolKind) (name : Text)
  /-- The new name is not one of its kind. -/
  | invalidName (kind : SymbolKind) (name : Text)
  deriving DecidableEq, Repr

/-- The wording of an error. -/
def SymbolError.message : SymbolError → String
  | builtin kind name =>
    kind.word ++ " " ++ String.ofList name ++ " is built in and cannot be changed"
  | notFound kind name => "no definition found for " ++ kind.word ++ " " ++ String.ofList name
  | invalidName kind name => String.ofList name ++ " is not a valid " ++ kind.word ++ " name"

/-- A replacement of the text at a location. -/
structure Edit where
  /-- What is replaced. -/
  location : Location
  /-- What stands there afterwards. -/
  newText : Text
  deriving DecidableEq, Repr

/-- How a new name is written in a script, if it is a name of its kind. -/
def SymbolKind.written? (kind : SymbolKind) (newName : Text) : Option Text :=
  let written :=
    match kind, newName with
    | subroutine, _ => newName
    | var, '$' :: name => '$' :: name
    | var, name => '$' :: name
  if (kind.name? written).isSome then some written else none

namespace SymbolIndex

/-- The definitions of a name, or why there are none. -/
def lookUp (index : SymbolIndex) (vocabulary : Vocabulary) (kind : SymbolKind) (name : Text) :
    Except SymbolError (List Location) :=
  match index.definitionsOf name with
  | [] =>
    if kind = .var ∧ vocabulary.isBuiltinVariable name = true then .error (.builtin kind name)
    else .error (.notFound kind name)
  | found => .ok found

/-- The edits that rename `name`: its definitions, then its references. -/
def rename (index : SymbolIndex) (vocabulary : Vocabulary) (kind : SymbolKind)
    (name newName : Text) : Except SymbolError (List Edit) :=
  match index.lookUp vocabulary kind name, kind.written? newName with
  | .error error, _ => .error error
  | .ok _, none => .error (.invalidName kind newName)
  | .ok found, some written =>
    .ok ((found ++ index.referencesOf name).map fun location => ⟨location, written⟩)

end SymbolIndex

end ScriptAnalysis
