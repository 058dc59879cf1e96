import ScriptAnalysis.FileSystem.LookUp
import ScriptAnalysis.Toml.Document
import ScriptAnalysis.Vocabulary.Basic

/-!
# Vocabulary documents

A vocabulary is read from a document that gives new contents to some of the tables; the others keep
their standard contents. The pairs of openers and closers may stand in a table of their own, in an
inline table, or under dotted keys, in one of these ways only. A table given twice, an unknown
table and contents of the wrong form make the document invalid.

* `Vocabulary.parse?`: the vocabulary of a document.
* `Vocabulary.load`: the vocabulary of a file.
-/

namespace ScriptAnalysis

namespace Vocabulary

/-- Put a pair into a list of pairs in increasing order of their keys, in place of the pair with
the same key. -/
def insertPair (pair : Text × Text) : List (Text × Text) → List (Text × Text)
  | [] => [pair]
  | other :: others =>
    if pair.1 = other.1 then pair :: others
    else if pair.1 < other.1 then pair :: other :: others
    else other :: insertPair pair others

/-- The pairs in increasing order of their keys, the last pair of a key counting. -/
def sortPairs (pairs : List (Text × Text)) : List (Text × Text) :=
  pairs.foldl (fun sorted pair => insertPair pair sorted) []

/-- The openers and closers of a document in lower case. Of openers that differ only in case, the
greatest one as it is written counts. -/
def lowerPairs (pairs : List (Text × Text)) : List (Text × Text) :=
  sortPairs ((sortPairs pairs).map fun (opener, closer) =>
    (Text.lowercase opener, Text.lowercase closer))

/-- The vocabulary with all words in lower case, variables without their sigils, and extensions
without leading dots. -/
def lowercase (vocabulary : Vocabulary) : Vocabulary where
  commands := vocabulary.commands.map Text.lowercase
  controlKeywords := vocabulary.controlKeywords.map Text.lowercase
  blockOpeners := lowerPairs vocabulary.blockOpeners
  blockClosers := vocabulary.blockClosers.map Text.lowercase
  includeCommands := vocabulary.includeCommands.map Text.lowercase
  assignmentCommands := vocabulary.assignmentCommands.map Text.lowercase
  builtinVariables :=
    vocabulary.builtinVariables.map fun name => Text.lowercase (Text.trimLeading '$' name)
  scriptExtensions := vocabulary.scriptExtensions.map (Text.trimLeading '.')
  subroutineKeyword := Text.lowercase vocabulary.subroutineKeyword
  callKeyword := Text.lowercase vocabulary.callKeyword
  conditionalKeyword := Text.lowercase vocabulary.conditionalKeyword
  continuationKeywords := vocabulary.continuationKeywords.map Text.lowercase
  loopKeyword := Text.lowercase vocabulary.loopKeyword
  breakKeyword := Text.lowercase vocabulary.breakKeyword
  returnKeyword := Text.lowercase vocabulary.returnKeyword

/-- The name of the table of openers and closers. -/
def openersTable : Text := "block_openers".toList

/-- The opener that a timestamp in place of the table of openers stands for; its closer is the
timestamp. -/
def timestampOpener : Text := "$__toml_private_datetime".toList

/-- Give a table new contents, if the table exists and the contents have its form. -/
def assign (vocabulary : Vocabulary) (table : Text) (value : Toml.Value) : Option Vocabulary :=
  match String.ofList table, value with
  | "commands", .array words => some { vocabulary with commands := words }
  | "control_keywords", .array words => some { vocabulary with controlKeywords := words }
  | "block_openers", .table pairs => some { vocabulary with blockOpeners := pairs }
  | "block_openers", .timestamp text =>
    some { vocabulary with blockOpeners := [(timestampOpener, text)] }
  | "block_closers", .array words => some { vocabulary with blockClosers := words }
  | "include_commands", .array words => some { vocabulary with includeCommands := words }
  | "assignment_commands", .array words => some { vocabulary with assignmentCommands := words }
  | "builtin_variables", .array words => some { vocabulary with builtinVariables := words }
  | "script_extensions", .array words => some { vocabulary with scriptExtensions := words }
  | "subroutine_keyword", .string word => some { vocabulary with subroutineKeyword := word }
  | "call_keyword", .string word => some { vocabulary with callKeyword := word }
  | "conditional_keyword", .string word => some { vocabulary with conditionalKeyword := word }
  | "continuation_keywords", .array words =>
    some { vocabulary with continuationKeywords := words }
  | "loop_keyword", .string word => some { vocabulary with loopKeyword := word }
  | "break_keyword", .string word => some { vocabulary with breakKeyword := word }
  | "return_keyword", .string word => some { vocabulary with returnKeyword := word }
  | _, _ => none

/-- A document read so far. -/
structure Draft where
  /-- The tables with the contents given so far. -/
  tables : Vocabulary
  /-- The tables given as a whole. -/
  assigned : List Text
  /-- The openers and closers given pair by pair, if any were. -/
  openers : Option (List (Text × Text))
  /-- Whether the header of the table of openers has been read. -/
  inside : Bool

namespace Draft

/-- The draft before the first statement. -/
def initial : Draft :=
  ⟨standard, [], none, false⟩

/-- Add an opener with its closer, unless the opener has one. -/
def addPair (draft : Draft) (opener closer : Text) : Option Draft :=
  let pairs := draft.openers.getD []
  if pairs.any (·.1 = opener) then none
  else some { draft with openers := some (pairs ++ [(opener, closer)]) }

/-- Give a table as a whole, unless something was given to it before. -/
def addTable (draft : Draft) (table : Text) (value : Toml.Value) : Option Draft :=
  if draft.assigned.contains table || (table = openersTable && draft.openers.isSome) then none
  else
    (draft.tables.assign table value).map fun tables =>
      { draft with tables, assigned := table :: draft.assigned }

/-- The draft after one more statement. -/
def add (draft : Draft) (statement : Toml.Statement) : Option Draft :=
  match statement, draft.inside with
  -- No other table has contents that a header could introduce.
  | .header key, false =>
    if key = [openersTable] && !draft.assigned.contains openersTable && draft.openers.isNone then
      some { draft with openers := some [], inside := true }
    else none
  -- Below the header of the openers, a key is an opener.
  | .assign [opener] (.string closer), true => draft.addPair opener closer
  | .assign [table, opener] (.string closer), false =>
    if table = openersTable && !draft.assigned.contains table then draft.addPair opener closer
    else none
  | .assign [table] value, false => draft.addTable table value
  | _, _ => none

/-- The vocabulary of a finished draft. -/
def finish (draft : Draft) : Vocabulary :=
  lowercase { draft.tables with blockOpeners := draft.openers.getD draft.tables.blockOpeners }

end Draft

/-- Whether no key occurs twice in a list of pairs. -/
def distinctKeys (pairs : List (Text × Text)) : Bool :=
  match pairs with
  | [] => true
  | pair :: others => !others.any (·.1 = pair.1) && distinctKeys others

/-- Whether a statement repeats a key in an inline table. -/
def repeatsKey : Toml.Statement → Bool
  | .assign _ (.table pairs) => !distinctKeys pairs
  | _ => false

/-- The vocabulary of a document. -/
def parse? (text : Text) : Option Vocabulary := do
  let statements ← Toml.parse? text
  -- A repeated key is wrong in any table, also where the table itself would be refused.
  guard (!statements.any repeatsKey)
  let draft ← statements.foldlM Draft.add Draft.initial
  return draft.finish

/-- Why a vocabulary cannot be loaded. -/
inductive LoadError where
  /-- The file at `path` cannot be read. -/
  | unreadable (path : Path) (fault : Fault)
  /-- The file at `path` is not UTF-8. -/
  | notUtf8 (path : Path)
  /-- The document is not a vocabulary. -/
  | invalid
  deriving DecidableEq, Repr

/-- The wording of an error. -/
def LoadError.message : LoadError → String
  | unreadable path fault =>
    "cannot read vocabulary " ++ String.ofList path.spelling ++ ": " ++ fault.message
  | notUtf8 path =>
    "cannot read vocabulary " ++ String.ofList path.spelling ++
      ": stream did not contain valid UTF-8"
  | invalid => "invalid vocabulary"

/-- The vocabulary of the file at a path. -/
def load (fs : FileSystem) (path : Path) : Except LoadError Vocabulary :=
  match fs.read path with
  | .error fault => .error (.unreadable path fault)
  | .ok content =>
    match Utf8.decode? content with
    | none => .error (.notUtf8 path)
    | some text =>
      match parse? text with
      | none => .error .invalid
      | some vocabulary => .ok vocabulary

end Vocabulary

end ScriptAnalysis
