import ScriptAnalysis.Path.Basic
import ScriptAnalysis.Symbol.Name

/-!
# Arguments of the command line

The first operand chooses a command, the others are its operands. `--vocabulary` takes a path,
attached by `=` or as the next argument, and may stand before or after the command, once on each
side; the one after the command counts. `--variables` belongs to the commands on symbols. After
`--` every argument is an operand, and so is a single `-`. A path is never empty.

* `CommandLine.parse`: what a list of arguments asks for.
-/

namespace ScriptAnalysis

namespace CommandLine

/-- What the program can do. -/
inductive Command where
  /-- Report the diagnostics of files. -/
  | check (files : List Path)
  /-- List the include closure of a file. -/
  | includes (file : Path)
  /-- List the occurrences of the symbols of a kind. -/
  | symbols (kind : SymbolKind) (file : Path)
  /-- List the subroutines of a file. -/
  | outline (file : Path)
  /-- List the edits of a rename. -/
  | rename (kind : SymbolKind) (file : Path) (name newName : Text)
  deriving DecidableEq, Repr

/-- A command with the vocabulary to use, if not the standard one. -/
structure Invocation where
  /-- The file of the vocabulary. -/
  vocabulary : Option Path
  /-- The command. -/
  command : Command
  deriving DecidableEq, Repr

/-- Why no command is run. -/
inductive Stop where
  /-- The arguments are wrong. -/
  | usage
  /-- Help is asked for. -/
  | help
  /-- The version is asked for. -/
  | version
  deriving DecidableEq, Repr

/-- The arguments of one level, before or after the command. -/
structure Level where
  /-- The vocabulary given on this level. -/
  vocabulary : Option Path
  /-- Whether `--variables` is given. -/
  onVariables : Bool
  /-- The operands in order. -/
  operands : List Text
  deriving DecidableEq, Repr

/-- The level without arguments. -/
def Level.empty : Level :=
  ⟨none, false, []⟩

/-- What the arguments after a command may be. -/
structure Shape where
  /-- Whether `--variables` is allowed. -/
  allowsVariables : Bool
  /-- The least number of operands. -/
  least : Nat
  /-- The greatest number of operands. -/
  most : Option Nat
  /-- Whether operand number `n` is a path. -/
  isPath : Nat → Bool

/-- Whether an argument is an option: it starts with a dash and is not just one. -/
def isOption (argument : Text) : Bool :=
  argument.head? == some '-' && argument ≠ ['-']

/-- The option for the vocabulary. -/
def vocabularyOption : Text := "--vocabulary".toList

/-- The path attached to the option for the vocabulary, which may be empty. -/
def attached? (argument : Text) : Option Text :=
  if (vocabularyOption ++ ['=']).isPrefixOf argument then
    some (argument.drop (vocabularyOption.length + 1))
  else none

/-- What an option asks for that ends the reading of arguments. A cluster of short options is read
up to the first that does. -/
def stopOf (top : Bool) (argument : Text) : Stop :=
  if argument = "--help".toList then .help
  else if top && argument = "--version".toList then .version
  else
    match argument with
    -- The first letter of a cluster decides, since neither of these takes a value.
    | '-' :: 'h' :: _ => .help
    | '-' :: 'V' :: _ => if top then .version else .usage
    | _ => .usage

namespace Level

/-- Give the vocabulary, once and not empty. -/
def addVocabulary (level : Level) (path : Text) : Except Stop Level :=
  if path = [] ∨ level.vocabulary.isSome then .error .usage
  else .ok { level with vocabulary := some ⟨path⟩ }

/-- Give an operand that the shape has room for. -/
def addOperand (shape : Shape) (level : Level) (operand : Text) : Except Stop Level :=
  let position := level.operands.length
  if shape.most.any (· ≤ position) ∨ (shape.isPath position = true ∧ operand = []) then
    .error .usage
  else .ok { level with operands := level.operands ++ [operand] }

/-- The arguments after a command. -/
def read (shape : Shape) (level : Level) : List Text → Except Stop Level
  | [] => if level.operands.length < shape.least then .error .usage else .ok level
  | argument :: rest =>
    if argument = ['-', '-'] then do
      -- Whatever follows is an operand, dashes or not.
      let last ← rest.foldlM (addOperand shape) level
      if last.operands.length < shape.least then .error .usage else .ok last
    else if argument = vocabularyOption then
      match rest with
      | [] => .error .usage
      | path :: rest =>
        if isOption path then .error .usage
        else do read shape (← level.addVocabulary path) rest
    -- A second `--variables` falls through to the options that are not understood.
    else if argument = "--variables".toList && shape.allowsVariables && !level.onVariables then
      read shape { level with onVariables := true } rest
    else
      match attached? argument with
      | some path => do read shape (← level.addVocabulary path) rest
      | none =>
        if isOption argument then .error (stopOf false argument)
        else do read shape (← addOperand shape level argument) rest

end Level

/-- The commands by name, each with the shape of its arguments. -/
def shapeOf? (name : Text) : Option Shape :=
  match String.ofList name with
  | "check" => some ⟨false, 1, none, fun _ => true⟩
  | "includes" => some ⟨false, 1, some 1, fun _ => true⟩
  | "symbols" => some ⟨true, 1, some 1, fun _ => true⟩
  | "outline" => some ⟨false, 1, some 1, fun _ => true⟩
  | "rename" => some ⟨true, 3, some 3, (· = 0)⟩
  | _ => none

/-- The kind of symbols that the arguments of a command are about. -/
def Level.kind (level : Level) : SymbolKind :=
  if level.onVariables then .var else .subroutine

/-- The command of a name and its arguments. -/
def commandOf (name : Text) (level : Level) : Except Stop Command :=
  match String.ofList name, level.operands with
  -- The shape of a command has checked the number of its operands.
  | "check", files => .ok (.check (files.map Path.mk))
  | "includes", [file] => .ok (.includes ⟨file⟩)
  | "symbols", [file] => .ok (.symbols level.kind ⟨file⟩)
  | "outline", [file] => .ok (.outline ⟨file⟩)
  | "rename", [file, name, newName] => .ok (.rename level.kind ⟨file⟩ name newName)
  | _, _ => .error .usage

/-- Whether help can be given on what follows the word `help`. -/
def isHelpTopic : List Text → Bool
  | [] => true
  | [name] => (shapeOf? name).isSome || name = "help".toList
  | _ => false

/-- What arguments ask for when `level` is given before them. -/
def readTop (level : Level) : List Text → Except Stop Invocation
  | [] => .error .usage
  | argument :: rest =>
    if argument = vocabularyOption then
      match rest with
      | [] => .error .usage
      | path :: rest =>
        if isOption path then .error .usage
        else do readTop (← level.addVocabulary path) rest
    else
      match attached? argument with
      | some path => do readTop (← level.addVocabulary path) rest
      | none =>
        if isOption argument then .error (stopOf true argument)
        else if argument = "help".toList then
          .error (if isHelpTopic rest then .help else .usage)
        else
          match shapeOf? argument with
          | none => .error .usage
          | some shape => do
            -- The options before the command do not count against those after it.
            let own ← Level.empty.read shape rest
            let command ← commandOf argument own
            return ⟨own.vocabulary.or level.vocabulary, command⟩

/-- What a list of arguments asks for. -/
def parse (arguments : List Text) : Except Stop Invocation :=
  readTop .empty arguments

end CommandLine

end ScriptAnalysis
