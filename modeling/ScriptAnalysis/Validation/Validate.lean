import ScriptAnalysis.Symbol.Indexer
import ScriptAnalysis.Validation.Blocks

/-!
# Validating a script

The diagnostics of a script come in four groups: the problems of its lines in order, the blocks
left open from the outermost to the innermost, the includes that cannot be resolved, and the calls
of subroutines that are defined neither in the script nor in the closure of one of its includes. An
instruction with an unknown command takes no part in the last three groups.

* `validate`: the diagnostics of a script.
-/

namespace ScriptAnalysis

namespace Instruction

/-- The script that an include instruction asks for, as it is written; empty without an argument. -/
def includeText (instruction : Instruction) : Text :=
  match instruction.argument with
  | some argument => argument.text
  | none => []

/-- The subroutine that an instruction defines, in lower case. -/
def defined? (vocabulary : Vocabulary) (instruction : Instruction) : Option Text :=
  if instruction.name = vocabulary.subroutineKeyword then
    instruction.argument.map fun argument => Text.lowercase argument.text
  else none

/-- The script that an instruction in the file `path` includes. -/
def included? (fs : FileSystem) (vocabulary : Vocabulary) (path : Path)
    (instruction : Instruction) : Option Path :=
  if vocabulary.isInclude instruction.name then
    Include.resolve fs vocabulary path instruction.includeText
  else none

/-- The problem of an include that cannot be resolved. -/
def missingInclude? (fs : FileSystem) (vocabulary : Vocabulary) (path : Path)
    (instruction : Instruction) : Option Diagnostic :=
  if vocabulary.isInclude instruction.name then
    match Include.resolve fs vocabulary path instruction.includeText with
    | some _ => none
    | none =>
      -- Without an argument, the command itself is what is wrong.
      let span :=
        match instruction.argument with
        | some argument => argument.span instruction.line
        | none => instruction.commandSpan
      some (.report span (.includeNotFound (stripQuotes instruction.includeText)))
  else none

/-- The problem of a call when `visible` are the subroutines that may be called. -/
def unknownCall? (vocabulary : Vocabulary) (visible : List Text) (instruction : Instruction) :
    Option Diagnostic :=
  if instruction.name = vocabulary.callKeyword then
    match instruction.argument with
    | some argument =>
      -- Subroutines are told apart by their names in lower case.
      let name := Text.lowercase argument.text
      if visible.contains name then none
      else some (.report (argument.span instruction.line) (.unknownSubroutine name))
    | none => none
  else none

end Instruction

/-- The subroutines defined in the include closure of the script at `path`. -/
def closureSubroutines (fs : FileSystem) (vocabulary : Vocabulary) (path : Path) : List Text :=
  (SymbolKind.subroutine.index fs vocabulary path none).definedNames

/-- The subroutines that instructions of the file `path` may call: their own and those of the
closures of the scripts that they include. -/
def visibleSubroutines (fs : FileSystem) (vocabulary : Vocabulary) (path : Path)
    (instructions : List Instruction) : List Text :=
  instructions.filterMap (·.defined? vocabulary) ++
    (instructions.filterMap (·.included? fs vocabulary path)).eraseDups.flatMap
      (closureSubroutines fs vocabulary)

/-- The diagnostics of the script with content `text` at `path`, which serves only to resolve its
includes. -/
def validate (fs : FileSystem) (vocabulary : Vocabulary) (path : Path) (text : Text) :
    List Diagnostic :=
  let instructions := Instruction.ofText text
  let known := instructions.filter fun instruction => vocabulary.isKnown instruction.name
  let (found, blocks) := Blocks.scan vocabulary [] instructions
  let visible := visibleSubroutines fs vocabulary path known
  found ++ blocks.reverse.map Blocks.unclosed ++
    known.filterMap (·.missingInclude? fs vocabulary path) ++
    known.filterMap (·.unknownCall? vocabulary visible)

end ScriptAnalysis
