import ScriptAnalysis.Path.Basic
import ScriptAnalysis.Text.Lowercase

/-!
# The vocabulary of a script language

Which commands exist, which of them open and close blocks, name other scripts, define variables and
subroutines: everything the analyses know about the language. All words are in lower case, and a
command is looked up in lower case.

* `Vocabulary.standard`: the tables that hold unless they are overridden.
* `Vocabulary.role`: what a command does to the structure of a script.
-/

namespace ScriptAnalysis

/-- The tables of a script language. -/
structure Vocabulary where
  /-- Ordinary commands. -/
  commands : List Text
  /-- Commands that steer the flow of control. -/
  controlKeywords : List Text
  /-- The commands that open a block, each with the closer it requires. -/
  blockOpeners : List (Text × Text)
  /-- The commands that close a block. -/
  blockClosers : List Text
  /-- Commands whose first argument names another script. -/
  includeCommands : List Text
  /-- Commands whose first argument defines a variable. -/
  assignmentCommands : List Text
  /-- Variables that exist without a definition, without their sigil. -/
  builtinVariables : List Text
  /-- Extensions tried in this order for an include without an extension. -/
  scriptExtensions : List Text
  /-- The command that defines a subroutine. -/
  subroutineKeyword : Text
  /-- The command that calls a subroutine. -/
  callKeyword : Text
  /-- The command that opens a conditional block. -/
  conditionalKeyword : Text
  /-- The commands that divide a conditional block. -/
  continuationKeywords : List Text
  /-- The command that opens a loop. -/
  loopKeyword : Text
  /-- The command that leaves a loop. -/
  breakKeyword : Text
  /-- The command that leaves a subroutine. -/
  returnKeyword : Text
  deriving DecidableEq, Repr

/-- What a command does to the structure of a script. -/
inductive Role where
  /-- The command is not known. -/
  | unknown
  /-- It opens a block that `closer` has to close. -/
  | opener (closer : Text)
  /-- It divides a conditional block. -/
  | continuation
  /-- It closes a block. -/
  | closer
  /-- It leaves a loop. -/
  | leaveLoop
  /-- It leaves a subroutine. -/
  | leaveSubroutine
  /-- It does nothing to the structure. -/
  | plain
  deriving DecidableEq, Repr

namespace Vocabulary

/-- The standard tables. -/
def standard : Vocabulary where
  commands :=
    ["seti", "sets", "userinput", "print", "println", "wait", "sleep", "exit", "include",
      "loadscript", "sendosc", "sendbuffer", "sendscratchpad", "connect", "disconnect", "listen",
      "receive", "clearbuffer", "clearscratchpad", "setbyte", "getbyte", "add", "sub", "mul",
      "div", "mod", "concat", "length", "random", "log"].map String.toList
  controlKeywords :=
    ["if", "elseif", "else", "while", "break", "subroutine", "returnsub", "gosub", "setbuffer",
      "setscratchpad"].map String.toList
  blockOpeners :=
    [("if", "endif"), ("while", "done"), ("subroutine", "endsubroutine"),
      ("setbuffer", "endbuffer"), ("setscratchpad", "endscratchpad")].map
      fun (opener, closer) => (opener.toList, closer.toList)
  blockClosers :=
    ["endif", "done", "endsubroutine", "endbuffer", "endscratchpad"].map String.toList
  includeCommands := ["include", "loadscript"].map String.toList
  assignmentCommands := ["seti", "sets", "userinput"].map String.toList
  builtinVariables :=
    ["result", "error", "time", "date", "random", "scriptname", "scriptdir", "buffersize",
      "scratchpadsize"].map String.toList
  scriptExtensions := ["osc", "oscscript"].map String.toList
  subroutineKeyword := "subroutine".toList
  callKeyword := "gosub".toList
  conditionalKeyword := "if".toList
  continuationKeywords := ["else", "elseif"].map String.toList
  loopKeyword := "while".toList
  breakKeyword := "break".toList
  returnKeyword := "returnsub".toList

variable (vocabulary : Vocabulary)

/-- Whether a command exists. -/
def isKnown (command : Text) : Bool :=
  command ∈ vocabulary.commands || command ∈ vocabulary.controlKeywords ||
    command ∈ vocabulary.blockClosers

/-- The closer of the blocks that a command opens. -/
def closerFor? (command : Text) : Option Text :=
  (vocabulary.blockOpeners.find? (·.1 = command)).map (·.2)

/-- Whether a command closes a block. -/
def isCloser (command : Text) : Bool :=
  command ∈ vocabulary.blockClosers

/-- Whether the first argument of a command names another script. -/
def isInclude (command : Text) : Bool :=
  command ∈ vocabulary.includeCommands

/-- Whether the first argument of a command defines a variable. -/
def isAssignment (command : Text) : Bool :=
  command ∈ vocabulary.assignmentCommands

/-- Whether a command divides a conditional block. -/
def isContinuation (command : Text) : Bool :=
  command ∈ vocabulary.continuationKeywords

/-- Whether a variable exists without a definition. -/
def isBuiltinVariable (name : Text) : Bool :=
  name ∈ vocabulary.builtinVariables

/-- Whether two texts differ at most in the case of ASCII letters. -/
def sameLetters (left right : Text) : Bool :=
  left.map Char.toLower == right.map Char.toLower

/-- Whether a path ends in one of the script extensions, in whatever case. -/
def isScriptPath (path : Path) : Bool :=
  match path.extension? with
  | some ending => vocabulary.scriptExtensions.any (sameLetters · ending)
  | none => false

/-- The role of a command in lower case. A command with several roles has the first of: opener,
continuation, closer, leaving a loop, leaving a subroutine. -/
def role (command : Text) : Role :=
  if vocabulary.isKnown command then
    match vocabulary.closerFor? command with
    | some closer => .opener closer
    | none =>
      if vocabulary.isContinuation command then .continuation
      else if vocabulary.isCloser command then .closer
      else if command = vocabulary.breakKeyword then .leaveLoop
      else if command = vocabulary.returnKeyword then .leaveSubroutine
      else .plain
  else .unknown

end Vocabulary

end ScriptAnalysis
