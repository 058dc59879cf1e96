import ScriptAnalysis.Cache
import ScriptAnalysis.CommandLine.Arguments
import ScriptAnalysis.Outline
import ScriptAnalysis.Symbol.Rename
import ScriptAnalysis.Validation.Validate
import ScriptAnalysis.Vocabulary.Load

/-!
# Running a command

A command reads a disk and writes lines to its two output channels. Results go to the standard
output, and summaries and complaints about files to the error output. Lines and columns are counted
from one.

* `CommandLine.run`: the output of an invocation, or why it failed.
-/

namespace ScriptAnalysis

namespace CommandLine

/-- What a command writes, and whether it was successful. -/
structure Output where
  /-- The lines on the standard output. -/
  results : List String
  /-- The lines on the error output. -/
  notes : List String
  /-- Whether the command succeeded. -/
  success : Bool
  deriving DecidableEq, Repr

/-- Why an invocation has no output. -/
inductive Failure where
  /-- The vocabulary cannot be loaded. -/
  | vocabulary (error : Vocabulary.LoadError)
  /-- The symbol cannot be renamed. -/
  | symbol (error : SymbolError)
  deriving DecidableEq, Repr

namespace Failure

/-- The wording of a failure. -/
def message : Failure → String
  | vocabulary error => error.message
  | symbol error => error.message

/-- The line that reports a failure. -/
def line (failure : Failure) : String :=
  "Error: " ++ failure.message

/-- The exit code of a failure. -/
def exitCode : Failure → Nat
  | vocabulary _ => 2
  | symbol _ => 1

end Failure

/-- The output of a successful command with these results. -/
def Output.ofResults (results : List String) : Output :=
  ⟨results, [], true⟩

/-- The exit code of a command. -/
def Output.exitCode (output : Output) : Nat :=
  if output.success then 0 else 1

/-- The output of one command after another. -/
def Output.append (first second : Output) : Output :=
  ⟨first.results ++ second.results, first.notes ++ second.notes, first.success && second.success⟩

/-- The lines of an output channel as one text. -/
def joinLines (lines : List String) : String :=
  String.join (lines.map (· ++ "\n"))

/-- How a path is shown. -/
def showPath (path : Path) : String :=
  String.ofList path.spelling

/-- How a location is shown. -/
def showLocation (location : Location) : String :=
  showPath location.path ++ ":" ++ Nat.repr (location.span.line + 1) ++ ":" ++
    Nat.repr (location.span.start + 1)

/-- The output for a file that cannot be read. -/
def unreadable (path : Path) (fault : Fault) : Output :=
  ⟨[], [showPath path ++ ": " ++ fault.message], false⟩

/-- The path as seen from the top directory. -/
def absolute (fs : FileSystem) (path : Path) : Path :=
  (Path.ofParts fs.workingDirectory.parts).join path

/-- Report the diagnostics of one file. -/
def checkFile (fs : FileSystem) (vocabulary : Vocabulary) (path : Path) : Output :=
  match fs.readText path with
  | .error fault => unreadable path fault
  | .ok text =>
    -- Includes are resolved from the absolute path, but the path is shown as it was given.
    let diagnostics := validate fs vocabulary (absolute fs path) text
    let errors := (diagnostics.filter (·.isError)).length
    { results := diagnostics.map fun diagnostic => showPath path ++ ":" ++ diagnostic.render
      notes :=
        [showPath path ++ ": " ++ Nat.repr errors ++ " error(s), " ++
          Nat.repr (diagnostics.length - errors) ++ " warning(s)"]
      success := errors = 0 }

/-- The lines for one name of an index. -/
def showOccurrences (index : SymbolIndex) (name : Text) : List String :=
  String.ofList name ::
    ((index.definitionsOf name).map fun location => "  def " ++ showLocation location) ++
    (index.referencesOf name).map fun location => "  ref " ++ showLocation location

/-- The index of a file, by way of a fresh cache. -/
def indexOfFile (fs : FileSystem) (vocabulary : Vocabulary) (kind : SymbolKind) (file : Path) :
    SymbolIndex :=
  ((Cache.empty vocabulary).indexEntry fs kind file none none).1.index

/-- List the subroutines of a file. -/
def outlineFile (fs : FileSystem) (vocabulary : Vocabulary) (file : Path) : Output :=
  match fs.readText file with
  | .error fault => unreadable file fault
  | .ok text =>
    .ofResults ((outline vocabulary text).map fun entry =>
      String.ofList entry.name ++ " " ++ Nat.repr (entry.startLine + 1) ++ "-" ++
        Nat.repr (entry.endLine + 1))

/-- The line for one edit: where it starts, its last column, and the new text. -/
def showEdit (edit : Edit) : String :=
  showLocation edit.location ++ "-" ++ Nat.repr edit.location.span.stop ++ " " ++
    String.ofList edit.newText

/-- List the edits that rename a symbol, which may be given with sigils and in any case. -/
def renameInFile (fs : FileSystem) (vocabulary : Vocabulary) (kind : SymbolKind) (file : Path)
    (name newName : Text) : Except SymbolError Output :=
  let index := indexOfFile fs vocabulary kind file
  let wanted := Text.lowercase (Text.trimLeading '$' name)
  (index.rename vocabulary kind wanted newName).map fun edits => .ofResults (edits.map showEdit)

/-- Run a command under a vocabulary. -/
def runCommand (fs : FileSystem) (vocabulary : Vocabulary) : Command → Except SymbolError Output
  | .check files =>
    .ok ((files.map (checkFile fs vocabulary)).foldl Output.append (.ofResults []))
  | .includes file =>
    .ok (.ofResults ((Include.closure fs vocabulary file none).map showPath))
  | .symbols kind file =>
    let index := indexOfFile fs vocabulary kind file
    .ok (.ofResults (index.names.flatMap (showOccurrences index)))
  | .outline file => .ok (outlineFile fs vocabulary file)
  | .rename kind file name newName => renameInFile fs vocabulary kind file name newName

/-- The vocabulary of an invocation. -/
def loadVocabulary (fs : FileSystem) : Option Path → Except Vocabulary.LoadError Vocabulary
  | none => .ok .standard
  | some path => Vocabulary.load fs path

/-- Run an invocation on a disk. -/
def run (fs : FileSystem) (invocation : Invocation) : Except Failure Output :=
  match loadVocabulary fs invocation.vocabulary with
  | .error error => .error (.vocabulary error)
  | .ok vocabulary => (runCommand fs vocabulary invocation.command).mapError .symbol

/-- The name and version of the program. -/
def versionLine : String :=
  "oscscript 0.1.0"

/-- How the program is called. -/
def usageLine : String :=
  "Usage: oscscript [OPTIONS] <COMMAND>"

/-- What is said about wrong arguments. -/
def usageText : String :=
  joinLines ["error: invalid arguments", "", usageLine, "", "For more information, try '--help'."]

/-- What the program can do and how to ask for it. -/
def helpText : String :=
  joinLines
    ["Check and inspect OSCScript files", "", usageLine, "",
      "Commands:",
      "  check     Report diagnostics for each file",
      "  includes  List the include closure of a file",
      "  symbols   List subroutine (or variable) definitions and references",
      "  outline   List the subroutines defined in a file",
      "  rename    Print the edits that rename a subroutine (or variable)",
      "  help      Print this message or the help of the given subcommand(s)",
      "",
      "Options:",
      "      --vocabulary <PATH>  TOML file overriding the built-in command tables",
      "  -h, --help               Print help",
      "  -V, --version            Print version"]

end CommandLine

end ScriptAnalysis
