import ScriptAnalysis.CommandLine.Run

/-!
# The paths that a command looks up

A command is run on a copy of a disk. The copy needs only what the command looks up: its vocabulary,
its files, and the paths tried for the includes of every script that it reaches. What is reached
depends on what has been copied, so a copy is complete when all these paths have been copied and no
new ones appear.

* `CommandLine.reads`: the paths that an invocation looks up on a disk.
-/

namespace ScriptAnalysis

namespace CommandLine

/-- The paths tried for the includes of a visited script. -/
def visitReads (vocabulary : Vocabulary) (visit : Visit) : List Path :=
  (visit.lines.filter fun code => vocabulary.isInclude code.commandName).flatMap fun code =>
    code.argument?.toList.flatMap fun argument =>
      Include.candidates vocabulary visit.path argument.text

/-- The paths looked up by a walk from `root`. -/
def walkReads (fs : FileSystem) (vocabulary : Vocabulary) (root : Path) : List Path :=
  root :: (Include.walk fs vocabulary root none).flatMap (visitReads vocabulary)

/-- The paths looked up by the check of one file. -/
def checkReads (fs : FileSystem) (vocabulary : Vocabulary) (path : Path) : List Path :=
  match fs.readText path with
  | .error _ => [path]
  | .ok text =>
    let includes :=
      (Instruction.ofText text).filter fun instruction => vocabulary.isInclude instruction.name
    let tried := includes.flatMap fun instruction =>
      Include.candidates vocabulary (absolute fs path) instruction.includeText
    path :: tried.flatMap (walkReads fs vocabulary)

/-- The paths that a command looks up. -/
def commandReads (fs : FileSystem) (vocabulary : Vocabulary) : Command → List Path
  | .check files => files.flatMap (checkReads fs vocabulary)
  | .includes file => walkReads fs vocabulary file
  | .symbols _ file => walkReads fs vocabulary file
  | .outline file => [file]
  | .rename _ file _ _ => walkReads fs vocabulary file

/-- The paths that an invocation looks up. -/
def reads (fs : FileSystem) (invocation : Invocation) : List Path :=
  invocation.vocabulary.toList ++
    match loadVocabulary fs invocation.vocabulary with
    | .error _ => []
    | .ok vocabulary => commandReads fs vocabulary invocation.command

end CommandLine

end ScriptAnalysis
