import ScriptAnalysis.CommandLine.Reads
import ScriptAnalysis.FileSystem.Edit

/-!
# The program

Reads the arguments, copies what they need from the machine's disk, runs the command on the copy and
prints what it wrote. A usage error and a vocabulary that cannot be loaded end the program with exit
code 2, every other failure with exit code 1.
-/

namespace ScriptAnalysis

namespace CommandLine

/-- The ways to spell an address on the machine's disk: by its absolute path, and by a relative one
if it lies in or above the working directory. A directory above that may not be searched takes the
first way away, and a path that is too long does so as well. -/
def spellings (working address : Address) : List Path :=
  let inside := address.take (address.length - working.length)
  let above := List.replicate (working.length - address.length) Part.up
  Path.ofParts address.parts ::
    if inside ++ working = address then [Path.ofParts (.here :: inside.reverse.map .name)]
    else if working.drop above.length = address then [Path.ofParts above]
    else []

/-- Whether objects may be looked up in the directory with this spelling. -/
def isSearchable (spelling : Path) : IO Bool := do
  let directory := { ← IO.currentDir with toString := showPath spelling }
  match ← (directory / ".").metadata.toBaseIO with
  | .ok _ => return true
  | .error _ => return false

/-- The directory or file with this spelling. What cannot be read counts as a file that may not be
opened. -/
def fetchContent (type : IO.FS.FileType) (spelling : Path) : IO Node := do
  match type with
  | .dir => return .directory (← isSearchable spelling) []
  | _ =>
    match ← (IO.FS.readBinFile (showPath spelling)).toBaseIO with
    | .ok content => return .file true content.toList
    | .error _ => return .file false []

/-- The object of the machine's disk with this spelling and address. A link is resolved as far as it
leads; one that leads in a circle is kept as a link to itself, and one that leads nowhere counts as
no object. A link to what cannot be named stands for what it leads to. -/
def fetch (address : Address) (spelling : Path) : IO (Option Node) := do
  let path := { ← IO.currentDir with toString := showPath spelling }
  match ← path.symlinkMetadata.toBaseIO with
  | .error _ => return none
  | .ok status =>
    if status.type != .symlink then return some (← fetchContent status.type spelling)
    match ← path.metadata.toBaseIO with
    | .error (.noFileOrDirectory ..) => return none
    | .error _ => return some (.link (Path.ofParts address.parts))
    | .ok target =>
      match ← (IO.FS.realPath path).toBaseIO with
      | .ok real => return some (.link ⟨real.toString.toList⟩)
      | .error _ => return some (← fetchContent target.type spelling)

/-- The disk with nothing but the directories at and around an address, as they are on the machine's
disk. -/
def copyAround (fs : FileSystem) : Address → IO FileSystem
  | [] => return { fs with topSearchable := ← (spellings fs.workingDirectory []).anyM isSearchable }
  | name :: around => do
    let copied ← copyAround fs around
    let searchable ← (spellings fs.workingDirectory (name :: around)).anyM isSearchable
    return copied.insert (name :: around) (.directory searchable [])

/-- The address where the look-up of a path in the directory at an address starts. -/
def startOf (directory : Address) (path : Path) : Address :=
  if path.isAbsolute then [] else directory

/-- Copy the objects that steps from the directory at an address lead through, following at most
`links` links. -/
partial def copySteps (links : Nat) (fs : FileSystem) (address : Address) :
    List Step → IO FileSystem
  | [] => return fs
  | .stay :: steps => copySteps links fs address steps
  | .up :: steps => copySteps links fs address.tail steps
  | .enter name :: steps => do
    let found := name :: address
    let copied ←
      if (fs.node? found).isSome then pure fs
      else
        match ← (spellings fs.workingDirectory found).findSomeM? (fetch found) with
        | some node => pure (fs.insert found node)
        | none => pure fs
    match copied.node? found with
    | some (.directory _ _) => copySteps links copied found steps
    | some (.link target) =>
      if links = 0 then return copied
      else copySteps (links - 1) copied (startOf address target) (target.steps ++ steps)
    | _ => return copied

/-- Copy the objects that a path leads through. -/
def copyPath (fs : FileSystem) (path : Path) : IO FileSystem :=
  if '\x00' ∈ path.spelling then return fs
  else copySteps FileSystem.linkLimit fs (startOf fs.workingDirectory path) path.steps

/-- Copy what an invocation looks up until nothing new is found. -/
partial def copyReads (invocation : Invocation) (fs : FileSystem) : IO FileSystem := do
  let copied ← (reads fs invocation).foldlM copyPath fs
  if copied.names.length = fs.names.length then return copied
  else copyReads invocation copied

/-- Run an invocation on the machine's disk and print what it writes. -/
def perform (invocation : Invocation) : IO UInt32 := do
  let start := FileSystem.ofWorkingDirectory ⟨(← IO.currentDir).toString.toList⟩
  let around ← copyAround start start.workingDirectory
  match run (← copyReads invocation around) invocation with
  | .ok output =>
    IO.print (joinLines output.results)
    IO.eprint (joinLines output.notes)
    return output.exitCode.toUInt32
  | .error failure =>
    IO.eprint (joinLines [failure.line])
    return failure.exitCode.toUInt32

end CommandLine

end ScriptAnalysis

open ScriptAnalysis in
/-- Run the program with the given arguments. -/
def main (arguments : List String) : IO UInt32 := do
  match CommandLine.parse (arguments.map String.toList) with
  | .ok invocation => CommandLine.perform invocation
  | .error .help =>
    IO.print CommandLine.helpText
    return 0
  | .error .version =>
    IO.print (CommandLine.joinLines [CommandLine.versionLine])
    return 0
  | .error .usage =>
    IO.eprint CommandLine.usageText
    return 2
