import ScriptAnalysis.Path.Basic
import ScriptAnalysis.Text.Utf8

/-!
# File systems

A file system is a finite tree. An object is a regular file with its bytes, a directory with the
objects in it, or a symbolic link with its target path. The top directory and the working directory
always exist.

Permissions are those of the program. A file that may not be opened is a regular file all the same.
In a directory that may not be searched no object can be looked up, so that everything below it is
out of reach, except for a program that works there.

The address of an object consists of the names that lead to it from the top directory. It is free
of links, so that an object has one address.

* `Directory.find?`: the object of a name.
* `Directory.names`: all names in a tree.
-/

namespace ScriptAnalysis

/-- An object on the disk. -/
inductive Node where
  /-- A regular file with its content, and whether it may be opened. -/
  | file (readable : Bool) (content : List UInt8)
  /-- A directory with its objects and their names, and whether they may be looked up. -/
  | directory (searchable : Bool) (objects : List (Text × Node))
  /-- A symbolic link to the path `target`. -/
  | link (target : Path)

/-- The objects of a directory with their names. -/
abbrev Directory := List (Text × Node)

/-- The place of an object on the disk: its name, then the names of the directories around it, the
innermost first. The top directory has the empty address. -/
abbrev Address := List Text

/-- The absolute path of an address. -/
def Address.parts (address : Address) : List Part :=
  .root :: address.reverse.map .name

/-- Why a path cannot be looked up or read. -/
inductive Fault where
  /-- A part of the path does not exist. -/
  | notFound
  /-- A part of the path that has to be a directory is a file. -/
  | notADirectory
  /-- The path leads to a directory where a file is wanted. -/
  | isADirectory
  /-- A name or a path is too long. -/
  | nameTooLong
  /-- Too many links were followed. -/
  | tooManyLinks
  /-- The path contains a null character. -/
  | nullCharacter
  /-- A directory may not be searched, or a file may not be opened. -/
  | permissionDenied
  deriving DecidableEq, Repr

/-- The wording of a fault. -/
def Fault.message : Fault → String
  | notFound => "No such file or directory (os error 2)"
  | notADirectory => "Not a directory (os error 20)"
  | isADirectory => "Is a directory (os error 21)"
  | nameTooLong => "File name too long (os error 36)"
  | tooManyLinks => "Too many levels of symbolic links (os error 40)"
  | nullCharacter => "file name contained an unexpected NUL byte"
  | permissionDenied => "Permission denied (os error 13)"

namespace Directory

/-- The object of a name in a directory. -/
def find? : Directory → Text → Option Node
  | [], _ => none
  | (other, node) :: rest, name => if name = other then some node else find? rest name

/-- All names in the tree below a directory. -/
def names : Directory → List Text
  | [] => []
  | (name, .directory _ objects) :: rest => name :: (names objects ++ names rest)
  | (name, _) :: rest => name :: names rest

/-- The name of an object is one of the names. -/
theorem mem_names_of_find? {objects : Directory} {name : Text} {node : Node}
    (h : find? objects name = some node) : name ∈ names objects := by
  induction objects with
  | nil => cases h
  | cons object rest ih =>
    obtain ⟨other, content⟩ := object
    rw [find?] at h
    split at h
    · next heq => cases content <;> simp [names, heq]
    · cases content <;> simp [names, ih h]

/-- The names below a directory in a directory are among the names. -/
theorem names_subset_of_find? {objects inner : Directory} {name : Text} {searchable : Bool}
    (h : find? objects name = some (.directory searchable inner)) :
    names inner ⊆ names objects := by
  induction objects with
  | nil => cases h
  | cons object rest ih =>
    obtain ⟨other, content⟩ := object
    rw [find?] at h
    intro text htext
    split at h
    · cases h
      simp [names, htext]
    · have hrest := ih h htext
      cases content <;> simp [names, hrest]

end Directory

/-- A disk with the directory where relative paths start. -/
structure FileSystem where
  /-- Whether objects may be looked up in the top directory. -/
  topSearchable : Bool
  /-- The objects in the top directory. -/
  top : Directory
  /-- The address of the working directory. -/
  workingDirectory : Address

end ScriptAnalysis
