import ScriptAnalysis.FileSystem.LookUp

/-!
# Changing a file system

A file is created at a path, with the directories that are missing on the way; a file or a link is
taken away again. Writing through a link changes the file that the link leads to. Where a file
cannot be written, because an object is in the way or a directory may not be searched, writing
fails.

* `FileSystem.write?`, `FileSystem.write`: write a file, following links.
* `FileSystem.remove`: take away a file or a link.
-/

namespace ScriptAnalysis

namespace Directory

/-- The directory with `node` as the object of a name. -/
def put : Directory → Text → Node → Directory
  | [], name, node => [(name, node)]
  | (other, old) :: rest, name, node =>
    if name = other then (name, node) :: rest else (other, old) :: put rest name node

/-- A name that was put has the new object, and every other name what it had. -/
@[simp]
theorem find?_put (objects : Directory) (name other : Text) (node : Node) :
    find? (put objects name node) other =
      if other = name then some node else find? objects other := by
  induction objects with
  | nil => simp [put, find?]
  | cons object rest ih =>
    obtain ⟨first, old⟩ := object
    rw [put]
    split
    · next heq =>
      subst heq
      by_cases h : other = name <;> simp [find?, h]
    · next hne =>
      rw [find?, ih, find?]
      by_cases h : other = first <;> simp [h, Ne.symm hne]

/-- The directory with `node` where the names lead, the outermost first. Directories that are
missing on the way are created. -/
def insertAt (objects : Directory) : List Text → Node → Directory
  | [], _ => objects
  | [name], node => put objects name node
  | name :: names, node =>
    match find? objects name with
    | some (.directory searchable found) =>
      put objects name (.directory searchable (insertAt found names node))
    | _ => put objects name (.directory true (insertAt [] names node))

/-- The directory without the object where the names lead, the outermost first. -/
def eraseAt (objects : Directory) : List Text → Directory
  | [] => objects
  | [name] => objects.filter (·.1 ≠ name)
  | name :: names =>
    match find? objects name with
    | some (.directory searchable found) =>
      put objects name (.directory searchable (eraseAt found names))
    | _ => objects

end Directory

namespace FileSystem

/-- A disk with nothing but a working directory and the directories around it. -/
def ofWorkingDirectory (path : Path) : FileSystem :=
  let names := path.parts.filterMap fun
    | .name text => some text
    | _ => none
  { topSearchable := true
    top := Directory.insertAt [] names (.directory true [])
    workingDirectory := names.reverse }

/-- The file system without the object at an address. -/
def erase (fs : FileSystem) (address : Address) : FileSystem :=
  { fs with top := Directory.eraseAt fs.top address.reverse }

/-- The file system with `node` at an address. -/
def insert (fs : FileSystem) (address : Address) (node : Node) : FileSystem :=
  { fs with top := Directory.insertAt fs.top address.reverse node }

/-- Take steps from the end of a trail, creating the directories that are missing on the way. A
missing directory cannot be created under the name of another object, such as a link to nothing. -/
def enterCreating? (fs : FileSystem) : Trail → List Step → Option (FileSystem × Trail)
  | trail, [] => some (fs, trail)
  | trail, .stay :: steps => enterCreating? fs trail steps
  | trail, .up :: steps =>
    if fs.mayLeave .opening trail then enterCreating? fs trail.tail steps else none
  | trail, .enter name :: steps =>
    match fs.follow .opening linkLimit trail [.enter name] with
    | .ok ⟨address, .directory _ _⟩ => enterCreating? fs (fs.trailTo address) steps
    | .error .notFound =>
      let address := name :: trail.address
      if (fs.node? address).isSome then none
      else
        let made := fs.insert address (.directory true [])
        enterCreating? made (made.trailTo address) steps
    | _ => none

/-- The file system with the directory of a path created, and the address of the path in it. A
relative path starts in the directory at the address `directory`. -/
def placeFrom? (fs : FileSystem) (directory : Address) (path : Path) :
    Option (FileSystem × Address) :=
  match path.steps.getLast? with
  | some (.enter name) => do
    let (made, trail) ←
      fs.enterCreating? (origin (fs.trailTo directory) path) path.steps.dropLast
    guard (made.mayLookUp .opening trail ∧ Utf8.size name ≤ nameLimit)
    return (made, name :: trail.address)
  | _ => none

/-- The address of a path, at most `links` links at its end being followed, also where they lead to
nothing yet. -/
def settle? : (links : Nat) → FileSystem → Address → Path → Option (FileSystem × Address)
  | 0, fs, directory, path => fs.placeFrom? directory path
  | links + 1, fs, directory, path => do
    let (made, address) ← fs.placeFrom? directory path
    match made.node? address with
    | some (.link target) => settle? links made address.tail target
    | _ => return (made, address)

/-- Write a file. A link is followed, and creates the file that it leads to. A file that exists can
be read afterwards if it could be before. -/
def write? (fs : FileSystem) (path : Path) (content : List UInt8) : Option FileSystem := do
  let (made, address) ← settle? linkLimit fs fs.workingDirectory path
  match made.node? address with
  | none => return made.insert address (.file true content)
  | some (.file readable _) => return made.insert address (.file readable content)
  | _ => none

/-- The disk after a file was written, if that was possible. -/
def write (fs : FileSystem) (path : Path) (content : List UInt8) : FileSystem :=
  (fs.write? path content).getD fs

/-- The disk after the file or link at a path was taken away, if there was one. A link at the end is
not followed. -/
def remove (fs : FileSystem) (path : Path) : FileSystem :=
  match path.steps.getLast? with
  | some (.enter name) =>
    let trail := origin (fs.trailTo fs.workingDirectory) path
    match fs.follow .opening linkLimit trail path.steps.dropLast with
    | .ok ⟨around, .directory true _⟩ =>
      match fs.node? (name :: around) with
      | some (.directory _ _) => fs
      | _ => fs.erase (name :: around)
    | _ => fs
  | _ => fs

end FileSystem

end ScriptAnalysis
