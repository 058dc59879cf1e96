import ScriptAnalysis.FileSystem.Basic

/-!
# Looking up a path

A path is looked up part by part from the top or the working directory. A link is replaced by its
target, at most `linkLimit` times in one look-up. A slash or a `.` at the end asks for a directory.

Opening a file and naming it are two look-ups with different limits and permissions. To open a file,
the path itself must not be longer than `pathLimit`, wherever it leads, and the directories that it
goes through must be searchable. To name a file by its address, every object on the way is looked up
anew by its absolute path. This path must not be too long, however the path to the file is spelled,
and all directories in it must be searchable, also those around the working directory.

* `FileSystem.locate`: what a path leads to when it is opened.
* `FileSystem.canonical`: what a path leads to when it is named.
* `FileSystem.isFile`: whether a path leads to a regular file.
* `FileSystem.read`: the bytes of the regular file that a path leads to, if it may be opened.
* `FileSystem.visitKey`: what identifies the file of a path during a walk.
-/

namespace ScriptAnalysis

/-- One step of a look-up. -/
inductive Step where
  /-- Stay in the directory. -/
  | stay
  /-- Go to the directory around. -/
  | up
  /-- Go to the object of this name. -/
  | enter (name : Text)
  deriving DecidableEq, Repr

namespace Step

/-- The step that a piece of spelling between two slashes asks for. -/
def ofSegment? : Text → Option Step
  | [] => none
  | ['.'] => some stay
  | ['.', '.'] => some up
  | name => some (enter name)

/-- Whether steps tell that they start in a directory, but not by entering an object in it. -/
def needDirectory : List Step → Bool
  | [] => false
  | [stay] => true
  | stay :: steps => needDirectory steps
  | up :: _ => true
  | enter _ :: _ => false

end Step

/-- The steps of a path. A slash at the end asks to stay in what must then be a directory. -/
def Path.steps (path : Path) : List Step :=
  (segments path.spelling).filterMap Step.ofSegment? ++
    if path.spelling.getLast? = some '/' then [.stay] else []

/-- A directory that a look-up has entered. -/
structure Entered where
  /-- The name of the directory. -/
  name : Text
  /-- Whether objects may be looked up in it. -/
  searchable : Bool
  /-- The objects in it. -/
  objects : Directory
  /-- The number of bytes of its absolute path. -/
  width : Nat

/-- Where a look-up stands: the directories entered, the innermost first. -/
abbrev Trail := List Entered

namespace Trail

/-- The address of the directory where a trail ends. -/
def address (trail : Trail) : Address :=
  trail.map (·.name)

/-- The objects in the directory where a trail that starts in the directory `top` ends. -/
def objects (top : Directory) : Trail → Directory
  | [] => top
  | entered :: _ => entered.objects

/-- Whether objects may be looked up in the directory where a trail ends, which starts in a
directory that is searchable if `top` says so. -/
def isSearchable (top : Bool) : Trail → Bool
  | [] => top
  | entered :: _ => entered.searchable

/-- Whether objects may be looked up in the directory where a trail ends and in all around it. -/
def allSearchable (top : Bool) (trail : Trail) : Bool :=
  top && trail.all (·.searchable)

/-- The number of bytes of the absolute path where a trail ends. The slash of the top directory is
counted with the name that follows it. -/
def width : Trail → Nat
  | [] => 0
  | entered :: _ => entered.width

/-- The number of bytes of the absolute path of an object `name` where a trail ends. -/
def widthOf (trail : Trail) (name : Text) : Nat :=
  trail.width + Utf8.size name + 1

/-- The trail into a directory `name` with the objects `objects`. -/
def enter (trail : Trail) (name : Text) (searchable : Bool) (objects : Directory) : Trail :=
  ⟨name, searchable, objects, trail.widthOf name⟩ :: trail

end Trail

/-- How a path is looked up. -/
inductive Manner where
  /-- To open what it leads to: each step starts in the directory where the one before it ends. -/
  | opening
  /-- To name what it leads to: each object on the way is looked up by its absolute path. -/
  | naming
  deriving DecidableEq, Repr

/-- What a look-up has found. -/
structure Found where
  /-- Where it is. -/
  address : Address
  /-- What it is. -/
  node : Node

namespace FileSystem

/-- How many links one look-up follows. -/
def linkLimit : Nat := 40

/-- The greatest number of bytes in a name. -/
def nameLimit : Nat := 255

/-- The greatest number of bytes in a path. -/
def pathLimit : Nat := 4095

/-- The trail to the directory at an address. A directory that is missing on the way is taken to be
empty and searchable. -/
def trailTo (fs : FileSystem) : Address → Trail
  | [] => []
  | name :: around =>
    let trail := fs.trailTo around
    match Directory.find? (trail.objects fs.top) name with
    | some (.directory searchable objects) => trail.enter name searchable objects
    | _ => trail.enter name true []

/-- The object at an address. -/
def node? (fs : FileSystem) : Address → Option Node
  | [] => some (.directory fs.topSearchable fs.top)
  | name :: around => Directory.find? ((fs.trailTo around).objects fs.top) name

/-- The trail to an address ends there. -/
@[simp]
theorem address_trailTo (fs : FileSystem) (address : Address) :
    (fs.trailTo address).address = address := by
  induction address with
  | nil => rfl
  | cons name around ih =>
    simp only [trailTo]
    split <;> simpa [Trail.address, Trail.enter] using ih

/-- The trail to an address goes through the directory around it. -/
@[simp]
theorem tail_trailTo (fs : FileSystem) (address : Address) :
    (fs.trailTo address).tail = fs.trailTo address.tail := by
  cases address with
  | nil => rfl
  | cons name around =>
    simp only [trailTo]
    split <;> rfl

/-- Entering a directory where the trail to an address ends gives the trail to the directory. -/
theorem enter_trailTo {fs : FileSystem} {address : Address} {name : Text} {searchable : Bool}
    {objects : Directory} (h : fs.node? (name :: address) = some (.directory searchable objects)) :
    (fs.trailTo address).enter name searchable objects = fs.trailTo (name :: address) := by
  rw [node?] at h
  simp only [trailTo, h]

/-- Where the look-up of a path in the directory at the end of `trail` starts. -/
def origin (trail : Trail) (path : Path) : Trail :=
  if path.isAbsolute then [] else trail

/-- Whether an absolute path of some bytes may be looked up. Only naming looks up absolute paths. -/
def fits : Manner → (width : Nat) → Bool
  | .opening, _ => true
  | .naming, width => width ≤ pathLimit

/-- Whether an object may be looked up where a trail ends. -/
def mayLookUp (fs : FileSystem) : Manner → Trail → Bool
  | .opening, trail => trail.isSearchable fs.topSearchable
  | .naming, trail => trail.allSearchable fs.topSearchable

/-- Whether the directory where a trail ends may be left for the one around it. Naming takes this
step on the absolute path alone. -/
def mayLeave (fs : FileSystem) : Manner → Trail → Bool
  | .opening, trail => trail.isSearchable fs.topSearchable
  | .naming, _ => true

/-- Every number of bytes fits what is opened. -/
@[simp]
theorem fits_opening (width : Nat) : fits .opening width = true :=
  rfl

/-- Take the steps `steps` from the end of a trail. Where naming, the absolute path of every object
on the way has to fit the limit, with one more byte for the slash that shows a directory to be one.
A link is handed to `onLink` with the trail where its target starts and all steps still to take,
those of the target first. -/
def walkSteps (fs : FileSystem) (manner : Manner)
    (onLink : Trail → List Step → Except Fault Found) : Trail → List Step → Except Fault Found
  | trail, [] =>
    .ok ⟨trail.address, .directory (trail.isSearchable fs.topSearchable) (trail.objects fs.top)⟩
  | trail, .stay :: steps => walkSteps fs manner onLink trail steps
  | trail, .up :: steps =>
    if !fs.mayLeave manner trail then .error .permissionDenied
    else walkSteps fs manner onLink trail.tail steps
  | trail, .enter name :: steps =>
    let width := trail.widthOf name
    if !fs.mayLookUp manner trail then .error .permissionDenied
    else if nameLimit < Utf8.size name || !fits manner width then .error .nameTooLong
    else
      match Directory.find? (trail.objects fs.top) name with
      | none => .error .notFound
      | some (.directory searchable objects) =>
        if Step.needDirectory steps && !fits manner (width + 1) then .error .nameTooLong
        else walkSteps fs manner onLink (trail.enter name searchable objects) steps
      -- Even a step that stays where it is can only be taken in a directory.
      | some (.file readable content) =>
        if steps = [] then .ok ⟨name :: trail.address, .file readable content⟩
        else .error .notADirectory
      | some (.link target) => onLink (origin trail target) (target.steps ++ steps)

/-- A step up succeeds if the directory may be left. -/
theorem walkSteps_up_eq_ok_iff {fs : FileSystem} {manner : Manner}
    {onLink : Trail → List Step → Except Fault Found} {trail : Trail} {steps : List Step}
    {found : Found} :
    fs.walkSteps manner onLink trail (.up :: steps) = .ok found ↔
      fs.mayLeave manner trail = true ∧
        fs.walkSteps manner onLink trail.tail steps = .ok found := by
  rw [walkSteps]
  cases fs.mayLeave manner trail <;> simp

/-- A step to an object succeeds if the object may be looked up and exists, and the look-up goes on
from there: into a directory, behind a link, or nowhere in a file. -/
theorem walkSteps_enter_eq_ok_iff {fs : FileSystem} {manner : Manner}
    {onLink : Trail → List Step → Except Fault Found} {trail : Trail} {name : Text}
    {steps : List Step} {found : Found} :
    fs.walkSteps manner onLink trail (.enter name :: steps) = .ok found ↔
      fs.mayLookUp manner trail = true ∧ Utf8.size name ≤ nameLimit ∧
      fits manner (trail.widthOf name) = true ∧
      ((∃ searchable objects,
          Directory.find? (trail.objects fs.top) name = some (.directory searchable objects) ∧
          (Step.needDirectory steps = true → fits manner (trail.widthOf name + 1) = true) ∧
          fs.walkSteps manner onLink (trail.enter name searchable objects) steps = .ok found) ∨
        (∃ readable content,
          Directory.find? (trail.objects fs.top) name = some (.file readable content) ∧
          steps = [] ∧ found = ⟨name :: trail.address, .file readable content⟩) ∨
        ∃ target, Directory.find? (trail.objects fs.top) name = some (.link target) ∧
          onLink (origin trail target) (target.steps ++ steps) = .ok found) := by
  rw [walkSteps]
  cases fs.mayLookUp manner trail with
  | false => simp
  | true =>
    cases fits manner (trail.widthOf name) with
    | false => simp
    | true =>
      by_cases hname : Utf8.size name ≤ nameLimit
      · have hshort : ¬nameLimit < Utf8.size name := Nat.not_lt.2 hname
        cases Directory.find? (trail.objects fs.top) name with
        | none => simp [hshort]
        | some node =>
          cases node with
          | directory searchable objects =>
            cases searchable <;> cases Step.needDirectory steps <;>
              cases fits manner (trail.widthOf name + 1) <;> simp [hshort, hname]
          | file readable content =>
            cases readable <;> by_cases hend : steps = [] <;>
              simp [hshort, hname, hend, eq_comm (a := found)]
          | link target => simp [hshort, hname]
      · simp [Nat.lt_of_not_le hname, hname]

/-- Take steps from the end of a trail, following at most `links` links. -/
def follow (fs : FileSystem) (manner : Manner) :
    (links : Nat) → Trail → List Step → Except Fault Found
  | 0 => fs.walkSteps manner fun _ _ => .error .tooManyLinks
  | links + 1 => fs.walkSteps manner (fs.follow manner links)

/-- Take the steps of a path from where it starts. The empty path leads nowhere, and a null
character cannot stand in a path. -/
def lookUp (fs : FileSystem) (manner : Manner) (path : Path) : Except Fault Found :=
  if path.spelling = [] then .error .notFound
  else if '\x00' ∈ path.spelling then .error .nullCharacter
  else fs.follow manner linkLimit (origin (fs.trailTo fs.workingDirectory) path) path.steps

/-- What a path leads to when it is opened. -/
def locate (fs : FileSystem) (path : Path) : Except Fault Found :=
  if '\x00' ∉ path.spelling ∧ pathLimit < Utf8.size path.spelling then .error .nameTooLong
  else fs.lookUp .opening path

/-- What a path leads to when it is named. -/
def canonical (fs : FileSystem) (path : Path) : Except Fault Found :=
  fs.lookUp .naming path

/-- The content of the regular file that a path leads to. -/
def read (fs : FileSystem) (path : Path) : Except Fault (List UInt8) :=
  match fs.locate path with
  | .error fault => .error fault
  | .ok ⟨_, .file true content⟩ => .ok content
  | .ok ⟨_, .file false _⟩ => .error .permissionDenied
  | .ok _ => .error .isADirectory

/-- Whether a path leads to a regular file, which need not be one that may be opened. -/
def isFile (fs : FileSystem) (path : Path) : Bool :=
  match fs.locate path with
  | .ok ⟨_, .file _ _⟩ => true
  | _ => false

/-- What identifies a path during a walk: the parts of the address that names it, or its own parts
if it has no such address. -/
def visitKey (fs : FileSystem) (path : Path) : List Part :=
  match fs.canonical path with
  | .ok found => found.address.parts
  | .error _ => path.parts

/-- The text of the file that a path leads to, ill-formed bytes being replaced. -/
def readText (fs : FileSystem) (path : Path) : Except Fault Text :=
  (fs.read path).map Utf8.decodeLossy

/-- A path that is read leads to a file that may be opened, and what is read is its content. -/
theorem read_eq_ok_iff {fs : FileSystem} {path : Path} {content : List UInt8} :
    fs.read path = .ok content ↔
      ∃ address, fs.locate path = .ok ⟨address, .file true content⟩ := by
  rw [read]
  constructor
  · intro h
    split at h
    · cases h
    · next address found hlocate =>
      cases h
      exact ⟨address, hlocate⟩
    · cases h
    · cases h
  · rintro ⟨address, hlocate⟩
    rw [hlocate]

/-- A path leads to a regular file if it is located there, whether or not the file may be opened. -/
theorem isFile_iff {fs : FileSystem} {path : Path} :
    fs.isFile path = true ↔
      ∃ address readable content, fs.locate path = .ok ⟨address, .file readable content⟩ := by
  rw [isFile]
  constructor
  · intro h
    split at h
    · next address readable content hlocate => exact ⟨address, readable, content, hlocate⟩
    · cases h
  · rintro ⟨address, readable, content, hlocate⟩
    rw [hlocate]

/-- A text that is read is that of a content that is read. -/
theorem readText_eq_ok_iff {fs : FileSystem} {path : Path} {text : Text} :
    fs.readText path = .ok text ↔
      ∃ content, fs.read path = .ok content ∧ Utf8.decodeLossy content = text := by
  rw [readText]
  cases fs.read path <;> simp [Except.map]

/-- What can be read is a regular file. -/
theorem isFile_of_read {fs : FileSystem} {path : Path} {content : List UInt8}
    (h : fs.read path = .ok content) : fs.isFile path = true := by
  obtain ⟨address, hlocate⟩ := read_eq_ok_iff.1 h
  exact isFile_iff.2 ⟨address, true, content, hlocate⟩

end FileSystem

end ScriptAnalysis
