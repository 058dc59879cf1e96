import ScriptAnalysis.Text.Basic

/-!
# Paths

A path is kept as it is spelled, and understood through its parts: the root of an absolute path, a
leading `.`, every `..`, and names. Repeated slashes, a slash at the end and a `.` after the first
place make no difference to the parts. Two spellings with the same parts are the same path to the
program, and paths are ordered by their parts.

* `Path.parts`: the view of a path.
* `Path.parent?`, `Path.join`, `Path.extension?`: the operations on spellings.
-/

namespace ScriptAnalysis

/-- One part of a path. -/
inductive Part where
  /-- The top directory, at the front of an absolute path. -/
  | root
  /-- A `.` at the front of a relative path. -/
  | here
  /-- A `..`. -/
  | up
  /-- A name. -/
  | name (text : Text)
  deriving DecidableEq, Repr

namespace Part

/-- The place of a part in the order of parts, and what decides among names. -/
def rank : Part → Nat × Text
  | root => (0, [])
  | here => (1, [])
  | up => (2, [])
  | name text => (3, text)

/-- The root comes before `.`, this before `..`, and this before the names. -/
instance : LT Part where
  lt a b := a.rank.1 < b.rank.1 ∨ (a.rank.1 = b.rank.1 ∧ a.rank.2 < b.rank.2)

/-- The order of two parts can be decided. -/
instance (a b : Part) : Decidable (a < b) :=
  inferInstanceAs (Decidable (_ ∨ _))

/-- The part that a piece of spelling between two slashes stands for; an empty piece and a `.`
stand for none. -/
def ofSegment? : Text → Option Part
  | [] => none
  | ['.'] => none
  | ['.', '.'] => some up
  | text => some (name text)

/-- How a part is written between slashes. The root is what stands before the first slash. -/
def text : Part → Text
  | root => []
  | here => ['.']
  | up => ['.', '.']
  | name text => text

end Part

/-- A path as it is spelled. -/
structure Path where
  /-- The characters of the path. -/
  spelling : Text
  deriving DecidableEq, Repr

namespace Path

/-- Cut a spelling at its slashes. -/
def segments : Text → List Text
  | [] => [[]]
  | c :: rest =>
    if c = '/' then [] :: segments rest
    else
      match segments rest with
      | [] => [[c]]
      | segment :: others => (c :: segment) :: others

/-- Whether the path starts at the top directory. -/
def isAbsolute (path : Path) : Bool :=
  path.spelling.head? == some '/'

/-- The parts of a spelling. -/
def partsOf (spelling : Text) : List Part :=
  match segments spelling with
  | [] => []
  | [] :: [] => []
  -- Nothing before the first slash: the path is absolute.
  | [] :: others => .root :: others.filterMap Part.ofSegment?
  | ['.'] :: others => .here :: others.filterMap Part.ofSegment?
  | all => all.filterMap Part.ofSegment?

/-- The parts of a path. -/
def parts (path : Path) : List Part :=
  partsOf path.spelling

/-- The path of the given parts, spelled with single slashes. -/
def ofParts : List Part → Path
  | [.root] => ⟨['/']⟩
  | parts => ⟨['/'].intercalate (parts.map Part.text)⟩

/-- Whether a piece of spelling between two slashes stands for no part. -/
def isSilent (segment : Text) : Bool :=
  (Part.ofSegment? segment).isNone

/-- The path without its last part, if that is not the root: the shortest initial piece of the
spelling that has the remaining parts. -/
def parent? (path : Path) : Option Path :=
  match segments path.spelling with
  | [] => none
  | first :: others =>
    -- The first segment is never silent, whatever it is, and the others are read from the end.
    match others.reverse.dropWhile isSilent with
    | [] => if first = [] then none else some ⟨[]⟩
    | _ :: before =>
      match (before.dropWhile isSilent).reverse with
      | [] => some (if first = [] then ⟨['/']⟩ else ⟨first⟩)
      | kept => some ⟨['/'].intercalate (first :: kept)⟩

/-- The path `other` as seen from the directory `path`. -/
def join (path other : Path) : Path :=
  if other.isAbsolute then other
  else if path.spelling = [] || path.spelling.getLast? == some '/' then
    ⟨path.spelling ++ other.spelling⟩
  else ⟨path.spelling ++ '/' :: other.spelling⟩

/-- Cut a name at its last dot. -/
def splitDot : Text → Option (Text × Text)
  | [] => none
  | c :: rest =>
    match splitDot rest with
    | some (stem, ending) => some (c :: stem, ending)
    | none => if c = '.' then some ([], rest) else none

/-- What follows the last dot of the name at the end of a path. A name whose only dot comes first
has no extension. -/
def extension? (path : Path) : Option Text :=
  match path.parts.getLast? with
  | some (.name text) =>
    match splitDot text with
    | some ([], _) => none
    | some (_, ending) => some ending
    | none => none
  | _ => none

end Path

end ScriptAnalysis
