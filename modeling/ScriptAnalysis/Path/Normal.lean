import ScriptAnalysis.Path.Basic

/-!
# Normal form of a path

A path is normalised by its spelling alone, without looking at any disk: `.` is dropped, and a `..`
takes away the name before it. A `..` directly under the root is dropped, and at the front of a
relative path it stays.

* `Path.normalize`: the normal form, spelled with single slashes.
-/

namespace ScriptAnalysis

namespace Path

/-- Add a part to a normal path, which is held with its last part first. -/
def cancel : List Part → Part → List Part
  | stack, .here => stack
  | .name _ :: stack, .up => stack
  | .root :: stack, .up => .root :: stack
  | stack, part => part :: stack

/-- The parts of the normal form of a path with the given parts. -/
def normalParts (parts : List Part) : List Part :=
  (parts.foldl cancel []).reverse

/-- The normal form of a path. -/
def normalize (path : Path) : Path :=
  ofParts (normalParts path.parts)

end Path

end ScriptAnalysis
