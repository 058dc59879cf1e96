import ScriptAnalysis.FileSystem.VisitKey
import ScriptAnalysis.Include.Resolve

/-!
# Walking an include closure

A walk visits a root script and every script it includes, directly or through others, each once. It
goes depth first, in the order of the include lines. Two paths to one file count as one file, and a
file that cannot be read is passed over. The text of the root may be given in memory, in which case
the root is not read.

* `Include.explore`: the visits that a stack of pending paths leads to.
* `Include.walk`: the visits from a root.
* `Include.closure`: the paths of these visits.
-/

namespace ScriptAnalysis

/-- A script as a walk found it. -/
structure Visit where
  /-- The path under which the script was reached. -/
  path : Path
  /-- The lines of code of the script. -/
  lines : List CodeLine
  deriving DecidableEq, Repr

/-- The visit of the script at `path` with the content `text`. -/
def Visit.ofText (path : Path) (text : Text) : Visit :=
  ⟨path, codeLines text⟩

namespace Include

/-- The scripts that a visited script includes, in the order of its lines. -/
def targets (fs : FileSystem) (vocabulary : Vocabulary) (visit : Visit) : List Path :=
  visit.lines.filterMap (target? fs vocabulary visit.path)

/-- How many of the keys of the disk have not been visited. -/
def unvisited (fs : FileSystem) (visited : List (List Part)) : Nat :=
  (fs.keys.filter (· ∉ visited)).length

/-- After marking a key, the unvisited keys are those that were so before, without it. -/
theorem unvisited_cons (fs : FileSystem) (visited : List (List Part)) (key : List Part) :
    unvisited fs (key :: visited) = ((fs.keys.filter (· ∉ visited)).filter (· ≠ key)).length := by
  rw [unvisited, List.filter_filter]
  congr 2
  funext other
  by_cases h : other = key <;> simp [h]

/-- Marking a key never makes more keys unvisited. -/
theorem unvisited_cons_le (fs : FileSystem) (visited : List (List Part)) (key : List Part) :
    unvisited fs (key :: visited) ≤ unvisited fs visited := by
  rw [unvisited_cons]
  exact List.length_filter_le _ _

/-- Marking the key of a readable file leaves fewer keys unvisited. -/
theorem unvisited_cons_lt_of_read {fs : FileSystem} {visited : List (List Part)} {path : Path}
    {content : List UInt8} (hread : fs.read path = .ok content)
    (hfresh : fs.visitKey path ∉ visited) :
    unvisited fs (fs.visitKey path :: visited) < unvisited fs visited := by
  rw [unvisited_cons]
  exact List.length_filter_lt_length_iff_exists.2
    ⟨_, List.mem_filter.2 ⟨FileSystem.visitKey_mem_keys hread, by simpa using hfresh⟩, by simp⟩

/-- The visits that follow when `pending` are the paths still to visit, the next one first, and
`visited` are the keys of the paths visited or passed over so far. -/
def explore (fs : FileSystem) (vocabulary : Vocabulary) (pending : List Path)
    (visited : List (List Part)) : List Visit :=
  match pending with
  | [] => []
  | path :: rest =>
    if _hfresh : fs.visitKey path ∈ visited then explore fs vocabulary rest visited
    else
      match _hread : fs.read path with
      | .error _ => explore fs vocabulary rest (fs.visitKey path :: visited)
      | .ok content =>
        let visit := Visit.ofText path (Utf8.decodeLossy content)
        visit ::
          explore fs vocabulary (targets fs vocabulary visit ++ rest)
            (fs.visitKey path :: visited)
termination_by (unvisited fs visited, pending.length)
decreasing_by
  -- A path visited before: nothing is marked, and one path less is pending.
  · exact Prod.Lex.right _ (Nat.lt_succ_self _)
  -- A path that cannot be read: marking it can only help.
  · rcases Nat.lt_or_eq_of_le (unvisited_cons_le fs visited (fs.visitKey path)) with h | h
    · exact Prod.Lex.left _ _ h
    · rw [h]
      exact Prod.Lex.right _ (Nat.lt_succ_self _)
  -- A script: its key was among the unvisited ones, and is marked now.
  · exact Prod.Lex.left _ _ (unvisited_cons_lt_of_read _hread _hfresh)

/-- The visits of a walk from `root`, whose content is `text` if that is given. -/
def walk (fs : FileSystem) (vocabulary : Vocabulary) (root : Path) (text : Option Text) :
    List Visit :=
  match text with
  | none => explore fs vocabulary [root] []
  | some text =>
    let visit := Visit.ofText root text
    visit :: explore fs vocabulary (targets fs vocabulary visit) [fs.visitKey root]

/-- The paths of the scripts that a walk visits. -/
def closure (fs : FileSystem) (vocabulary : Vocabulary) (root : Path) (text : Option Text) :
    List Path :=
  (walk fs vocabulary root text).map (·.path)

end Include

end ScriptAnalysis
