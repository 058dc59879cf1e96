import ScriptAnalysis.Include.Walk
import ScriptAnalysis.Proofs.FileSystem.Contents
import ScriptAnalysis.Proofs.FileSystem.Spelling

/-!
# The visits of a walk

A walk visits no script twice: its visits have different keys, and so different paths. Each visit
holds the lines of code of the text that its path has for the walk. A disk with other contents is
walked in the same way, as long as each script includes the same targets.

* `Include.textOf`: the text that a path has for a walk.
* `Include.pairwise_walk`: the visits of a walk have paths with different parts.
* `Include.lines_of_mem_walk`: the lines of code of a visit.
* `Include.walk_mapFiles`: the walk of a disk with changed contents.
-/

namespace ScriptAnalysis

namespace Include

/-- The text that the file at `path` has for a walk from `root`, whose content is `text` if that is
given. -/
def textOf (fs : FileSystem) (root : Path) (text : Option Text) (path : Path) :
    Except Fault Text :=
  match text with
  | some text => if path = root then .ok text else fs.readText path
  | none => fs.readText path

/-- The visit of the same path when its text is looked up in `source`. -/
def revisit (source : Path → Except Fault Text) (visit : Visit) : Visit :=
  match source visit.path with
  | .ok text => Visit.ofText visit.path text
  | .error _ => visit

theorem revisit_of_ok {source : Path → Except Fault Text} {visit : Visit} {text : Text}
    (h : source visit.path = .ok text) : revisit source visit = Visit.ofText visit.path text := by
  rw [revisit, h]

@[simp]
theorem path_revisit (source : Path → Except Fault Text) (visit : Visit) :
    (revisit source visit).path = visit.path := by
  rw [revisit]
  split <;> rfl

variable {fs : FileSystem} {vocabulary : Vocabulary}

/-- A visit holds the lines of code of a file that was read. -/
theorem read_of_mem_explore {pending : List Path} {visited : List (List Part)} {visit : Visit}
    (h : visit ∈ explore fs vocabulary pending visited) :
    ∃ content, fs.read visit.path = .ok content ∧
      visit = Visit.ofText visit.path (Utf8.decodeLossy content) := by
  fun_induction explore fs vocabulary pending visited with
  | case1 visited => cases h
  | case2 visited path rest hmarked ih => exact ih h
  | case3 visited path rest hfresh fault hread ih => exact ih h
  | case4 visited path rest hfresh content hread first ih =>
    rcases List.mem_cons.1 h with rfl | hlater
    · exact ⟨content, hread, rfl⟩
    · exact ih hlater

/-- A visit is one of a regular file. -/
theorem isFile_of_mem_explore {pending : List Path} {visited : List (List Part)} {visit : Visit}
    (h : visit ∈ explore fs vocabulary pending visited) : fs.isFile visit.path = true := by
  obtain ⟨content, hread, -⟩ := read_of_mem_explore h
  exact FileSystem.isFile_of_read hread

/-- No visit has a key that was marked before. -/
theorem visitKey_not_mem_of_mem_explore {pending : List Path} {visited : List (List Part)}
    {visit : Visit} (h : visit ∈ explore fs vocabulary pending visited) :
    fs.visitKey visit.path ∉ visited := by
  fun_induction explore fs vocabulary pending visited with
  | case1 visited => cases h
  | case2 visited path rest hmarked ih => exact ih h
  | case3 visited path rest hfresh fault hread ih =>
    exact fun hmem => ih h (List.mem_cons_of_mem _ hmem)
  | case4 visited path rest hfresh content hread first ih =>
    rcases List.mem_cons.1 h with rfl | hlater
    · exact hfresh
    · exact fun hmem => ih hlater (List.mem_cons_of_mem _ hmem)

theorem pairwise_explore (pending : List Path) (visited : List (List Part)) :
    (explore fs vocabulary pending visited).Pairwise fun left right =>
      fs.visitKey left.path ≠ fs.visitKey right.path := by
  fun_induction explore fs vocabulary pending visited with
  | case1 visited => exact .nil
  | case2 visited path rest hmarked ih => exact ih
  | case3 visited path rest hfresh fault hread ih => exact ih
  | case4 visited path rest hfresh content hread first ih =>
    refine .cons (fun visit hvisit => ?_) ih
    -- The key of the first visit is marked when the others are made.
    intro heq
    apply visitKey_not_mem_of_mem_explore hvisit
    rw [← heq]
    exact List.mem_cons_self

/-- Behind a root that is a file, no visit has the parts of its path. -/
theorem parts_ne_of_isFile {root : Path} (hroot : fs.isFile root = true) {pending : List Path}
    {visit : Visit} (h : visit ∈ explore fs vocabulary pending [fs.visitKey root]) :
    visit.path.parts ≠ root.parts := by
  intro hparts
  apply visitKey_not_mem_of_mem_explore h
  rw [FileSystem.visitKey_eq_of_isFile (isFile_of_mem_explore h) hroot hparts]
  exact List.mem_cons_self

/-- Nor has one behind a root that need not exist, if its path ends neither in a slash nor in a
slash and a dot. -/
theorem parts_ne_of_spelling {root : Path} (hslash : ¬['/'] <:+ root.spelling)
    (hdot : ¬['/', '.'] <:+ root.spelling) {pending : List Path} {visit : Visit}
    (h : visit ∈ explore fs vocabulary pending [fs.visitKey root]) :
    visit.path.parts ≠ root.parts := by
  intro hparts
  apply visitKey_not_mem_of_mem_explore h
  rw [← FileSystem.visitKey_eq_of_parts_eq (isFile_of_mem_explore h) hparts.symm hslash hdot]
  exact List.mem_cons_self

/-- The visits of a walk have paths with different parts, as paths are compared. -/
theorem pairwise_walk {root : Path} (hslash : ¬['/'] <:+ root.spelling)
    (hdot : ¬['/', '.'] <:+ root.spelling) (text : Option Text) :
    (walk fs vocabulary root text).Pairwise fun left right =>
      left.path.parts ≠ right.path.parts := by
  have hexplore (pending : List Path) (visited : List (List Part)) :
      (explore fs vocabulary pending visited).Pairwise fun left right =>
        left.path.parts ≠ right.path.parts := by
    refine (pairwise_explore pending visited).imp_of_mem fun hleft hright hkeys hparts => ?_
    exact hkeys (FileSystem.visitKey_eq_of_isFile (isFile_of_mem_explore hleft)
      (isFile_of_mem_explore hright) hparts)
  cases text with
  | none => exact hexplore [root] []
  | some text =>
    -- The root in memory was not read, so that its spelling matters.
    exact .cons (fun _ hvisit => (parts_ne_of_spelling hslash hdot hvisit).symm) (hexplore _ _)

/-- In a walk whose root is in memory, no other visit has the path of the root. -/
theorem path_ne_root {root : Path} {pending : List Path} {visit : Visit}
    (h : visit ∈ explore fs vocabulary pending [fs.visitKey root]) : visit.path ≠ root := by
  intro heq
  apply visitKey_not_mem_of_mem_explore h
  rw [heq]
  exact List.mem_cons_self

theorem textOf_some_of_ne {root path : Path} {text : Text} (h : path ≠ root) :
    textOf fs root (some text) path = fs.readText path := by
  rw [textOf, if_neg h]

/-- A visit holds the lines of code of the text that its path has for the walk. -/
theorem lines_of_mem_walk {root : Path} {text : Option Text} {visit : Visit}
    (h : visit ∈ walk fs vocabulary root text) :
    ∃ found, textOf fs root text visit.path = .ok found ∧ visit.lines = codeLines found := by
  have hread {pending : List Path} {visited : List (List Part)}
      (hvisit : visit ∈ explore fs vocabulary pending visited) :
      ∃ found, fs.readText visit.path = .ok found ∧ visit.lines = codeLines found := by
    obtain ⟨content, hread, hlines⟩ := read_of_mem_explore hvisit
    refine ⟨Utf8.decodeLossy content, by rw [FileSystem.readText, hread]; rfl, ?_⟩
    rw [hlines]
    rfl
  cases text with
  | none => exact hread h
  | some text =>
    rcases List.mem_cons.1 h with rfl | hlater
    · exact ⟨text, by rw [textOf]; exact if_pos rfl, rfl⟩
    · rw [textOf_some_of_ne (path_ne_root hlater)]
      exact hread hlater

theorem exists_lines_of_mem_walk {root : Path} {text : Option Text} {visit : Visit}
    (h : visit ∈ walk fs vocabulary root text) : ∃ found, visit.lines = codeLines found := by
  obtain ⟨found, -, hlines⟩ := lines_of_mem_walk h
  exact ⟨found, hlines⟩

/-- With other contents, the same scripts are visited in the same order, if each of them includes
the same targets as before. -/
theorem explore_mapFiles (change : Address → List UInt8 → List UInt8) {pending : List Path}
    {visited : List (List Part)}
    (htargets : ∀ visit ∈ explore fs vocabulary pending visited,
      targets (fs.mapFiles change) vocabulary (revisit (fs.mapFiles change).readText visit) =
        targets fs vocabulary visit) :
    explore (fs.mapFiles change) vocabulary pending visited =
      (explore fs vocabulary pending visited).map (revisit (fs.mapFiles change).readText) := by
  -- The second walk takes the same turn at each path: keys and faults do not depend on contents.
  fun_induction explore fs vocabulary pending visited with
  | case1 visited => rw [explore, List.map_nil]
  | case2 visited path rest hmarked ih =>
    rw [explore, dif_pos (by rwa [FileSystem.visitKey_mapFiles]), ih htargets]
  | case3 visited path rest hfresh fault hread ih =>
    rw [explore, dif_neg (by rwa [FileSystem.visitKey_mapFiles])]
    split
    · rw [FileSystem.visitKey_mapFiles, ih htargets]
    · next hok =>
      rw [FileSystem.read_mapFiles_of_error change fs hread] at hok
      cases hok
  | case4 visited path rest hfresh content hread first ih =>
    obtain ⟨address, hlocate⟩ := FileSystem.read_eq_ok_iff.1 hread
    have hread' := FileSystem.read_mapFiles_of_locate change fs hlocate
    have hfirst : revisit (fs.mapFiles change).readText first =
        Visit.ofText path (Utf8.decodeLossy (change address content)) := by
      apply revisit_of_ok
      show (fs.mapFiles change).readText path = _
      rw [FileSystem.readText, hread']
      rfl
    -- With the same targets, the same paths are put on the stack.
    have hsame := htargets first List.mem_cons_self
    rw [hfirst] at hsame
    rw [explore, dif_neg (by rwa [FileSystem.visitKey_mapFiles])]
    split
    · next hfault =>
      rw [hread'] at hfault
      cases hfault
    · next found hfound =>
      rw [hread'] at hfound
      cases hfound
      show _ :: explore _ _ (targets _ _ _ ++ rest) _ = _
      rw [hsame, FileSystem.visitKey_mapFiles, List.map_cons, hfirst,
        ih fun visit hvisit => htargets visit (List.mem_cons_of_mem _ hvisit)]

/-- The walk of a disk with changed contents, and with another text of the root in memory if there
was one, if each script includes the same targets as before. -/
theorem walk_mapFiles (change : Address → List UInt8 → List UInt8) {root : Path}
    {text : Option Text} (edit : Text → Text)
    (htargets : ∀ visit ∈ walk fs vocabulary root text,
      targets (fs.mapFiles change) vocabulary
        (revisit (textOf (fs.mapFiles change) root (text.map edit)) visit) =
          targets fs vocabulary visit) :
    walk (fs.mapFiles change) vocabulary root (text.map edit) =
      (walk fs vocabulary root text).map
        (revisit (textOf (fs.mapFiles change) root (text.map edit))) := by
  cases text with
  | none => exact explore_mapFiles change htargets
  | some text =>
    have hroot : revisit (textOf (fs.mapFiles change) root (some (edit text)))
        (Visit.ofText root text) = Visit.ofText root (edit text) :=
      revisit_of_ok (by rw [textOf]; exact if_pos rfl)
    -- The other visits read the disk.
    have hothers (visit : Visit)
        (hvisit : visit ∈ explore fs vocabulary (targets fs vocabulary (Visit.ofText root text))
          [fs.visitKey root]) :
        revisit (textOf (fs.mapFiles change) root (some (edit text))) visit =
          revisit (fs.mapFiles change).readText visit := by
      rw [revisit, revisit, textOf_some_of_ne (path_ne_root hvisit)]
    have hfirst := htargets (Visit.ofText root text) List.mem_cons_self
    rw [Option.map_some] at hfirst htargets ⊢
    rw [hroot] at hfirst
    show Visit.ofText root (edit text) :: explore _ _ (targets _ _ _) _ = _
    rw [hfirst, FileSystem.visitKey_mapFiles, walk, List.map_cons, hroot, explore_mapFiles]
    · rw [List.map_congr_left hothers]
    · intro visit hvisit
      rw [← hothers visit hvisit]
      exact htargets visit (List.mem_cons_of_mem _ hvisit)

end Include

end ScriptAnalysis
