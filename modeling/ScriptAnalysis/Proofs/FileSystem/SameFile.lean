import ScriptAnalysis.Proofs.FileSystem.Contents
import ScriptAnalysis.Proofs.FileSystem.Spelling

/-!
# One key, one file

The key of a file is its address or, if it cannot be named, the path as it is spelled. Such a path
may spell out the address of another file. It then leads there, since no link stands above a file.
So paths of files with the same key lead to the same file, whether or not they can be named.

* `FileSystem.node?_append_eq_none`: there is nothing below what is no directory.
* `FileSystem.address_of_parts_eq`: a path that spells out the address of a file leads to it.
* `FileSystem.locate_eq_of_visitKey_eq`: paths with the same key lead to the same file.
-/

namespace ScriptAnalysis

namespace FileSystem

variable {fs : FileSystem}

/-- An address can be told by its absolute path. -/
theorem eq_of_parts_eq {left right : Address} (h : left.parts = right.parts) : left = right := by
  have hnames := (List.cons.inj h).2
  rw [List.map_reverse, List.map_reverse, List.reverse_inj] at hnames
  exact List.map_injective_iff.2 (fun _ _ heq => Part.name.inj heq) hnames

/-- Where the object at an address is no directory, there is nothing below the address. -/
theorem node?_append_eq_none {around : Address}
    (h : ∀ searchable objects, fs.node? around ≠ some (.directory searchable objects))
    (name : Text) (inner : List Text) : fs.node? (name :: (inner ++ around)) = none := by
  have hempty : (fs.trailTo (inner ++ around)).objects fs.top = [] := by
    induction inner with
    | nil =>
      cases around with
      | nil => exact absurd rfl (h _ _)
      | cons last outer =>
        rw [List.nil_append, trailTo]
        split
        · next searchable objects hfind => exact absurd hfind (h searchable objects)
        · rfl
    | cons last inner ih =>
      rw [List.cons_append, trailTo, ih]
      rfl
  rw [node?, hempty]
  rfl

/-- Steps that enter the names of the address of a file lead to the file. -/
theorem address_of_walkSteps {manner : Manner} {onLink : Trail → List Step → Except Fault Found}
    {names : List Text} {around : Address} {readable : Bool} {content : List UInt8}
    (hfile : fs.node? (names.reverse ++ around) = some (.file readable content)) {found : Found}
    (h : fs.walkSteps manner onLink (fs.trailTo around) (names.map .enter) = .ok found) :
    found.address = names.reverse ++ around := by
  induction names generalizing around with
  | nil =>
    cases h
    exact address_trailTo fs around
  | cons name names ih =>
    rw [List.reverse_cons, List.append_assoc, List.singleton_append] at hfile ⊢
    obtain ⟨-, -, -, hcases⟩ := walkSteps_enter_eq_ok_iff.1 h
    rcases hcases with ⟨searchable, objects, hfind, -, hinner⟩ | ⟨_, _, -, hend, rfl⟩ |
      ⟨target, hfind, -⟩
    · -- In a directory, the names that are left lead on to the address.
      rw [enter_trailTo hfind] at hinner
      exact ih hfile hinner
    · rw [List.map_eq_nil_iff.1 hend, address_trailTo]
      rfl
    · -- Nothing is below a link, and the link itself is no file.
      have hlink : fs.node? (name :: around) = some (.link target) := hfind
      rcases List.eq_nil_or_concat names with rfl | ⟨front, last, rfl⟩
      · rw [List.reverse_nil, List.nil_append, hlink] at hfile
        cases hfile
      · rw [List.concat_eq_append, List.reverse_append, List.reverse_singleton,
          List.singleton_append, List.cons_append, node?_append_eq_none] at hfile
        · cases hfile
        · simp [hlink]

/-- A path that spells out the address of a file leads to it, if it leads to a file at all. -/
theorem address_of_parts_eq {path : Path} {address spelled : Address} {readable readable' : Bool}
    {content content' : List UInt8}
    (hlocate : fs.locate path = .ok ⟨address, .file readable content⟩)
    (hfile : fs.node? spelled = some (.file readable' content'))
    (hparts : path.parts = spelled.parts) : address = spelled := by
  have hsteps : path.parts.filterMap Part.step? = spelled.reverse.map .enter := by
    rw [hparts, Address.parts, List.filterMap_cons_none rfl, List.filterMap_map]
    exact congrFun List.filterMap_eq_map _
  obtain ⟨name, hlast⟩ := getLast?_steps_of_isFile (isFile_iff.2 ⟨_, _, _, hlocate⟩)
  have halike : Step.Alike path.steps (spelled.reverse.map .enter) := by
    rw [← hsteps, ← Path.filter_steps]
    exact Step.Alike.filter_stay (by simp [hlast])
  have horigin : origin (fs.trailTo fs.workingDirectory) path = fs.trailTo [] := by
    have habs : path.isAbsolute = true := by simp [Path.isAbsolute_iff, hparts, Address.parts]
    rw [origin, if_pos habs, trailTo]
  have hfollow := follow_of_lookUp (lookUp_of_locate hlocate).1
  rw [horigin, follow_eq_of_alike halike, linkLimit, follow] at hfollow
  have htop : fs.node? (spelled.reverse.reverse ++ []) = some (.file readable' content') := by
    simpa using hfile
  simpa using address_of_walkSteps htop hfollow

/-- The key of a file is its address or consists of the parts of its path. -/
theorem visitKey_of_locate {path : Path} {found : Found} (h : fs.locate path = .ok found) :
    fs.visitKey path = found.address.parts ∨ fs.visitKey path = path.parts := by
  rw [visitKey]
  split
  · next named hcanonical =>
    rw [canonical_eq_of_locate h hcanonical]
    exact .inl rfl
  · exact .inr rfl

/-- Paths of files with the same key lead to the same file. -/
theorem locate_eq_of_visitKey_eq {left right : Path} (hleft : fs.isFile left = true)
    (hright : fs.isFile right = true) (hkey : fs.visitKey left = fs.visitKey right) :
    fs.locate left = fs.locate right := by
  obtain ⟨address, _, _, hlocate⟩ := isFile_iff.1 hleft
  obtain ⟨address', _, _, hlocate'⟩ := isFile_iff.1 hright
  have hnode := node?_of_locate hlocate
  have hnode' := node?_of_locate hlocate'
  have haddress : address = address' := by
    rcases visitKey_of_locate hlocate with hnamed | hspelled
    · rcases visitKey_of_locate hlocate' with hnamed' | hspelled'
      · exact eq_of_parts_eq (hnamed.symm.trans (hkey.trans hnamed'))
      · -- One can be named, and the other spells out its address.
        exact (address_of_parts_eq hlocate' hnode
          (hspelled'.symm.trans (hkey.symm.trans hnamed))).symm
    · rcases visitKey_of_locate hlocate' with hnamed' | hspelled'
      · exact address_of_parts_eq hlocate hnode' (hspelled.symm.trans (hkey.trans hnamed'))
      · -- Neither can be named, and they differ in spelling only.
        have hlookUp := lookUp_eq_of_isFile hleft hright
          (hspelled.symm.trans (hkey.trans hspelled')) .opening
        rw [(lookUp_of_locate hlocate).1, (lookUp_of_locate hlocate').1] at hlookUp
        cases hlookUp
        rfl
  subst haddress
  rw [hnode] at hnode'
  cases hnode'
  exact hlocate.trans hlocate'.symm

/-- Paths of files with the same key are read in the same way. -/
theorem read_eq_of_visitKey_eq {left right : Path} (hleft : fs.isFile left = true)
    (hright : fs.isFile right = true) (hkey : fs.visitKey left = fs.visitKey right) :
    fs.read left = fs.read right := by
  rw [read, read, locate_eq_of_visitKey_eq hleft hright hkey]

/-- A file that can be read and one that cannot have different keys. -/
theorem visitKey_ne_of_read {left right : Path} {content : List UInt8} {fault : Fault}
    (hleft : fs.read left = .ok content) (hright : fs.isFile right = true)
    (hfault : fs.read right = .error fault) : fs.visitKey left ≠ fs.visitKey right := by
  intro hkey
  rw [read_eq_of_visitKey_eq (isFile_of_read hleft) hright hkey, hfault] at hleft
  cases hleft

end FileSystem

end ScriptAnalysis
