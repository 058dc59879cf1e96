import ScriptAnalysis.Proofs.Include.Closure
import ScriptAnalysis.Proofs.Validation.Document

/-!
# A root whose text is in memory

A walk whose root is in memory does not read the file of the root, and marks the root before any
other path. Whatever the file holds, the walk is the same, unless it comes to the file again under a
path with another key. All paths to the file that can be named have its address as their key, so
that this does not happen while they can. A path that can be opened, but not named, is known by its
spelling only, and the file of the root may be read after all.

* `FileSystem.canBeNamed`: whether a path can be named.
* `Include.RootHidden`, `Include.Revisits`: whether the file of the root makes no difference, and
  whether a walk comes to it again.
* `Include.rootHidden_iff`: the first is so exactly if the second is not.
* `Include.root_text_hides_file`: this, and that it is so where the paths to the root can be named.
* `Include.root_file_read`: a root whose file is read.
-/

namespace ScriptAnalysis

namespace FileSystem

/-- Whether a path can be named. Naming fails where an absolute path on the way is too long or a
directory around may not be searched, also on paths that can be opened. -/
def canBeNamed (fs : FileSystem) (path : Path) : Bool :=
  match fs.canonical path with
  | .ok _ => true
  | .error _ => false

/-- The key of a file that can be named is its address. -/
theorem visitKey_of_fileAddress? {fs : FileSystem} {path : Path} {address : Address}
    (h : fs.fileAddress? path = some address) (hnamed : fs.canBeNamed path = true) :
    fs.visitKey path = address.parts := by
  rw [fileAddress?] at h
  split at h
  · next found readable content hlocate =>
    cases h
    rw [visitKey]
    cases hcanonical : fs.canonical path with
    | ok named => rw [canonical_eq_of_locate hlocate hcanonical]
    | error fault =>
      rw [canBeNamed, hcanonical] at hnamed
      cases hnamed
  · cases h

end FileSystem

namespace Include

/-! ## The file of the root -/

/-- Whether the text of a root in memory hides the file of the root: whatever the file holds, the
visits are the same, and with them the list of the scripts and the indexes. -/
def RootHidden (fs : FileSystem) (vocabulary : Vocabulary) (root : Path) (text : Text) : Prop :=
  ∀ content : List UInt8,
    walk (fs.rewrite root content) vocabulary root (some text) =
        walk fs vocabulary root (some text) ∧
      closure (fs.rewrite root content) vocabulary root (some text) =
        closure fs vocabulary root (some text) ∧
      ∀ kind : SymbolKind, kind.index (fs.rewrite root content) vocabulary root (some text) =
        kind.index fs vocabulary root (some text)

/-- Whether a walk whose root is in memory comes to the file of the root again. -/
def Revisits (fs : FileSystem) (vocabulary : Vocabulary) (root : Path) (text : Text) : Prop :=
  ∃ visit ∈ (walk fs vocabulary root (some text)).tail,
    fs.fileAddress? visit.path = fs.fileAddress? root

variable {fs : FileSystem} {vocabulary : Vocabulary} {root : Path} {text : Text}

/-- A walk that does not come to the file of its root is the same whatever the file holds. -/
theorem rootHidden_of_not_revisits (h : ¬Revisits fs vocabulary root text) :
    RootHidden fs vocabulary root text := by
  intro content
  have hwalk : walk (fs.rewrite root content) vocabulary root (some text) =
      walk fs vocabulary root (some text) := by
    rw [walk, walk, Document.targets_rewrite, FileSystem.visitKey_rewrite,
      Document.explore_rewrite fun visit hvisit heq => h ⟨visit, hvisit, heq⟩]
  exact ⟨hwalk, by rw [closure, hwalk, closure], fun kind => by
    rw [SymbolKind.index, hwalk, SymbolKind.index]⟩

/-- A later visit of the file of the root holds what the file holds. -/
theorem lines_of_revisit {content : List UInt8} {visit : Visit}
    (hvisit : visit ∈ (walk (fs.rewrite root content) vocabulary root (some text)).tail)
    (haddress : fs.fileAddress? visit.path = fs.fileAddress? root) :
    visit.lines = codeLines (Utf8.decodeLossy content) := by
  obtain ⟨found, hread, hlines⟩ := read_of_mem_explore hvisit
  obtain ⟨old, hold⟩ := (FileSystem.exists_read_mapFiles_iff _ fs).1 ⟨found, hread⟩
  rw [FileSystem.read_rewrite_of_eq haddress hold] at hread
  cases hread
  rw [hlines]
  rfl

/-- The file of the root makes no difference exactly if the walk does not come to it again. -/
theorem rootHidden_iff :
    RootHidden fs vocabulary root text ↔ ¬Revisits fs vocabulary root text := by
  refine ⟨?_, rootHidden_of_not_revisits⟩
  rintro hhidden ⟨visit, hvisit, haddress⟩
  -- The visit would hold the lines of an empty file and those of one with a command.
  have hlines (content : List UInt8) : visit.lines = codeLines (Utf8.decodeLossy content) := by
    rw [← (hhidden content).1] at hvisit
    exact lines_of_revisit hvisit haddress
  have hdiffer : codeLines (Utf8.decodeLossy []) ≠ codeLines (Utf8.decodeLossy [120]) := by
    decide
  exact hdiffer ((hlines []).symm.trans (hlines [120]))

/-- A walk comes to other paths than the root as targets of its visits. -/
theorem exists_target_of_mem_tail {visit : Visit}
    (h : visit ∈ (walk fs vocabulary root (some text)).tail) :
    ∃ earlier ∈ walk fs vocabulary root (some text),
      visit.path ∈ targets fs vocabulary earlier := by
  rcases path_mem_of_mem_explore h with htarget | ⟨earlier, hearlier, htarget⟩
  · exact ⟨Visit.ofText root text, List.mem_cons_self, htarget⟩
  · exact ⟨earlier, List.mem_cons_of_mem _ hearlier, htarget⟩

/-- Where the root and the targets that lead to its file can be named, the walk does not come to the
file again. -/
theorem not_revisits_of_named (hroot : fs.canBeNamed root = true)
    (htargets : ∀ visit ∈ walk fs vocabulary root (some text),
      ∀ target ∈ targets fs vocabulary visit, fs.fileAddress? target = fs.fileAddress? root →
        fs.canBeNamed target = true) : ¬Revisits fs vocabulary root text := by
  rintro ⟨visit, hvisit, hsame⟩
  obtain ⟨earlier, hearlier, htarget⟩ := exists_target_of_mem_tail hvisit
  obtain ⟨content, hread, -⟩ := read_of_mem_explore hvisit
  obtain ⟨address, hlocate⟩ := FileSystem.read_eq_ok_iff.1 hread
  have haddress : fs.fileAddress? visit.path = some address := by
    rw [FileSystem.fileAddress?, hlocate]
  -- Both are known by the address of the file, but the key of the root is marked.
  have hkey : fs.visitKey visit.path = fs.visitKey root := by
    rw [FileSystem.visitKey_of_fileAddress? haddress
        (htargets earlier hearlier visit.path htarget hsame),
      FileSystem.visitKey_of_fileAddress? (hsame.symm.trans haddress) hroot]
  exact visitKey_not_mem_of_mem_explore hvisit (List.mem_singleton.2 hkey)

/-- The text of a root in memory hides the file of the root exactly if the walk does not come to the
file again. It never does where the root, and each target on the walk that leads to its file, can be
named, however often the root is included and under whatever spelling or link. -/
theorem root_text_hides_file (fs : FileSystem) (vocabulary : Vocabulary) (root : Path)
    (text : Text) :
    (RootHidden fs vocabulary root text ↔ ¬Revisits fs vocabulary root text) ∧
      (fs.canBeNamed root = true →
        (∀ visit ∈ walk fs vocabulary root (some text), ∀ target ∈ targets fs vocabulary visit,
          fs.fileAddress? target = fs.fileAddress? root → fs.canBeNamed target = true) →
        RootHidden fs vocabulary root text) := by
  refine ⟨rootHidden_iff, fun hroot htargets => ?_⟩
  exact rootHidden_of_not_revisits (not_revisits_of_named hroot htargets)

/-- A disk with a script that defines a subroutine, a link to it, and one that includes both. -/
def aliasDisk : FileSystem :=
  ⟨true, [("main.osc".toList, .file true (Utf8.encode "subroutine old\nendsubroutine\n".toList)),
    ("alias.osc".toList, .link ⟨"main.osc".toList⟩),
    ("lib.osc".toList, .file true (Utf8.encode "include ./alias\ninclude main\n".toList))], []⟩

/-- The root is included again by its link and by its name, and neither is visited. -/
theorem walk_aliasDisk :
    walk aliasDisk .standard ⟨"./main.osc".toList⟩ (some "include lib\n".toList) =
      [Visit.ofText ⟨"./main.osc".toList⟩ "include lib\n".toList,
        Visit.ofText ⟨"lib.osc".toList⟩ "include ./alias\ninclude main\n".toList] := by
  have htargets : targets aliasDisk .standard
      (Visit.ofText ⟨"./main.osc".toList⟩ "include lib\n".toList) = [⟨"lib.osc".toList⟩] := by
    decide +kernel
  show _ :: explore _ _ (targets _ _ _) _ = _
  rw [htargets, explore_of_encode "include ./alias\ninclude main\n".toList
      [⟨"alias.osc".toList⟩, ⟨"main.osc".toList⟩] (by decide +kernel) (by decide +kernel)
      (by decide +kernel),
    List.append_nil, explore_of_mem (by decide +kernel), explore_of_mem (by decide +kernel),
    explore]

/-- The file of a root that is included again under two other paths is hidden. -/
theorem root_text_hides_file_sample :
    let root : Path := ⟨"./main.osc".toList⟩
    let text := "include lib\n".toList
    aliasDisk.isFile root = true ∧ aliasDisk.canBeNamed root = true ∧
      (∀ visit ∈ walk aliasDisk .standard root (some text),
        ∀ target ∈ targets aliasDisk .standard visit,
          aliasDisk.fileAddress? target = aliasDisk.fileAddress? root →
            aliasDisk.canBeNamed target = true) ∧
      aliasDisk.fileAddress? ⟨"alias.osc".toList⟩ = aliasDisk.fileAddress? root ∧
      RootHidden aliasDisk .standard root text := by
  intro root text
  have hroot : aliasDisk.canBeNamed root = true := by decide +kernel
  have htargets : ∀ visit ∈ walk aliasDisk .standard root (some text),
      ∀ target ∈ targets aliasDisk .standard visit,
        aliasDisk.fileAddress? target = aliasDisk.fileAddress? root →
          aliasDisk.canBeNamed target = true := by
    rw [walk_aliasDisk]
    decide +kernel
  exact ⟨by decide +kernel, hroot, htargets, by decide +kernel,
    (root_text_hides_file aliasDisk .standard root text).2 hroot htargets⟩

/-- The directory that holds `objects` in `depth` directories with the longest name. -/
def nested (objects : Directory) : Nat → Directory
  | 0 => objects
  | depth + 1 =>
    [(List.replicate FileSystem.nameLimit 'd', .directory true (nested objects depth))]

/-- A disk with a script that is too deep in directories to be named, and the directory of the
script as the working directory. -/
def deepDisk : FileSystem :=
  ⟨true, nested [("main.osc".toList,
      .file true (Utf8.encode "subroutine old\nendsubroutine\n".toList))] 16,
    List.replicate 16 (List.replicate FileSystem.nameLimit 'd')⟩

/-- The script is known by its spelling, so that a walk comes to it under a second one. -/
theorem walk_deepDisk {fs : FileSystem} (content : Text)
    (hkey : ∀ path, fs.visitKey path = deepDisk.visitKey path)
    (htargets : ∀ visit, targets fs .standard visit = targets deepDisk .standard visit)
    (hread : fs.read ⟨"main.osc".toList⟩ = .ok (Utf8.encode content))
    (hnone : targets deepDisk .standard (Visit.ofText ⟨"main.osc".toList⟩ content) = []) :
    walk fs .standard ⟨"./main.osc".toList⟩ (some "include main\n".toList) =
      [Visit.ofText ⟨"./main.osc".toList⟩ "include main\n".toList,
        Visit.ofText ⟨"main.osc".toList⟩ content] := by
  have hmain : targets deepDisk .standard
      (Visit.ofText ⟨"./main.osc".toList⟩ "include main\n".toList) = [⟨"main.osc".toList⟩] := by
    decide +kernel
  have hfresh : fs.visitKey ⟨"main.osc".toList⟩ ∉ [fs.visitKey ⟨"./main.osc".toList⟩] := by
    rw [hkey, hkey]
    decide +kernel
  show _ :: explore _ _ (targets _ _ _) _ = _
  rw [htargets, hmain, explore_of_encode content [] hfresh hread ((htargets _).trans hnone),
    List.append_nil, explore]

/-- A root that is too deep in directories to be named includes itself, and what its file defines is
in the index, though the text in memory defines nothing. -/
theorem root_file_read :
    let root : Path := ⟨"./main.osc".toList⟩
    let text := "include main\n".toList
    deepDisk.isFile root = true ∧ deepDisk.canBeNamed root = false ∧
      (SymbolKind.subroutine.index deepDisk .standard root (some text)).definedNames =
        ["old".toList] ∧
      (SymbolKind.subroutine.index (deepDisk.rewrite root []) .standard root
        (some text)).definedNames = [] ∧
      ¬RootHidden deepDisk .standard root text := by
  intro root text
  have hwalk : walk deepDisk .standard root (some text) = [Visit.ofText root text,
      Visit.ofText ⟨"main.osc".toList⟩ "subroutine old\nendsubroutine\n".toList] :=
    walk_deepDisk _ (fun _ => rfl) (fun _ => rfl) (by decide +kernel) (by decide +kernel)
  have hold : deepDisk.read ⟨"main.osc".toList⟩ =
      .ok (Utf8.encode "subroutine old\nendsubroutine\n".toList) := by decide +kernel
  have hwalk' : walk (deepDisk.rewrite root []) .standard root (some text) =
      [Visit.ofText root text, Visit.ofText ⟨"main.osc".toList⟩ []] :=
    walk_deepDisk [] (fun _ => FileSystem.visitKey_rewrite) Document.targets_rewrite
      (FileSystem.read_rewrite_of_eq (by decide +kernel) hold) (by decide +kernel)
  have hdefined : (SymbolKind.subroutine.index deepDisk .standard root
      (some text)).definedNames = ["old".toList] := by
    rw [SymbolKind.index, hwalk]
    decide +kernel
  have hnone : (SymbolKind.subroutine.index (deepDisk.rewrite root []) .standard root
      (some text)).definedNames = [] := by
    rw [SymbolKind.index, hwalk']
    decide +kernel
  refine ⟨by decide +kernel, by decide +kernel, hdefined, hnone, fun hhidden => ?_⟩
  rw [(hhidden []).2.2, hdefined] at hnone
  cases hnone

end Include

end ScriptAnalysis
