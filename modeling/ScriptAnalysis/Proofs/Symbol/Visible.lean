import Mathlib.Data.List.Basic
import ScriptAnalysis.Proofs.Include.Reach
import ScriptAnalysis.Proofs.Symbol.Occurrence

/-!
# Visible subroutines

A subroutine is visible from a script if the script defines it or a chain of includes leads from the
script to one that does. On a disk without links, these are the subroutines that the index of the
script has a definition of, under whatever paths the scripts on the way are reached.

* `definedName?`: the subroutine that a line defines.
* `Include.Visible`: whether a subroutine is defined at the end of a chain of includes.
* `SymbolKind.isDefined_index_iff`: the index has a definition of the visible subroutines.
* `Include.VisibleIn`, `SymbolKind.isDefined_index_some_iff`: the same for a text in memory, whose
  file need not be one that can be read.
-/

namespace ScriptAnalysis

/-! ## Subroutines on a line -/

section Line

variable (vocabulary : Vocabulary)

/-- The subroutine that a line defines. -/
def definedName? (code : CodeLine) : Option Text :=
  if code.commandName = vocabulary.subroutineKeyword then
    code.argument?.bind fun token => subroutineName? token.text
  else none

variable {vocabulary} {path : Path} {code : CodeLine}

/-- A line defines the name of its occurrence, if that is a definition. -/
theorem definedName?_eq_some_iff (path : Path) {name : Text} :
    definedName? vocabulary code = some name ↔
      ∃ found, subroutineOccurrence? vocabulary path code = some found ∧
        found.usage = .definition ∧ found.name = name := by
  rw [definedName?, subroutineOccurrence?, subroutineUsage?]
  cases code.argument? with
  | none => split <;> simp
  | some token =>
    cases hname : subroutineName? token.text with
    | none => simp [hname]
    | some found =>
      split
      · simp [hname]
      · split <;> simp [hname]

/-- The occurrence on a line of a file is in this file. -/
theorem path_of_subroutineOccurrence? {found : Occurrence}
    (h : subroutineOccurrence? vocabulary path code = some found) :
    found.location.path = path := by
  obtain ⟨usage, -, hargument⟩ := Option.bind_eq_some_iff.1 h
  obtain ⟨token, -, hname⟩ := Option.bind_eq_some_iff.1 hargument
  obtain ⟨name, -, rfl⟩ := Option.map_eq_some_iff.1 hname
  rfl

end Line

namespace SymbolKind

variable {fs : FileSystem} {vocabulary : Vocabulary} {root : Path} {text : Option Text}

/-- The occurrences of subroutines in some scripts, line by line. -/
theorem occurrencesIn_subroutine (visits : List Visit) :
    subroutine.occurrencesIn vocabulary visits =
      visits.flatMap fun visit =>
        visit.lines.filterMap (subroutineOccurrence? vocabulary visit.path) := by
  apply List.flatMap_congr
  intro visit hvisit
  rw [List.filterMap_eq_flatMap_toList]
  rfl

/-- If no other visit has the parts of the root, the occurrences in the root are those on the lines
of its text. -/
theorem filter_occurrences_of_parts_ne {path : Path} {text : Text}
    (hothers : ∀ visit ∈ Include.explore fs vocabulary
      (Include.targets fs vocabulary (Visit.ofText path text)) [fs.visitKey path],
      visit.path.parts ≠ path.parts)
    (wanted : Occurrence → Prop) [DecidablePred wanted] :
    (subroutine.occurrencesIn vocabulary
        (Include.walk fs vocabulary path (some text))).filter (fun found =>
          found.location.path.parts = path.parts ∧ wanted found) =
      ((codeLines text).filterMap (subroutineOccurrence? vocabulary path)).filter
        fun found => wanted found := by
  rw [Include.walk, occurrencesIn_subroutine, List.flatMap_cons, List.filter_append]
  refine (congrArg₂ (· ++ ·) (List.filter_congr fun found hfound => ?_)
    (List.filter_eq_nil_iff.2 fun found hfound => ?_)).trans (List.append_nil _)
  · obtain ⟨code, -, hoccurrence⟩ := List.mem_filterMap.1 hfound
    have hpath : found.location.path = path := path_of_subroutineOccurrence? hoccurrence
    simp [hpath]
  · obtain ⟨visit, hvisit, hline⟩ := List.mem_flatMap.1 hfound
    obtain ⟨code, -, hoccurrence⟩ := List.mem_filterMap.1 hline
    have hpath : found.location.path = visit.path := path_of_subroutineOccurrence? hoccurrence
    simp [hpath, hothers visit hvisit]

/-- A subroutine is defined in an index if a line of a visited script defines it. -/
theorem isDefined_index_iff_exists {name : Text} :
    (subroutine.index fs vocabulary root text).isDefined name = true ↔
      ∃ visit ∈ Include.walk fs vocabulary root text, ∃ code ∈ visit.lines,
        definedName? vocabulary code = some name := by
  rw [(holds_index subroutine fs vocabulary root text).isDefined_iff, occurrencesIn_subroutine]
  constructor
  · rintro ⟨found, hfound, husage, hname⟩
    obtain ⟨visit, hvisit, hline⟩ := List.mem_flatMap.1 hfound
    obtain ⟨code, hcode, hoccurrence⟩ := List.mem_filterMap.1 hline
    exact ⟨visit, hvisit, code, hcode,
      (definedName?_eq_some_iff visit.path).2 ⟨found, hoccurrence, husage, hname⟩⟩
  · rintro ⟨visit, hvisit, code, hcode, hdefines⟩
    obtain ⟨found, hoccurrence, husage, hname⟩ :=
      (definedName?_eq_some_iff visit.path).1 hdefines
    exact ⟨found, List.mem_flatMap.2 ⟨visit, hvisit, List.mem_filterMap.2
      ⟨code, hcode, hoccurrence⟩⟩, husage, hname⟩

end SymbolKind

/-! ## Subroutines behind includes -/

namespace Include

variable (fs : FileSystem) (vocabulary : Vocabulary)

/-- Whether the script at `path` on the disk defines a subroutine. -/
def Defines (path : Path) (name : Text) : Prop :=
  ∃ text, fs.readText path = .ok text ∧ ∃ code ∈ codeLines text,
    definedName? vocabulary code = some name

/-- Whether a chain of includes leads from the script at `path` to one that defines a subroutine. -/
def Visible (path : Path) (name : Text) : Prop :=
  ∃ other, Reaches fs vocabulary path other ∧ Defines fs vocabulary other name

variable {fs vocabulary} {path : Path} {name : Text}

/-- A script that defines a subroutine can be read. -/
theorem Defines.exists_read (h : Defines fs vocabulary path name) :
    ∃ content, fs.read path = .ok content := by
  obtain ⟨text, htext, -⟩ := h
  obtain ⟨content, hread, -⟩ := FileSystem.readText_eq_ok_iff.1 htext
  exact ⟨content, hread⟩

/-- All paths of a file define the same subroutines. -/
theorem Defines.of_visitKey_eq {other : Path} (hother : fs.isFile other = true)
    (hpath : fs.isFile path = true) (hkey : fs.visitKey other = fs.visitKey path)
    (h : Defines fs vocabulary path name) : Defines fs vocabulary other name := by
  obtain ⟨text, htext, hcode⟩ := h
  exact ⟨text, (readText_eq_of_visitKey_eq hother hpath hkey).trans htext, hcode⟩

/-- If a listed path has the key of a script that defines a subroutine, a visited line does too. -/
theorem Defines.exists_visit {root listed : Path} {text : Option Text}
    (hlisted : listed ∈ closure fs vocabulary root text)
    (htext : ∀ found, fs.readText listed = .ok found → textOf fs root text listed = .ok found)
    (hfile : fs.isFile listed = true) (hpath : fs.isFile path = true)
    (hkey : fs.visitKey listed = fs.visitKey path) (h : Defines fs vocabulary path name) :
    ∃ visit ∈ walk fs vocabulary root text, ∃ code ∈ visit.lines,
      definedName? vocabulary code = some name := by
  obtain ⟨found, hfound, code, hcode, hname⟩ := h.of_visitKey_eq hfile hpath hkey
  obtain ⟨visit, hvisit, rfl⟩ := List.mem_map.1 hlisted
  obtain ⟨found', hfound', hlines⟩ := lines_of_mem_walk hvisit
  rw [htext found hfound, Except.ok.injEq] at hfound'
  exact ⟨visit, hvisit, code, by rw [hlines, ← hfound']; exact hcode, hname⟩

end Include

/-- On a disk without links, the index of a script has a definition of the visible subroutines. -/
theorem SymbolKind.isDefined_index_iff {fs : FileSystem} {vocabulary : Vocabulary} {path : Path}
    {name : Text} (hfree : fs.LinkFree) (habs : path.isAbsolute = true)
    (hfile : fs.isFile path = true) :
    (subroutine.index fs vocabulary path none).isDefined name = true ↔
      Include.Visible fs vocabulary path name := by
  rw [isDefined_index_iff_exists]
  constructor
  · rintro ⟨visit, hvisit, code, hcode, hname⟩
    obtain ⟨text, htext, hlines⟩ := Include.lines_of_mem_walk hvisit
    exact ⟨visit.path, Include.reaches_of_mem_walk hvisit, text, htext, code, hlines ▸ hcode, hname⟩
  · rintro ⟨other, hreaches, hdefines⟩
    -- The file is listed under some path, and its lines are the same there.
    obtain ⟨content, hread⟩ := hdefines.exists_read
    obtain ⟨listed, hlisted, hkey⟩ := Include.exists_listed_of_reaches
      (Include.spellingFree_of_linkFree hfree hfile habs) hreaches hread
    have hchain := Include.reaches_of_mem_closure hlisted
    exact hdefines.exists_visit hlisted (fun _ hfound => hfound) (hchain.isFile hfile)
      (hreaches.isFile hfile) hkey

/-! ## A root whose text is in memory -/

namespace FileSystem

/-- The text of the regular file that a path leads to, whether or not the file may be opened. -/
def fileText? (fs : FileSystem) (path : Path) : Option Text :=
  match fs.locate path with
  | .ok ⟨_, .file _ content⟩ => some (Utf8.decodeLossy content)
  | _ => none

variable {fs : FileSystem} {path : Path} {text : Text}

theorem isFile_of_fileText? (h : fs.fileText? path = some text) : fs.isFile path = true := by
  rw [fileText?] at h
  split at h
  · next address readable content hlocate =>
    exact isFile_iff.2 ⟨address, readable, content, hlocate⟩
  · cases h

/-- A text that is read is that of the file. -/
theorem fileText?_of_readText (h : fs.readText path = .ok text) :
    fs.fileText? path = some text := by
  obtain ⟨content, hread, htext⟩ := readText_eq_ok_iff.1 h
  obtain ⟨address, hlocate⟩ := read_eq_ok_iff.1 hread
  rw [fileText?, hlocate, ← htext]

end FileSystem

namespace Include

/-- Whether a subroutine is defined in a text at `path`, or visible from a script that the text
includes. -/
def VisibleIn (fs : FileSystem) (vocabulary : Vocabulary) (path : Path) (text name : Text) : Prop :=
  (∃ code ∈ codeLines text, definedName? vocabulary code = some name) ∨
    ∃ target ∈ targets fs vocabulary (Visit.ofText path text), Visible fs vocabulary target name

section Memory

variable {fs : FileSystem} {vocabulary : Vocabulary} {root : Path} {text : Text}
  (htext : fs.fileText? root = some text)

include htext

/-- A walk whose root is in memory with the text of its file finds the text of every file that can
be read. -/
theorem textOf_of_readText {path : Path} {found : Text} (h : fs.readText path = .ok found) :
    textOf fs root (some text) path = .ok found := by
  by_cases hpath : path = root
  · have hfound := FileSystem.fileText?_of_readText h
    rw [hpath, htext, Option.some.injEq] at hfound
    rw [textOf, if_pos hpath, hfound]
  · rw [textOf_some_of_ne hpath, h]

variable (habs : root.isAbsolute = true)

include habs

/-- The targets of an absolute root are absolute paths of files. -/
theorem isAbsolute_and_isFile_of_mem_targets {target : Path}
    (h : target ∈ targets fs vocabulary (Visit.ofText root text)) :
    target.isAbsolute = true ∧ fs.isFile target = true := by
  obtain ⟨code, -, htarget⟩ := List.mem_filterMap.1 h
  exact ⟨isAbsolute_of_target? habs (FileSystem.isFile_of_fileText? htext) htarget,
    isFile_of_target? htarget⟩

/-- All paths that are listed are absolute paths of files. -/
theorem isAbsolute_and_isFile_of_mem_closure {path : Path}
    (h : path ∈ closure fs vocabulary root (some text)) :
    path.isAbsolute = true ∧ fs.isFile path = true := by
  obtain ⟨visit, hvisit, rfl⟩ := List.mem_map.1 h
  rcases List.mem_cons.1 hvisit with rfl | hlater
  · exact ⟨habs, FileSystem.isFile_of_fileText? htext⟩
  · refine forall_mem_explore (P := fun path => path.isAbsolute = true ∧ fs.isFile path = true)
      (fun path target hpath hincludes => ?_)
      (fun target htarget => isAbsolute_and_isFile_of_mem_targets htext habs htarget) hlater
    exact ⟨hincludes.isAbsolute hpath.1, hincludes.isFile⟩

variable (hfree : fs.LinkFree)

include hfree

/-- On a disk without links, the walk visits every file that a chain of includes leads to from one
of the targets of the root, if the file can be read. -/
theorem exists_listed_of_mem_targets {target path : Path}
    (htarget : target ∈ targets fs vocabulary (Visit.ofText root text))
    (h : Reaches fs vocabulary target path) {content : List UInt8}
    (hread : fs.read path = .ok content) :
    ∃ listed ∈ closure fs vocabulary root (some text), fs.visitKey listed = fs.visitKey path := by
  obtain ⟨htargetAbs, htargetFile⟩ := isAbsolute_and_isFile_of_mem_targets htext habs htarget
  induction h generalizing content with
  | refl =>
    have hroot : Visit.ofText root text ∈ walk fs vocabulary root (some text) := List.mem_cons_self
    exact exists_listed_of_includes (List.mem_map_of_mem hroot)
      ((mem_targets_iff hroot).1 htarget) hread
  | @tail middle path hmiddle hincludes ih =>
    -- The last include is repeated under the path by which its script is listed.
    obtain ⟨content', hread'⟩ := hincludes.exists_read
    obtain ⟨listed, hlisted, hkey⟩ := ih hread'
    obtain ⟨hlistedAbs, hlistedFile⟩ := isAbsolute_and_isFile_of_mem_closure htext habs hlisted
    obtain ⟨found, hfound, code, hcode, hresolved⟩ :=
      includes_of_visitKey_eq hfree (Reaches.isAbsolute hmiddle htargetAbs) hlistedAbs
        (Reaches.isFile hmiddle htargetFile) hlistedFile hkey hincludes
    exact exists_listed_of_includes hlisted
      ⟨found, textOf_of_readText htext hfound, code, hcode, hresolved⟩ hread

end Memory

end Include

/-- On a disk without links, the index of a root in memory, with the text of its file, has a
definition of the subroutines that are visible in the text. The file need not be one that can be
read. -/
theorem SymbolKind.isDefined_index_some_iff {fs : FileSystem} {vocabulary : Vocabulary}
    {path : Path} {text name : Text} (hfree : fs.LinkFree) (habs : path.isAbsolute = true)
    (htext : fs.fileText? path = some text) :
    (subroutine.index fs vocabulary path (some text)).isDefined name = true ↔
      Include.VisibleIn fs vocabulary path text name := by
  rw [isDefined_index_iff_exists]
  constructor
  · rintro ⟨visit, hvisit, code, hcode, hname⟩
    rcases List.mem_cons.1 hvisit with rfl | hlater
    · exact .inl ⟨code, hcode, hname⟩
    · -- A chain of includes leads from a target of the root to every later visit.
      obtain ⟨target, htarget, hreaches⟩ := Include.forall_mem_explore
        (P := fun other => ∃ target ∈ Include.targets fs vocabulary (Visit.ofText path text),
          Include.Reaches fs vocabulary target other)
        (fun _ _ ⟨target, htarget, hreaches⟩ hincludes =>
          ⟨target, htarget, hreaches.tail hincludes⟩)
        (fun target htarget => ⟨target, htarget, .refl⟩) hlater
      obtain ⟨found, hfound, hlines⟩ := Include.lines_of_mem_walk hvisit
      rw [Include.textOf_some_of_ne (Include.path_ne_root hlater)] at hfound
      exact .inr ⟨target, htarget, visit.path, hreaches, found, hfound, code, hlines ▸ hcode, hname⟩
  · rintro (⟨code, hcode, hname⟩ | ⟨target, htarget, other, hreaches, hdefines⟩)
    · exact ⟨_, List.mem_cons_self, code, hcode, hname⟩
    · -- The file is listed under some path, and its lines are the same there.
      obtain ⟨content, hread⟩ := hdefines.exists_read
      obtain ⟨listed, hlisted, hkey⟩ :=
        Include.exists_listed_of_mem_targets htext habs hfree htarget hreaches hread
      have hfile := (Include.isAbsolute_and_isFile_of_mem_closure htext habs hlisted).2
      exact hdefines.exists_visit hlisted (fun _ => Include.textOf_of_readText htext) hfile
        (hreaches.isFile (Include.isFile_of_mem_targets htarget)) hkey

end ScriptAnalysis
