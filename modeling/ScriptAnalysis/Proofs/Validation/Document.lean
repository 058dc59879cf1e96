import ScriptAnalysis.Proofs.Include.Footprint
import ScriptAnalysis.Validation.Validate

/-!
# The validated script on the disk

A script is validated as the text that is given, and its own file on the disk should not matter. It
matters in one case only: when the script is reached again from the scripts that it includes. The
walk from such a script reads the file, and what the file defines may then be called.

* `FileSystem.rewrite`: the disk with another content in one file.
* `Document.Reenters`: whether a script is reached again from its includes.
* `Document.validate_rewrite`: without that, its own file makes no difference to the diagnostics;
  with it, only calls of unknown subroutines may come or go.
* `Document.validate_own_file`: a script whose file does make a difference.
-/

namespace ScriptAnalysis

namespace FileSystem

/-- The address of the file that a path leads to. -/
def fileAddress? (fs : FileSystem) (path : Path) : Option Address :=
  match fs.locate path with
  | .ok ⟨address, .file _ _⟩ => some address
  | _ => none

/-- The disk with `content` in the file that a path leads to. -/
def rewrite (fs : FileSystem) (path : Path) (content : List UInt8) : FileSystem :=
  fs.mapFiles fun address old => if fs.fileAddress? path = some address then content else old

variable {fs : FileSystem} {path other : Path} {content : List UInt8}

@[simp]
theorem visitKey_rewrite : (fs.rewrite path content).visitKey other = fs.visitKey other :=
  visitKey_mapFiles _ fs other

@[simp]
theorem isFile_rewrite : (fs.rewrite path content).isFile = fs.isFile :=
  funext (isFile_mapFiles _ fs)

/-- The file is read with the new content, if it can be read. -/
theorem read_rewrite_of_eq (h : fs.fileAddress? other = fs.fileAddress? path)
    {old : List UInt8} (hread : fs.read other = .ok old) :
    (fs.rewrite path content).read other = .ok content := by
  obtain ⟨address, hlocate⟩ := read_eq_ok_iff.1 hread
  have hother : fs.fileAddress? other = some address := by rw [fileAddress?, hlocate]
  rw [rewrite, read_mapFiles_of_locate _ fs hlocate, if_pos (h.symm.trans hother)]

/-- Any other file is read as before. -/
theorem read_rewrite_of_ne (h : fs.fileAddress? other ≠ fs.fileAddress? path) :
    (fs.rewrite path content).read other = fs.read other := by
  cases hread : fs.read other with
  | error fault => exact read_mapFiles_of_error _ fs hread
  | ok old =>
    obtain ⟨address, hlocate⟩ := read_eq_ok_iff.1 hread
    have hother : fs.fileAddress? other = some address := by rw [fileAddress?, hlocate]
    rw [rewrite, read_mapFiles_of_locate _ fs hlocate, if_neg fun heq => h (hother.trans heq.symm)]

/-- The new content makes no difference to the key of a path, nor to whether it can be read. -/
theorem alike_rewrite : Alike fs (fs.rewrite path content) other := by
  refine ⟨visitKey_rewrite, ?_⟩
  cases hread : fs.read other with
  | error fault =>
    rw [rewrite, read_mapFiles_of_error _ fs hread]
  | ok old =>
    obtain ⟨address, hlocate⟩ := read_eq_ok_iff.1 hread
    rw [rewrite, read_mapFiles_of_locate _ fs hlocate]
    rfl

end FileSystem

namespace Document

variable (fs : FileSystem) (vocabulary : Vocabulary) (path : Path)

/-- The instructions of a text with a known command. -/
def known (text : Text) : List Instruction :=
  (Instruction.ofText text).filter fun instruction => vocabulary.isKnown instruction.name

/-- Whether the script at `path` with the content `text` is reached again from one of the scripts
that it includes. -/
def Reenters (text : Text) : Prop :=
  ∃ target ∈ (known vocabulary text).filterMap (·.included? fs vocabulary path),
    ∃ visit ∈ Include.walk fs vocabulary target none,
      fs.fileAddress? visit.path = fs.fileAddress? path

/-- Whether a diagnostic is about the call of an unknown subroutine. -/
def isUnknownCall (diagnostic : Diagnostic) : Bool :=
  match diagnostic.problem with
  | .unknownSubroutine _ => true
  | _ => false

variable {fs vocabulary path} {content : List UInt8}

/-- Includes are resolved in the same way whatever a file holds. -/
@[simp]
theorem resolve_rewrite (base : Path) (argument : Text) :
    Include.resolve (fs.rewrite path content) vocabulary base argument =
      Include.resolve fs vocabulary base argument := by
  rw [Include.resolve, FileSystem.isFile_rewrite, Include.resolve]

@[simp]
theorem targets_rewrite (visit : Visit) :
    Include.targets (fs.rewrite path content) vocabulary visit =
      Include.targets fs vocabulary visit := by
  apply List.filterMap_congr
  intro code hcode
  simp only [Include.target?, resolve_rewrite]

@[simp]
theorem included?_rewrite (instruction : Instruction) :
    instruction.included? (fs.rewrite path content) vocabulary path =
      instruction.included? fs vocabulary path := by
  rw [Instruction.included?, resolve_rewrite, Instruction.included?]

/-- Pending paths that do not lead to a file lead to the same visits whatever the file holds. -/
theorem explore_rewrite {pending : List Path} {visited : List (List Part)}
    (h : ∀ visit ∈ Include.explore fs vocabulary pending visited,
      fs.fileAddress? visit.path ≠ fs.fileAddress? path) :
    Include.explore (fs.rewrite path content) vocabulary pending visited =
      Include.explore fs vocabulary pending visited := by
  -- Only contents differ, and no visited file is the one with another content.
  refine Include.explore_congr (fun _ _ => FileSystem.alike_rewrite) fun visit hvisit => ?_
  exact ⟨FileSystem.read_rewrite_of_ne (h visit hvisit), targets_rewrite visit,
    fun _ _ => FileSystem.alike_rewrite⟩

/-- A walk that does not come to a file is the same whatever the file holds. -/
theorem walk_rewrite {target : Path}
    (h : ∀ visit ∈ Include.walk fs vocabulary target none,
      fs.fileAddress? visit.path ≠ fs.fileAddress? path) :
    Include.walk (fs.rewrite path content) vocabulary target none =
      Include.walk fs vocabulary target none :=
  explore_rewrite h

/-- A script that is not reached again may call the same subroutines whatever its file holds. -/
theorem visibleSubroutines_rewrite {text : Text} (h : ¬Reenters fs vocabulary path text) :
    visibleSubroutines (fs.rewrite path content) vocabulary path (known vocabulary text) =
      visibleSubroutines fs vocabulary path (known vocabulary text) := by
  simp only [visibleSubroutines, included?_rewrite]
  congr 1
  apply List.flatMap_congr
  intro target htarget
  rw [List.mem_eraseDups] at htarget
  rw [closureSubroutines, closureSubroutines, SymbolKind.index, SymbolKind.index, walk_rewrite]
  exact fun visit hvisit heq => h ⟨target, htarget, visit, hvisit, heq⟩

/-- The diagnostics of a script that need no other script to be read. -/
def ownProblems (fs : FileSystem) (vocabulary : Vocabulary) (path : Path) (text : Text) :
    List Diagnostic :=
  (Blocks.scan vocabulary [] (Instruction.ofText text)).1 ++
    (Blocks.scan vocabulary [] (Instruction.ofText text)).2.reverse.map Blocks.unclosed ++
    (known vocabulary text).filterMap (·.missingInclude? fs vocabulary path)

/-- The diagnostics of a script are its own problems, and then its calls of unknown subroutines. -/
theorem validate_eq_append (fs : FileSystem) (vocabulary : Vocabulary) (path : Path)
    (text : Text) :
    validate fs vocabulary path text =
      ownProblems fs vocabulary path text ++
        (known vocabulary text).filterMap (·.unknownCall? vocabulary
          (visibleSubroutines fs vocabulary path (known vocabulary text))) :=
  rfl

theorem ownProblems_rewrite (text : Text) :
    ownProblems (fs.rewrite path content) vocabulary path text =
      ownProblems fs vocabulary path text := by
  simp only [ownProblems, Instruction.missingInclude?, resolve_rewrite]

theorem isUnknownCall_of_unknownCall? {visible : List Text} {instruction : Instruction}
    {diagnostic : Diagnostic} (h : instruction.unknownCall? vocabulary visible = some diagnostic) :
    isUnknownCall diagnostic = true := by
  simp only [Instruction.unknownCall?] at h
  split at h
  · split at h
    · split at h
      · cases h
      · cases h
        rfl
    · cases h
  · cases h

/-- The validated text is the only version of a script that counts, unless the script is reached
again from the scripts that it includes: its own file makes no difference to the diagnostics. Even
then, nothing but calls of unknown subroutines may come or go. -/
theorem validate_rewrite (fs : FileSystem) (vocabulary : Vocabulary) (path : Path) (text : Text)
    (content : List UInt8) :
    ((validate (fs.rewrite path content) vocabulary path text).filter (!isUnknownCall ·) =
      (validate fs vocabulary path text).filter (!isUnknownCall ·)) ∧
    (¬Reenters fs vocabulary path text →
      validate (fs.rewrite path content) vocabulary path text =
        validate fs vocabulary path text) := by
  -- The last group of diagnostics is about calls, and the groups before it are the script's own.
  have hcalls (visible : List Text) :
      ((known vocabulary text).filterMap (·.unknownCall? vocabulary visible)).filter
        (!isUnknownCall ·) = [] := by
    rw [List.filter_eq_nil_iff]
    intro diagnostic hdiagnostic
    obtain ⟨instruction, -, hcall⟩ := List.mem_filterMap.1 hdiagnostic
    simp [isUnknownCall_of_unknownCall? hcall]
  refine ⟨?_, fun hnever => ?_⟩
  · simp only [validate_eq_append, List.filter_append, hcalls, ownProblems_rewrite]
  · rw [validate_eq_append, validate_eq_append, ownProblems_rewrite,
      visibleSubroutines_rewrite hnever]

/-- A disk with a script that defines a subroutine, one that includes it, and an empty one. -/
def sampleDisk : FileSystem :=
  ⟨true,
    [("main.osc".toList, .file true (Utf8.encode "subroutine old\nendsubroutine\n".toList)),
      ("lib.osc".toList, .file true (Utf8.encode "include main\n".toList)),
      ("empty.osc".toList, .file true [])], []⟩

/-- A text that includes a script and calls a subroutine. -/
def sampleText : Text :=
  "include lib\ngosub old\n".toList

/-- The walk from the included script goes on to the one with the subroutine. -/
theorem walk_sampleDisk :
    Include.walk sampleDisk .standard ⟨"lib.osc".toList⟩ none =
      [Visit.ofText ⟨"lib.osc".toList⟩ "include main\n".toList,
        Visit.ofText ⟨"main.osc".toList⟩ "subroutine old\nendsubroutine\n".toList] := by
  apply Include.walk_pair
  all_goals decide +kernel

/-- The same walk when the other script is empty. -/
theorem walk_sampleDisk_rewrite :
    Include.walk (sampleDisk.rewrite ⟨"main.osc".toList⟩ []) .standard ⟨"lib.osc".toList⟩ none =
      [Visit.ofText ⟨"lib.osc".toList⟩ "include main\n".toList,
        Visit.ofText ⟨"main.osc".toList⟩ []] := by
  apply Include.walk_pair
  · rw [FileSystem.read_rewrite_of_ne (by decide +kernel)]
    decide +kernel
  · have hold : sampleDisk.read ⟨"main.osc".toList⟩ =
        .ok (Utf8.encode "subroutine old\nendsubroutine\n".toList) := by decide +kernel
    exact FileSystem.read_rewrite_of_eq rfl hold
  · rw [FileSystem.visitKey_rewrite, FileSystem.visitKey_rewrite]
    decide +kernel
  · rw [targets_rewrite]
    decide +kernel
  · rw [targets_rewrite]
    decide +kernel

/-- The sample text at a path that the included script does not lead back to. -/
theorem validate_rewrite_sample :
    ¬Reenters sampleDisk .standard ⟨"empty.osc".toList⟩ sampleText ∧
    validate (sampleDisk.rewrite ⟨"empty.osc".toList⟩ (Utf8.encode sampleText)) .standard
        ⟨"empty.osc".toList⟩ sampleText =
      validate sampleDisk .standard ⟨"empty.osc".toList⟩ sampleText := by
  have hincluded : (known .standard sampleText).filterMap
      (·.included? sampleDisk .standard ⟨"empty.osc".toList⟩) = [⟨"lib.osc".toList⟩] := by
    decide +kernel
  have hnever : ¬Reenters sampleDisk .standard ⟨"empty.osc".toList⟩ sampleText := by
    rw [Reenters, hincluded]
    rintro ⟨target, htarget, visit, hvisit, heq⟩
    cases List.mem_singleton.1 htarget
    rw [walk_sampleDisk] at hvisit
    have hapart : ∀ visit ∈ [Visit.ofText ⟨"lib.osc".toList⟩ "include main\n".toList,
        Visit.ofText ⟨"main.osc".toList⟩ "subroutine old\nendsubroutine\n".toList],
        sampleDisk.fileAddress? visit.path ≠ sampleDisk.fileAddress? ⟨"empty.osc".toList⟩ := by
      decide +kernel
    exact hapart visit hvisit heq
  exact ⟨hnever, (validate_rewrite sampleDisk .standard _ sampleText _).2 hnever⟩

/-- The sample text at the path of the script that the included one leads back to. What the file
there defines may be called, though the text does not define it; with the file empty, the call is
reported. -/
theorem validate_own_file :
    sampleDisk.isFile ⟨"main.osc".toList⟩ = true ∧
    validate sampleDisk .standard ⟨"main.osc".toList⟩ sampleText = [] ∧
    validate (sampleDisk.rewrite ⟨"main.osc".toList⟩ []) .standard ⟨"main.osc".toList⟩ sampleText =
      [⟨⟨1, 6, 9⟩, .unknownSubroutine "old".toList⟩] := by
  have hincluded : (known .standard sampleText).filterMap
      (·.included? sampleDisk .standard ⟨"main.osc".toList⟩) = [⟨"lib.osc".toList⟩] := by
    decide +kernel
  have hvisible : visibleSubroutines sampleDisk .standard ⟨"main.osc".toList⟩
      (known .standard sampleText) = ["old".toList] := by
    rw [visibleSubroutines, hincluded]
    show _ ++ (closureSubroutines sampleDisk .standard ⟨"lib.osc".toList⟩ ++ []) = _
    rw [closureSubroutines, SymbolKind.index, walk_sampleDisk]
    decide +kernel
  have hnone : visibleSubroutines (sampleDisk.rewrite ⟨"main.osc".toList⟩ []) .standard
      ⟨"main.osc".toList⟩ (known .standard sampleText) = [] := by
    simp only [visibleSubroutines, included?_rewrite, hincluded]
    show _ ++ (closureSubroutines _ .standard ⟨"lib.osc".toList⟩ ++ []) = _
    rw [closureSubroutines, SymbolKind.index, walk_sampleDisk_rewrite]
    decide +kernel
  refine ⟨by decide +kernel, ?_, ?_⟩
  · rw [validate_eq_append, hvisible]
    decide +kernel
  · rw [validate_eq_append, hnone, ownProblems_rewrite]
    decide +kernel

end Document

end ScriptAnalysis
