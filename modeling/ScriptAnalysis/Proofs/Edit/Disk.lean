import ScriptAnalysis.Proofs.Edit.Text
import ScriptAnalysis.Proofs.Include.Visits
import ScriptAnalysis.Proofs.Text.Utf8

/-!
# Editing the files of a walk

The edits of several files are applied to each file that one of them leads to, and to the text of
the root if that is held in memory. A file that is reached through several paths gets the edits of
all of them.

* `FileSystem.applyEdits`: the disk after the edits.
* `Edit.onDisk`, `Edit.inRoot`: the edits of the disk, and those of the root in memory.
* `Include.textOf_applyEdits`: the text that a path has for a walk after the edits.
-/

namespace ScriptAnalysis

namespace FileSystem

/-- The edits of the file at an address. -/
def editsAt (fs : FileSystem) (edits : List Edit) (address : Address) : List Edit :=
  edits.filter fun edit =>
    (fs.locate edit.location.path).toOption.any fun found => found.address = address

/-- The disk after the edits. A file without an edit keeps its bytes. -/
def applyEdits (fs : FileSystem) (edits : List Edit) : FileSystem :=
  fs.mapFiles fun address content =>
    match fs.editsAt edits address with
    | [] => content
    | own => Utf8.encode (Text.applyEdits own (Utf8.decodeLossy content))

variable {fs : FileSystem} {edits : List Edit}

theorem locate_of_readText {path : Path} {text : Text} (h : fs.readText path = .ok text) :
    ∃ address content, fs.locate path = .ok ⟨address, .file true content⟩ ∧
      Utf8.decodeLossy content = text := by
  obtain ⟨content, hread, htext⟩ := readText_eq_ok_iff.1 h
  obtain ⟨address, hlocate⟩ := read_eq_ok_iff.1 hread
  exact ⟨address, content, hlocate, htext⟩

/-- The text of a file after the edits. -/
theorem readText_applyEdits {path : Path} {address : Address} {content : List UInt8}
    (h : fs.locate path = .ok ⟨address, .file true content⟩) :
    (fs.applyEdits edits).readText path =
      .ok (Text.applyEdits (fs.editsAt edits address) (Utf8.decodeLossy content)) := by
  rw [readText, applyEdits, read_mapFiles_of_locate _ fs h]
  show Except.ok (Utf8.decodeLossy _) = _
  cases hown : fs.editsAt edits address with
  | nil => rw [Text.applyEdits_nil]
  | cons first others => rw [Utf8.decodeLossy_encode]

/-- The edits of a file are those of its path, and others only of paths with the same text. -/
theorem exists_own_edits {path : Path} {text : Text} (hpath : fs.readText path = .ok text)
    (hedits : ∀ edit ∈ edits, ∃ found, fs.readText edit.location.path = .ok found) :
    ∃ own, (fs.applyEdits edits).readText path = .ok (Text.applyEdits own text) ∧
      (∀ edit ∈ own, edit ∈ edits ∧ fs.readText edit.location.path = .ok text) ∧
      ∀ edit ∈ edits, edit.location.path = path → edit ∈ own := by
  obtain ⟨address, content, hlocate, rfl⟩ := locate_of_readText hpath
  refine ⟨fs.editsAt edits address, readText_applyEdits hlocate, ?_, ?_⟩
  · intro edit hedit
    obtain ⟨hmem, haddress⟩ := List.mem_filter.1 hedit
    obtain ⟨found, hfound⟩ := hedits edit hmem
    obtain ⟨other, content', hlocate', rfl⟩ := locate_of_readText hfound
    rw [hlocate'] at haddress
    have heq : other = address := by simpa [Except.toOption] using haddress
    -- Two paths to one address read the same file.
    have hnode := node?_of_locate hlocate
    rw [← heq, node?_of_locate hlocate'] at hnode
    cases hnode
    exact ⟨hmem, hfound⟩
  · intro edit hedit heq
    refine List.mem_filter.2 ⟨hedit, ?_⟩
    rw [heq, hlocate]
    simp [Except.toOption]

end FileSystem

namespace Edit

/-- The edits of the disk: all but those of the root, if the text of the root is in memory. -/
def onDisk (root : Path) (text : Option Text) (edits : List Edit) : List Edit :=
  match text with
  | some _ => edits.filter (·.location.path ≠ root)
  | none => edits

/-- The edits of the root. -/
def inRoot (root : Path) (edits : List Edit) : List Edit :=
  edits.filter (·.location.path = root)

end Edit

/-- The text that a path has for a walk after the edits is its text before, edited by the edits of
the path, and by others only of paths with the same text. -/
theorem Include.textOf_applyEdits {fs : FileSystem} {root path : Path} {text : Option Text}
    {edits : List Edit} {found : Text} (hfound : textOf fs root text path = .ok found)
    (hedits : ∀ edit ∈ edits, ∃ other, textOf fs root text edit.location.path = .ok other) :
    ∃ own,
      textOf (fs.applyEdits (Edit.onDisk root text edits)) root
          (text.map (Text.applyEdits (Edit.inRoot root edits))) path =
        .ok (Text.applyEdits own found) ∧
      (∀ edit ∈ own, edit ∈ edits ∧ textOf fs root text edit.location.path = .ok found) ∧
      ∀ edit ∈ edits, edit.location.path = path → edit ∈ own := by
  cases text with
  | none => exact FileSystem.exists_own_edits hfound hedits
  | some text =>
    by_cases hroot : path = root
    · -- The root is edited in memory, and the disk does not matter.
      subst hroot
      have htext : found = text := by
        rw [textOf, if_pos rfl] at hfound
        cases hfound
        rfl
      subst htext
      refine ⟨Edit.inRoot path edits, by rw [Option.map_some, textOf, if_pos rfl], ?_, ?_⟩
      · intro edit hedit
        obtain ⟨hmem, heq⟩ := List.mem_filter.1 hedit
        rw [decide_eq_true_eq] at heq
        exact ⟨hmem, by rw [textOf, if_pos heq]⟩
      · exact fun edit hedit heq => List.mem_filter.2 ⟨hedit, decide_eq_true heq⟩
    · -- The edits of the disk do not touch the root, and neither does the path.
      rw [textOf_some_of_ne hroot] at hfound
      have hdisk : ∀ edit ∈ Edit.onDisk root (some text) edits,
          ∃ other, fs.readText edit.location.path = .ok other := by
        intro edit hedit
        obtain ⟨hmem, hne⟩ := List.mem_filter.1 hedit
        obtain ⟨other, hother⟩ := hedits edit hmem
        rw [textOf_some_of_ne (by simpa using hne)] at hother
        exact ⟨other, hother⟩
      obtain ⟨own, hown, hfrom, hall⟩ := FileSystem.exists_own_edits hfound hdisk
      refine ⟨own, ?_, ?_, ?_⟩
      · rw [Option.map_some, textOf_some_of_ne hroot]
        exact hown
      · intro edit hedit
        obtain ⟨hmem, hread⟩ := hfrom edit hedit
        obtain ⟨hmem, hne⟩ := List.mem_filter.1 hmem
        rw [textOf_some_of_ne (by simpa using hne)]
        exact ⟨hmem, hread⟩
      · intro edit hedit heq
        refine hall edit (List.mem_filter.2 ⟨hedit, ?_⟩) heq
        rw [heq]
        exact decide_eq_true hroot

end ScriptAnalysis
