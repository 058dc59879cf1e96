import ScriptAnalysis.FileSystem.Reach

/-!
# Finitely many keys

The files that can be read on a disk have finitely many keys. Either the key is the absolute path
of a file, no longer than `FileSystem.pathLimit`, or it consists of the parts of a path short enough
to be opened. All its names are names on the disk.

* `FileSystem.visitKey_mem_keys`: the key of a readable file is one of `FileSystem.keys`.
-/

namespace ScriptAnalysis

/-- All lists of at most `bound` members of `alphabet`. -/
def listsUpTo {α : Type} (alphabet : List α) : (bound : Nat) → List (List α)
  | 0 => [[]]
  | bound + 1 => [] :: alphabet.flatMap fun a => (listsUpTo alphabet bound).map (a :: ·)

/-- A short list of members of the alphabet is one of the lists. -/
theorem mem_listsUpTo {α : Type} {alphabet word : List α} {bound : Nat}
    (hlength : word.length ≤ bound) (hmem : ∀ a ∈ word, a ∈ alphabet) :
    word ∈ listsUpTo alphabet bound := by
  induction bound generalizing word with
  | zero =>
    have hnil : word = [] := List.length_eq_zero_iff.1 (Nat.le_zero.1 hlength)
    simp [listsUpTo, hnil]
  | succ bound ih =>
    cases word with
    | nil => simp [listsUpTo]
    | cons a rest =>
      have hrest : rest ∈ listsUpTo alphabet bound :=
        ih (by simpa using hlength) fun b hb => hmem b (List.mem_cons_of_mem a hb)
      simp [listsUpTo, hmem a List.mem_cons_self, hrest]

namespace Path

/-- There are no more segments than characters and one. -/
theorem length_segments_le (spelling : Text) :
    (segments spelling).length ≤ spelling.length + 1 := by
  induction spelling with
  | nil => simp [segments]
  | cons c rest ih =>
    rw [segments]
    split
    · simpa using ih
    · split
      · simp
      · next segment others hcut =>
        rw [hcut] at ih
        simp only [List.length_cons] at ih ⊢
        omega

/-- There are no more parts than segments. -/
theorem length_parts_le (path : Path) : path.parts.length ≤ (segments path.spelling).length := by
  have hfilter (texts : List Text) :
      (texts.filterMap Part.ofSegment?).length ≤ texts.length :=
    List.length_filterMap_le _ _
  unfold parts partsOf
  generalize segments path.spelling = texts
  split
  · simp
  · simp
  · simpa using hfilter _
  · simpa using hfilter _
  · exact hfilter _

/-- A segment that stands for a name asks to enter it. -/
theorem enter_of_ofSegment? {segment name : Text}
    (h : Part.ofSegment? segment = some (.name name)) :
    Step.ofSegment? segment = some (.enter name) := by
  unfold Part.ofSegment? at h
  unfold Step.ofSegment?
  split at h <;> simp_all

/-- Every name among the parts of a path is entered by one of its steps. -/
theorem enter_mem_steps {path : Path} {name : Text} (h : Part.name name ∈ path.parts) :
    Step.enter name ∈ path.steps := by
  have hcut : ∃ segment ∈ segments path.spelling, Part.ofSegment? segment = some (.name name) := by
    unfold parts partsOf at h
    split at h
    · simp at h
    · simp at h
    · next others hsegments =>
      obtain ⟨segment, hmem, hpart⟩ := by simpa using h
      exact ⟨segment, by simp [hsegments, hmem], hpart⟩
    · next others hsegments =>
      obtain ⟨segment, hmem, hpart⟩ := by simpa using h
      exact ⟨segment, by simp [hsegments, hmem], hpart⟩
    · exact List.mem_filterMap.1 h
  obtain ⟨segment, hmem, hpart⟩ := hcut
  exact List.mem_append_left _ (List.mem_filterMap.2 ⟨segment, hmem, enter_of_ofSegment? hpart⟩)

end Path

namespace FileSystem

/-- The parts that the path of a readable file may have. -/
def alphabet (fs : FileSystem) : List Part :=
  [.root, .here, .up] ++ fs.names.map .name

/-- All keys that the files of a disk may have. -/
def keys (fs : FileSystem) : List (List Part) :=
  listsUpTo fs.alphabet (pathLimit + 1)

/-- The names of the disk are parts. -/
theorem name_mem_alphabet {fs : FileSystem} {name : Text} (h : name ∈ fs.names) :
    Part.name name ∈ fs.alphabet :=
  List.mem_append_right _ (List.mem_map_of_mem h)

/-- The absolute path of a short address is a key. -/
theorem parts_mem_keys_of_shortAddress {fs : FileSystem} {address : Address}
    (h : fs.ShortAddress pathLimit address) : address.parts ∈ fs.keys := by
  refine mem_listsUpTo ?_ fun part hpart => ?_
  · simpa [Address.parts] using h.2
  · rcases List.mem_cons.1 hpart with heq | hlater
    · simp [heq, alphabet]
    · obtain ⟨name, hname, heq⟩ := List.mem_map.1 hlater
      exact heq ▸ name_mem_alphabet (h.1 (List.mem_reverse.1 hname))

/-- The parts of a path that can be opened are a key. -/
theorem parts_mem_keys_of_locate {fs : FileSystem} {path : Path} {found : Found}
    (h : fs.locate path = .ok found) : path.parts ∈ fs.keys := by
  obtain ⟨hlookUp, hsize⟩ := lookUp_of_locate h
  refine mem_listsUpTo ?_ fun part hpart => ?_
  · -- There are no more parts than bytes and one.
    have hparts := path.length_parts_le
    have hsegments := Path.length_segments_le path.spelling
    have hcharacters := Utf8.length_le_size path.spelling
    omega
  · cases part with
    | root => simp [alphabet]
    | here => simp [alphabet]
    | up => simp [alphabet]
    | name text =>
      exact name_mem_alphabet (mem_names_of_follow (onDisk_origin fs path)
        (follow_of_lookUp hlookUp) (Path.enter_mem_steps hpart))

/-- The key of a readable file is one of the keys of the disk. -/
theorem visitKey_mem_keys {fs : FileSystem} {path : Path} {content : List UInt8}
    (h : fs.read path = .ok content) : fs.visitKey path ∈ fs.keys := by
  obtain ⟨address, hlocate⟩ := read_eq_ok_iff.1 h
  unfold visitKey
  split
  · -- The absolute path of the file that was read.
    next named hcanonical =>
    cases canonical_eq_of_locate hlocate hcanonical
    exact parts_mem_keys_of_shortAddress
      (shortAddress_of_follow (onDisk_origin fs path) (follow_of_lookUp hcanonical))
  · -- A path that can be opened and yet not be named.
    exact parts_mem_keys_of_locate hlocate

end FileSystem

end ScriptAnalysis
