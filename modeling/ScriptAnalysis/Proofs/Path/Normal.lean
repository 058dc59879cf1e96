import ScriptAnalysis.Proofs.Path.Parts

/-!
# Normal forms of computed paths

What an include argument may mean is the normal form of the argument as seen from the directory of
its file. It depends only on the normal form of that directory, and it is absolute if the path of
the file is.

* `Path.normalParts_append`: the normal form of parts that follow others.
* `Path.normalParts_join`: the normal form of a joined path.
* `Include.candidates_eq_of_normalParts_eq`: what an include may mean, from the normal form of the
  directory.
* `Include.isAbsolute_of_mem_candidates`: an absolute path includes absolute paths.
-/

namespace ScriptAnalysis

namespace Path

@[simp]
theorem reverse_normalParts (parts : List Part) :
    (normalParts parts).reverse = parts.foldl cancel [] :=
  List.reverse_reverse _

/-- Parts that follow others are added to the normal form of these. -/
theorem normalParts_append (left right : List Part) :
    normalParts (left ++ right) = (right.foldl cancel (normalParts left).reverse).reverse := by
  rw [normalParts, List.foldl_append, reverse_normalParts]

/-- A name at the end stays at the end. -/
theorem normalParts_concat_name (parts : List Part) (text : Text) :
    normalParts (parts ++ [.name text]) = normalParts parts ++ [.name text] := by
  rw [normalParts_append, reverse_normalParts]
  simp [normalParts, cancel]

/-- The root at the bottom of a stack of parts stays there. -/
theorem getLast?_cancel {stack : List Part} (h : stack.getLast? = some .root) (part : Part) :
    (cancel stack part).getLast? = some .root := by
  unfold cancel
  split
  · exact h
  · next text rest =>
    -- The root is below the name that is taken away.
    cases rest with
    | nil => cases h
    | cons second rest => rwa [List.getLast?_cons_cons] at h
  · exact h
  · rw [List.getLast?_cons, h]
    rfl

/-- The normal form of an absolute path starts with the root. -/
theorem head?_normalParts (rest : List Part) :
    (normalParts (.root :: rest)).head? = some .root := by
  have hstack (stack : List Part) (h : stack.getLast? = some .root) :
      (rest.foldl cancel stack).getLast? = some .root := by
    induction rest generalizing stack with
    | nil => exact h
    | cons part rest ih => exact ih _ (getLast?_cancel h part)
  rw [normalParts, List.head?_reverse]
  exact hstack [.root] rfl

/-- The parts of an absolute path. -/
theorem exists_parts_of_isAbsolute {path : Path} (h : path.isAbsolute = true) :
    ∃ others, segments path.spelling = [] :: others ∧
      path.parts = .root :: others.filterMap Part.ofSegment? := by
  obtain ⟨spelling⟩ := path
  cases spelling with
  | nil => cases h
  | cons c rest =>
    have hc : c = '/' := by simpa [isAbsolute] using h
    have hsegments : segments (c :: rest) = [] :: segments rest := by rw [segments, if_pos hc]
    exact ⟨segments rest, hsegments, partsOf_eq_cons (List.cons_ne_nil _ _) hsegments⟩

/-- The path of parts that start with the root is absolute. -/
theorem isAbsolute_ofParts {parts : List Part} (h : parts.head? = some .root) :
    (ofParts parts).isAbsolute = true := by
  obtain ⟨rest, rfl⟩ := List.head?_eq_some_iff.1 h
  cases rest with
  | nil => rfl
  | cons part rest =>
    rw [isAbsolute, ofParts]
    · simp [Part.text, List.intercalate_cons_cons]
    · exact fun hone => by simp at hone

/-- The normal form of an absolute path is absolute. -/
theorem isAbsolute_normalize {path : Path} (h : path.isAbsolute = true) :
    path.normalize.isAbsolute = true := by
  obtain ⟨others, -, hparts⟩ := exists_parts_of_isAbsolute h
  rw [normalize, hparts]
  exact isAbsolute_ofParts (head?_normalParts _)

/-- A relative path adds its segments to the normal form of a directory. -/
theorem normalParts_join (path : Path) {other : Path} (hother : other.isAbsolute = false) :
    normalParts (path.join other).parts =
      (((segments other.spelling).filterMap Part.ofSegment?).foldl cancel
        (normalParts path.parts).reverse).reverse := by
  by_cases hne : path.spelling = []
  · -- The empty path has no parts, and the joined path is the other one.
    have hparts : path.parts = [] := (parts_eq_nil_iff path).2 hne
    have hjoin : path.join other = other := by simp [join, hother, hne]
    rw [hjoin, hparts, reverse_normalParts, List.foldl_nil, ← normalParts]
    by_cases hempty : other.spelling = []
    · rw [(parts_eq_nil_iff other).2 hempty, hempty]
      rfl
    · obtain ⟨first, others, hsegments⟩ :=
        List.exists_cons_of_ne_nil (segments_ne_nil other.spelling)
      have hfirst : first ≠ [] := by
        rintro rfl
        have hroot : Part.root ∈ other.parts := by
          rw [parts, partsOf_eq_cons hempty hsegments]
          exact List.mem_cons_self
        rw [← isAbsolute_iff, hother] at hroot
        cases hroot
      rw [parts, partsOf_eq_cons hempty hsegments, hsegments]
      by_cases hdot : first = ['.']
      · -- A `.` in front is a part of its own, which the normal form drops.
        rw [hdot]
        rfl
      · rw [List.filterMap_cons_some (ofSegment?_of_ne hfirst hdot)]
  · rw [parts_join hother hne, normalParts_append]

end Path

namespace Include

/-- What an include may mean depends only on the normal form of the directory of its file. -/
theorem candidates_eq_of_normalParts_eq {base base' : Path}
    (h : Path.normalParts base.parts.dropLast = Path.normalParts base'.parts.dropLast)
    (vocabulary : Vocabulary) (argument : Text) :
    candidates vocabulary base argument = candidates vocabulary base' argument := by
  have hjoin (target : Path) : ((base.parent?.getD ⟨[]⟩).join target).normalize =
      ((base'.parent?.getD ⟨[]⟩).join target).normalize := by
    cases htarget : target.isAbsolute with
    | true => rw [Path.join, if_pos htarget, Path.join, if_pos htarget]
    | false =>
      rw [Path.normalize, Path.normalize, Path.normalParts_join _ htarget,
        Path.normalParts_join _ htarget, Path.parts_parent, Path.parts_parent, h]
  simp only [candidates, hjoin]

/-- A line of a file in an absolute directory includes absolute paths. -/
theorem isAbsolute_of_mem_candidates {vocabulary : Vocabulary} {base path : Path}
    {argument : Text} (hbase : Part.root ∈ base.parts.dropLast)
    (h : path ∈ candidates vocabulary base argument) : path.isAbsolute = true := by
  rw [← Path.parts_parent, ← Path.isAbsolute_iff] at hbase
  -- Seen from an absolute directory, every path is absolute.
  have hjoin (target : Path) : ((base.parent?.getD ⟨[]⟩).join target).isAbsolute = true := by
    cases htarget : target.isAbsolute with
    | true => rwa [Path.join, if_pos htarget]
    | false =>
      have hne : (base.parent?.getD ⟨[]⟩).spelling ≠ [] := by
        intro hnil
        rw [Path.isAbsolute, hnil] at hbase
        cases hbase
      rw [Path.isAbsolute_iff, Path.parts_join htarget hne]
      exact List.mem_append_left _ ((Path.isAbsolute_iff _).1 hbase)
  simp only [candidates] at h
  split at h
  · cases h
  · have hnormal := Path.isAbsolute_normalize (hjoin ⟨Text.trim (stripQuotes argument)⟩)
    rcases List.mem_cons.1 h with rfl | hother
    · exact hnormal
    · split at hother
      · cases hother
      · -- An extension at the end does not change how a path starts.
        obtain ⟨ending, -, rfl⟩ := List.mem_map.1 hother
        rw [Path.isAbsolute, beq_iff_eq] at hnormal ⊢
        rw [List.head?_append, hnormal]
        rfl

end Include

end ScriptAnalysis
