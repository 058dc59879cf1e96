import ScriptAnalysis.Include.Resolve
import ScriptAnalysis.Proofs.FileSystem.Spelling

/-!
# Parts of computed paths

The parent of a path and a path joined to a directory are computed on spellings. Their parts depend
on the parts alone: the parent has all parts but the last, and a relative path adds its segments to
the parts of the directory.

* `Path.partsOf_eq_cons`: the parts of a spelling in terms of its segments.
* `Path.parts_parent`: the parts of the parent.
* `Path.parts_join`: the parts of a joined path.
-/

namespace ScriptAnalysis

/-- The part that the first segment of a path stands for. Unlike the others, it is never silent. -/
def Part.ofFirst : Text → Part
  | [] => .root
  | ['.'] => .here
  | ['.', '.'] => .up
  | text => .name text

namespace Path

theorem ofSegment?_of_ne {text : Text} (hempty : text ≠ []) (hdot : text ≠ ['.']) :
    Part.ofSegment? text = some (Part.ofFirst text) := by
  unfold Part.ofSegment? Part.ofFirst
  split <;> simp_all

/-- The parts of a spelling are that of its first segment and those of the others. -/
theorem partsOf_eq_cons {spelling first : Text} {others : List Text} (hne : spelling ≠ [])
    (h : segments spelling = first :: others) :
    partsOf spelling = Part.ofFirst first :: others.filterMap Part.ofSegment? := by
  -- Only the empty spelling is cut into a single empty segment.
  have hempty : ¬(first = [] ∧ others = []) := by
    rintro ⟨rfl, rfl⟩
    cases spelling with
    | nil => exact hne rfl
    | cons c rest =>
      obtain ⟨segment, others, hsegments⟩ := List.exists_cons_of_ne_nil (segments_ne_nil rest)
      rw [segments, hsegments] at h
      split at h <;> simp at h
  rw [partsOf, h]
  split
  · next heq => cases heq
  · next heq =>
    cases heq
    exact absurd ⟨rfl, rfl⟩ hempty
  · next heq =>
    cases heq
    rfl
  · next heq =>
    cases heq
    rfl
  · next hroot hhere =>
    rw [List.filterMap_cons_some (ofSegment?_of_ne (fun heq => ?_) fun heq => ?_)]
    · exact hroot others (heq ▸ rfl)
    · exact hhere others (heq ▸ rfl)

theorem segments_append (left right : Text) :
    segments (left ++ '/' :: right) = segments left ++ segments right := by
  induction left with
  | nil => simp [segments]
  | cons c rest ih =>
    rw [List.cons_append, segments, segments, ih]
    split
    · rfl
    · obtain ⟨first, others, hsegments⟩ := List.exists_cons_of_ne_nil (segments_ne_nil rest)
      simp [hsegments]

/-- A segment has no slash. -/
theorem slash_not_mem_of_mem_segments {spelling segment : Text} (h : segment ∈ segments spelling) :
    '/' ∉ segment := by
  induction spelling generalizing segment with
  | nil => simp_all [segments]
  | cons c rest ih =>
    obtain ⟨first, others, hsegments⟩ := List.exists_cons_of_ne_nil (segments_ne_nil rest)
    rw [segments, hsegments] at h
    rw [hsegments] at ih
    split at h
    · rcases List.mem_cons.1 h with rfl | hother
      · exact List.not_mem_nil
      · exact ih hother
    · next hc =>
      rcases List.mem_cons.1 h with rfl | hother
      · exact List.not_mem_cons_of_ne_of_not_mem (Ne.symm hc) (ih List.mem_cons_self)
      · exact ih (List.mem_cons_of_mem _ hother)

theorem segments_of_slash_not_mem {text : Text} (h : '/' ∉ text) : segments text = [text] := by
  induction text with
  | nil => rfl
  | cons c rest ih =>
    obtain ⟨hc, hrest⟩ := not_or.1 (fun hmem => h (List.mem_cons.2 hmem))
    rw [segments, if_neg (Ne.symm hc), ih hrest]

/-- Segments that are put together with slashes are those of the spelling. -/
theorem segments_intercalate {first : Text} {others : List Text}
    (h : ∀ segment ∈ first :: others, '/' ∉ segment) :
    segments (['/'].intercalate (first :: others)) = first :: others := by
  induction others generalizing first with
  | nil => simpa using segments_of_slash_not_mem (h first List.mem_cons_self)
  | cons second others ih =>
    obtain ⟨hfirst, hothers⟩ := List.forall_mem_cons.1 h
    rw [List.intercalate_cons_cons, List.append_assoc, List.singleton_append, segments_append,
      ih hothers, segments_of_slash_not_mem hfirst, List.singleton_append]

/-- Silent segments in front stand for no part. -/
theorem filterMap_dropWhile (texts : List Text) :
    (texts.dropWhile isSilent).filterMap Part.ofSegment? = texts.filterMap Part.ofSegment? := by
  induction texts with
  | nil => rfl
  | cons text rest ih =>
    rw [List.dropWhile_cons]
    split
    · next hsilent =>
      have hnone : Part.ofSegment? text = none := by simpa [isSilent] using hsilent
      rw [ih, List.filterMap_cons_none hnone]
    · rfl

/-- The last segment that is not silent stands for the last part. -/
theorem exists_last_part {others before : List Text} {last : Text}
    (h : others.reverse.dropWhile isSilent = last :: before) :
    ∃ part, others.filterMap Part.ofSegment? =
      before.reverse.filterMap Part.ofSegment? ++ [part] := by
  have hloud : isSilent last = false := by
    have hhead := List.head?_dropWhile_not isSilent others.reverse
    rw [h] at hhead
    exact hhead
  obtain ⟨part, hpart⟩ := Option.isSome_iff_exists.1
    (show (Part.ofSegment? last).isSome = true by simpa [isSilent] using hloud)
  refine ⟨part, ?_⟩
  rw [← List.reverse_inj, ← List.filterMap_reverse, ← filterMap_dropWhile, h,
    List.filterMap_cons_some hpart, List.filterMap_reverse, List.reverse_append,
    List.reverse_reverse, List.reverse_singleton, List.singleton_append]

/-- The parts of a spelling that is put together from segments. -/
theorem partsOf_intercalate {first second : Text} {others : List Text}
    (h : ∀ segment ∈ first :: second :: others, '/' ∉ segment) :
    partsOf (['/'].intercalate (first :: second :: others)) =
      Part.ofFirst first :: (second :: others).filterMap Part.ofSegment? := by
  refine partsOf_eq_cons ?_ (segments_intercalate h)
  rw [List.intercalate_cons_cons]
  simp

/-- A path without its last part, or the empty path if there is no other part. -/
theorem parts_parent (path : Path) :
    (path.parent?.getD ⟨[]⟩).parts = path.parts.dropLast := by
  obtain ⟨spelling⟩ := path
  by_cases hne : spelling = []
  · subst hne
    rfl
  · obtain ⟨first, others, hsegments⟩ := List.exists_cons_of_ne_nil (segments_ne_nil spelling)
    have hparts : (⟨spelling⟩ : Path).parts =
        Part.ofFirst first :: others.filterMap Part.ofSegment? := partsOf_eq_cons hne hsegments
    have hclean : ∀ segment ∈ first :: others, '/' ∉ segment := by
      rw [← hsegments]
      exact fun segment => slash_not_mem_of_mem_segments
    rw [hparts, parent?]
    simp only [hsegments]
    split
    · next hsilent =>
      -- All other segments are silent, so that there is no other part.
      have hnone : others.filterMap Part.ofSegment? = [] := by
        rw [← List.reverse_eq_nil_iff, ← List.filterMap_reverse, ← filterMap_dropWhile, hsilent,
          List.filterMap_nil]
      rw [hnone]
      split <;> rfl
    · next last before hlast =>
      obtain ⟨part, hothers⟩ := exists_last_part hlast
      have hkept : ∀ segment ∈ (before.dropWhile isSilent).reverse, '/' ∉ segment := by
        intro segment hsegment
        have hbefore := (List.dropWhile_suffix isSilent).subset (List.mem_reverse.1 hsegment)
        have hmem : segment ∈ others.reverse.dropWhile isSilent := by
          rw [hlast]
          exact List.mem_cons_of_mem _ hbefore
        exact hclean segment (List.mem_cons_of_mem _
          (List.mem_reverse.1 ((List.dropWhile_suffix isSilent).subset hmem)))
      rw [hothers, ← List.cons_append, List.dropLast_concat, List.filterMap_reverse,
        ← filterMap_dropWhile, ← List.filterMap_reverse]
      generalize (before.dropWhile isSilent).reverse = kept at hkept
      cases kept with
      | nil =>
        -- The first segment is left: a name, or nothing, which stands for the top directory.
        show partsOf (Path.spelling (if first = [] then _ else _)) = _
        split
        · next hfirst =>
          subst hfirst
          rfl
        · next hfirst =>
          exact partsOf_eq_cons hfirst
            (segments_of_slash_not_mem (hclean first List.mem_cons_self))
      | cons second kept =>
        exact partsOf_intercalate
          (List.forall_mem_cons.2 ⟨hclean first List.mem_cons_self, hkept⟩)

/-- A relative path adds its segments to the parts of a directory. -/
theorem parts_join {path other : Path} (hother : other.isAbsolute = false)
    (hne : path.spelling ≠ []) :
    (path.join other).parts =
      path.parts ++ (segments other.spelling).filterMap Part.ofSegment? := by
  obtain ⟨spelling⟩ := path
  obtain ⟨added⟩ := other
  simp only [join, hother, Bool.false_eq_true, if_false, Bool.or_eq_true, decide_eq_true_eq,
    beq_iff_eq]
  split
  · next h =>
    -- A slash stands at the end already.
    obtain ⟨front, rfl⟩ := List.getLast?_eq_some_iff.1 (h.resolve_left hne)
    obtain ⟨first, others, hsegments⟩ := List.exists_cons_of_ne_nil (segments_ne_nil front)
    rw [List.append_assoc, List.singleton_append]
    have hpath : segments (front ++ ['/']) = first :: (others ++ [[]]) := by
      rw [segments_append, hsegments]
      rfl
    have hjoined : segments (front ++ '/' :: added) = first :: (others ++ segments added) := by
      rw [segments_append, hsegments, List.cons_append]
    rw [parts, parts, partsOf_eq_cons (by simp) hjoined, partsOf_eq_cons hne hpath,
      List.filterMap_append, List.filterMap_append]
    simp [Part.ofSegment?]
  · -- A slash is put in between.
    obtain ⟨first, others, hsegments⟩ := List.exists_cons_of_ne_nil (segments_ne_nil spelling)
    have hjoined : segments (spelling ++ '/' :: added) = first :: (others ++ segments added) := by
      rw [segments_append, hsegments, List.cons_append]
    rw [parts, parts, partsOf_eq_cons (by simp) hjoined, partsOf_eq_cons hne hsegments,
      List.filterMap_append, List.cons_append]

/-- The parts of a joined path depend on the parts of the directory alone. -/
theorem parts_join_congr {left right : Path} (h : left.parts = right.parts) (other : Path) :
    (left.join other).parts = (right.join other).parts := by
  cases hother : other.isAbsolute with
  | true => rw [join, if_pos hother, join, if_pos hother]
  | false =>
    -- Nothing is put in front of a path that is joined to the empty path, and only the empty path
    -- has no parts.
    by_cases hne : left.spelling = []
    · have hne' : right.spelling = [] := by rwa [← parts_eq_nil_iff, ← h, parts_eq_nil_iff]
      simp [join, hother, hne, hne']
    · have hne' : right.spelling ≠ [] := by rwa [ne_eq, ← parts_eq_nil_iff, ← h, parts_eq_nil_iff]
      rw [parts_join hother hne, parts_join hother hne', h]

end Path

namespace Include

/-- What an include may mean depends on the parts of the path of its file alone. -/
theorem candidates_congr {base base' : Path} (h : base.parts = base'.parts)
    (vocabulary : Vocabulary) (argument : Text) :
    candidates vocabulary base argument = candidates vocabulary base' argument := by
  have hparent : (base.parent?.getD ⟨[]⟩).parts = (base'.parent?.getD ⟨[]⟩).parts := by
    rw [Path.parts_parent, Path.parts_parent, h]
  have hjoin (target : Path) : ((base.parent?.getD ⟨[]⟩).join target).normalize =
      ((base'.parent?.getD ⟨[]⟩).join target).normalize := by
    rw [Path.normalize, Path.normalize, Path.parts_join_congr hparent]
  simp only [candidates, hjoin]

end Include

end ScriptAnalysis
