import Mathlib.Data.List.Induction
import Mathlib.Logic.Relation
import ScriptAnalysis.Proofs.Path.Normal

/-!
# Normal forms by cancellation

The normal form of a path is computed from left to right, with a stack. It can also be reached by
rewriting: drop every `.`, and then cancel, in any order and as long as possible, a name with the
`..` behind it, or a `..` behind the root. A cancellation does not change what the stack computes,
and where nothing can be cancelled the stack changes nothing, so that every order ends in the normal
form.

* `Path.Cancels`, `Path.Exhausts`: one cancellation, and what is left when none is possible.
* `Path.exhausts_iff`: whatever the order, the normal form is left.
* `Path.IsNormal`, `Path.isNormal_normalParts`: the shape of a normal form.
* `Path.parts_normalize`: the parts of the normal form of a path.
* `Path.normalize_normal_form`: these facts of a path, with what follows for a path that is
  normalised twice or joined to another.
-/

namespace ScriptAnalysis

namespace Path

/-- Whether one cancellation leads from a list of parts to another. -/
inductive Cancels : List Part → List Part → Prop
  /-- A name and the `..` behind it. -/
  | name (before after : List Part) (text : Text) :
    Cancels (before ++ .name text :: .up :: after) (before ++ after)
  /-- A `..` behind the root. -/
  | root (before after : List Part) :
    Cancels (before ++ .root :: .up :: after) (before ++ .root :: after)

/-- Whether some cancellations lead from a list of parts to another. -/
abbrev Reduces : List Part → List Part → Prop :=
  Relation.ReflTransGen Cancels

/-- Whether cancelling in some order, until nothing can be cancelled, leads from a list of parts to
another. -/
def Exhausts (parts rest : List Part) : Prop :=
  Reduces parts rest ∧ ∀ next, ¬Cancels rest next

/-! ## Cancellations -/

section Cancels

variable {parts rest : List Part}

theorem Cancels.append_right (h : Cancels parts rest) (more : List Part) :
    Cancels (parts ++ more) (rest ++ more) := by
  cases h with
  | name before after text => simpa using Cancels.name before (after ++ more) text
  | root before after => simpa using Cancels.root before (after ++ more)

/-- A cancellation takes parts away. -/
theorem Cancels.sublist (h : Cancels parts rest) : rest.Sublist parts := by
  cases h with
  | name before after text =>
    exact (List.Sublist.refl before).append ((List.sublist_cons_self _ _).trans
      (List.sublist_cons_self _ _))
  | root before after =>
    exact (List.Sublist.refl before).append ((List.sublist_cons_self _ _).cons_cons _)

/-- There are fewer parts after a cancellation, so that no order of them goes on for ever. -/
theorem acc_cancels (parts : List Part) : Acc (fun next parts => Cancels parts next) parts := by
  have hlength {parts next : List Part} (h : Cancels parts next) : next.length < parts.length := by
    cases h with
    | name before after text => simp only [List.length_append, List.length_cons]; omega
    | root before after => simp
  exact Subrelation.accessible hlength ((measure List.length).wf.apply parts)

/-- A cancellation keeps the root, and puts none where there was none. -/
theorem Cancels.root_mem_iff (h : Cancels parts rest) : Part.root ∈ rest ↔ Part.root ∈ parts := by
  cases h with
  | name before after text => simp
  | root before after => simp

/-- A cancellation does not change the normal form. -/
theorem Cancels.normalParts_eq (h : Cancels parts rest) : normalParts rest = normalParts parts := by
  have hname (stack : List Part) (text : Text) :
      cancel (cancel stack (.name text)) .up = stack := by
    simp [cancel]
  have hroot (stack : List Part) : cancel (cancel stack .root) .up = cancel stack .root := by
    simp [cancel]
  cases h with
  | name before after text =>
    simp only [normalParts, List.foldl_append, List.foldl_cons, hname]
  | root before after =>
    simp only [normalParts, List.foldl_append, List.foldl_cons, hroot]

theorem Reduces.append_right (h : Reduces parts rest) (more : List Part) :
    Reduces (parts ++ more) (rest ++ more) :=
  h.lift (· ++ more) fun _ _ hcancels => hcancels.append_right more

theorem Reduces.sublist (h : Reduces parts rest) : rest.Sublist parts := by
  induction h with
  | refl => exact List.Sublist.refl parts
  | tail _ hcancels ih => exact hcancels.sublist.trans ih

theorem Reduces.root_mem_iff (h : Reduces parts rest) :
    Part.root ∈ rest ↔ Part.root ∈ parts := by
  induction h with
  | refl => rfl
  | tail _ hcancels ih => exact hcancels.root_mem_iff.trans ih

theorem Reduces.normalParts_eq (h : Reduces parts rest) : normalParts rest = normalParts parts := by
  induction h with
  | refl => rfl
  | tail _ hcancels ih => exact hcancels.normalParts_eq.trans ih

end Cancels

/-! ## The normal form of a list of parts -/

/-- The normal form does not see a `.`. -/
theorem normalParts_filter (parts : List Part) :
    normalParts (parts.filter (· ≠ .here)) = normalParts parts := by
  induction parts using List.reverseRecOn with
  | nil => rfl
  | append_singleton front part ih =>
    rw [List.filter_append, normalParts_append, normalParts_append, ih]
    by_cases hpart : part = .here
    · simp [hpart, cancel]
    · simp [hpart]

/-- Without a `.`, one more part is cancelled or stays. -/
theorem reduces_concat (parts : List Part) {part : Part} (hpart : part ≠ .here) :
    Reduces (parts ++ [part]) (cancel parts.reverse part).reverse := by
  have hstay : Reduces (parts ++ [part]) (part :: parts.reverse).reverse := by
    simpa using Relation.ReflTransGen.refl
  unfold cancel
  split
  · exact absurd rfl hpart
  · next text rest hparts =>
    obtain rfl := List.reverse_eq_cons_iff.1 hparts
    simpa using Relation.ReflTransGen.single (Cancels.name rest.reverse [] text)
  · next rest hparts =>
    obtain rfl := List.reverse_eq_cons_iff.1 hparts
    simpa using Relation.ReflTransGen.single (Cancels.root rest.reverse [])
  · exact hstay

/-- Without a `.`, the normal form is reached by cancellations. -/
theorem reduces_normalParts {parts : List Part} (h : Part.here ∉ parts) :
    Reduces parts (normalParts parts) := by
  induction parts using List.reverseRecOn with
  | nil => exact Relation.ReflTransGen.refl
  | append_singleton front part ih =>
    rw [List.mem_append, List.mem_singleton, not_or] at h
    rw [normalParts_append]
    exact ((ih h.1).append_right [part]).trans (reduces_concat _ (Ne.symm h.2))

theorem here_not_mem_filter (parts : List Part) : Part.here ∉ parts.filter (· ≠ .here) := by
  simp

/-- After dropping every `.`, the normal form is reached by cancellations. -/
theorem reduces_filter (parts : List Part) :
    Reduces (parts.filter (· ≠ .here)) (normalParts parts) := by
  rw [← normalParts_filter]
  exact reduces_normalParts (here_not_mem_filter parts)

/-- Whether a list of parts is a normal form: the root or some `..` in front, and then names. -/
def IsNormal (parts : List Part) : Prop :=
  ∃ (front : List Part) (names : List Text), parts = front ++ names.map .name ∧
    (front = [.root] ∨ ∃ count, front = List.replicate count .up)

/-- One more part is added to a normal form, unless it is the root. -/
theorem IsNormal.cancel {parts : List Part} (h : IsNormal parts) {part : Part}
    (hpart : part ≠ .root) : IsNormal (cancel parts.reverse part).reverse := by
  obtain ⟨front, names, rfl, hfront⟩ := h
  cases part with
  | root => exact absurd rfl hpart
  | here => exact ⟨front, names, by simp [Path.cancel], hfront⟩
  | name text => exact ⟨front, names ++ [text], by simp [Path.cancel], hfront⟩
  | up =>
    -- The `..` takes the last name away. Without a name, it is dropped behind the root and joins
    -- the other `..` else.
    rcases List.eq_nil_or_concat names with rfl | ⟨others, text, rfl⟩
    · rcases hfront with rfl | ⟨count, rfl⟩
      · exact ⟨[.root], [], by simp [Path.cancel], .inl rfl⟩
      · refine ⟨List.replicate (count + 1) .up, [], ?_, .inr ⟨count + 1, rfl⟩⟩
        rw [List.map_nil, List.append_nil, List.append_nil, List.reverse_replicate]
        cases count with
        | zero => rfl
        | succ count =>
          show (List.replicate (count + 2) Part.up).reverse = _
          exact List.reverse_replicate
    · exact ⟨front, others, by simp [Path.cancel], hfront⟩

/-- The normal form of parts with no root but in front. -/
theorem isNormal_normalParts {parts : List Part} (h : Part.root ∉ parts.tail) :
    IsNormal (normalParts parts) := by
  induction parts using List.reverseRecOn with
  | nil => exact ⟨[], [], rfl, .inr ⟨0, rfl⟩⟩
  | append_singleton front part ih =>
    cases front with
    | nil =>
      by_cases hpart : part = .root
      · exact ⟨[.root], [], by rw [hpart]; rfl, .inl rfl⟩
      · exact IsNormal.cancel ⟨[], [], rfl, .inr ⟨0, rfl⟩⟩ hpart
    | cons first front =>
      rw [List.cons_append, List.tail_cons, List.mem_append, List.mem_singleton, not_or] at h
      rw [normalParts_append]
      exact (ih h.1).cancel (Ne.symm h.2)

/-- Nothing can be cancelled in a normal form. -/
theorem IsNormal.not_cancels {parts : List Part} (h : IsNormal parts) (next : List Part) :
    ¬Cancels parts next := by
  -- Before a `..` in a normal form there are only others.
  have hups : parts.Pairwise fun left right => right = .up → left = .up := by
    obtain ⟨front, names, rfl, hfront⟩ := h
    refine List.pairwise_append.2 ⟨?_, ?_, ?_⟩
    · rcases hfront with rfl | ⟨count, rfl⟩
      · exact List.pairwise_singleton _ _
      · exact List.pairwise_replicate.2 (.inr fun _ => rfl)
    · exact List.pairwise_map.2 (List.pairwise_of_forall fun _ _ hup => by cases hup)
    · intro left _ right hright hup
      obtain ⟨text, -, rfl⟩ := List.mem_map.1 hright
      cases hup
  intro hcancels
  cases hcancels with
  | name before after text =>
    have hlater := (List.pairwise_append.1 hups).2.1
    cases (List.pairwise_cons.1 hlater).1 .up List.mem_cons_self rfl
  | root before after =>
    have hlater := (List.pairwise_append.1 hups).2.1
    cases (List.pairwise_cons.1 hlater).1 .up List.mem_cons_self rfl

/-- Whatever the order, cancelling until nothing can be cancelled leaves the normal form. -/
theorem exhausts_iff {parts rest : List Part} (hhere : Part.here ∉ parts)
    (hroot : Part.root ∉ parts.tail) : Exhausts parts rest ↔ rest = normalParts parts := by
  constructor
  · rintro ⟨hreduces, hlast⟩
    -- What is left reduces to its own normal form, and this takes no step.
    have hown : Reduces rest (normalParts rest) :=
      reduces_normalParts fun hmem => hhere (hreduces.sublist.subset hmem)
    rw [hreduces.normalParts_eq] at hown
    rcases hown.cases_head with heq | ⟨next, hcancels, -⟩
    · exact heq
    · exact absurd hcancels (hlast next)
  · rintro rfl
    exact ⟨reduces_normalParts hhere, (isNormal_normalParts hroot).not_cancels⟩

/-! ## The normal form of a path -/

/-- The root is no part of a path but the first. -/
theorem root_not_mem_tail_parts (path : Path) : Part.root ∉ path.parts.tail := by
  rw [parts, partsOf]
  generalize segments path.spelling = texts
  split
  · exact List.not_mem_nil
  · exact List.not_mem_nil
  · exact root_not_mem_filterMap _
  · exact root_not_mem_filterMap _
  · exact fun hmem => root_not_mem_filterMap _ (List.mem_of_mem_tail hmem)

/-- A part that stands for its text does so in front of a path as well. -/
theorem ofFirst_of_ofSegment? {part : Part} (h : Part.ofSegment? part.text = some part) :
    Part.ofFirst part.text = part := by
  rw [← Option.some.injEq, ← ofSegment?_of_ne (fun hempty => ?_) fun hdot => ?_, h]
  · rw [hempty] at h
    cases h
  · rw [hdot] at h
    cases h

/-- Parts that can be told from their texts are the parts of the path that is spelled with them. -/
theorem parts_ofParts_cons {first : Part} {rest : List Part} (hone : first :: rest ≠ [.root])
    (hslash : ∀ part ∈ first :: rest, '/' ∉ part.text) (hfirst : Part.ofFirst first.text = first)
    (hrest : ∀ part ∈ rest, Part.ofSegment? part.text = some part) :
    (ofParts (first :: rest)).parts = first :: rest := by
  have hspelling : ofParts (first :: rest) =
      ⟨['/'].intercalate (first.text :: rest.map Part.text)⟩ := by
    rw [ofParts]
    · rfl
    · exact hone
  have hne : ['/'].intercalate (first.text :: rest.map Part.text) ≠ [] := by
    cases rest with
    | cons second others => simp [List.intercalate_cons_cons]
    | nil =>
      -- Only the root is spelled by nothing.
      intro hnil
      have htext : first.text = [] := by simpa using hnil
      rw [htext] at hfirst
      exact hone (by rw [← hfirst]; rfl)
  have hothers : (rest.map Part.text).filterMap Part.ofSegment? = rest := by
    rw [List.filterMap_map]
    exact (List.filterMap_congr hrest).trans List.filterMap_some
  rw [hspelling, Path.parts, partsOf_eq_cons hne (segments_intercalate ?_), hfirst, hothers]
  rw [← List.map_cons]
  exact List.forall_mem_map.2 hslash

/-- The path of some of the parts of a path has these parts, if none of them is a `.`. -/
theorem parts_ofParts {path : Path} {parts : List Part} (hsublist : parts.Sublist path.parts)
    (hhere : Part.here ∉ parts) : (ofParts parts).parts = parts := by
  have hname (text : Text) (hmem : Part.name text ∈ parts) :=
    name_mem_parts_iff.1 (hsublist.subset hmem)
  have hslash (part : Part) (hmem : part ∈ parts) : '/' ∉ part.text := by
    cases part with
    | root => exact List.not_mem_nil
    | here => exact absurd hmem hhere
    | up => decide
    | name text => exact slash_not_mem_of_mem_segments (hname text hmem).1
  have hsegment (part : Part) (hmem : part ∈ parts) (hroot : part ≠ .root) :
      Part.ofSegment? part.text = some part := by
    cases part with
    | root => exact absurd rfl hroot
    | here => exact absurd hmem hhere
    | up => rfl
    | name text => exact ofSegment?_eq_name_iff.2 ⟨rfl, (hname text hmem).2⟩
  cases parts with
  | nil => rfl
  | cons first rest =>
    by_cases hone : first :: rest = [.root]
    · rw [hone]
      rfl
    · refine parts_ofParts_cons hone hslash ?_ fun part hmem => ?_
      · by_cases hroot : first = .root
        · rw [hroot]
          rfl
        · exact ofFirst_of_ofSegment? (hsegment first List.mem_cons_self hroot)
      · refine hsegment part (List.mem_cons_of_mem _ hmem) ?_
        rintro rfl
        exact root_not_mem_tail_parts path (hsublist.tail.subset hmem)

/-- The parts of the normal form of a path. -/
theorem parts_normalize (path : Path) : path.normalize.parts = normalParts path.parts := by
  have hsublist := (reduces_filter path.parts).sublist
  exact parts_ofParts (hsublist.trans List.filter_sublist) fun hmem =>
    here_not_mem_filter path.parts (hsublist.subset hmem)

/-- A path in normal form is its own normal form. -/
theorem normalParts_normalParts (parts : List Part) :
    normalParts (normalParts parts) = normalParts parts :=
  (reduces_filter parts).normalParts_eq.trans (normalParts_filter parts)

/-- The normal form of a path is absolute if the path is. Its parts are the root or some `..`, and
then names. Without its `.`, the parts of a path can be cancelled in any order, which comes to an
end and always leaves those of the normal form. A path in normal form is its own normal form, and a
path that is joined to a directory may as well be joined to the normal form of the directory. -/
theorem normalize_normal_form (path : Path) :
    path.normalize.isAbsolute = path.isAbsolute ∧
    IsNormal path.normalize.parts ∧
    Acc (fun next parts => Cancels parts next) (path.parts.filter (· ≠ .here)) ∧
    (∀ rest, Reduces (path.parts.filter (· ≠ .here)) rest →
      ∀ last, Exhausts rest last ↔ last = path.normalize.parts) ∧
    path.normalize.normalize = path.normalize ∧
    ∀ other : Path, other.isAbsolute = false →
      (path.join other).normalize = (path.normalize.join other).normalize := by
  have hroot : Part.root ∉ (path.parts.filter (· ≠ .here)).tail := fun hmem =>
    path.root_not_mem_tail_parts (List.filter_sublist.tail.subset hmem)
  refine ⟨?_, ?_, acc_cancels _, fun rest hrest last => ?_, ?_, fun other hother => ?_⟩
  · rw [Bool.eq_iff_iff, isAbsolute_iff, isAbsolute_iff, parts_normalize,
      (reduces_filter path.parts).root_mem_iff]
    simp
  · rw [parts_normalize]
    exact isNormal_normalParts path.root_not_mem_tail_parts
  · rw [parts_normalize, ← normalParts_filter, ← hrest.normalParts_eq]
    exact exhausts_iff (fun hmem => here_not_mem_filter _ (hrest.sublist.subset hmem))
      fun hmem => hroot (hrest.sublist.tail.subset hmem)
  · rw [normalize, parts_normalize, normalParts_normalParts, ← normalize]
  · rw [normalize, normalize, normalParts_join path hother, normalParts_join _ hother,
      parts_normalize, normalParts_normalParts]

/-- A path that leaves its directory, and another that leaves the first. -/
theorem normalize_normal_form_sample :
    let path : Path := ⟨"a/.//b/../../../c/".toList⟩
    let other : Path := ⟨"../../x.osc".toList⟩
    path.normalize = ⟨"../c".toList⟩ ∧ other.isAbsolute = false ∧
      (path.join other).normalize = ⟨"../../x.osc".toList⟩ ∧
      (path.join other).normalize = (path.normalize.join other).normalize := by
  intro path other
  have hother : other.isAbsolute = false := by decide +kernel
  exact ⟨by decide +kernel, hother, by decide +kernel,
    (normalize_normal_form path).2.2.2.2.2 other hother⟩

end Path

end ScriptAnalysis
