import Mathlib.Data.List.Basic
import ScriptAnalysis.FileSystem.Reach

/-!
# Spellings of one path

Two spellings with the same parts lead to the same place, unless one of them ends in a step that
stays where it is: a slash or a `.` at the end asks for a directory, which the parts do not show.

* `Step.Alike`: steps that differ in stays that other steps follow.
* `FileSystem.lookUp_eq_of_parts_eq`: equal parts lead to the same place.
* `FileSystem.visitKey_eq_of_parts_eq`: equal parts have the same key, where one path is a file.
-/

namespace ScriptAnalysis

namespace Step

/-- Whether the second steps are the first ones without some of the stays that other steps
follow. -/
inductive Alike : List Step → List Step → Prop
  /-- No steps are like no steps. -/
  | nil : Alike [] []
  /-- A step in common. -/
  | cons (step : Step) {steps steps' : List Step} :
      Alike steps steps' → Alike (step :: steps) (step :: steps')
  /-- A stay that is left out. -/
  | stay {steps steps' : List Step} :
      steps ≠ [] → Alike steps steps' → Alike (.stay :: steps) steps'

namespace Alike

variable {steps steps' : List Step}

theorem eq_nil_iff (h : Alike steps steps') : steps = [] ↔ steps' = [] := by
  induction h with
  | nil => exact Iff.rfl
  | cons step h ih => simp
  | stay hne h ih => simp [← ih, hne]

theorem refl (steps : List Step) : Alike steps steps := by
  induction steps with
  | nil => exact .nil
  | cons step steps ih => exact .cons step ih

theorem append_left (h : Alike steps steps') (first : List Step) :
    Alike (first ++ steps) (first ++ steps') := by
  induction first with
  | nil => exact h
  | cons step first ih => exact .cons step ih

/-- A stay in front of steps does not change where they have to start. -/
theorem needDirectory_stay (hne : steps ≠ []) :
    needDirectory (.stay :: steps) = needDirectory steps := by
  obtain ⟨step, others, rfl⟩ := List.exists_cons_of_ne_nil hne
  rfl

theorem needDirectory_eq (h : Alike steps steps') : needDirectory steps = needDirectory steps' := by
  induction h with
  | nil => rfl
  | @cons step steps steps' h ih =>
    cases step with
    | stay =>
      by_cases hne : steps = []
      · rw [hne, h.eq_nil_iff.1 hne]
      · rw [needDirectory_stay hne, needDirectory_stay (mt h.eq_nil_iff.2 hne), ih]
    | up => rfl
    | enter name => rfl
  | stay hne h ih => rw [needDirectory_stay hne, ih]

/-- Steps are like those without any stay, unless they end with one. -/
theorem filter_stay (hlast : steps.getLast? ≠ some .stay) :
    Alike steps (steps.filter (· ≠ .stay)) := by
  induction steps with
  | nil => exact .nil
  | cons step steps ih =>
    by_cases hne : steps = []
    · subst hne
      have hstep : step ≠ .stay := fun heq => hlast (by rw [heq]; rfl)
      simpa [hstep] using refl [step]
    · have hrest : steps.getLast? ≠ some .stay := by
        rwa [List.getLast?_cons_of_ne_nil hne] at hlast
      by_cases hstep : step = .stay
      · rw [hstep, List.filter_cons_of_neg (by simp)]
        exact .stay hne (ih hrest)
      · rw [List.filter_cons_of_pos (by simpa using hstep)]
        exact .cons step (ih hrest)

end Alike

end Step

namespace FileSystem

variable {fs : FileSystem} {manner : Manner}

/-- Steps that are alike lead to the same place, if they do so behind links. -/
theorem walkSteps_eq_of_alike {onLink : Trail → List Step → Except Fault Found}
    (hlink : ∀ trail steps steps', Step.Alike steps steps' →
      onLink trail steps = onLink trail steps')
    {steps steps' : List Step} (h : Step.Alike steps steps') (trail : Trail) :
    fs.walkSteps manner onLink trail steps = fs.walkSteps manner onLink trail steps' := by
  -- Entering an object asks only whether steps follow, and whether they need a directory.
  induction h generalizing trail with
  | nil => rfl
  | @cons step steps steps' h ih =>
    cases step with
    | stay => exact ih trail
    | up => simp only [walkSteps, ih]
    | enter name =>
      simp only [walkSteps, h.needDirectory_eq, h.eq_nil_iff, ih]
      simp only [hlink _ _ _ (h.append_left _)]
  | stay hne h ih => exact ih trail

theorem follow_eq_of_alike {steps steps' : List Step} (h : Step.Alike steps steps') (links : Nat)
    (trail : Trail) : fs.follow manner links trail steps = fs.follow manner links trail steps' := by
  induction links generalizing trail steps steps' with
  | zero => exact walkSteps_eq_of_alike (fun _ _ _ _ => rfl) h trail
  | succ links ih => exact walkSteps_eq_of_alike (fun trail _ _ hlike => ih hlike trail) h trail

/-- Steps to a file end by entering an object, if they do so behind links. -/
theorem getLast?_of_walkSteps {onLink : Trail → List Step → Except Fault Found} {address : Address}
    {readable : Bool} {content : List UInt8}
    (hlink : ∀ trail steps, onLink trail steps = .ok ⟨address, .file readable content⟩ →
      ∃ name, steps.getLast? = some (.enter name))
    {trail : Trail} {steps : List Step}
    (h : fs.walkSteps manner onLink trail steps = .ok ⟨address, .file readable content⟩) :
    ∃ name, steps.getLast? = some (.enter name) := by
  -- What the later steps end with, all steps end with.
  have hcons (step : Step) {steps : List Step}
      (hlater : ∃ name, steps.getLast? = some (.enter name)) :
      ∃ name, (step :: steps).getLast? = some (.enter name) := by
    obtain ⟨name, hname⟩ := hlater
    exact ⟨name, by rw [List.getLast?_cons, hname]; rfl⟩
  induction steps generalizing trail with
  | nil => cases h
  | cons step steps ih =>
    cases step with
    | stay => exact hcons _ (ih h)
    | up => exact hcons _ (ih (walkSteps_up_eq_ok_iff.1 h).2)
    | enter name =>
      obtain ⟨-, -, -, hcases⟩ := walkSteps_enter_eq_ok_iff.1 h
      rcases hcases with ⟨_, _, -, -, hinner⟩ | ⟨_, _, -, rfl, -⟩ | ⟨target, -, hinner⟩
      · exact hcons _ (ih hinner)
      · exact ⟨name, rfl⟩
      · -- The steps behind a link end with the steps that were left.
        by_cases hnil : steps = []
        · subst hnil
          exact ⟨name, rfl⟩
        · obtain ⟨last, hlast⟩ := hlink _ _ hinner
          rw [List.getLast?_append_of_ne_nil _ hnil] at hlast
          exact hcons _ ⟨last, hlast⟩

theorem getLast?_of_follow {links : Nat} {trail : Trail} {steps : List Step} {address : Address}
    {readable : Bool} {content : List UInt8}
    (h : fs.follow manner links trail steps = .ok ⟨address, .file readable content⟩) :
    ∃ name, steps.getLast? = some (.enter name) := by
  induction links generalizing trail steps with
  | zero => exact getLast?_of_walkSteps (fun _ _ hlink => by cases hlink) h
  | succ links ih => exact getLast?_of_walkSteps (fun _ _ hlink => ih hlink) h

end FileSystem

/-- The step that a part asks for, if it is not a way to start. -/
def Part.step? : Part → Option Step
  | .root => none
  | .here => none
  | .up => some .up
  | .name text => some (.enter text)

namespace Path

theorem segments_ne_nil (spelling : Text) : segments spelling ≠ [] := by
  cases spelling with
  | nil => exact List.cons_ne_nil _ _
  | cons c rest =>
    rw [segments]
    split
    · exact List.cons_ne_nil _ _
    · split <;> exact List.cons_ne_nil _ _

/-- A segment asks for the step of its part, or to stay. -/
theorem filter_ofSegment? (text : Text) :
    (Step.ofSegment? text).filter (· ≠ .stay) = (Part.ofSegment? text).bind Part.step? := by
  unfold Step.ofSegment? Part.ofSegment?
  split <;> simp_all [Part.step?]

/-- The steps of a path, but for stays, are those of its parts. -/
theorem filter_steps (path : Path) :
    path.steps.filter (· ≠ .stay) = path.parts.filterMap Part.step? := by
  have hend : (if path.spelling.getLast? = some '/' then [Step.stay] else []).filter (· ≠ .stay) =
      [] := by
    split <;> rfl
  have hsegments (texts : List Text) : (texts.filterMap Step.ofSegment?).filter (· ≠ .stay) =
      (texts.filterMap Part.ofSegment?).filterMap Part.step? := by
    rw [List.filter_filterMap, List.filterMap_filterMap]
    simp only [filter_ofSegment?]
  rw [steps, List.filter_append, hend, List.append_nil, hsegments, parts, partsOf]
  generalize segments path.spelling = texts
  -- The part of the first segment, where it has one of its own, asks for no step.
  split <;> rfl

/-- The first segment of a spelling that does not start with a slash. -/
theorem exists_segments_cons {c : Char} (hc : c ≠ '/') (rest : Text) :
    ∃ segment others, segments (c :: rest) = (c :: segment) :: others := by
  rw [segments, if_neg hc]
  split
  · exact ⟨[], [], rfl⟩
  · exact ⟨_, _, rfl⟩

theorem root_not_mem_filterMap (texts : List Text) :
    Part.root ∉ texts.filterMap Part.ofSegment? := by
  intro hmem
  obtain ⟨text, -, hpart⟩ := List.mem_filterMap.1 hmem
  unfold Part.ofSegment? at hpart
  split at hpart <;> cases hpart

/-- A path is absolute if the root is one of its parts. -/
theorem isAbsolute_iff (path : Path) : path.isAbsolute = true ↔ Part.root ∈ path.parts := by
  obtain ⟨spelling⟩ := path
  rw [isAbsolute, parts, beq_iff_eq]
  cases spelling with
  | nil => simp [partsOf, segments]
  | cons c rest =>
    rw [List.head?_cons, Option.some.injEq]
    by_cases hc : c = '/'
    · obtain ⟨first, others, hsegments⟩ := List.exists_cons_of_ne_nil (segments_ne_nil rest)
      simp [partsOf, segments, hc, hsegments]
    · obtain ⟨segment, others, hsegments⟩ := exists_segments_cons hc rest
      refine ⟨fun heq => absurd heq hc, fun hmem => ?_⟩
      -- The first segment is not empty, so that no part says to start at the root.
      rw [partsOf, hsegments] at hmem
      split at hmem
      · cases hmem
      · cases hmem
      · next heq => cases heq
      · rcases List.mem_cons.1 hmem with heq | hmem
        · cases heq
        · exact absurd hmem (root_not_mem_filterMap _)
      · exact absurd hmem (root_not_mem_filterMap _)

/-- Only the empty path has no parts. -/
theorem parts_eq_nil_iff (path : Path) : path.parts = [] ↔ path.spelling = [] := by
  obtain ⟨spelling⟩ := path
  rw [parts]
  cases spelling with
  | nil => simp [partsOf, segments]
  | cons c rest =>
    refine ⟨fun hnil => ?_, fun hnil => absurd hnil (List.cons_ne_nil _ _)⟩
    by_cases hc : c = '/'
    · obtain ⟨first, others, hsegments⟩ := List.exists_cons_of_ne_nil (segments_ne_nil rest)
      simp [partsOf, segments, hc, hsegments] at hnil
    · obtain ⟨segment, others, hsegments⟩ := exists_segments_cons hc rest
      rw [partsOf, hsegments] at hnil
      split at hnil
      · next heq => cases heq
      · next heq => cases heq
      · next heq => cases heq
      · cases hnil
      · have hnone := List.filterMap_eq_nil_iff.1 hnil _ List.mem_cons_self
        unfold Part.ofSegment? at hnone
        split at hnone <;> simp_all

theorem mem_segments_of_mem {c : Char} (hc : c ≠ '/') {spelling : Text} (h : c ∈ spelling) :
    ∃ segment ∈ segments spelling, c ∈ segment := by
  induction spelling with
  | nil => cases h
  | cons d rest ih =>
    rw [segments]
    split
    · next hd =>
      rcases List.mem_cons.1 h with heq | hrest
      · exact absurd (heq.trans hd) hc
      · obtain ⟨segment, hsegment, hmem⟩ := ih hrest
        exact ⟨segment, List.mem_cons_of_mem _ hsegment, hmem⟩
    · obtain ⟨first, others, hsegments⟩ := List.exists_cons_of_ne_nil (segments_ne_nil rest)
      rw [hsegments] at ih ⊢
      rcases List.mem_cons.1 h with rfl | hrest
      · exact ⟨c :: first, List.mem_cons_self, List.mem_cons_self⟩
      · obtain ⟨segment, hsegment, hmem⟩ := ih hrest
        rcases List.mem_cons.1 hsegment with rfl | hother
        · exact ⟨d :: segment, List.mem_cons_self, List.mem_cons_of_mem _ hmem⟩
        · exact ⟨segment, List.mem_cons_of_mem _ hother, hmem⟩

theorem mem_of_mem_segments {c : Char} {spelling segment : Text} (h : segment ∈ segments spelling)
    (hc : c ∈ segment) : c ∈ spelling := by
  induction spelling generalizing segment with
  | nil =>
    cases List.mem_singleton.1 h
    cases hc
  | cons d rest ih =>
    rw [segments] at h
    split at h
    · rcases List.mem_cons.1 h with rfl | hother
      · cases hc
      · exact List.mem_cons_of_mem _ (ih hother hc)
    · obtain ⟨first, others, hsegments⟩ := List.exists_cons_of_ne_nil (segments_ne_nil rest)
      rw [hsegments] at h ih
      rcases List.mem_cons.1 h with rfl | hother
      · rcases List.mem_cons.1 hc with rfl | hfirst
        · exact List.mem_cons_self
        · exact List.mem_cons_of_mem _ (ih List.mem_cons_self hfirst)
      · exact List.mem_cons_of_mem _ (ih (List.mem_cons_of_mem _ hother) hc)

theorem ofSegment?_eq_name_iff {segment text : Text} :
    Part.ofSegment? segment = some (.name text) ↔
      segment = text ∧ text ≠ [] ∧ text ≠ ['.'] ∧ text ≠ ['.', '.'] := by
  unfold Part.ofSegment?
  split <;> grind

/-- A name among the parts of a path is one of its segments. -/
theorem name_mem_parts_iff {path : Path} {text : Text} :
    Part.name text ∈ path.parts ↔
      text ∈ segments path.spelling ∧ text ≠ [] ∧ text ≠ ['.'] ∧ text ≠ ['.', '.'] := by
  rw [parts, partsOf]
  generalize segments path.spelling = texts
  split <;> simp [List.mem_filterMap, ofSegment?_eq_name_iff] <;> grind

/-- A null character in a path is one in a name among its parts. -/
theorem null_mem_iff (path : Path) :
    '\x00' ∈ path.spelling ↔ ∃ text, Part.name text ∈ path.parts ∧ '\x00' ∈ text := by
  constructor
  · intro hnull
    obtain ⟨segment, hsegment, hmem⟩ := mem_segments_of_mem (by decide) hnull
    refine ⟨segment, name_mem_parts_iff.2 ⟨hsegment, ?_, ?_, ?_⟩, hmem⟩
    · rintro rfl
      cases hmem
    · rintro rfl
      exact absurd hmem (by decide)
    · rintro rfl
      exact absurd hmem (by decide)
  · rintro ⟨text, hname, hmem⟩
    exact mem_of_mem_segments (name_mem_parts_iff.1 hname).1 hmem

/-- The last segment is the whole spelling or stands behind its last slash. -/
theorem exists_last_segment (spelling : Text) :
    ∃ front segment, segments spelling = front ++ [segment] ∧
      (front = [] ∧ spelling = segment ∨ '/' :: segment <:+ spelling ∧ front ≠ []) := by
  induction spelling with
  | nil => exact ⟨[], [], rfl, .inl ⟨rfl, rfl⟩⟩
  | cons c rest ih =>
    obtain ⟨front, segment, hsegments, hend⟩ := ih
    rw [segments]
    split
    · next hc =>
      refine ⟨[] :: front, segment, by rw [hsegments]; rfl, .inr ⟨?_, List.cons_ne_nil _ _⟩⟩
      rcases hend with ⟨-, rfl⟩ | ⟨hsuffix, -⟩
      · exact hc ▸ List.suffix_refl (c :: rest)
      · exact hsuffix.trans (List.suffix_cons c rest)
    · rcases hend with ⟨rfl, rfl⟩ | ⟨hsuffix, hne⟩
      · exact ⟨[], c :: rest, by rw [hsegments]; rfl, .inl ⟨rfl, rfl⟩⟩
      · obtain ⟨first, others, rfl⟩ := List.exists_cons_of_ne_nil hne
        refine ⟨(c :: first) :: others, segment, by rw [hsegments]; rfl, .inr ⟨?_, ?_⟩⟩
        · exact hsuffix.trans (List.suffix_cons c rest)
        · exact List.cons_ne_nil _ _

/-- A path whose spelling ends neither in a slash nor in a `.` behind a slash does not end in a step
that stays, unless it is a `.` alone. -/
theorem getLast?_steps_ne_stay {path : Path} (hslash : ¬['/'] <:+ path.spelling)
    (hdot : ¬['/', '.'] <:+ path.spelling) :
    path.spelling = ['.'] ∨ path.steps.getLast? ≠ some .stay := by
  obtain ⟨front, segment, hsegments, hend⟩ := exists_last_segment path.spelling
  have hlast : path.spelling.getLast? ≠ some '/' := by
    intro heq
    obtain ⟨before, hbefore⟩ := List.getLast?_eq_some_iff.1 heq
    exact hslash ⟨before, hbefore.symm⟩
  rw [steps, hsegments, if_neg hlast, List.append_nil, List.filterMap_append]
  by_cases hempty : segment = []
  · -- Behind a slash, an empty segment would be the end of the spelling.
    rcases hend with ⟨hfront, -⟩ | ⟨hsuffix, -⟩
    · right
      rw [hfront, hempty]
      simp [Step.ofSegment?]
    · rw [hempty] at hsuffix
      exact absurd hsuffix hslash
  · by_cases hstay : segment = ['.']
    · -- A `.` is the whole spelling or stands behind a slash.
      rcases hend with ⟨-, heq⟩ | ⟨hsuffix, -⟩
      · exact .inl (heq.trans hstay)
      · rw [hstay] at hsuffix
        exact absurd hsuffix hdot
    · right
      have hstep : ∃ step, Step.ofSegment? segment = some step ∧ step ≠ .stay := by
        unfold Step.ofSegment?
        split <;> simp_all
      obtain ⟨step, hsegment, hne⟩ := hstep
      rw [List.filterMap_cons_some hsegment, List.filterMap_nil, List.getLast?_append]
      simpa using hne

end Path

namespace FileSystem

variable {fs : FileSystem}

/-- Paths with the same parts lead to the same place, unless one ends in a step that stays. -/
theorem lookUp_eq_of_parts_eq {left right : Path} (hparts : left.parts = right.parts)
    (hleft : left.steps.getLast? ≠ some .stay) (hright : right.steps.getLast? ≠ some .stay)
    (manner : Manner) : fs.lookUp manner left = fs.lookUp manner right := by
  -- A look-up reads four things from a spelling, and the parts determine each of them.
  have hempty : left.spelling = [] ↔ right.spelling = [] := by
    rw [← Path.parts_eq_nil_iff, ← Path.parts_eq_nil_iff, hparts]
  have hnull : '\x00' ∈ left.spelling ↔ '\x00' ∈ right.spelling := by
    rw [Path.null_mem_iff, Path.null_mem_iff, hparts]
  have horigin (trail : Trail) : origin trail left = origin trail right := by
    have habsolute : left.isAbsolute = right.isAbsolute := by
      rw [Bool.eq_iff_iff, Path.isAbsolute_iff, Path.isAbsolute_iff, hparts]
    rw [origin, origin, habsolute]
  have hfollow (trail : Trail) :
      fs.follow manner linkLimit trail left.steps =
        fs.follow manner linkLimit trail right.steps := by
    rw [follow_eq_of_alike (Step.Alike.filter_stay hleft),
      follow_eq_of_alike (Step.Alike.filter_stay hright), Path.filter_steps, Path.filter_steps,
      hparts]
  simp only [lookUp, hempty, hnull, horigin, hfollow]

/-- The path of a file ends by entering an object. -/
theorem getLast?_steps_of_isFile {path : Path} (h : fs.isFile path = true) :
    ∃ name, path.steps.getLast? = some (.enter name) := by
  obtain ⟨address, readable, content, hlocate⟩ := isFile_iff.1 h
  exact getLast?_of_follow (follow_of_lookUp (lookUp_of_locate hlocate).1)

/-- A path with the parts of a file has the key of the file, unless it ends in a slash or in a `.`
behind a slash. -/
theorem visitKey_eq_of_parts_eq {path other : Path} (hfile : fs.isFile path = true)
    (hparts : other.parts = path.parts)
    (hslash : ¬['/'] <:+ other.spelling) (hdot : ¬['/', '.'] <:+ other.spelling) :
    fs.visitKey other = fs.visitKey path := by
  obtain ⟨name, hname⟩ := getLast?_steps_of_isFile hfile
  have hpath : path.steps.getLast? ≠ some .stay := by
    rw [hname]
    simp
  have hother : other.steps.getLast? ≠ some .stay := by
    rcases Path.getLast?_steps_ne_stay hslash hdot with hspelling | hsteps
    · -- The parts of a `.` alone ask for no step, but those of a file do.
      have hnone : path.steps.filter (· ≠ .stay) = [] := by
        rw [Path.filter_steps, ← hparts, Path.parts, hspelling]
        rfl
      have hmem : Step.enter name ∈ path.steps.filter (· ≠ .stay) :=
        List.mem_filter.2 ⟨List.mem_of_getLast? hname, by simp⟩
      rw [hnone] at hmem
      cases hmem
    · exact hsteps
  rw [visitKey, visitKey, canonical, canonical, lookUp_eq_of_parts_eq hparts hother hpath, hparts]

/-- Paths of files with the same parts lead to the same place. -/
theorem lookUp_eq_of_isFile {left right : Path} (hleft : fs.isFile left = true)
    (hright : fs.isFile right = true) (hparts : left.parts = right.parts) (manner : Manner) :
    fs.lookUp manner left = fs.lookUp manner right := by
  obtain ⟨name, hname⟩ := getLast?_steps_of_isFile hleft
  obtain ⟨name', hname'⟩ := getLast?_steps_of_isFile hright
  apply lookUp_eq_of_parts_eq hparts
  · rw [hname]
    simp
  · rw [hname']
    simp

/-- Paths of files with the same parts have the same key. -/
theorem visitKey_eq_of_isFile {left right : Path} (hleft : fs.isFile left = true)
    (hright : fs.isFile right = true) (hparts : left.parts = right.parts) :
    fs.visitKey left = fs.visitKey right := by
  rw [visitKey, visitKey, canonical, canonical, lookUp_eq_of_isFile hleft hright hparts, hparts]

end FileSystem

end ScriptAnalysis
