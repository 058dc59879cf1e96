import ScriptAnalysis.FileSystem.LookUp

/-!
# What a look-up reaches

A look-up never leaves the disk: the names that it enters and the address where it ends consist of
names on the disk. Limits and permissions only make look-ups fail, so that a path that can be opened
and named leads to the same object both times. The addresses that can be named are short.

* `FileSystem.lookUp_unique`: all look-ups of a path that succeed find the same.
* `FileSystem.mem_names_of_follow`: the names that a successful look-up enters.
* `FileSystem.shortAddress_of_follow`: the address of a file that can be named.
-/

namespace ScriptAnalysis

/-- All names on a disk. The working directory always exists, so that its names count. -/
def FileSystem.names (fs : FileSystem) : List Text :=
  Directory.names fs.top ++ fs.workingDirectory

namespace Trail

/-- Whether every step of a trail is a step on the disk and the trail is no longer than its path. -/
def OnDisk (fs : FileSystem) : Trail → Prop
  | [] => True
  | entered :: trail =>
    entered.name ∈ fs.names ∧ Directory.names entered.objects ⊆ fs.names ∧
      trail.length < entered.width ∧ OnDisk fs trail

/-- A trail on a disk stays there on the way up. -/
theorem OnDisk.tail {fs : FileSystem} {trail : Trail} (h : OnDisk fs trail) :
    OnDisk fs trail.tail := by
  cases trail with
  | nil => exact h
  | cons entered trail => exact h.2.2.2

/-- A trail on a disk is no longer than its path. -/
theorem OnDisk.length_le_width {fs : FileSystem} {trail : Trail} (h : OnDisk fs trail) :
    trail.length ≤ trail.width := by
  cases trail with
  | nil => exact Nat.zero_le _
  | cons entered trail => exact h.2.2.1

/-- The objects at the end of a trail on a disk have names of the disk. -/
theorem OnDisk.names_subset {fs : FileSystem} {trail : Trail} (h : OnDisk fs trail) :
    Directory.names (trail.objects fs.top) ⊆ fs.names := by
  cases trail with
  | nil => exact List.subset_append_left _ _
  | cons entered trail => exact h.2.1

/-- The address of a trail on a disk consists of names of the disk. -/
theorem OnDisk.mem_names {fs : FileSystem} {trail : Trail} (h : OnDisk fs trail) {name : Text}
    (hname : name ∈ trail.address) : name ∈ fs.names := by
  induction trail with
  | nil => cases hname
  | cons entered trail ih =>
    rcases List.mem_cons.1 hname with heq | hlater
    · exact heq ▸ h.1
    · exact ih h.2.2.2 hlater

/-- A trail on a disk stays there in a directory of the disk. -/
theorem OnDisk.enter {fs : FileSystem} {trail : Trail} (h : OnDisk fs trail) {name : Text}
    {searchable : Bool} {objects : Directory} (hname : name ∈ fs.names)
    (hobjects : Directory.names objects ⊆ fs.names) :
    OnDisk fs (trail.enter name searchable objects) := by
  have hlength := h.length_le_width
  refine ⟨hname, hobjects, ?_, h⟩
  simp only [widthOf]
  omega

/-- A relative path starts on the disk where its directory is, an absolute one at the top. -/
theorem OnDisk.origin {fs : FileSystem} {trail : Trail} (h : OnDisk fs trail) (path : Path) :
    OnDisk fs (FileSystem.origin trail path) := by
  unfold FileSystem.origin
  split
  · exact trivial
  · exact h

end Trail

namespace FileSystem

/-- The trail to an address of names of the disk is on the disk. -/
theorem onDisk_trailTo {fs : FileSystem} {address : Address} (h : address ⊆ fs.names) :
    Trail.OnDisk fs (fs.trailTo address) := by
  induction address with
  | nil => exact trivial
  | cons name around ih =>
    have haround := ih fun other hother => h (List.mem_cons_of_mem name hother)
    have hname := h List.mem_cons_self
    simp only [trailTo]
    split
    · next searchable objects hfind =>
      exact haround.enter hname fun other hother =>
        haround.names_subset (Directory.names_subset_of_find? hfind hother)
    · exact haround.enter hname (by simp [Directory.names])

/-- The look-up of a path starts on the disk. -/
theorem onDisk_origin (fs : FileSystem) (path : Path) :
    Trail.OnDisk fs (origin (fs.trailTo fs.workingDirectory) path) :=
  (onDisk_trailTo (List.subset_append_right _ _)).origin path

/-- Steps that succeed in two manners lead to the same place, if the links do. -/
theorem walkSteps_unique {fs : FileSystem} {manner manner' : Manner}
    {onLink onLink' : Trail → List Step → Except Fault Found}
    (hlink : ∀ trail steps found found',
      onLink trail steps = .ok found → onLink' trail steps = .ok found' → found = found')
    {trail : Trail} {found found' : Found} {steps : List Step}
    (h : fs.walkSteps manner onLink trail steps = .ok found)
    (h' : fs.walkSteps manner' onLink' trail steps = .ok found') : found = found' := by
  induction steps generalizing trail with
  | nil =>
    rw [walkSteps] at h h'
    cases h
    cases h'
    rfl
  | cons step steps ih =>
    cases step with
    | stay => exact ih h h'
    | up => exact ih (walkSteps_up_eq_ok_iff.1 h).2 (walkSteps_up_eq_ok_iff.1 h').2
    | enter name =>
      obtain ⟨-, -, -, hcases⟩ := walkSteps_enter_eq_ok_iff.1 h
      obtain ⟨-, -, -, hcases'⟩ := walkSteps_enter_eq_ok_iff.1 h'
      -- Both find the same object under the name.
      rcases hcases with ⟨searchable, objects, hfind, -, hinner⟩ |
        ⟨readable, content, hfind, -, rfl⟩ | ⟨target, hfind, hinner⟩
      · simp only [hfind, Option.some.injEq, Node.directory.injEq, reduceCtorEq, false_and,
          exists_false, or_false] at hcases'
        obtain ⟨_, _, ⟨rfl, rfl⟩, -, hinner'⟩ := hcases'
        exact ih hinner hinner'
      · simp only [hfind, Option.some.injEq, Node.file.injEq, reduceCtorEq, false_and,
          exists_false, or_false, false_or] at hcases'
        obtain ⟨_, _, ⟨rfl, rfl⟩, -, rfl⟩ := hcases'
        rfl
      · simp only [hfind, Option.some.injEq, Node.link.injEq, reduceCtorEq, false_and,
          exists_false, false_or] at hcases'
        obtain ⟨_, rfl, hinner'⟩ := hcases'
        exact hlink _ _ _ _ hinner hinner'

/-- Look-ups in two manners that succeed lead to the same place. -/
theorem follow_unique {fs : FileSystem} {manner manner' : Manner} {links : Nat} {trail : Trail}
    {found found' : Found} {steps : List Step}
    (h : fs.follow manner links trail steps = .ok found)
    (h' : fs.follow manner' links trail steps = .ok found') : found = found' := by
  -- The induction is on the links that may still be followed. With none left, no link leads on.
  induction links generalizing trail found found' steps with
  | zero => exact walkSteps_unique (fun _ _ _ _ hlink => by cases hlink) h h'
  | succ links ih => exact walkSteps_unique (fun _ _ _ _ hlink hlink' => ih hlink hlink') h h'

/-- Every name that successful steps enter is a name of the disk, if it is so for the links. -/
theorem mem_names_of_walkSteps {fs : FileSystem} {manner : Manner}
    {onLink : Trail → List Step → Except Fault Found} {name : Text}
    (hlink : ∀ trail steps found, Trail.OnDisk fs trail → onLink trail steps = .ok found →
      Step.enter name ∈ steps → name ∈ fs.names)
    {trail : Trail} {found : Found} {steps : List Step} (htrail : Trail.OnDisk fs trail)
    (h : fs.walkSteps manner onLink trail steps = .ok found) (hname : Step.enter name ∈ steps) :
    name ∈ fs.names := by
  induction steps generalizing trail with
  | nil => cases hname
  | cons step steps ih =>
    cases step with
    | stay => exact ih htrail h (by simpa using hname)
    | up => exact ih htrail.tail (walkSteps_up_eq_ok_iff.1 h).2 (by simpa using hname)
    | enter first =>
      have hfirst {node : Node}
          (hfind : Directory.find? (trail.objects fs.top) first = some node) : first ∈ fs.names :=
        htrail.names_subset (Directory.mem_names_of_find? hfind)
      obtain ⟨-, -, -, hcases⟩ := walkSteps_enter_eq_ok_iff.1 h
      rcases List.mem_cons.1 hname with heq | hlater
      · cases heq
        rcases hcases with ⟨_, _, hfind, -⟩ | ⟨_, _, hfind, -⟩ | ⟨_, hfind, -⟩
        · exact hfirst hfind
        · exact hfirst hfind
        · exact hfirst hfind
      · rcases hcases with ⟨_, objects, hfind, -, hinner⟩ | ⟨_, _, -, hend, -⟩ |
          ⟨target, -, hinner⟩
        · exact ih (htrail.enter (hfirst hfind) fun other hother =>
            htrail.names_subset (Directory.names_subset_of_find? hfind hother)) hinner hlater
        · rw [hend] at hlater
          cases hlater
        · -- The steps behind a link hold those that were left.
          exact hlink _ _ _ (htrail.origin target) hinner (List.mem_append_right _ hlater)

/-- Every name that a successful look-up enters is a name of the disk. -/
theorem mem_names_of_follow {fs : FileSystem} {manner : Manner} {links : Nat} {name : Text}
    {trail : Trail} {found : Found} {steps : List Step} (htrail : Trail.OnDisk fs trail)
    (h : fs.follow manner links trail steps = .ok found) (hname : Step.enter name ∈ steps) :
    name ∈ fs.names := by
  induction links generalizing trail found steps with
  | zero => exact mem_names_of_walkSteps (fun _ _ _ _ hlink => by cases hlink) htrail h hname
  | succ links ih =>
    exact mem_names_of_walkSteps (fun _ _ _ hon hlink => ih hon hlink) htrail h hname

/-- Whether an address consists of at most `bound` names of a disk. -/
def ShortAddress (fs : FileSystem) (bound : Nat) (address : Address) : Prop :=
  address ⊆ fs.names ∧ address.length ≤ bound

/-- Successful steps of naming find a file at a short address, if the links do. -/
theorem shortAddress_of_walkSteps {fs : FileSystem} {readable : Bool} {content : List UInt8}
    {onLink : Trail → List Step → Except Fault Found} {address : Address}
    (hlink : ∀ trail steps, Trail.OnDisk fs trail →
      onLink trail steps = .ok ⟨address, .file readable content⟩ →
        fs.ShortAddress pathLimit address)
    {trail : Trail} {steps : List Step} (htrail : Trail.OnDisk fs trail)
    (h : fs.walkSteps .naming onLink trail steps = .ok ⟨address, .file readable content⟩) :
    fs.ShortAddress pathLimit address := by
  induction steps generalizing trail with
  | nil => cases h
  | cons step steps ih =>
    cases step with
    | stay => exact ih htrail h
    | up => exact ih htrail.tail (walkSteps_up_eq_ok_iff.1 h).2
    | enter name =>
      obtain ⟨-, -, hfits, hcases⟩ := walkSteps_enter_eq_ok_iff.1 h
      -- Each name takes at least one byte of the path, so that the width bounds the length.
      have hwidth : trail.widthOf name ≤ pathLimit := of_decide_eq_true hfits
      rcases hcases with ⟨_, objects, hfind, -, hinner⟩ | ⟨_, _, hfind, -, hfound⟩ |
        ⟨target, -, hinner⟩
      · exact ih (htrail.enter (htrail.names_subset (Directory.mem_names_of_find? hfind))
          fun other hother =>
            htrail.names_subset (Directory.names_subset_of_find? hfind hother)) hinner
      · cases hfound
        refine ⟨fun other hother => ?_, ?_⟩
        · rcases List.mem_cons.1 hother with heq | hlater
          · exact heq ▸ htrail.names_subset (Directory.mem_names_of_find? hfind)
          · exact htrail.mem_names hlater
        · have hlength := htrail.length_le_width
          simp only [Trail.widthOf] at hwidth
          simp only [Trail.address, List.length_cons, List.length_map]
          omega
      · exact hlink _ _ (htrail.origin target) hinner

/-- Naming finds a file at a short address. -/
theorem shortAddress_of_follow {fs : FileSystem} {links : Nat} {readable : Bool}
    {content : List UInt8} {address : Address} {trail : Trail} {steps : List Step}
    (htrail : Trail.OnDisk fs trail)
    (h : fs.follow .naming links trail steps = .ok ⟨address, .file readable content⟩) :
    fs.ShortAddress pathLimit address := by
  induction links generalizing trail steps with
  | zero => exact shortAddress_of_walkSteps (fun _ _ _ hlink => by cases hlink) htrail h
  | succ links ih => exact shortAddress_of_walkSteps (fun _ _ hon hlink => ih hon hlink) htrail h

/-- What a path leads to is what its steps lead to. -/
theorem follow_of_lookUp {fs : FileSystem} {manner : Manner} {path : Path} {found : Found}
    (h : fs.lookUp manner path = .ok found) :
    fs.follow manner linkLimit (origin (fs.trailTo fs.workingDirectory) path) path.steps =
      .ok found := by
  unfold lookUp at h
  split at h
  · cases h
  · split at h
    · cases h
    · exact h

/-- All look-ups of a path that succeed find the same. -/
theorem lookUp_unique {fs : FileSystem} {manner manner' : Manner} {path : Path}
    {found found' : Found} (h : fs.lookUp manner path = .ok found)
    (h' : fs.lookUp manner' path = .ok found') : found = found' :=
  follow_unique (follow_of_lookUp h) (follow_of_lookUp h')

/-- What a path leads to when it is opened is found by looking it up, and its spelling is short. -/
theorem lookUp_of_locate {fs : FileSystem} {path : Path} {found : Found}
    (h : fs.locate path = .ok found) :
    fs.lookUp .opening path = .ok found ∧ Utf8.size path.spelling ≤ pathLimit := by
  unfold locate at h
  split at h
  · cases h
  · next hlimit =>
    -- A null character would have been refused, whatever the length.
    refine ⟨h, Nat.le_of_not_lt fun hlong => hlimit ⟨fun hnull => ?_, hlong⟩⟩
    unfold lookUp at h
    split at h
    · cases h
    · cases h

/-- Where a path can be opened, naming it finds the same or fails. -/
theorem canonical_eq_of_locate {fs : FileSystem} {path : Path} {found named : Found}
    (hlocate : fs.locate path = .ok found) (hcanonical : fs.canonical path = .ok named) :
    named = found :=
  lookUp_unique hcanonical (lookUp_of_locate hlocate).1

end FileSystem

end ScriptAnalysis
