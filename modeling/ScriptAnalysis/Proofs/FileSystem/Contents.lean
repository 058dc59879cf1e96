import ScriptAnalysis.FileSystem.Reach

/-!
# Changing the contents of files

A disk on which only the contents of files differ is walked in the same way: every look-up leads to
the same address or ends with the same fault, so that only what is read differs.

* `FileSystem.mapFiles`: the disk with the content of each file changed.
* `FileSystem.lookUp_mapFiles`: what a path leads to on it.
* `FileSystem.visitKey_mapFiles`, `FileSystem.isFile_mapFiles`,
  `FileSystem.read_mapFiles_of_locate`: what stays and what changes.
* `FileSystem.node?_of_locate`: paths that lead to one address lead to one file.
-/

namespace ScriptAnalysis

variable (change : Address → List UInt8 → List UInt8)

/-- The directory at the address `around` with the content of each file below it changed. -/
def Directory.mapFiles (around : Address) : Directory → Directory
  | [] => []
  | (name, .file readable content) :: rest =>
    (name, .file readable (change (name :: around) content)) :: mapFiles around rest
  | (name, .directory searchable objects) :: rest =>
    (name, .directory searchable (mapFiles (name :: around) objects)) :: mapFiles around rest
  | (name, .link target) :: rest => (name, .link target) :: mapFiles around rest

/-- The object at an address with the content of each file in it changed. -/
def Node.mapFiles (address : Address) : Node → Node
  | .file readable content => .file readable (change address content)
  | .directory searchable objects =>
    .directory searchable (Directory.mapFiles change address objects)
  | .link target => .link target

/-- The disk with the content of each file changed. -/
def FileSystem.mapFiles (fs : FileSystem) : FileSystem :=
  { fs with top := Directory.mapFiles change [] fs.top }

/-- The same trail on the disk with changed contents. -/
def Trail.mapFiles : Trail → Trail
  | [] => []
  | entered :: trail =>
    { entered with
      objects :=
        Directory.mapFiles change (entered.name :: Trail.address trail) entered.objects } ::
      mapFiles trail

/-- What is found at the same address on the disk with changed contents. -/
def Found.mapFiles (found : Found) : Found :=
  { found with node := found.node.mapFiles change found.address }

/-- Changing contents changes each object in its place. -/
@[simp]
theorem Directory.find?_mapFiles (around : Address) (objects : Directory) (name : Text) :
    find? (mapFiles change around objects) name =
      (find? objects name).map (Node.mapFiles change (name :: around)) := by
  induction objects with
  | nil => rw [mapFiles, find?, Option.map_none]
  | cons object rest ih =>
    obtain ⟨other, node⟩ := object
    by_cases hname : name = other
    · cases node <;> simp [mapFiles, find?, hname, Node.mapFiles]
    · cases node <;> simp [mapFiles, find?, hname, ih]

namespace Trail

@[simp]
theorem address_mapFiles (trail : Trail) : (trail.mapFiles change).address = trail.address := by
  induction trail with
  | nil => rfl
  | cons entered trail ih => simpa [mapFiles, address] using ih

@[simp]
theorem objects_mapFiles (top : Directory) (trail : Trail) :
    (trail.mapFiles change).objects (Directory.mapFiles change [] top) =
      Directory.mapFiles change trail.address (trail.objects top) := by
  cases trail <;> rfl

@[simp]
theorem widthOf_mapFiles (trail : Trail) (name : Text) :
    (trail.mapFiles change).widthOf name = trail.widthOf name := by
  cases trail <;> rfl

@[simp]
theorem tail_mapFiles (trail : Trail) :
    (trail.mapFiles change).tail = mapFiles change trail.tail := by
  cases trail <;> rfl

@[simp]
theorem isSearchable_mapFiles (top : Bool) (trail : Trail) :
    (trail.mapFiles change).isSearchable top = trail.isSearchable top := by
  cases trail <;> rfl

@[simp]
theorem allSearchable_mapFiles (top : Bool) (trail : Trail) :
    (trail.mapFiles change).allSearchable top = trail.allSearchable top := by
  have hall : (trail.mapFiles change).all (·.searchable) = trail.all (·.searchable) := by
    induction trail with
    | nil => rfl
    | cons entered trail ih => simp only [mapFiles, List.all_cons, ih]
  rw [allSearchable, allSearchable, hall]

theorem enter_mapFiles (trail : Trail) (name : Text) (searchable : Bool) (objects : Directory) :
    (trail.mapFiles change).enter name searchable
        (Directory.mapFiles change (name :: trail.address) objects) =
      (trail.enter name searchable objects).mapFiles change := by
  rw [enter, widthOf_mapFiles]
  rfl

@[simp]
theorem origin_mapFiles (trail : Trail) (path : Path) :
    FileSystem.origin (trail.mapFiles change) path =
      (FileSystem.origin trail path).mapFiles change := by
  rw [FileSystem.origin, FileSystem.origin]
  split <;> rfl

end Trail

namespace FileSystem

variable (fs : FileSystem)

@[simp]
theorem mayLookUp_mapFiles (manner : Manner) (trail : Trail) :
    (fs.mapFiles change).mayLookUp manner (trail.mapFiles change) = fs.mayLookUp manner trail := by
  cases manner with
  | opening => exact Trail.isSearchable_mapFiles change fs.topSearchable trail
  | naming => exact Trail.allSearchable_mapFiles change fs.topSearchable trail

@[simp]
theorem mayLeave_mapFiles (manner : Manner) (trail : Trail) :
    (fs.mapFiles change).mayLeave manner (trail.mapFiles change) = fs.mayLeave manner trail := by
  cases manner with
  | opening => exact Trail.isSearchable_mapFiles change fs.topSearchable trail
  | naming => rfl

theorem trailTo_mapFiles (address : Address) :
    (fs.mapFiles change).trailTo address = (fs.trailTo address).mapFiles change := by
  induction address with
  | nil => rfl
  | cons name around ih =>
    have hfind : Directory.find?
        (((fs.mapFiles change).trailTo around).objects (fs.mapFiles change).top) name =
          (Directory.find? ((fs.trailTo around).objects fs.top) name).map
            (Node.mapFiles change (name :: around)) := by
      rw [ih]
      show Directory.find? (((fs.trailTo around).mapFiles change).objects
        (Directory.mapFiles change [] fs.top)) name = _
      rw [Trail.objects_mapFiles, Directory.find?_mapFiles, address_trailTo]
    have hempty : Directory.mapFiles change (name :: (fs.trailTo around).address) [] = [] := by
      rw [Directory.mapFiles]
    simp only [trailTo]
    rw [hfind, ih]
    -- A trail to what is no directory goes on through an empty one, which has no file to change.
    cases Directory.find? ((fs.trailTo around).objects fs.top) name with
    | none =>
      show (Trail.mapFiles change _).enter name true [] = _
      rw [← Trail.enter_mapFiles, hempty]
    | some node =>
      cases node with
      | directory searchable objects =>
        show (Trail.mapFiles change _).enter name searchable
          (Directory.mapFiles change _ objects) = _
        rw [← Trail.enter_mapFiles, address_trailTo]
      | file readable content =>
        show (Trail.mapFiles change _).enter name true [] = _
        rw [← Trail.enter_mapFiles, hempty]
      | link target =>
        show (Trail.mapFiles change _).enter name true [] = _
        rw [← Trail.enter_mapFiles, hempty]

/-- Steps lead to the same place, if links do. -/
theorem walkSteps_mapFiles {manner : Manner}
    {onLink onLink' : Trail → List Step → Except Fault Found}
    (hlink : ∀ trail steps, onLink' (Trail.mapFiles change trail) steps =
      (onLink trail steps).map (Found.mapFiles change))
    (trail : Trail) (steps : List Step) :
    (fs.mapFiles change).walkSteps manner onLink' (trail.mapFiles change) steps =
      (fs.walkSteps manner onLink trail steps).map (Found.mapFiles change) := by
  have htop (trail : Trail) : (trail.mapFiles change).objects (fs.mapFiles change).top =
      Directory.mapFiles change trail.address (trail.objects fs.top) :=
    Trail.objects_mapFiles change fs.top trail
  have hsearchable (trail : Trail) :
      (trail.mapFiles change).isSearchable (fs.mapFiles change).topSearchable =
        trail.isSearchable fs.topSearchable :=
    Trail.isSearchable_mapFiles change fs.topSearchable trail
  induction steps generalizing trail with
  | nil =>
    rw [walkSteps, walkSteps, htop, hsearchable, Trail.address_mapFiles]
    rfl
  | cons step steps ih =>
    cases step with
    | stay => exact ih trail
    | up =>
      rw [walkSteps, walkSteps, mayLeave_mapFiles, Trail.tail_mapFiles]
      split
      · rfl
      · exact ih trail.tail
    | enter name =>
      -- Permission and the limits on the name and the path come first, then the kind of the object.
      simp only [walkSteps, mayLookUp_mapFiles, Trail.widthOf_mapFiles, htop,
        Directory.find?_mapFiles]
      split
      · rfl
      · split
        · rfl
        · cases Directory.find? (trail.objects fs.top) name with
          | none => rfl
          | some node =>
            cases node with
            | directory searchable objects =>
              simp only [Option.map_some, Node.mapFiles]
              split
              · rfl
              · rw [Trail.enter_mapFiles]
                exact ih _
            | file readable content =>
              simp only [Option.map_some, Node.mapFiles]
              split
              · rw [Trail.address_mapFiles]
                rfl
              · rfl
            | link target =>
              simp only [Option.map_some, Node.mapFiles]
              rw [Trail.origin_mapFiles]
              exact hlink _ _

theorem follow_mapFiles (manner : Manner) (links : Nat) (trail : Trail) (steps : List Step) :
    (fs.mapFiles change).follow manner links (trail.mapFiles change) steps =
      (fs.follow manner links trail steps).map (Found.mapFiles change) := by
  induction links generalizing trail steps with
  | zero => exact walkSteps_mapFiles change fs (fun _ _ => rfl) trail steps
  | succ links ih => exact walkSteps_mapFiles change fs ih trail steps

/-- A path leads to the same address. -/
theorem lookUp_mapFiles (manner : Manner) (path : Path) :
    (fs.mapFiles change).lookUp manner path =
      (fs.lookUp manner path).map (Found.mapFiles change) := by
  have hwork : (fs.mapFiles change).workingDirectory = fs.workingDirectory := rfl
  rw [lookUp, lookUp, hwork, trailTo_mapFiles, Trail.origin_mapFiles, follow_mapFiles]
  split
  · rfl
  · split <;> rfl

theorem locate_mapFiles (path : Path) :
    (fs.mapFiles change).locate path = (fs.locate path).map (Found.mapFiles change) := by
  rw [locate, locate, lookUp_mapFiles]
  split <;> rfl

/-- The key of a path does not depend on the contents. -/
@[simp]
theorem visitKey_mapFiles (path : Path) :
    (fs.mapFiles change).visitKey path = fs.visitKey path := by
  rw [visitKey, visitKey, canonical, canonical, lookUp_mapFiles]
  cases fs.lookUp .naming path <;> rfl

theorem read_mapFiles_of_locate {path : Path} {address : Address} {content : List UInt8}
    (h : fs.locate path = .ok ⟨address, .file true content⟩) :
    (fs.mapFiles change).read path = .ok (change address content) := by
  rw [read, locate_mapFiles, h]
  rfl

theorem read_mapFiles_of_error {path : Path} {fault : Fault} (h : fs.read path = .error fault) :
    (fs.mapFiles change).read path = .error fault := by
  rw [read] at h ⊢
  rw [locate_mapFiles]
  cases hlocate : fs.locate path with
  | error other =>
    rw [hlocate] at h
    exact h
  | ok found =>
    obtain ⟨address, node⟩ := found
    rw [hlocate] at h
    cases node with
    | file readable content =>
      cases readable with
      | true => cases h
      | false => exact h
    | directory searchable objects => exact h
    | link target => exact h

/-- The same files can be read. -/
theorem exists_read_mapFiles_iff {path : Path} :
    (∃ content, (fs.mapFiles change).read path = .ok content) ↔
      ∃ content, fs.read path = .ok content := by
  constructor
  · rintro ⟨content, hread⟩
    cases hold : fs.read path with
    | ok old => exact ⟨old, rfl⟩
    | error fault =>
      rw [read_mapFiles_of_error change fs hold] at hread
      cases hread
  · rintro ⟨content, hread⟩
    obtain ⟨address, hlocate⟩ := read_eq_ok_iff.1 hread
    exact ⟨_, read_mapFiles_of_locate change fs hlocate⟩

/-- The files are the same. -/
@[simp]
theorem isFile_mapFiles (path : Path) : (fs.mapFiles change).isFile path = fs.isFile path := by
  rw [isFile, isFile, locate_mapFiles]
  cases fs.locate path with
  | error fault => rfl
  | ok found =>
    obtain ⟨address, node⟩ := found
    cases node <;> rfl

/-! ## The object at an address -/

variable {fs}

theorem exists_origin_trailTo (fs : FileSystem) (around : Address) (path : Path) :
    ∃ start, origin (fs.trailTo around) path = fs.trailTo start := by
  rw [origin]
  split
  · exact ⟨[], rfl⟩
  · exact ⟨around, rfl⟩

/-- Steps find a file as the object at its address, if they do so behind links. -/
theorem node?_of_walkSteps {manner : Manner} {onLink : Trail → List Step → Except Fault Found}
    {address : Address} {readable : Bool} {content : List UInt8}
    (hlink : ∀ around steps,
      onLink (fs.trailTo around) steps = .ok ⟨address, .file readable content⟩ →
        fs.node? address = some (.file readable content))
    {around : Address} {steps : List Step}
    (h : fs.walkSteps manner onLink (fs.trailTo around) steps =
      .ok ⟨address, .file readable content⟩) :
    fs.node? address = some (.file readable content) := by
  induction steps generalizing around with
  | nil => cases h
  | cons step steps ih =>
    cases step with
    | stay => exact ih h
    | up =>
      have htail := (walkSteps_up_eq_ok_iff.1 h).2
      rw [tail_trailTo] at htail
      exact ih htail
    | enter name =>
      obtain ⟨-, -, -, hcases⟩ := walkSteps_enter_eq_ok_iff.1 h
      rcases hcases with ⟨_, _, hfind, -, hinner⟩ | ⟨_, _, hfind, -, hfound⟩ |
        ⟨target, -, hinner⟩
      · rw [enter_trailTo hfind] at hinner
        exact ih hinner
      · cases hfound
        rw [address_trailTo]
        exact hfind
      · -- Behind a link the walk goes on from the top or from where the link is.
        obtain ⟨start, hstart⟩ := exists_origin_trailTo fs around target
        rw [hstart] at hinner
        exact hlink _ _ hinner

theorem node?_of_follow {manner : Manner} {links : Nat} {around address : Address}
    {steps : List Step} {readable : Bool} {content : List UInt8}
    (h : fs.follow manner links (fs.trailTo around) steps =
      .ok ⟨address, .file readable content⟩) :
    fs.node? address = some (.file readable content) := by
  induction links generalizing around steps with
  | zero => exact node?_of_walkSteps (fun _ _ hlink => by cases hlink) h
  | succ links ih => exact node?_of_walkSteps (fun _ _ hlink => ih hlink) h

/-- The file that a path leads to is the object at its address. -/
theorem node?_of_locate {path : Path} {address : Address} {readable : Bool} {content : List UInt8}
    (h : fs.locate path = .ok ⟨address, .file readable content⟩) :
    fs.node? address = some (.file readable content) := by
  have hfollow := follow_of_lookUp (lookUp_of_locate h).1
  obtain ⟨start, hstart⟩ := exists_origin_trailTo fs fs.workingDirectory path
  rw [hstart] at hfollow
  exact node?_of_follow hfollow

end FileSystem

end ScriptAnalysis
