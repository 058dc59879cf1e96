import ScriptAnalysis.Proofs.Include.Visits
import ScriptAnalysis.Proofs.Text.Utf8

/-!
# What a walk depends on

A walk asks the disk about a limited number of paths: its root, and for each include line that it
meets, the candidates up to the first that is a regular file. Of such a path it sees whether it is
one, and if so, its key, whether it can be read, and its content. Disks that show the same of all
these paths are walked in the same way.

* `FileSystem.sight`: what a walk sees of a path.
* `Include.consulted`: the paths that a walk asks about.
* `Include.explore_of_mem`, `Include.explore_of_error`, `Include.explore_of_ok`: the three turns of
  a walk.
* `Include.explore_congr`, `Include.walk_congr`: disks that are walked in the same way.
-/

namespace ScriptAnalysis

/-- What a walk sees of a path: nothing if it is not a regular file, else its key, and its content
if it can be read. -/
def FileSystem.sight (fs : FileSystem) (path : Path) : Option (List Part × Option (List UInt8)) :=
  if fs.isFile path then some (fs.visitKey path, (fs.read path).toOption) else none

namespace FileSystem

variable {fs fs' : FileSystem} {path : Path}

theorem sight_of_isFile (h : fs.isFile path = true) :
    fs.sight path = some (fs.visitKey path, (fs.read path).toOption) :=
  if_pos h

theorem isSome_sight (fs : FileSystem) (path : Path) : (fs.sight path).isSome = fs.isFile path := by
  rw [sight]
  cases fs.isFile path <;> rfl

theorem isFile_eq_of_sight (h : fs'.sight path = fs.sight path) :
    fs'.isFile path = fs.isFile path := by
  rw [← isSome_sight, ← isSome_sight, h]

/-- A path that is no regular file cannot be read. -/
theorem exists_error_of_not_isFile (h : fs.isFile path = false) :
    ∃ fault, fs.read path = .error fault := by
  cases hread : fs.read path with
  | error fault => exact ⟨fault, rfl⟩
  | ok content =>
    rw [isFile_of_read hread] at h
    cases h

/-- Whether a walk that passes over a path does so on both of two disks: the path has the same key
on them, and can be read on both or on neither. -/
structure Alike (fs fs' : FileSystem) (path : Path) : Prop where
  /-- The keys are the same. -/
  visitKey_eq : fs'.visitKey path = fs.visitKey path
  /-- The path can be read on both disks or on neither. -/
  isOk_eq : (fs'.read path).isOk = (fs.read path).isOk

/-- What can be read on neither disk ends with a fault on the second. -/
theorem Alike.exists_error (h : Alike fs fs' path) {fault : Fault}
    (hread : fs.read path = .error fault) : ∃ fault', fs'.read path = .error fault' := by
  have hok := h.isOk_eq
  rw [hread] at hok
  cases hread' : fs'.read path with
  | error fault' => exact ⟨fault', rfl⟩
  | ok content =>
    rw [hread'] at hok
    cases hok

/-- A file that looks the same has the same key, and is read in the same way if it can be. -/
theorem visitKey_and_content_eq_of_sight (hfile : fs.isFile path = true)
    (h : fs'.sight path = fs.sight path) :
    fs'.visitKey path = fs.visitKey path ∧
      (fs'.read path).toOption = (fs.read path).toOption := by
  have hfile' := (isFile_eq_of_sight h).trans hfile
  rw [sight_of_isFile hfile, sight_of_isFile hfile', Option.some.injEq, Prod.mk.injEq] at h
  exact h

/-- A file that looks the same is treated in the same way. -/
theorem alike_of_sight (hfile : fs.isFile path = true) (h : fs'.sight path = fs.sight path) :
    Alike fs fs' path := by
  obtain ⟨hkey, hcontent⟩ := visitKey_and_content_eq_of_sight hfile h
  refine ⟨hkey, ?_⟩
  cases hread : fs.read path <;> cases hread' : fs'.read path <;>
    simp_all [Except.toOption, Except.isOk, Except.toBool]

/-- A file that looks the same as one that can be read has the same content. -/
theorem read_eq_of_sight {content : List UInt8} (hread : fs.read path = .ok content)
    (h : fs'.sight path = fs.sight path) : fs'.read path = .ok content := by
  have hcontent := (visitKey_and_content_eq_of_sight (isFile_of_read hread) h).2
  rw [hread] at hcontent
  cases hread' : fs'.read path with
  | error fault =>
    rw [hread'] at hcontent
    cases hcontent
  | ok found =>
    rw [hread'] at hcontent
    cases hcontent
    rfl

end FileSystem

namespace Include

/-- The paths that a line of the file `base` may include, in the order they are tried. -/
def lineCandidates (vocabulary : Vocabulary) (base : Path) (code : CodeLine) : List Path :=
  if vocabulary.isInclude code.commandName then
    match code.argument? with
    | some argument => candidates vocabulary base argument.text
    | none => []
  else []

/-- The candidates that are tried: those up to the first file. -/
def tried (fs : FileSystem) : List Path → List Path
  | [] => []
  | path :: rest => if fs.isFile path then [path] else path :: tried fs rest

/-- The paths that the walk from `root` asks the disk about. -/
def consulted (fs : FileSystem) (vocabulary : Vocabulary) (root : Path) : List Path :=
  root :: (walk fs vocabulary root none).flatMap fun visit =>
    visit.lines.flatMap fun code => tried fs (lineCandidates vocabulary visit.path code)

variable {fs fs' : FileSystem} {vocabulary : Vocabulary}

/-- A line includes the first of its candidates that is a file. -/
theorem target?_eq_find? (fs : FileSystem) (vocabulary : Vocabulary) (base : Path)
    (code : CodeLine) :
    target? fs vocabulary base code = (lineCandidates vocabulary base code).find? fs.isFile := by
  rw [target?, lineCandidates]
  split
  · cases code.argument? <;> rfl
  · rfl

/-- What comes after the first file makes no difference to a search for it. -/
theorem find?_isFile_congr {paths : List Path}
    (h : ∀ path ∈ tried fs paths, fs'.isFile path = fs.isFile path) :
    paths.find? fs'.isFile = paths.find? fs.isFile := by
  induction paths with
  | nil => rfl
  | cons path rest ih =>
    rw [tried] at h
    split at h
    · next hfile =>
      have hfile' := (h path List.mem_cons_self).trans hfile
      rw [List.find?_cons_of_pos hfile', List.find?_cons_of_pos hfile]
    · next hnot =>
      have hnot' : ¬fs'.isFile path = true := by rwa [h path List.mem_cons_self]
      rw [List.find?_cons_of_neg hnot', List.find?_cons_of_neg hnot]
      exact ih fun other hother => h other (List.mem_cons_of_mem _ hother)

/-- The file that is found is one of those tried. -/
theorem mem_tried_of_find? {paths : List Path} {path : Path}
    (h : paths.find? fs.isFile = some path) : path ∈ tried fs paths := by
  induction paths with
  | nil => cases h
  | cons first rest ih =>
    rw [tried]
    split
    · next hfile =>
      rw [List.find?_cons_of_pos hfile] at h
      cases h
      exact List.mem_cons_self
    · next hnot =>
      rw [List.find?_cons_of_neg hnot] at h
      exact List.mem_cons_of_mem _ (ih h)

/-! ## The turns of a walk -/

section Turns

variable {path : Path} {rest : List Path} {visited : List (List Part)}

/-- A marked path is left alone. -/
theorem explore_of_mem (h : fs.visitKey path ∈ visited) :
    explore fs vocabulary (path :: rest) visited = explore fs vocabulary rest visited := by
  rw [explore, dif_pos h]

/-- A path that cannot be read is only marked. -/
theorem explore_of_error {fault : Fault} (hfresh : fs.visitKey path ∉ visited)
    (hread : fs.read path = .error fault) :
    explore fs vocabulary (path :: rest) visited =
      explore fs vocabulary rest (fs.visitKey path :: visited) := by
  rw [explore, dif_neg hfresh]
  split
  · rfl
  · next hok =>
    rw [hread] at hok
    cases hok

/-- A file is visited and marked, and its targets come next. -/
theorem explore_of_ok {content : List UInt8} (hfresh : fs.visitKey path ∉ visited)
    (hread : fs.read path = .ok content) :
    explore fs vocabulary (path :: rest) visited =
      Visit.ofText path (Utf8.decodeLossy content) ::
        explore fs vocabulary
          (targets fs vocabulary (Visit.ofText path (Utf8.decodeLossy content)) ++ rest)
          (fs.visitKey path :: visited) := by
  rw [explore, dif_neg hfresh]
  split
  · next hfault =>
    rw [hread] at hfault
    cases hfault
  · next found hfound =>
    rw [hread] at hfound
    cases hfound
    rfl

/-- A script with a known text and known targets is visited, and its targets come next. -/
theorem explore_of_encode (text : Text) (next : List Path)
    (hfresh : fs.visitKey path ∉ visited) (hread : fs.read path = .ok (Utf8.encode text))
    (htargets : targets fs vocabulary (Visit.ofText path text) = next) :
    explore fs vocabulary (path :: rest) visited =
      Visit.ofText path text ::
        explore fs vocabulary (next ++ rest) (fs.visitKey path :: visited) := by
  rw [explore_of_ok hfresh hread, Utf8.decodeLossy_encode, htargets]

/-- The walk from a root that cannot be read visits nothing. -/
theorem walk_of_error {root : Path} {fault : Fault} (hread : fs.read root = .error fault) :
    walk fs vocabulary root none = [] := by
  rw [walk, explore_of_error List.not_mem_nil hread, explore]

/-- The walk from a root that is no regular file visits nothing. -/
theorem walk_of_not_isFile {root : Path} (h : fs.isFile root = false) :
    walk fs vocabulary root none = [] := by
  obtain ⟨fault, hread⟩ := FileSystem.exists_error_of_not_isFile h
  exact walk_of_error hread

/-- The walk from a script that includes no other. -/
theorem walk_single {text : Text} (hread : fs.read path = .ok (Utf8.encode text))
    (hnone : targets fs vocabulary (Visit.ofText path text) = []) :
    walk fs vocabulary path none = [Visit.ofText path text] := by
  rw [walk, explore_of_encode text [] List.not_mem_nil hread hnone, List.append_nil, explore]

/-- The walk from a script that includes one other, which includes none. -/
theorem walk_pair {root : Path} {text text' : Text}
    (hroot : fs.read root = .ok (Utf8.encode text))
    (hread : fs.read path = .ok (Utf8.encode text'))
    (hfresh : fs.visitKey path ∉ [fs.visitKey root])
    (htargets : targets fs vocabulary (Visit.ofText root text) = [path])
    (hnone : targets fs vocabulary (Visit.ofText path text') = []) :
    walk fs vocabulary root none = [Visit.ofText root text, Visit.ofText path text'] := by
  rw [walk, explore_of_encode text [path] List.not_mem_nil hroot htargets, List.append_nil,
    explore_of_encode text' [] hfresh hread hnone, List.append_nil, explore]

end Turns

/-! ## Disks that are walked in the same way -/

/-- Two disks are walked in the same way if the pending paths are alike on both, and if so are the
targets of each visit, which are the same and found in files with the same content. -/
theorem explore_congr {pending : List Path} {visited : List (List Part)}
    (hpending : ∀ path ∈ pending, FileSystem.Alike fs fs' path)
    (hvisits : ∀ visit ∈ explore fs vocabulary pending visited,
      fs'.read visit.path = fs.read visit.path ∧
        targets fs' vocabulary visit = targets fs vocabulary visit ∧
        ∀ target ∈ targets fs vocabulary visit, FileSystem.Alike fs fs' target) :
    explore fs' vocabulary pending visited = explore fs vocabulary pending visited := by
  -- The induction follows the walk of the first disk. What it visits is known there, and the second
  -- walk takes the same turn at each path.
  fun_induction explore fs vocabulary pending visited with
  | case1 visited => rw [explore]
  | case2 visited path rest hmarked ih =>
    obtain ⟨halike, hrest⟩ := List.forall_mem_cons.1 hpending
    rw [explore_of_mem (by rwa [halike.visitKey_eq]), ih hrest hvisits]
  | case3 visited path rest hfresh fault hread ih =>
    obtain ⟨halike, hrest⟩ := List.forall_mem_cons.1 hpending
    obtain ⟨fault', hread'⟩ := halike.exists_error hread
    rw [explore_of_error (by rwa [halike.visitKey_eq]) hread', halike.visitKey_eq,
      ih hrest hvisits]
  | case4 visited path rest hfresh content hread first ih =>
    obtain ⟨halike, hrest⟩ := List.forall_mem_cons.1 hpending
    obtain ⟨⟨hsame, htargets, hnext⟩, hlater⟩ := List.forall_mem_cons.1 hvisits
    have hread' : fs'.read path = .ok content := hsame.trans hread
    have hpushed : ∀ next ∈ targets fs vocabulary first ++ rest, FileSystem.Alike fs fs' next :=
      fun next hmem => (List.mem_append.1 hmem).elim (hnext next) (hrest next)
    rw [explore_of_ok (by rwa [halike.visitKey_eq]) hread', halike.visitKey_eq]
    show first :: explore fs' vocabulary (targets fs' vocabulary first ++ rest) _ = _
    rw [htargets, ih hpushed hlater]

/-- A visited path was pending, or is the target of another visit. -/
theorem path_mem_of_mem_explore {pending : List Path} {visited : List (List Part)} {visit : Visit}
    (h : visit ∈ explore fs vocabulary pending visited) :
    visit.path ∈ pending ∨
      ∃ earlier ∈ explore fs vocabulary pending visited,
        visit.path ∈ targets fs vocabulary earlier := by
  fun_induction explore fs vocabulary pending visited with
  | case1 visited => cases h
  | case2 visited path rest hmarked ih => exact (ih h).imp_left (List.mem_cons_of_mem _)
  | case3 visited path rest hfresh fault hread ih => exact (ih h).imp_left (List.mem_cons_of_mem _)
  | case4 visited path rest hfresh content hread first ih =>
    rcases List.mem_cons.1 h with rfl | hlater
    · exact .inl List.mem_cons_self
    · rcases ih hlater with hnext | ⟨earlier, hearlier, htarget⟩
      · rcases List.mem_append.1 hnext with htarget | hold
        · exact .inr ⟨first, List.mem_cons_self, htarget⟩
        · exact .inl (List.mem_cons_of_mem _ hold)
      · exact .inr ⟨earlier, List.mem_cons_of_mem _ hearlier, htarget⟩

/-- The targets of a visit are among the paths that the walk asks about. -/
theorem target_mem_consulted {root target : Path} {visit : Visit}
    (hvisit : visit ∈ walk fs vocabulary root none) (h : target ∈ targets fs vocabulary visit) :
    target ∈ consulted fs vocabulary root := by
  obtain ⟨code, hcode, htarget⟩ := List.mem_filterMap.1 h
  rw [target?_eq_find?] at htarget
  exact List.mem_cons_of_mem _ (List.mem_flatMap.2
    ⟨visit, hvisit, List.mem_flatMap.2 ⟨code, hcode, mem_tried_of_find? htarget⟩⟩)

/-- The visited paths are among those that the walk asks about. -/
theorem path_mem_consulted {root : Path} {visit : Visit}
    (h : visit ∈ walk fs vocabulary root none) : visit.path ∈ consulted fs vocabulary root := by
  rcases path_mem_of_mem_explore h with hroot | ⟨earlier, hearlier, htarget⟩
  · rw [List.mem_singleton.1 hroot]
    exact List.mem_cons_self
  · exact target_mem_consulted hearlier htarget

/-- A visit has the same targets if the paths that the walk asks about look the same. -/
theorem targets_congr {root : Path}
    (h : ∀ path ∈ consulted fs vocabulary root, fs'.sight path = fs.sight path) {visit : Visit}
    (hvisit : visit ∈ walk fs vocabulary root none) :
    targets fs' vocabulary visit = targets fs vocabulary visit := by
  apply List.filterMap_congr
  intro code hcode
  rw [target?_eq_find?, target?_eq_find?]
  refine find?_isFile_congr fun path hpath => FileSystem.isFile_eq_of_sight (h path ?_)
  exact List.mem_cons_of_mem _ (List.mem_flatMap.2
    ⟨visit, hvisit, List.mem_flatMap.2 ⟨code, hcode, hpath⟩⟩)

/-- Disks that show the same of all paths that a walk asks about are walked in the same way. -/
theorem walk_congr {root : Path}
    (h : ∀ path ∈ consulted fs vocabulary root, fs'.sight path = fs.sight path) :
    walk fs' vocabulary root none = walk fs vocabulary root none := by
  have hroot := h root List.mem_cons_self
  cases hfile : fs.isFile root with
  | false =>
    -- A root that is no file ends both walks at once, whatever its keys are.
    have hfile' := (FileSystem.isFile_eq_of_sight hroot).trans hfile
    rw [walk_of_not_isFile hfile, walk_of_not_isFile hfile']
  | true =>
    refine explore_congr (fun path hpath => ?_) fun visit hvisit => ?_
    · cases List.mem_singleton.1 hpath
      exact FileSystem.alike_of_sight hfile hroot
    · obtain ⟨content, hread, -⟩ := read_of_mem_explore hvisit
      -- Visited paths and targets are files, so that the walk sees what is required of them.
      refine ⟨?_, targets_congr h hvisit, fun target htarget => ?_⟩
      · rw [FileSystem.read_eq_of_sight hread (h _ (path_mem_consulted hvisit)), hread]
      · obtain ⟨code, -, hcode⟩ := List.mem_filterMap.1 htarget
        exact FileSystem.alike_of_sight (isFile_of_target? hcode)
          (h _ (target_mem_consulted hvisit htarget))

end Include

end ScriptAnalysis
