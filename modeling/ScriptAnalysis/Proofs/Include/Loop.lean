import Mathlib.Algebra.GroupWithZero.Nat
import Mathlib.Data.List.Dedup
import Mathlib.Data.List.Perm.Subperm
import ScriptAnalysis.Proofs.Include.RootText

/-!
# The loop of a walk

A walk is a loop that takes one path after the other off a stack. A path that is not marked yet is
marked, and its script is visited and puts its targets on the stack, so that the stack may grow with
every turn. The loop ends nevertheless: it takes off the root and each target of a visit, and it
visits each key once. Where paths can be named by their address, this is one visit for each regular
file of the disk, and one for a root in memory. A path that can be opened, but not named, is known
by its spelling only, so that its file may be visited once for each.

* `Include.Loop`, `Include.Ends`: where the loop stands, and how it ends.
* `Include.ends_explore`, `Include.ends_walk`: the loop ends with the visits of the walk, and takes
  off one path for the root and one for each target.
* `FileSystem.files`, `FileSystem.mem_files_iff`: the regular files of a disk.
* `Include.length_walk_le`: how many visits there are.
* `Include.walk_ends_within`: the bounds of a walk.
* `Include.deep_file_visited_twice`: a walk that visits files twice.
-/

namespace ScriptAnalysis

/-! ## The regular files of a disk -/

mutual

/-- The addresses of the regular files at or below an object with this address. -/
def Node.files (address : Address) : Node → List Address
  | .file _ _ => [address]
  | .directory _ objects => Directory.files address objects
  | .link _ => []

/-- The addresses of the regular files below a directory with this address. -/
def Directory.files (around : Address) : List (Text × Node) → List Address
  | [] => []
  | object :: rest => Directory.filesOf around object ++ Directory.files around rest

/-- The addresses of the regular files at or below one object of a directory. -/
def Directory.filesOf (around : Address) : Text × Node → List Address
  | (name, node) => node.files (name :: around)

end

/-- The regular files of an object are among those of its directory. -/
theorem Directory.files_subset_of_find? {objects : Directory} {name : Text} {node : Node}
    (h : find? objects name = some node) (around : Address) :
    node.files (name :: around) ⊆ files around objects := by
  induction objects with
  | nil => cases h
  | cons object rest ih =>
    obtain ⟨other, content⟩ := object
    rw [find?] at h
    rw [files]
    split at h
    · next heq =>
      cases h
      rw [heq, filesOf]
      exact List.subset_append_left _ _
    · exact List.Subset.trans (ih h) (List.subset_append_right _ _)

namespace FileSystem

/-- The addresses of the regular files of a disk, each once. Of two objects with one name in a
directory, only the first is on the disk. -/
def files (fs : FileSystem) : List Address :=
  ((Directory.files [] fs.top).filter fun address =>
    match fs.node? address with
    | some (.file _ _) => true
    | _ => false).dedup

theorem files_subset (fs : FileSystem) (around : Address) :
    Directory.files around ((fs.trailTo around).objects fs.top) ⊆ Directory.files [] fs.top := by
  induction around with
  | nil => exact List.Subset.refl _
  | cons name around ih =>
    rw [trailTo]
    split
    · next searchable objects hfind =>
      have hinner := Directory.files_subset_of_find? hfind around
      rw [Node.files] at hinner
      exact List.Subset.trans hinner ih
    · exact List.nil_subset _

/-- The files of a disk are the objects with a content. -/
theorem mem_files_iff {fs : FileSystem} {address : Address} :
    address ∈ fs.files ↔
      ∃ readable content, fs.node? address = some (.file readable content) := by
  rw [files, List.mem_dedup, List.mem_filter]
  constructor
  · rintro ⟨-, hnode⟩
    split at hnode
    · next readable content hfile => exact ⟨readable, content, hfile⟩
    · cases hnode
  · rintro ⟨readable, content, hfile⟩
    rw [hfile]
    refine ⟨?_, rfl⟩
    cases address with
    | nil => cases hfile
    | cons name around =>
      exact fs.files_subset around
        (Directory.files_subset_of_find? hfile around (List.mem_singleton_self _))

/-- A path that leads to a file leads to one of the files of the disk. -/
theorem exists_file_of_isFile {fs : FileSystem} {path : Path} (h : fs.isFile path = true) :
    ∃ address ∈ fs.files, fs.fileAddress? path = some address := by
  obtain ⟨address, readable, content, hlocate⟩ := isFile_iff.1 h
  exact ⟨address, mem_files_iff.2 ⟨readable, content, node?_of_locate hlocate⟩,
    by rw [fileAddress?, hlocate]⟩

theorem isFile_of_fileAddress? {fs : FileSystem} {path : Path} {address : Address}
    (h : fs.fileAddress? path = some address) : fs.isFile path = true := by
  rw [fileAddress?] at h
  split at h
  · next readable content hlocate => exact isFile_iff.2 ⟨_, readable, content, hlocate⟩
  · cases h

end FileSystem

namespace Include

/-! ## The loop -/

/-- Where the loop of a walk stands. -/
structure Loop where
  /-- The paths on the stack, the next one first. -/
  pending : List Path
  /-- The keys of the paths visited or passed over. -/
  marked : List (List Part)
  /-- The text of the root in memory, until it is used. -/
  given : Option Text
  /-- The visits made, in order. -/
  visits : List Visit

/-- Where the loop starts. -/
def Loop.start (root : Path) (text : Option Text) : Loop :=
  ⟨[root], [], text, []⟩

/-- One turn of the loop, which takes a path off the stack. A marked path is left alone, and one
that cannot be read is only marked. -/
def Loop.turn (fs : FileSystem) (vocabulary : Vocabulary) (loop : Loop) : Loop :=
  match loop.pending with
  | [] => loop
  | path :: rest =>
    if loop.marked.contains (fs.visitKey path) then { loop with pending := rest }
    else
      match loop.given.or (fs.readText path).toOption with
      | none => { loop with pending := rest, marked := fs.visitKey path :: loop.marked }
      | some text =>
        let visit := Visit.ofText path text
        { pending := targets fs vocabulary visit ++ rest
          marked := fs.visitKey path :: loop.marked
          given := none
          visits := loop.visits ++ [visit] }

/-- Whether the loop ends after a number of turns, each of which takes a path off the stack, and
which visits it has made then. -/
inductive Ends (fs : FileSystem) (vocabulary : Vocabulary) : Loop → Nat → List Visit → Prop
  /-- Nothing is on the stack. -/
  | done {loop : Loop} (h : loop.pending = []) : Ends fs vocabulary loop 0 loop.visits
  /-- Another turn is taken. -/
  | turn {loop : Loop} {pops : Nat} {visits : List Visit} (h : loop.pending ≠ [])
    (hrest : Ends fs vocabulary (loop.turn fs vocabulary) pops visits) :
    Ends fs vocabulary loop (pops + 1) visits

variable {fs : FileSystem} {vocabulary : Vocabulary}

/-- The loop ends in one way only. -/
theorem Ends.unique {loop : Loop} {pops pops' : Nat} {visits visits' : List Visit}
    (h : Ends fs vocabulary loop pops visits) (h' : Ends fs vocabulary loop pops' visits') :
    pops = pops' ∧ visits = visits' := by
  induction h generalizing pops' visits' with
  | done hempty =>
    cases h' with
    | done => exact ⟨rfl, rfl⟩
    | turn hpending => exact absurd hempty hpending
  | turn hpending _ ih =>
    cases h' with
    | done hempty => exact absurd hempty hpending
    | turn _ hrest =>
      obtain ⟨hpops, hvisits⟩ := ih hrest
      exact ⟨congrArg (· + 1) hpops, hvisits⟩

section Turns

variable {path : Path} {rest : List Path} {marked : List (List Part)} {given : Option Text}
  {made : List Visit}

theorem Loop.turn_of_mem (h : fs.visitKey path ∈ marked) :
    Loop.turn fs vocabulary ⟨path :: rest, marked, given, made⟩ = ⟨rest, marked, given, made⟩ :=
  if_pos (List.contains_iff_mem.2 h)

theorem Loop.turn_of_none (hfresh : fs.visitKey path ∉ marked)
    (htext : given.or (fs.readText path).toOption = none) :
    Loop.turn fs vocabulary ⟨path :: rest, marked, given, made⟩ =
      ⟨rest, fs.visitKey path :: marked, given, made⟩ := by
  rw [← List.contains_iff_mem] at hfresh
  simp only [Loop.turn, if_neg hfresh, htext]

theorem Loop.turn_of_some {text : Text} (hfresh : fs.visitKey path ∉ marked)
    (htext : given.or (fs.readText path).toOption = some text) :
    Loop.turn fs vocabulary ⟨path :: rest, marked, given, made⟩ =
      ⟨targets fs vocabulary (Visit.ofText path text) ++ rest, fs.visitKey path :: marked, none,
        made ++ [Visit.ofText path text]⟩ := by
  rw [← List.contains_iff_mem] at hfresh
  simp only [Loop.turn, if_neg hfresh, htext]

end Turns

/-- How many paths some visits put on the stack. -/
def pushes (fs : FileSystem) (vocabulary : Vocabulary) (visits : List Visit) : Nat :=
  (visits.map fun visit => (targets fs vocabulary visit).length).sum

@[simp]
theorem pushes_cons (visit : Visit) (later : List Visit) :
    pushes fs vocabulary (visit :: later) =
      (targets fs vocabulary visit).length + pushes fs vocabulary later := by
  rw [pushes, List.map_cons, List.sum_cons, pushes]

/-- From any stack, the loop ends with the visits that the stack leads to. It takes off what is on
the stack and what these visits put there. -/
theorem ends_explore (pending : List Path) (marked : List (List Part)) (made : List Visit) :
    Ends fs vocabulary ⟨pending, marked, none, made⟩
      (pending.length + pushes fs vocabulary (explore fs vocabulary pending marked))
      (made ++ explore fs vocabulary pending marked) := by
  fun_induction explore fs vocabulary pending marked generalizing made with
  | case1 marked =>
    rw [List.append_nil]
    exact .done rfl
  | case2 marked path rest hmarked ih =>
    rw [List.length_cons, Nat.add_right_comm]
    refine .turn (List.cons_ne_nil _ _) ?_
    rw [Loop.turn_of_mem hmarked]
    exact ih made
  | case3 marked path rest hfresh fault hread ih =>
    rw [List.length_cons, Nat.add_right_comm]
    refine .turn (List.cons_ne_nil _ _) ?_
    rw [Loop.turn_of_none hfresh (by rw [FileSystem.readText, hread]; rfl)]
    exact ih made
  | case4 marked path rest hfresh content hread visit ih =>
    rw [List.length_cons, Nat.add_right_comm]
    refine .turn (List.cons_ne_nil _ _) ?_
    rw [Loop.turn_of_some hfresh (by rw [FileSystem.readText, hread]; rfl)]
    -- What the visit puts on the stack is counted with the stack behind it.
    have hcount (later : List Visit) : rest.length + pushes fs vocabulary (visit :: later) =
        (targets fs vocabulary visit ++ rest).length + pushes fs vocabulary later := by
      rw [pushes_cons, List.length_append]
      omega
    have hlater := ih (made ++ [visit])
    rw [List.append_assoc, List.singleton_append] at hlater
    rw [hcount]
    exact hlater

/-- The loop ends with the visits of the walk. It takes off the root and the targets of the
visits. -/
theorem ends_walk (fs : FileSystem) (vocabulary : Vocabulary) (root : Path) (text : Option Text) :
    Ends fs vocabulary (Loop.start root text)
      (1 + pushes fs vocabulary (walk fs vocabulary root text)) (walk fs vocabulary root text) := by
  cases text with
  | none => exact ends_explore [root] [] []
  | some text =>
    rw [walk, pushes_cons, Nat.add_comm]
    refine .turn (List.cons_ne_nil _ _) ?_
    rw [Loop.start, Loop.turn_of_some List.not_mem_nil rfl, List.append_nil]
    exact ends_explore _ _ [Visit.ofText root text]

/-! ## Bounds -/

/-- The number of include lines of a visited script. -/
def includeLines (vocabulary : Vocabulary) (visit : Visit) : Nat :=
  visit.lines.countP fun code => vocabulary.isInclude code.commandName

/-- Only an include line has a target, and it has one at most. -/
theorem length_targets_le (visit : Visit) :
    (targets fs vocabulary visit).length ≤ includeLines vocabulary visit := by
  rw [targets, List.length_filterMap_eq_countP, includeLines]
  refine List.countP_mono_left fun code _ htarget => ?_
  rw [target?] at htarget
  split at htarget
  · assumption
  · cases htarget

theorem pushes_le (visits : List Visit) :
    pushes fs vocabulary visits ≤ (visits.map (includeLines vocabulary)).sum := by
  induction visits with
  | nil => exact Nat.le_refl 0
  | cons visit later ih =>
    rw [pushes_cons, List.map_cons, List.sum_cons]
    exact Nat.add_le_add (length_targets_le visit) ih

/-- The visits of different files: of several visits of one file, only the first. -/
def onceEach (fs : FileSystem) : List Visit → List Visit
  | [] => []
  | visit :: later =>
    visit :: (onceEach fs later).filter fun other =>
      fs.fileAddress? other.path ≠ fs.fileAddress? visit.path

theorem onceEach_eq_self {visits : List Visit}
    (h : visits.Pairwise fun left right =>
      fs.fileAddress? right.path ≠ fs.fileAddress? left.path) : onceEach fs visits = visits := by
  induction h with
  | nil => rfl
  | cons hfirst hothers ih =>
    rw [onceEach, ih,
      List.filter_eq_self.2 fun other hother => decide_eq_true (hfirst other hother)]

section Walk

variable {root : Path} {text : Option Text}

/-- Every visit but the first is one of a file. -/
theorem isFile_of_mem_tail {visit : Visit} (h : visit ∈ (walk fs vocabulary root text).tail) :
    fs.isFile visit.path = true := by
  rcases walk_eq_nil_or_cons fs vocabulary root text with hnil | ⟨found, -, hcons⟩
  · rw [hnil] at h
    cases h
  · rw [hcons] at h
    exact isFile_of_mem_explore h

/-- Behind the first visit, there is at most one for each regular file, besides those of paths that
cannot be named. -/
theorem length_walk_le (fs : FileSystem) (vocabulary : Vocabulary) (root : Path)
    (text : Option Text) :
    (walk fs vocabulary root text).length ≤ 1 + fs.files.length +
      ((walk fs vocabulary root text).tail.filter fun visit =>
        !fs.canBeNamed visit.path).length := by
  have hkeys : ((walk fs vocabulary root text).tail.filter fun visit =>
      fs.canBeNamed visit.path).length ≤ fs.files.length := by
    -- The visits of paths that can be named have different keys, which are addresses of files.
    have hdistinct := ((pairwise_visitKey_walk fs vocabulary root text).sublist
      (List.tail_sublist _)).filter fun visit => fs.canBeNamed visit.path
    have hsubset : ((walk fs vocabulary root text).tail.filter fun visit =>
        fs.canBeNamed visit.path).map (fun visit => fs.visitKey visit.path) ⊆
          fs.files.map Address.parts := by
      intro key hkey
      obtain ⟨visit, hvisit, rfl⟩ := List.mem_map.1 hkey
      obtain ⟨htail, hnamed⟩ := List.mem_filter.1 hvisit
      obtain ⟨address, hfile, haddress⟩ :=
        FileSystem.exists_file_of_isFile (isFile_of_mem_tail htail)
      rw [FileSystem.visitKey_of_fileAddress? haddress hnamed]
      exact List.mem_map_of_mem hfile
    have hle := (List.subperm_of_subset (List.pairwise_map.2 hdistinct) hsubset).length_le
    simpa using hle
  have hsplit := List.length_eq_length_filter_add (l := (walk fs vocabulary root text).tail)
    fun visit => fs.canBeNamed visit.path
  rw [List.length_tail] at hsplit
  omega

/-- Where the visited files can be named, none of them is visited twice. -/
theorem onceEach_walk
    (h : ∀ visit ∈ walk fs vocabulary root text, fs.isFile visit.path = true →
      fs.canBeNamed visit.path = true) :
    onceEach fs (walk fs vocabulary root text) = walk fs vocabulary root text := by
  have hapart {left right : Visit} (hleft : left ∈ walk fs vocabulary root text)
      (hright : right ∈ (walk fs vocabulary root text).tail)
      (hkeys : fs.visitKey left.path ≠ fs.visitKey right.path) :
      fs.fileAddress? right.path ≠ fs.fileAddress? left.path := by
    intro hsame
    have hfile := isFile_of_mem_tail hright
    obtain ⟨address, -, haddress⟩ := FileSystem.exists_file_of_isFile hfile
    -- Both are visits of the file at one address, which is the key of both.
    have hfile' : fs.isFile left.path = true :=
      FileSystem.isFile_of_fileAddress? (hsame.symm.trans haddress)
    apply hkeys
    rw [FileSystem.visitKey_of_fileAddress? (hsame.symm.trans haddress) (h left hleft hfile'),
      FileSystem.visitKey_of_fileAddress? haddress (h right (List.mem_of_mem_tail hright) hfile)]
  apply onceEach_eq_self
  have hkeys := pairwise_visitKey_walk fs vocabulary root text
  cases hwalk : walk fs vocabulary root text with
  | nil => exact .nil
  | cons first later =>
    rw [hwalk] at hkeys hapart
    obtain ⟨hfirst, hlater⟩ := List.pairwise_cons.1 hkeys
    refine .cons (fun visit hvisit => hapart List.mem_cons_self hvisit (hfirst visit hvisit)) ?_
    exact hlater.imp_of_mem fun hleft hright hne =>
      hapart (List.mem_cons_of_mem _ hleft) hright hne

/-- The loop of a walk ends with the visits of the walk. It takes at most one path off the stack for
the root and one for each include line of a visit, and behind its first visit it makes at most one
for each regular file, besides those of paths that cannot be named. Where the visited files can be
named, there is at most one visit more than regular files, and the include lines of each file are to
be counted only once. -/
theorem walk_ends_within (fs : FileSystem) (vocabulary : Vocabulary) (root : Path)
    (text : Option Text) :
    let visits := walk fs vocabulary root text
    ∃ pops, Ends fs vocabulary (Loop.start root text) pops visits ∧
      pops ≤ 1 + (visits.map (includeLines vocabulary)).sum ∧
      visits.length ≤
        1 + fs.files.length + (visits.tail.filter fun visit => !fs.canBeNamed visit.path).length ∧
      ((∀ visit ∈ visits, fs.isFile visit.path = true → fs.canBeNamed visit.path = true) →
        visits.length ≤ 1 + fs.files.length ∧
        pops ≤ 1 + ((onceEach fs visits).map (includeLines vocabulary)).sum) := by
  intro visits
  have hpops : 1 + pushes fs vocabulary visits ≤
      1 + (visits.map (includeLines vocabulary)).sum := Nat.add_le_add_left (pushes_le visits) 1
  have hvisits := length_walk_le fs vocabulary root text
  refine ⟨_, ends_walk fs vocabulary root text, hpops, hvisits, fun hnamed => ⟨?_, ?_⟩⟩
  · have hnone : (visits.tail.filter fun visit => !fs.canBeNamed visit.path) = [] := by
      rw [List.filter_eq_nil_iff]
      intro visit hvisit
      rw [hnamed visit (List.mem_of_mem_tail hvisit) (isFile_of_mem_tail hvisit)]
      exact Bool.false_ne_true
    rwa [hnone, List.length_nil, Nat.add_zero] at hvisits
  · rwa [onceEach_walk hnamed]

end Walk

/-- A root that is included again, under two other paths, is visited once. -/
theorem walk_ends_within_sample :
    let root : Path := ⟨"./main.osc".toList⟩
    let visits := walk aliasDisk .standard root (some "include lib\n".toList)
    (∀ visit ∈ visits, aliasDisk.isFile visit.path = true →
        aliasDisk.canBeNamed visit.path = true) ∧
      aliasDisk.files = [["main.osc".toList], ["lib.osc".toList]] ∧
      visits.length ≤ 1 + aliasDisk.files.length ∧
      ∃ pops, Ends aliasDisk .standard (Loop.start root (some "include lib\n".toList)) pops visits ∧
        pops ≤ 1 + ((onceEach aliasDisk visits).map (includeLines .standard)).sum := by
  intro root visits
  have hnamed : ∀ visit ∈ visits, aliasDisk.isFile visit.path = true →
      aliasDisk.canBeNamed visit.path = true := by
    show ∀ visit ∈ walk _ _ _ _, _
    rw [walk_aliasDisk]
    decide +kernel
  obtain ⟨pops, hends, -, -, hbounds⟩ :=
    walk_ends_within aliasDisk .standard root (some "include lib\n".toList)
  exact ⟨hnamed, by decide +kernel, (hbounds hnamed).1, pops, hends, (hbounds hnamed).2⟩

/-- A disk with three scripts that are too deep in directories to be named, a link in their
directory that leads to it, and the directory as the working directory. The first script includes
the second one twice, once through the link, and the second one includes the third. -/
def echoDisk : FileSystem :=
  ⟨true,
    nested [("main.osc".toList, .file true (Utf8.encode "include lib\ninclude a/lib\n".toList)),
      ("lib.osc".toList, .file true (Utf8.encode "include last\n".toList)),
      ("last.osc".toList, .file true []), ("a".toList, .link ⟨".".toList⟩)] 16,
    List.replicate 16 (List.replicate FileSystem.nameLimit 'd')⟩

/-- The second and the third script are visited under both spellings. -/
theorem walk_echoDisk :
    walk echoDisk .standard ⟨"main.osc".toList⟩ none =
      [Visit.ofText ⟨"main.osc".toList⟩ "include lib\ninclude a/lib\n".toList,
        Visit.ofText ⟨"lib.osc".toList⟩ "include last\n".toList,
        Visit.ofText ⟨"last.osc".toList⟩ [],
        Visit.ofText ⟨"a/lib.osc".toList⟩ "include last\n".toList,
        Visit.ofText ⟨"a/last.osc".toList⟩ []] := by
  rw [walk, explore_of_encode "include lib\ninclude a/lib\n".toList
      [⟨"lib.osc".toList⟩, ⟨"a/lib.osc".toList⟩] List.not_mem_nil (by decide +kernel)
      (by decide +kernel), List.cons_append,
    explore_of_encode "include last\n".toList [⟨"last.osc".toList⟩] (by decide +kernel)
      (by decide +kernel) (by decide +kernel), List.cons_append,
    explore_of_encode [] [] (by decide +kernel) (by decide +kernel) (by decide +kernel),
    List.nil_append, List.nil_append, List.cons_append,
    explore_of_encode "include last\n".toList [⟨"a/last.osc".toList⟩] (by decide +kernel)
      (by decide +kernel) (by decide +kernel), List.cons_append,
    explore_of_encode [] [] (by decide +kernel) (by decide +kernel) (by decide +kernel),
    List.nil_append, List.nil_append, List.nil_append, explore]

/-- Two of three files are visited twice, and the loop takes five paths off the stack for the root
and three include lines. -/
theorem deep_file_visited_twice :
    let root : Path := ⟨"main.osc".toList⟩
    let visits := walk echoDisk .standard root none
    echoDisk.files.length = 3 ∧ 1 + echoDisk.files.length < visits.length ∧
      ((onceEach echoDisk visits).map (includeLines .standard)).sum = 3 ∧
      ∀ pops found, Ends echoDisk .standard (Loop.start root none) pops found →
        found = visits ∧
        1 + ((onceEach echoDisk visits).map (includeLines .standard)).sum < pops := by
  intro root visits
  have hfiles : echoDisk.files.length = 3 := by decide +kernel
  have hlength : visits.length = 5 := by
    show (walk _ _ _ _).length = 5
    rw [walk_echoDisk]
    rfl
  have hpushes : pushes echoDisk .standard (walk echoDisk .standard root none) = 4 := by
    rw [walk_echoDisk]
    decide +kernel
  have hsum : ((onceEach echoDisk visits).map (includeLines .standard)).sum = 3 := by
    show ((onceEach _ (walk _ _ _ _)).map _).sum = 3
    rw [walk_echoDisk]
    decide +kernel
  refine ⟨hfiles, by omega, hsum, fun pops found hends => ?_⟩
  obtain ⟨hpops, hfound⟩ := hends.unique (ends_walk echoDisk .standard root none)
  exact ⟨hfound, by omega⟩

end Include

end ScriptAnalysis
