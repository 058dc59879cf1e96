import ScriptAnalysis.Proofs.FileSystem.SameFile
import ScriptAnalysis.Proofs.Include.Footprint

/-!
# The list of the visited scripts

A walk lists scripts by the paths under which it reached them. No script is listed twice, the root
comes first, and every other script is included by one that is listed before it. Nothing is left
out: what a listed script includes is listed as well, though perhaps under another path, unless it
cannot be read.

* `Include.Includes`: whether a script includes another.
* `Include.includes_of_explore_eq_append`: where a visited path comes from.
* `Include.exists_visitKey_eq_of_pending`, `Include.exists_visitKey_eq_of_target`: what becomes of
  the pending paths and of the targets.
* `Include.exists_listed_of_includes`: what a listed script includes is listed, if it can be read.
* `Include.Traversal`, `Include.traversal_closure`: what is required of the list, and that it holds.
-/

namespace ScriptAnalysis

namespace Include

/-- Whether the script at `path`, whose text is looked up in `source`, includes the one at
`target`. -/
def Includes (fs : FileSystem) (vocabulary : Vocabulary) (source : Path → Except Fault Text)
    (path target : Path) : Prop :=
  ∃ text, source path = .ok text ∧
    ∃ code ∈ codeLines text, target? fs vocabulary path code = some target

/-- What is required of a list of the scripts in the include closure of `root`, whose content is
`text` if that is given. -/
structure Traversal (fs : FileSystem) (vocabulary : Vocabulary) (root : Path) (text : Option Text)
    (listed : List Path) : Prop where
  /-- No two listed paths have the same key. -/
  distinct : listed.Pairwise fun left right => fs.visitKey left ≠ fs.visitKey right
  /-- The root comes first. -/
  root_first : ∀ first ∈ listed.head?, first = root
  /-- Every listed script has a text. -/
  exists_text : ∀ path ∈ listed, ∃ found, textOf fs root text path = .ok found
  /-- Every listed path behind the first is a target on some line of an earlier one. -/
  included : ∀ before path after, listed = before ++ path :: after → before ≠ [] →
    ∃ earlier ∈ before, Includes fs vocabulary (textOf fs root text) earlier path
  /-- Every target on a line of a listed script is a regular file, which either cannot be read or
  has the key of a listed path. -/
  closed : ∀ path ∈ listed, ∀ target, Includes fs vocabulary (textOf fs root text) path target →
    fs.isFile target = true ∧
      ((∃ fault, fs.read target = .error fault) ∨
        ∃ other ∈ listed, fs.visitKey other = fs.visitKey target)

variable {fs : FileSystem} {vocabulary : Vocabulary}

/-- The targets of a visit are regular files. -/
theorem isFile_of_mem_targets {visit : Visit} {target : Path}
    (h : target ∈ targets fs vocabulary visit) : fs.isFile target = true := by
  obtain ⟨code, -, hcode⟩ := List.mem_filterMap.1 h
  exact isFile_of_target? hcode

/-- What a script includes is a regular file. -/
theorem Includes.isFile {source : Path → Except Fault Text} {path target : Path}
    (h : Includes fs vocabulary source path target) : fs.isFile target = true := by
  obtain ⟨text, -, code, -, htarget⟩ := h
  exact isFile_of_target? htarget

/-! ## The visits that a stack of pending paths leads to -/

section Explore

variable {pending : List Path} {visited : List (List Part)}

/-- A visited path was pending, or is a target of an earlier visit. -/
theorem includes_of_explore_eq_append {before after : List Visit} {visit : Visit}
    (h : explore fs vocabulary pending visited = before ++ visit :: after) :
    visit.path ∈ pending ∨ ∃ earlier ∈ before, visit.path ∈ targets fs vocabulary earlier := by
  fun_induction explore fs vocabulary pending visited generalizing before with
  | case1 visited => simp at h
  | case2 visited path rest hmarked ih => exact (ih h).imp_left (List.mem_cons_of_mem _)
  | case3 visited path rest hfresh fault hread ih => exact (ih h).imp_left (List.mem_cons_of_mem _)
  | case4 visited path rest hfresh content hread first =>
    rename_i ih
    cases before with
    | nil =>
      obtain ⟨rfl, -⟩ := List.cons.inj h
      exact .inl List.mem_cons_self
    | cons head before =>
      obtain ⟨rfl, hlater⟩ := List.cons.inj h
      -- What is pending behind the first visit are its targets and the rest of the stack.
      rcases ih hlater with hnext | ⟨earlier, hearlier, htarget⟩
      · rcases List.mem_append.1 hnext with htarget | hold
        · exact .inr ⟨first, List.mem_cons_self, htarget⟩
        · exact .inl (List.mem_cons_of_mem _ hold)
      · exact .inr ⟨earlier, List.mem_cons_of_mem _ hearlier, htarget⟩

/-- The stack behind a visit holds files, if the stack before it does. -/
theorem isFile_of_mem_targets_append {path : Path} {rest : List Path} {visit : Visit}
    (hfiles : ∀ other ∈ path :: rest, fs.isFile other = true) :
    ∀ other ∈ targets fs vocabulary visit ++ rest, fs.isFile other = true := by
  intro other hother
  rcases List.mem_append.1 hother with htarget | hold
  · exact isFile_of_mem_targets htarget
  · exact hfiles other (List.mem_cons_of_mem _ hold)

/-- A pending file that can be read is marked already, or its key is that of a visit. -/
theorem exists_visitKey_eq_of_pending (hfiles : ∀ path ∈ pending, fs.isFile path = true)
    {path : Path} (h : path ∈ pending) {bytes : List UInt8} (hok : fs.read path = .ok bytes) :
    fs.visitKey path ∈ visited ∨
      ∃ visit ∈ explore fs vocabulary pending visited,
        fs.visitKey visit.path = fs.visitKey path := by
  fun_induction explore fs vocabulary pending visited with
  | case1 visited => cases h
  | case2 visited first rest hmarked ih =>
    rcases List.mem_cons.1 h with rfl | hrest
    · exact .inl hmarked
    · exact ih (fun other hother => hfiles other (List.mem_cons_of_mem _ hother)) hrest
  | case3 visited first rest hfresh fault hread ih =>
    -- What cannot be read is another file, so that its mark does not hide this one.
    have hother : fs.visitKey path ≠ fs.visitKey first :=
      FileSystem.visitKey_ne_of_read hok (hfiles first List.mem_cons_self) hread
    rcases List.mem_cons.1 h with rfl | hrest
    · exact absurd rfl hother
    · rcases ih (fun other hmem => hfiles other (List.mem_cons_of_mem _ hmem)) hrest with
        hmarked | hvisit
      · exact .inl ((List.mem_cons.1 hmarked).resolve_left hother)
      · exact .inr hvisit
  | case4 visited first rest hfresh content hread visit ih =>
    rcases List.mem_cons.1 h with rfl | hrest
    · exact .inr ⟨visit, List.mem_cons_self, rfl⟩
    · rcases ih (isFile_of_mem_targets_append hfiles) (List.mem_append_right _ hrest) with
        hmarked | ⟨other, hother, hkey⟩
      · rcases List.mem_cons.1 hmarked with hsame | hold
        · exact .inr ⟨visit, List.mem_cons_self, hsame.symm⟩
        · exact .inl hold
      · exact .inr ⟨other, List.mem_cons_of_mem _ hother, hkey⟩

/-- A target of a visit that can be read was marked before, or its key is that of a visit. -/
theorem exists_visitKey_eq_of_target (hfiles : ∀ path ∈ pending, fs.isFile path = true)
    {visit : Visit} (hvisit : visit ∈ explore fs vocabulary pending visited) {target : Path}
    (h : target ∈ targets fs vocabulary visit) {bytes : List UInt8}
    (hok : fs.read target = .ok bytes) :
    fs.visitKey target ∈ visited ∨
      ∃ other ∈ explore fs vocabulary pending visited,
        fs.visitKey other.path = fs.visitKey target := by
  fun_induction explore fs vocabulary pending visited with
  | case1 visited => cases hvisit
  | case2 visited path rest hmarked ih =>
    exact ih (fun other hother => hfiles other (List.mem_cons_of_mem _ hother)) hvisit
  | case3 visited path rest hfresh fault hread ih =>
    have hother : fs.visitKey target ≠ fs.visitKey path :=
      FileSystem.visitKey_ne_of_read hok (hfiles path List.mem_cons_self) hread
    rcases ih (fun other hmem => hfiles other (List.mem_cons_of_mem _ hmem)) hvisit with
      hmarked | hlater
    · exact .inl ((List.mem_cons.1 hmarked).resolve_left hother)
    · exact .inr hlater
  | case4 visited path rest hfresh content hread first ih =>
    have hnext : ∀ other ∈ targets fs vocabulary first ++ rest, fs.isFile other = true :=
      isFile_of_mem_targets_append hfiles
    -- The targets of the first visit are pending behind it; those of the others are told by
    -- induction.
    have hinner : fs.visitKey target ∈ fs.visitKey path :: visited ∨
        ∃ other ∈ explore fs vocabulary (targets fs vocabulary first ++ rest)
          (fs.visitKey path :: visited), fs.visitKey other.path = fs.visitKey target := by
      rcases List.mem_cons.1 hvisit with rfl | hlater
      · exact exists_visitKey_eq_of_pending hnext (List.mem_append_left _ h) hok
      · exact ih hnext hlater
    rcases hinner with hmarked | ⟨other, hother, hkey⟩
    · rcases List.mem_cons.1 hmarked with hsame | hold
      · exact .inr ⟨first, List.mem_cons_self, hsame.symm⟩
      · exact .inl hold
    · exact .inr ⟨other, List.mem_cons_of_mem _ hother, hkey⟩

end Explore

/-! ## The visits of a walk -/

section Walk

variable {root : Path} {text : Option Text}

/-- A walk either visits nothing or visits its root first and then what the root leads to. -/
theorem walk_eq_nil_or_cons (fs : FileSystem) (vocabulary : Vocabulary) (root : Path)
    (text : Option Text) :
    walk fs vocabulary root text = [] ∨
      ∃ found, textOf fs root text root = .ok found ∧
        walk fs vocabulary root text = Visit.ofText root found ::
          explore fs vocabulary (targets fs vocabulary (Visit.ofText root found))
            [fs.visitKey root] := by
  cases text with
  | some text => exact .inr ⟨text, by rw [textOf, if_pos rfl], rfl⟩
  | none =>
    cases hread : fs.read root with
    | error fault =>
      left
      rw [walk, explore_of_error List.not_mem_nil hread, explore]
    | ok content =>
      refine .inr ⟨Utf8.decodeLossy content, ?_, ?_⟩
      · rw [textOf, FileSystem.readText, hread]
        rfl
      · rw [walk, explore_of_ok List.not_mem_nil hread, List.append_nil]

/-- The targets of a visit are the scripts that its path includes. -/
theorem mem_targets_iff {visit : Visit} (hvisit : visit ∈ walk fs vocabulary root text)
    {target : Path} :
    target ∈ targets fs vocabulary visit ↔
      Includes fs vocabulary (textOf fs root text) visit.path target := by
  obtain ⟨found, htext, hlines⟩ := lines_of_mem_walk hvisit
  rw [targets, List.mem_filterMap, hlines]
  constructor
  · rintro ⟨code, hcode, htarget⟩
    exact ⟨found, htext, code, hcode, htarget⟩
  · rintro ⟨other, hother, code, hcode, htarget⟩
    rw [htext] at hother
    cases hother
    exact ⟨code, hcode, htarget⟩

/-- No two visits of a walk have the same key. -/
theorem pairwise_visitKey_walk (fs : FileSystem) (vocabulary : Vocabulary) (root : Path)
    (text : Option Text) :
    (walk fs vocabulary root text).Pairwise fun left right =>
      fs.visitKey left.path ≠ fs.visitKey right.path := by
  rcases walk_eq_nil_or_cons fs vocabulary root text with hnil | ⟨found, -, hcons⟩
  · rw [hnil]
    exact .nil
  · rw [hcons]
    refine .cons (fun visit hvisit heq => ?_) (pairwise_explore _ _)
    -- The key of the root is marked when the others are visited.
    apply visitKey_not_mem_of_mem_explore hvisit
    rw [← heq]
    exact List.mem_cons_self

/-- A visit behind the first is a target of an earlier one. -/
theorem mem_targets_of_walk_eq_append {before after : List Visit} {visit : Visit}
    (h : walk fs vocabulary root text = before ++ visit :: after) (hne : before ≠ []) :
    ∃ earlier ∈ before, visit.path ∈ targets fs vocabulary earlier := by
  rcases walk_eq_nil_or_cons fs vocabulary root text with hnil | ⟨found, -, hcons⟩
  · rw [hnil] at h
    simp at h
  · obtain ⟨first, before, rfl⟩ := List.exists_cons_of_ne_nil hne
    rw [hcons] at h
    obtain ⟨rfl, hlater⟩ := List.cons.inj h
    rcases includes_of_explore_eq_append hlater with htarget | ⟨earlier, hearlier, htarget⟩
    · exact ⟨_, List.mem_cons_self, htarget⟩
    · exact ⟨earlier, List.mem_cons_of_mem _ hearlier, htarget⟩

/-- The key of a target of a visit is that of a visit, if the target can be read. -/
theorem exists_visitKey_eq_of_mem_targets {visit : Visit}
    (hvisit : visit ∈ walk fs vocabulary root text) {target : Path}
    (h : target ∈ targets fs vocabulary visit) {bytes : List UInt8}
    (hok : fs.read target = .ok bytes) :
    ∃ other ∈ walk fs vocabulary root text, fs.visitKey other.path = fs.visitKey target := by
  rcases walk_eq_nil_or_cons fs vocabulary root text with hnil | ⟨found, -, hcons⟩
  · rw [hnil] at hvisit
    cases hvisit
  · rw [hcons] at hvisit ⊢
    have hfiles : ∀ path ∈ targets fs vocabulary (Visit.ofText root found),
        fs.isFile path = true := fun path => isFile_of_mem_targets
    -- Only the root is marked before its targets are explored.
    have hinner : fs.visitKey target ∈ [fs.visitKey root] ∨
        ∃ other ∈ explore fs vocabulary (targets fs vocabulary (Visit.ofText root found))
          [fs.visitKey root], fs.visitKey other.path = fs.visitKey target := by
      rcases List.mem_cons.1 hvisit with rfl | hlater
      · exact exists_visitKey_eq_of_pending hfiles h hok
      · exact exists_visitKey_eq_of_target hfiles hlater h hok
    rcases hinner with hroot | ⟨other, hother, hkey⟩
    · exact ⟨_, List.mem_cons_self, (List.mem_singleton.1 hroot).symm⟩
    · exact ⟨other, List.mem_cons_of_mem _ hother, hkey⟩

/-- What a listed script includes is listed under some path, if it can be read. -/
theorem exists_listed_of_includes {path target : Path}
    (hpath : path ∈ closure fs vocabulary root text)
    (h : Includes fs vocabulary (textOf fs root text) path target) {bytes : List UInt8}
    (hok : fs.read target = .ok bytes) :
    ∃ other ∈ closure fs vocabulary root text, fs.visitKey other = fs.visitKey target := by
  obtain ⟨visit, hvisit, rfl⟩ := List.mem_map.1 hpath
  obtain ⟨other, hother, hkey⟩ :=
    exists_visitKey_eq_of_mem_targets hvisit ((mem_targets_iff hvisit).2 h) hok
  exact ⟨other.path, List.mem_map_of_mem hother, hkey⟩

end Walk

/-- The scripts that a walk lists are distinct, the root first and every other one included by an
earlier one, and whatever a listed script includes cannot be read or is listed under some path. -/
theorem traversal_closure (fs : FileSystem) (vocabulary : Vocabulary) (root : Path)
    (text : Option Text) :
    Traversal fs vocabulary root text (closure fs vocabulary root text) where
  distinct := List.pairwise_map.2 (pairwise_visitKey_walk fs vocabulary root text)
  root_first first hfirst := by
    rcases walk_eq_nil_or_cons fs vocabulary root text with hnil | ⟨found, -, hcons⟩
    · rw [closure, hnil] at hfirst
      cases hfirst
    · rw [closure, hcons] at hfirst
      cases hfirst
      rfl
  exists_text path hpath := by
    obtain ⟨visit, hvisit, rfl⟩ := List.mem_map.1 hpath
    obtain ⟨found, htext, -⟩ := lines_of_mem_walk hvisit
    exact ⟨found, htext⟩
  included before path after hsplit hne := by
    obtain ⟨front, back, hwalk, rfl, hback⟩ := List.map_eq_append_iff.1 hsplit
    obtain ⟨visit, last, rfl, rfl, -⟩ := List.map_eq_cons_iff.1 hback
    have hfront : front ≠ [] := fun hnil => hne (by rw [hnil, List.map_nil])
    obtain ⟨earlier, hearlier, htarget⟩ := mem_targets_of_walk_eq_append hwalk hfront
    have hvisit : earlier ∈ walk fs vocabulary root text := by
      rw [hwalk]
      exact List.mem_append_left _ hearlier
    exact ⟨earlier.path, List.mem_map_of_mem hearlier, (mem_targets_iff hvisit).1 htarget⟩
  closed path hpath target hincludes := by
    refine ⟨hincludes.isFile, ?_⟩
    cases hread : fs.read target with
    | error fault => exact .inl ⟨fault, rfl⟩
    | ok bytes => exact .inr (exists_listed_of_includes hpath hincludes hread)

end Include

end ScriptAnalysis
