import Mathlib.Data.List.Induction
import ScriptAnalysis.FileSystem.Edit
import ScriptAnalysis.Proofs.Cache.Run
import ScriptAnalysis.Proofs.Symbol.Root

/-!
# Freshness of cached indexes

In a workspace, files are written and removed while a cache is asked for indexes, and the cache is
told of the changes. A note drops all indexes if it names a script. So no change is missed that is
noted before the next look-up, if it is the change of a script: the look-up gets what its root would
be indexed to on the disk of its time. The change of another file is missed, unless it leaves alone
all that the stored indexes depend on, or a script is noted along with it.

* `Workspace.step`, `Workspace.after`: what an action and a run do to a workspace.
* `Workspace.notesChanges`: whether every change is noted before the next look-up.
* `Workspace.Sheltered`: whether the changes of files that are no scripts do no harm.
* `Workspace.safe_after`: no index is out of date when a look-up is made.
* `Workspace.exists_fresh_answer`: what a look-up gets.
* `Workspace.stale_names`: a change that is noted and yet missed.
-/

namespace ScriptAnalysis

/-- A disk and the cache of the indexes on it. -/
structure Workspace where
  /-- The disk. -/
  disk : FileSystem
  /-- The cache. -/
  cache : Cache

namespace Workspace

/-- What is done in a workspace. Look-ups are made without a text in memory. -/
inductive Action where
  /-- Look up an index. -/
  | index (kind : SymbolKind) (root : Path) (version : Option Int)
  /-- Look up the names defined in an index. -/
  | names (kind : SymbolKind) (root : Path) (version : Option Int)
  /-- Write a file. -/
  | write (path : Path) (content : List UInt8)
  /-- Remove a file. -/
  | remove (path : Path)
  /-- Tell the cache of changed files. -/
  | notify (paths : List Path)

namespace Action

/-- What a look-up asks for. -/
def request? : Action → Option Cache.Request
  | index kind root version | names kind root version => some ⟨kind, root, none, version⟩
  | write _ _ | remove _ | notify _ => none

/-- The path of the file that is changed. -/
def changed? : Action → Option Path
  | write path _ | remove path => some path
  | index _ _ _ | names _ _ _ | notify _ => none

/-- What the cache is asked to do. -/
def operation? : Action → Option Cache.Operation
  | index kind root version => some (.index ⟨kind, root, none, version⟩)
  | names kind root version => some (.names ⟨kind, root, none, version⟩)
  | notify paths => some (.notify paths)
  | write _ _ | remove _ => none

/-- The disk after an action. -/
def apply (action : Action) (disk : FileSystem) : FileSystem :=
  match action with
  | write path content => disk.write path content
  | remove path => disk.remove path
  | index _ _ _ | names _ _ _ | notify _ => disk

/-- How a look-up presents an entry. -/
def present (action : Action) (entry : CacheEntry) : Cache.Answer :=
  match action with
  | names _ _ _ => .names entry.index.definedNames
  | index _ _ _ | write _ _ | remove _ | notify _ => .index entry

end Action

/-- What the cache answers to an action, if it is asked. -/
def answer? (workspace : Workspace) (action : Action) : Option Cache.Answer :=
  action.operation?.map fun operation => (workspace.cache.perform ⟨workspace.disk, operation⟩).1

/-- The workspace after an action. -/
def step (workspace : Workspace) (action : Action) : Workspace where
  disk := action.apply workspace.disk
  cache :=
    match action.operation? with
    | some operation => (workspace.cache.perform ⟨workspace.disk, operation⟩).2
    | none => workspace.cache

/-- The workspace after a run. -/
def after (workspace : Workspace) (actions : List Action) : Workspace :=
  actions.foldl step workspace

/-- The workspace before the first look-up. -/
def start (vocabulary : Vocabulary) (disk : FileSystem) : Workspace :=
  ⟨disk, .empty vocabulary⟩

/-- The index that a request has on the disk as it is. -/
def fresh (workspace : Workspace) (request : Cache.Request) : SymbolIndex :=
  request.kind.index workspace.disk workspace.cache.vocabulary request.root request.text

/-- Whether a path that passes the test is noted before the next look-up, or no look-up follows. -/
def notedNext (test : Path → Bool) : List Action → Bool
  | [] => true
  | .notify paths :: rest => paths.any test || notedNext test rest
  | .write _ _ :: rest | .remove _ :: rest => notedNext test rest
  | .index _ _ _ :: _ | .names _ _ _ :: _ => false

/-- Whether every change is noted before the next look-up, under any spelling of its path. -/
def notesChanges : List Action → Bool
  | [] => true
  | action :: rest =>
    (action.changed?.all fun path => notedNext (·.parts = path.parts) rest) && notesChanges rest

/-- Whether an action leaves alone what the stored indexes depend on: all that the walks from their
roots see of the paths that they ask about. -/
def LeavesAlone (workspace : Workspace) (action : Action) : Prop :=
  ∀ entry ∈ workspace.cache.entries,
    ∀ path ∈ Include.consulted workspace.disk workspace.cache.vocabulary entry.key.root,
      (action.apply workspace.disk).sight path = workspace.disk.sight path

/-- Whether each change of a file that is no script leaves alone what the stored indexes depend on,
or a script is noted before the next look-up. -/
def Sheltered (workspace : Workspace) : List Action → Prop
  | [] => True
  | action :: rest =>
    (∀ path, action.changed? = some path →
      workspace.cache.vocabulary.isScriptPath path = false →
        workspace.LeavesAlone action ∨
          notedNext workspace.cache.vocabulary.isScriptPath rest = true) ∧
      Sheltered (workspace.step action) rest

/-- Whether every stored index is what its root is indexed to on the disk as it is. -/
def UpToDate (workspace : Workspace) : Prop :=
  ∀ entry ∈ workspace.cache.entries,
    entry.index =
      entry.key.kind.index workspace.disk workspace.cache.vocabulary entry.key.root none

/-- Whether no stored index is out of date when the next look-up of a run is made: either none is
now, or all are dropped before it. -/
def Safe (workspace : Workspace) (actions : List Action) : Prop :=
  workspace.UpToDate ∨ notedNext workspace.cache.vocabulary.isScriptPath actions = true

variable {workspace : Workspace} {action : Action} {rest : List Action}

/-! ## What an action does -/

@[simp]
theorem after_cons (workspace : Workspace) (action : Action) (rest : List Action) :
    workspace.after (action :: rest) = (workspace.step action).after rest :=
  rfl

@[simp]
theorem after_concat (workspace : Workspace) (actions : List Action) (action : Action) :
    workspace.after (actions ++ [action]) = (workspace.after actions).step action := by
  simp [after]

@[simp]
theorem vocabulary_step (workspace : Workspace) (action : Action) :
    (workspace.step action).cache.vocabulary = workspace.cache.vocabulary := by
  rw [step]
  cases action.operation? with
  | some operation => exact Cache.vocabulary_perform _ _
  | none => rfl

@[simp]
theorem vocabulary_after (workspace : Workspace) (actions : List Action) :
    (workspace.after actions).cache.vocabulary = workspace.cache.vocabulary := by
  induction actions generalizing workspace with
  | nil => rfl
  | cons action rest ih => rw [after_cons, ih, vocabulary_step]

/-- The look-up that a request makes of the cache of a workspace. -/
def lookup (workspace : Workspace) (request : Cache.Request) : Cache.Lookup :=
  ⟨workspace.disk, fun disk => request.kind.index disk workspace.cache.vocabulary, request⟩

/-- A look-up presents the entry that it gets, and changes nothing but the cache. -/
theorem answer?_of_request? {request : Cache.Request} (h : action.request? = some request) :
    workspace.answer? action =
        some (action.present (workspace.cache.look (workspace.lookup request)).1) ∧
      workspace.step action =
        { workspace with cache := (workspace.cache.look (workspace.lookup request)).2 } := by
  cases action with
  | index kind root version => cases h; exact ⟨rfl, rfl⟩
  | names kind root version => cases h; exact ⟨rfl, rfl⟩
  | write path content => cases h
  | remove path => cases h
  | notify paths => cases h

/-- A change leaves the cache as it is. -/
theorem step_of_changed? {path : Path} (h : action.changed? = some path) :
    workspace.step action = { workspace with disk := action.apply workspace.disk } := by
  cases action with
  | write path content => rfl
  | remove path => rfl
  | index kind root version => cases h
  | names kind root version => cases h
  | notify paths => cases h

/-- A change puts no note off. -/
theorem notedNext_of_changed? {test : Path → Bool} {path : Path}
    (h : action.changed? = some path) : notedNext test (action :: rest) = notedNext test rest := by
  cases action <;> cases h <;> rw [notedNext]

/-- A note after the look-up comes too late. -/
theorem notedNext_of_request? {test : Path → Bool} {request : Cache.Request}
    (h : action.request? = some request) : notedNext test (action :: rest) = false := by
  cases action <;> cases h <;> rw [notedNext]

theorem notedNext_mono {test test' : Path → Bool}
    (htest : ∀ path, test path = true → test' path = true) {actions : List Action}
    (h : notedNext test actions = true) : notedNext test' actions = true := by
  fun_induction notedNext test actions with
  | case1 => rfl
  | case2 paths rest ih =>
    rcases Bool.or_eq_true_iff.1 h with hnow | hlater
    · obtain ⟨path, hpath, htrue⟩ := List.any_eq_true.1 hnow
      exact Bool.or_eq_true_iff.2 (.inl (List.any_eq_true.2 ⟨path, hpath, htest path htrue⟩))
    · exact Bool.or_eq_true_iff.2 (.inr (ih hlater))
  | case3 path content rest ih => exact ih h
  | case4 path rest ih => exact ih h
  | case5 => cases h
  | case6 => cases h

/-- A script that is noted drops all indexes. -/
theorem notedNext_isScriptPath {vocabulary : Vocabulary} {path : Path}
    (hscript : vocabulary.isScriptPath path = true) {actions : List Action}
    (h : notedNext (·.parts = path.parts) actions = true) :
    notedNext vocabulary.isScriptPath actions = true := by
  refine notedNext_mono (fun other hother => ?_) h
  have hparts : other.parts = path.parts := of_decide_eq_true hother
  simpa only [Vocabulary.isScriptPath, Path.extension?, hparts] using hscript

namespace Sheltered

theorem cons_of_unchanged (hunchanged : action.changed? = none)
    (h : (workspace.step action).Sheltered rest) : workspace.Sheltered (action :: rest) := by
  refine ⟨fun path hpath => ?_, h⟩
  rw [hunchanged] at hpath
  cases hpath

theorem cons_of_script {path : Path} (hpath : action.changed? = some path)
    (hscript : workspace.cache.vocabulary.isScriptPath path = true)
    (h : (workspace.step action).Sheltered rest) : workspace.Sheltered (action :: rest) := by
  refine ⟨fun other hother hno => ?_, h⟩
  rw [hpath] at hother
  cases hother
  rw [hscript] at hno
  cases hno

theorem cons_of_leavesAlone (halone : workspace.LeavesAlone action)
    (h : (workspace.step action).Sheltered rest) : workspace.Sheltered (action :: rest) :=
  ⟨fun _ _ _ => .inl halone, h⟩

end Sheltered

/-! ## What a run keeps -/

/-- Indexes stay up to date if what they depend on is left alone. -/
theorem upToDate_of_leavesAlone (h : workspace.UpToDate) (halone : workspace.LeavesAlone action) :
    UpToDate { workspace with disk := action.apply workspace.disk } := by
  intro entry hentry
  show _ = entry.key.kind.indexOf _ (Include.walk (action.apply workspace.disk) _ _ none)
  rw [Include.walk_congr (halone entry hentry)]
  exact h entry hentry

/-- A look-up adds nothing but the index of its own root. -/
theorem upToDate_look (h : workspace.UpToDate) {request : Cache.Request}
    (htext : request.text = none) :
    UpToDate { workspace with cache := (workspace.cache.look (workspace.lookup request)).2 } := by
  intro entry hentry
  rw [Cache.vocabulary_look]
  rcases Cache.mem_entries_look hentry with rfl | hold
  · show request.kind.index _ _ _ request.text = _
    rw [htext]
    rfl
  · exact h entry hold

theorem text_of_request? {request : Cache.Request} (h : action.request? = some request) :
    request.text = none := by
  cases action <;> cases h <;> rfl

/-- Before a look-up, safety means that every index is up to date. -/
theorem Safe.upToDate {request : Cache.Request} (h : workspace.Safe (action :: rest))
    (hrequest : action.request? = some request) : workspace.UpToDate := by
  rw [Safe, notedNext_of_request? hrequest] at h
  exact h.resolve_right Bool.false_ne_true

/-- A look-up is made when every index is up to date, and leaves them so. -/
theorem safe_of_request? {request : Cache.Request} (hrequest : action.request? = some request)
    (h : workspace.Safe (action :: rest)) : (workspace.step action).Safe rest := by
  rw [(answer?_of_request? hrequest).2]
  exact .inl (upToDate_look (h.upToDate hrequest) (text_of_request? hrequest))

/-- A change is noted, or leaves every index up to date. -/
theorem safe_of_changed? {path : Path} (hpath : action.changed? = some path)
    (hnotes : notesChanges (action :: rest) = true)
    (hsheltered : workspace.Sheltered (action :: rest)) (h : workspace.Safe (action :: rest)) :
    (workspace.step action).Safe rest := by
  rw [step_of_changed? hpath]
  rcases h with hfresh | hnoted
  · cases hscript : workspace.cache.vocabulary.isScriptPath path with
    | true =>
      -- The indexes may be out of date now, but the note comes before the next look-up.
      rw [notesChanges, hpath, Option.all_some, Bool.and_eq_true] at hnotes
      exact .inr (notedNext_isScriptPath hscript hnotes.1)
    | false =>
      rcases hsheltered.1 path hpath hscript with halone | hnoted
      · exact .inl (upToDate_of_leavesAlone hfresh halone)
      · exact .inr hnoted
  · rw [notedNext_of_changed? hpath] at hnoted
    exact .inr hnoted

/-- A note drops all indexes, or changes nothing. -/
theorem safe_notify {paths : List Path} (h : workspace.Safe (.notify paths :: rest)) :
    (workspace.step (.notify paths)).Safe rest := by
  show Safe ⟨workspace.disk, workspace.cache.notify paths⟩ rest
  rw [Cache.notify, Cache.touchesScript]
  split
  · -- Nothing is stored, so that nothing is out of date.
    exact .inl fun entry hentry => absurd hentry List.not_mem_nil
  · next hnone =>
    refine h.imp_right fun hnoted => ?_
    exact (Bool.or_eq_true_iff.1 hnoted).resolve_left hnone

/-- No action endangers the next look-up. -/
theorem safe_step (hnotes : notesChanges (action :: rest) = true)
    (hsheltered : workspace.Sheltered (action :: rest)) (h : workspace.Safe (action :: rest)) :
    (workspace.step action).Safe rest := by
  cases action with
  | index kind root version => exact safe_of_request? rfl h
  | names kind root version => exact safe_of_request? rfl h
  | write path content => exact safe_of_changed? rfl hnotes hsheltered h
  | remove path => exact safe_of_changed? rfl hnotes hsheltered h
  | notify paths => exact safe_notify h

/-- No run endangers the next look-up. -/
theorem safe_after {before : List Action} (hnotes : notesChanges (before ++ rest) = true)
    (hsheltered : workspace.Sheltered (before ++ rest)) (h : workspace.Safe (before ++ rest)) :
    (workspace.after before).Safe rest := by
  -- Safety looks ahead to the rest of the run, so that the induction goes forward.
  induction before generalizing workspace with
  | nil => exact h
  | cons action before ih =>
    have hlater : notesChanges (before ++ rest) = true := (Bool.and_eq_true_iff.1 hnotes).2
    exact ih hlater hsheltered.2 (safe_step hnotes hsheltered h)

/-- Only a look-up stores an index. -/
theorem mem_entries_of_step (hrequest : action.request? = none) {entry : CacheEntry}
    (h : entry ∈ (workspace.step action).cache.entries) : entry ∈ workspace.cache.entries := by
  cases action with
  | index kind root version => cases hrequest
  | names kind root version => cases hrequest
  | write path content => exact h
  | remove path => exact h
  | notify paths =>
    replace h : entry ∈ (workspace.cache.notify paths).entries := h
    rw [Cache.notify] at h
    split at h
    · cases h
    · exact h

/-- An index is stored by the look-up that asks for it. -/
theorem mem_entries_step {entry : CacheEntry} (h : entry ∈ (workspace.step action).cache.entries) :
    entry ∈ workspace.cache.entries ∨
      ∃ asked, action.request? = some asked ∧ Cache.tagOf entry.key = asked.tag ∧
        entry.key.root = asked.root := by
  cases hrequest : action.request? with
  | some asked =>
    rw [(answer?_of_request? hrequest).2] at h
    rcases Cache.mem_entries_look h with rfl | hold
    · exact .inr ⟨asked, rfl, rfl, rfl⟩
    · exact .inl hold
  | none => exact .inl (mem_entries_of_step hrequest h)

/-- Every stored index was asked for in the run. -/
theorem exists_request_of_mem_entries {vocabulary : Vocabulary} {disk : FileSystem}
    {actions : List Action} {entry : CacheEntry}
    (h : entry ∈ ((start vocabulary disk).after actions).cache.entries) :
    ∃ asked ∈ actions.filterMap Action.request?,
      Cache.tagOf entry.key = asked.tag ∧ entry.key.root = asked.root := by
  -- The last action stored the index, or it was there before.
  induction actions using List.reverseRecOn with
  | nil => cases h
  | append_singleton actions action ih =>
    rw [after_concat] at h
    rw [List.filterMap_append]
    rcases mem_entries_step h with hold | ⟨asked, hasked, htag, hroot⟩
    · obtain ⟨asked, hasked, hkey⟩ := ih hold
      exact ⟨asked, List.mem_append_left _ hasked, hkey⟩
    · refine ⟨asked, List.mem_append_right _ ?_, htag, hroot⟩
      simp [hasked]

/-- Requests with one tag and no text have the same fresh index, if both roots are regular files or
neither is. -/
theorem same_fresh {asked request : Cache.Request} (htag : asked.tag = request.tag)
    (hasked : asked.text = none) (hrequest : request.text = none)
    (hfile : workspace.disk.isFile asked.root = workspace.disk.isFile request.root) :
    (workspace.fresh asked).Same (workspace.fresh request) := by
  simp only [Cache.Request.tag, Cache.Tag.mk.injEq] at htag
  obtain ⟨hkind, hparts, -, -⟩ := htag
  rw [fresh, fresh, hasked, hrequest, hkind]
  exact SymbolKind.same_index_of_parts_eq _ hparts hfile

/-- A look-up gets a fresh index, if every change is noted before the next look-up and the changes
of files that are no scripts do no harm: it is what its root, spelled as in this or an earlier
look-up with the same tag, is indexed to on the disk as it is. With its own spelling it would get
the same, if both spellings are regular files or neither is. -/
theorem exists_fresh_answer {vocabulary : Vocabulary} {disk : FileSystem}
    {before later : List Action} {action : Action} {request : Cache.Request}
    (hnotes : notesChanges (before ++ action :: later) = true)
    (hsheltered : (start vocabulary disk).Sheltered (before ++ action :: later))
    (hrequest : action.request? = some request) :
    let workspace := (start vocabulary disk).after before
    ∃ entry, ∃ asked ∈ (before ++ [action]).filterMap Action.request?,
      workspace.answer? action = some (action.present entry) ∧
      asked.tag = request.tag ∧ entry.index = workspace.fresh asked ∧
      (workspace.disk.isFile asked.root = workspace.disk.isFile request.root →
        entry.index.Same (workspace.fresh request) ∧
          entry.index.definedNames = (workspace.fresh request).definedNames) := by
  intro workspace
  have hempty : (start vocabulary disk).UpToDate :=
    fun entry hentry => absurd hentry List.not_mem_nil
  have hfresh : workspace.UpToDate :=
    (safe_after hnotes hsheltered (.inl hempty)).upToDate hrequest
  have hlast : request ∈ (before ++ [action]).filterMap Action.request? := by
    simp [List.filterMap_append, hrequest]
  have hanswer : workspace.answer? action =
      some (action.present (workspace.cache.look (workspace.lookup request)).1) :=
    (answer?_of_request? hrequest).1
  rcases workspace.cache.look_cases (workspace.lookup request) with
    ⟨entry, hentry, htag, hlook⟩ | hlook
  · -- The index was stored by an earlier look-up.
    rw [hlook] at hanswer
    obtain ⟨asked, hasked, hkey, hroot⟩ := exists_request_of_mem_entries hentry
    obtain ⟨earlier, -, hearlier⟩ := List.mem_filterMap.1 hasked
    have htext : asked.text = none := text_of_request? hearlier
    have htags : asked.tag = request.tag := hkey.symm.trans htag
    have hindex : entry.index = workspace.fresh asked := by
      have hkind : entry.key.kind = asked.kind := congrArg Cache.Tag.kind hkey
      rw [hfresh entry hentry, fresh, hkind, hroot, htext]
    refine ⟨entry, asked, ?_, hanswer, htags, hindex, fun hfile => ?_⟩
    · rw [List.filterMap_append]
      exact List.mem_append_left _ hasked
    · rw [hindex]
      have hsame := same_fresh htags htext (text_of_request? hrequest) hfile
      exact ⟨hsame, hsame.definedNames_eq⟩
  · -- The index is computed now.
    rw [hlook] at hanswer
    exact ⟨_, request, hlast, hanswer, rfl, rfl, fun _ => ⟨.refl _, rfl⟩⟩

/-! ## Two runs -/

/-- A script that defines a subroutine. -/
def firstText : Text :=
  "subroutine first\nendsubroutine\n".toList

/-- A script that defines another one. -/
def secondText : Text :=
  "subroutine second\nendsubroutine\n".toList

/-- A disk with a script that includes another script, and one that includes a file without the
extension of a script. -/
def sampleDisk : FileSystem :=
  ⟨true, [("main.osc".toList, .file true (Utf8.encode "include lib\n".toList)),
    ("lib.osc".toList, .file true (Utf8.encode firstText)),
    ("page.osc".toList, .file true (Utf8.encode "include lib.txt\n".toList)),
    ("lib.txt".toList, .file true (Utf8.encode firstText))], []⟩

/-- Write and note the file without the extension of a script. -/
def writeText : List Action :=
  [.write ⟨"lib.txt".toList⟩ (Utf8.encode secondText), .notify [⟨"lib.txt".toList⟩]]

/-- Write and note the included script. -/
def writeScript : List Action :=
  [.write ⟨"lib.osc".toList⟩ (Utf8.encode secondText), .notify [⟨"lib.osc".toList⟩]]

/-- Look up the subroutines of the closure of a root. -/
def askFor (root : String) : Action :=
  .names .subroutine ⟨root.toList⟩ none

/-- Write both files, with look-ups before and in between. -/
def sampleRun : List Action :=
  askFor "main.osc" :: writeText ++ askFor "main.osc" :: writeScript

/-- The workspace after this run. -/
def sampleEnd : Workspace :=
  (start .standard sampleDisk).after sampleRun

theorem walk_main :
    Include.walk sampleDisk .standard ⟨"main.osc".toList⟩ none =
      [Visit.ofText ⟨"main.osc".toList⟩ "include lib\n".toList,
        Visit.ofText ⟨"lib.osc".toList⟩ firstText] := by
  apply Include.walk_pair
  all_goals decide +kernel

theorem walk_main_sampleEnd :
    Include.walk sampleEnd.disk .standard ⟨"main.osc".toList⟩ none =
      [Visit.ofText ⟨"main.osc".toList⟩ "include lib\n".toList,
        Visit.ofText ⟨"lib.osc".toList⟩ secondText] := by
  apply Include.walk_pair
  all_goals decide +kernel

/-- The file that is no script can be written, as the root of the stored index does not include
it. -/
theorem leavesAlone_sample :
    ((start .standard sampleDisk).step (askFor "main.osc")).LeavesAlone
      (.write ⟨"lib.txt".toList⟩ (Utf8.encode secondText)) := by
  have hconsulted : Include.consulted sampleDisk .standard ⟨"main.osc".toList⟩ =
      [⟨"main.osc".toList⟩, ⟨"lib".toList⟩, ⟨"lib.osc".toList⟩] := by
    rw [Include.consulted, walk_main]
    decide +kernel
  have hsights : ∀ path ∈ Include.consulted sampleDisk .standard ⟨"main.osc".toList⟩,
      (sampleDisk.write ⟨"lib.txt".toList⟩ (Utf8.encode secondText)).sight path =
        sampleDisk.sight path := by
    rw [hconsulted]
    decide +kernel
  intro entry hentry path hpath
  obtain hold | ⟨asked, hasked, -, hroot⟩ := mem_entries_step hentry
  · cases hold
  · cases hasked
    rw [hroot] at hpath
    exact hsights path hpath

/-- In the sample run, the last look-up gets the subroutine that was written last. -/
theorem exists_fresh_answer_sample :
    sampleEnd.answer? (askFor "main.osc") = some (.names ["second".toList]) := by
  have hnotes : notesChanges (sampleRun ++ askFor "main.osc" :: []) = true := by decide +kernel
  have hscript : Vocabulary.standard.isScriptPath ⟨"lib.osc".toList⟩ = true := by decide +kernel
  have hsheltered :
      (start .standard sampleDisk).Sheltered (sampleRun ++ askFor "main.osc" :: []) :=
    .cons_of_unchanged rfl (.cons_of_leavesAlone leavesAlone_sample (.cons_of_unchanged rfl
      (.cons_of_unchanged rfl (.cons_of_script rfl hscript (.cons_of_unchanged rfl
        (.cons_of_unchanged rfl trivial))))))
  have hroots : ∀ asked ∈ (sampleRun ++ [askFor "main.osc"]).filterMap Action.request?,
      asked.root = ⟨"main.osc".toList⟩ := by
    decide +kernel
  have hnames : (sampleEnd.fresh ⟨.subroutine, ⟨"main.osc".toList⟩, none, none⟩).definedNames =
      ["second".toList] := by
    have hvocabulary : sampleEnd.cache.vocabulary = .standard := vocabulary_after _ _
    rw [fresh, hvocabulary, SymbolKind.index, walk_main_sampleEnd]
    decide +kernel
  obtain ⟨entry, asked, hasked, hanswer, -, -, hsame⟩ :=
    exists_fresh_answer hnotes hsheltered rfl
  -- All look-ups spell the root in the same way, so that one spelling is a file if the other is.
  have hdefined := (hsame (by rw [hroots asked hasked])).2
  calc sampleEnd.answer? (askFor "main.osc")
    _ = some (.names entry.index.definedNames) := hanswer
    _ = some (.names ["second".toList]) := by rw [hdefined.trans hnames]

/-- The walk from the script with an include of another kind, before and after the included file is
written. -/
theorem walk_page :
    Include.walk sampleDisk .standard ⟨"page.osc".toList⟩ none =
        [Visit.ofText ⟨"page.osc".toList⟩ "include lib.txt\n".toList,
          Visit.ofText ⟨"lib.txt".toList⟩ firstText] ∧
      Include.walk ((start .standard sampleDisk).after (askFor "page.osc" :: writeText)).disk
          .standard ⟨"page.osc".toList⟩ none =
        [Visit.ofText ⟨"page.osc".toList⟩ "include lib.txt\n".toList,
          Visit.ofText ⟨"lib.txt".toList⟩ secondText] := by
  constructor
  all_goals
    apply Include.walk_pair
    all_goals decide +kernel

/-- Two look-ups that get no fresh index, though every change is noted in time. The first finds an
index that was made before an included file was written, which is noted but is no script. The second
finds the index of a spelling of its root that is no regular file. -/
theorem stale_names :
    (notesChanges (askFor "page.osc" :: writeText ++ [askFor "page.osc"]) = true ∧
      let workspace := (start .standard sampleDisk).after (askFor "page.osc" :: writeText)
      workspace.answer? (askFor "page.osc") = some (.names ["first".toList]) ∧
        (workspace.fresh ⟨.subroutine, ⟨"page.osc".toList⟩, none, none⟩).definedNames =
          ["second".toList]) ∧
    notesChanges [askFor "lib.osc/", askFor "lib.osc"] = true ∧
      let workspace := (start .standard sampleDisk).after [askFor "lib.osc/"]
      workspace.answer? (askFor "lib.osc") = some (.names []) ∧
        (workspace.fresh ⟨.subroutine, ⟨"lib.osc".toList⟩, none, none⟩).definedNames =
          ["first".toList] := by
  refine ⟨⟨by decide +kernel, ?_, ?_⟩, by decide +kernel, ?_, ?_⟩
  · have hindex : (SymbolKind.subroutine.index sampleDisk .standard ⟨"page.osc".toList⟩
        none).definedNames = ["first".toList] := by
      rw [SymbolKind.index, walk_page.1]
      decide +kernel
    rw [← hindex]
    rfl
  · rw [fresh, vocabulary_after, SymbolKind.index]
    show (SymbolKind.indexOf _ .standard (Include.walk _ .standard _ none)).definedNames = _
    rw [walk_page.2]
    decide +kernel
  · have hindex : (SymbolKind.subroutine.index sampleDisk .standard ⟨"lib.osc/".toList⟩
        none).definedNames = [] := by
      rw [SymbolKind.index, Include.walk_of_not_isFile (by decide +kernel)]
      decide +kernel
    rw [← hindex]
    rfl
  · have hwalk : Include.walk sampleDisk .standard ⟨"lib.osc".toList⟩ none =
        [Visit.ofText ⟨"lib.osc".toList⟩ firstText] := by
      apply Include.walk_single
      all_goals decide +kernel
    rw [fresh, vocabulary_after, SymbolKind.index]
    show SymbolIndex.definedNames
      (SymbolKind.indexOf _ .standard (Include.walk sampleDisk .standard _ none)) = _
    rw [hwalk]
    decide +kernel

end Workspace

end ScriptAnalysis
