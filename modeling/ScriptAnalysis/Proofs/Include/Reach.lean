import Mathlib.Logic.Relation
import ScriptAnalysis.Proofs.FileSystem.LinkFree
import ScriptAnalysis.Proofs.Include.Closure
import ScriptAnalysis.Proofs.Include.DepthFirst

/-!
# Which scripts a walk reaches

A walk visits each file once, under the first path that leads to it, and its relative includes are
resolved against that path. Under another path of the same file they may mean other files, and these
are not visited. Where the path makes no difference, a walk visits exactly the files that a chain of
includes leads to and that can be read. On a disk without links this is so for every absolute root.

* `Include.Reaches`: whether a chain of includes leads from one script to another.
* `Include.forall_mem_explore`: what includes hand on holds for every visit.
* `Include.CarriesOver`, `Include.SpellingFree`: whether the path of a file makes no difference to
  what it includes, for one include and for all.
* `Include.spellingFree_of_linkFree`: it makes none on a disk without links.
* `Include.visits_every_chain`: the files that are visited.
* `Include.chain_cut_off`: a disk with a link, on which a file is not visited.
-/

namespace ScriptAnalysis

namespace Include

variable (fs : FileSystem) (vocabulary : Vocabulary)

/-- Whether a chain of includes leads from one script on the disk to another. -/
def Reaches : Path → Path → Prop :=
  Relation.ReflTransGen (Includes fs vocabulary fs.readText)

/-- Whether the script at `path` includes the one at `target`, and also includes the same file under
every listed path with the same key. -/
def CarriesOver (listed : List Path) (path target : Path) : Prop :=
  Includes fs vocabulary fs.readText path target ∧
    ∀ other ∈ listed, fs.visitKey other = fs.visitKey path →
      ∃ same, Includes fs vocabulary fs.readText other same ∧
        fs.visitKey same = fs.visitKey target

/-- Whether a file that can be reached from `root` includes the same files under all paths that lead
to it. -/
def SpellingFree (root : Path) : Prop :=
  ∀ path other, Reaches fs vocabulary root path → Reaches fs vocabulary root other →
    fs.visitKey other = fs.visitKey path →
      ∀ target, Includes fs vocabulary fs.readText path target →
        ∃ same, Includes fs vocabulary fs.readText other same ∧
          fs.visitKey same = fs.visitKey target

/-- The argument of a line, if its command is an include command. -/
def includeArgument? (code : CodeLine) : Option Text :=
  if vocabulary.isInclude code.commandName then code.argument?.map (·.text) else none

/-- The arguments of the include lines of a text, in order. -/
def includeArguments (text : Text) : List Text :=
  (codeLines text).filterMap (includeArgument? vocabulary)

/-- Whether the files of a disk have the same include arguments after a change of their contents,
perhaps in another order. -/
def KeepsArguments (change : Address → List UInt8 → List UInt8) : Prop :=
  ∀ address readable content, fs.node? address = some (.file readable content) → ∀ argument,
    argument ∈ includeArguments vocabulary (Utf8.decodeLossy (change address content)) ↔
      argument ∈ includeArguments vocabulary (Utf8.decodeLossy content)

variable {fs vocabulary}

/-! ## Chains and visits -/

/-- What includes hand on, and holds for the pending paths, holds for all visits. -/
theorem forall_mem_explore {P : Path → Prop}
    (hstep : ∀ path target, P path → Includes fs vocabulary fs.readText path target → P target)
    {pending : List Path} (hpending : ∀ path ∈ pending, P path) {visited : List (List Part)}
    {visit : Visit} (h : visit ∈ explore fs vocabulary pending visited) : P visit.path := by
  fun_induction explore fs vocabulary pending visited with
  | case1 visited => cases h
  | case2 visited path rest hmarked ih =>
    exact ih (List.forall_mem_cons.1 hpending).2 h
  | case3 visited path rest hfresh fault hread ih =>
    exact ih (List.forall_mem_cons.1 hpending).2 h
  | case4 visited path rest hfresh content hread first ih =>
    obtain ⟨hpath, hrest⟩ := List.forall_mem_cons.1 hpending
    rcases List.mem_cons.1 h with rfl | hlater
    · exact hpath
    · refine ih (List.forall_mem_append.2 ⟨fun target htarget => ?_, hrest⟩) hlater
      obtain ⟨code, hcode, hresolved⟩ := List.mem_filterMap.1 htarget
      refine hstep path target hpath ⟨Utf8.decodeLossy content, ?_, code, hcode, hresolved⟩
      rw [FileSystem.readText, hread]
      rfl

variable {root : Path}

/-- A chain of includes leads to every visit. -/
theorem reaches_of_mem_walk {visit : Visit} (h : visit ∈ walk fs vocabulary root none) :
    Reaches fs vocabulary root visit.path := by
  refine forall_mem_explore (fun path target hpath htarget => hpath.tail htarget) ?_ h
  intro path hpath
  rw [List.mem_singleton.1 hpath]
  exact .refl

theorem reaches_of_mem_closure {path : Path} (h : path ∈ closure fs vocabulary root none) :
    Reaches fs vocabulary root path := by
  obtain ⟨visit, hvisit, rfl⟩ := List.mem_map.1 h
  exact reaches_of_mem_walk hvisit

/-- A chain from a file leads to files. -/
theorem Reaches.isFile {path : Path} (h : Reaches fs vocabulary root path)
    (hroot : fs.isFile root = true) : fs.isFile path = true := by
  cases h with
  | refl => exact hroot
  | tail _ hincludes => exact hincludes.isFile

/-- A script that includes another can be read. -/
theorem Includes.exists_read {path target : Path}
    (h : Includes fs vocabulary fs.readText path target) :
    ∃ content, fs.read path = .ok content := by
  obtain ⟨text, htext, -⟩ := h
  obtain ⟨content, hread, -⟩ := FileSystem.readText_eq_ok_iff.1 htext
  exact ⟨content, hread⟩

/-- A root that can be read is visited. -/
theorem root_mem_closure {content : List UInt8} (hread : fs.read root = .ok content) :
    root ∈ closure fs vocabulary root none := by
  rw [closure, walk, explore_of_ok List.not_mem_nil hread, List.map_cons]
  exact List.mem_cons_self

/-- A walk visits the file at the end of a chain in which every include carries over to the listed
paths, if the file can be read. -/
theorem exists_listed_of_chain {path : Path}
    (h : Relation.ReflTransGen (CarriesOver fs vocabulary (closure fs vocabulary root none))
      root path) {content : List UInt8} (hread : fs.read path = .ok content) :
    ∃ listed ∈ closure fs vocabulary root none, fs.visitKey listed = fs.visitKey path := by
  induction h generalizing content with
  | refl => exact ⟨root, root_mem_closure hread, rfl⟩
  | tail _ hlink ih =>
    -- The last include is repeated under the listed path, and its target there is listed too.
    obtain ⟨content', hread'⟩ := hlink.1.exists_read
    obtain ⟨listed, hlisted, hkey⟩ := ih hread'
    obtain ⟨same, hsame, htarget⟩ := hlink.2 listed hlisted hkey
    have hok := (FileSystem.read_eq_of_visitKey_eq hsame.isFile hlink.1.isFile htarget).trans hread
    obtain ⟨other, hother, hothers⟩ := exists_listed_of_includes hlisted hsame hok
    exact ⟨other, hother, hothers.trans htarget⟩

/-- Where the path of a file makes no difference, a walk visits the file at the end of any chain, if
it can be read. -/
theorem exists_listed_of_reaches (hfree : SpellingFree fs vocabulary root) {path : Path}
    (h : Reaches fs vocabulary root path) {content : List UInt8}
    (hread : fs.read path = .ok content) :
    ∃ listed ∈ closure fs vocabulary root none, fs.visitKey listed = fs.visitKey path := by
  refine exists_listed_of_chain ?_ hread
  clear hread
  induction h with
  | refl => exact .refl
  | @tail middle target hmiddle hincludes ih =>
    refine ih.tail ⟨hincludes, fun other hother hkey => ?_⟩
    exact hfree middle other hmiddle (reaches_of_mem_closure hother) hkey target hincludes

/-- A listed script can be read. -/
theorem exists_read_of_mem_closure {path : Path} (h : path ∈ closure fs vocabulary root none) :
    ∃ content, fs.read path = .ok content := by
  obtain ⟨visit, hvisit, rfl⟩ := List.mem_map.1 h
  obtain ⟨content, hread, -⟩ := read_of_mem_explore hvisit
  exact ⟨content, hread⟩

/-- The keys of the visited scripts are those of the scripts at the ends of chains that can be
read. -/
theorem mem_map_visitKey_closure_iff (hfree : SpellingFree fs vocabulary root) (key : List Part) :
    key ∈ (closure fs vocabulary root none).map fs.visitKey ↔
      ∃ path, Reaches fs vocabulary root path ∧ (∃ content, fs.read path = .ok content) ∧
        fs.visitKey path = key := by
  rw [List.mem_map]
  constructor
  · rintro ⟨path, hpath, hkey⟩
    exact ⟨path, reaches_of_mem_closure hpath, exists_read_of_mem_closure hpath, hkey⟩
  · rintro ⟨path, hpath, ⟨content, hread⟩, rfl⟩
    exact exists_listed_of_reaches hfree hpath hread

/-! ## The order of the include lines -/

section Contents

variable {change : Address → List UInt8 → List UInt8}

/-- A script includes what the arguments of its include lines are resolved to. -/
theorem includes_iff_exists_argument {source : Path → Except Fault Text} {path target : Path} :
    Includes fs vocabulary source path target ↔
      ∃ text, source path = .ok text ∧ ∃ argument ∈ includeArguments vocabulary text,
        resolve fs vocabulary path argument = some target := by
  have hline (code : CodeLine) : target? fs vocabulary path code = some target ↔
      ∃ argument, includeArgument? vocabulary code = some argument ∧
        resolve fs vocabulary path argument = some target := by
    rw [target?, includeArgument?]
    split
    · cases code.argument? <;> simp
    · simp
  simp only [Includes, includeArguments, List.mem_filterMap, hline]
  constructor
  · rintro ⟨text, htext, code, hcode, argument, hargument, htarget⟩
    exact ⟨text, htext, argument, ⟨code, hcode, hargument⟩, htarget⟩
  · rintro ⟨text, htext, argument, ⟨code, hcode, hargument⟩, htarget⟩
    exact ⟨text, htext, code, hcode, argument, hargument, htarget⟩

/-- The order of the include lines makes no difference to what a script includes. -/
theorem includes_mapFiles (hkeeps : KeepsArguments fs vocabulary change) :
    Includes (fs.mapFiles change) vocabulary (fs.mapFiles change).readText =
      Includes fs vocabulary fs.readText := by
  funext path target
  rw [includes_iff_exists_argument, includes_iff_exists_argument]
  have hresolve (argument : Text) : resolve (fs.mapFiles change) vocabulary path argument =
      resolve fs vocabulary path argument := by
    rw [resolve, resolve, funext (FileSystem.isFile_mapFiles change fs)]
  cases hread : fs.read path with
  | error fault =>
    simp [FileSystem.readText, hread, FileSystem.read_mapFiles_of_error change fs hread, Except.map]
  | ok content =>
    obtain ⟨address, hlocate⟩ := FileSystem.read_eq_ok_iff.1 hread
    have harguments := hkeeps address true content (FileSystem.node?_of_locate hlocate)
    simp [FileSystem.readText, hread, FileSystem.read_mapFiles_of_locate change fs hlocate,
      Except.map, hresolve, harguments]

theorem reaches_mapFiles (hkeeps : KeepsArguments fs vocabulary change) :
    Reaches (fs.mapFiles change) vocabulary = Reaches fs vocabulary := by
  rw [Reaches, Reaches, includes_mapFiles hkeeps]

theorem spellingFree_mapFiles (hkeeps : KeepsArguments fs vocabulary change) :
    SpellingFree (fs.mapFiles change) vocabulary root ↔ SpellingFree fs vocabulary root := by
  simp only [SpellingFree, reaches_mapFiles hkeeps, includes_mapFiles hkeeps,
    FileSystem.visitKey_mapFiles]

/-- Where the path of a file makes no difference, neither does the order of the include lines: the
same files are visited. -/
theorem mem_map_visitKey_closure_mapFiles_iff (hfree : SpellingFree fs vocabulary root)
    (hkeeps : KeepsArguments fs vocabulary change) {key : List Part} :
    key ∈ (closure (fs.mapFiles change) vocabulary root none).map fs.visitKey ↔
      key ∈ (closure fs vocabulary root none).map fs.visitKey := by
  have hkeys : (fs.mapFiles change).visitKey = fs.visitKey :=
    funext (FileSystem.visitKey_mapFiles change fs)
  have hafter := mem_map_visitKey_closure_iff ((spellingFree_mapFiles hkeeps).2 hfree) key
  rw [hkeys, reaches_mapFiles hkeeps] at hafter
  simp only [FileSystem.exists_read_mapFiles_iff] at hafter
  rw [hafter, mem_map_visitKey_closure_iff hfree]

end Contents

/-! ## Disks without links -/

/-- A file has the same text under all paths with its key. -/
theorem readText_eq_of_visitKey_eq {path other : Path} (hother : fs.isFile other = true)
    (hpath : fs.isFile path = true) (hkey : fs.visitKey other = fs.visitKey path) :
    fs.readText other = fs.readText path := by
  rw [FileSystem.readText, FileSystem.readText, FileSystem.read_eq_of_visitKey_eq hother hpath hkey]

section LinkFree

variable (hfree : fs.LinkFree)

include hfree

/-- On a disk without links, the directories of two absolute paths of one file have the same normal
form. -/
theorem normalParts_dropLast_eq {path other : Path} (habs : path.isAbsolute = true)
    (habs' : other.isAbsolute = true) (hpath : fs.isFile path = true)
    (hother : fs.isFile other = true) (hkey : fs.visitKey other = fs.visitKey path) :
    Path.normalParts other.parts.dropLast = Path.normalParts path.parts.dropLast := by
  -- Both paths end with a name, which is the last part of the key.
  obtain ⟨front, last, hparts⟩ := FileSystem.exists_parts_of_isFile habs hpath
  obtain ⟨front', last', hparts'⟩ := FileSystem.exists_parts_of_isFile habs' hother
  rw [FileSystem.visitKey_eq_normalParts hfree habs' hother,
    FileSystem.visitKey_eq_normalParts hfree habs hpath, hparts, hparts',
    Path.normalParts_concat_name, Path.normalParts_concat_name] at hkey
  rw [hparts, hparts', List.dropLast_concat, List.dropLast_concat]
  exact (List.append_inj' hkey rfl).1

/-- On a disk without links, a file includes the same scripts under all its absolute paths. -/
theorem includes_of_visitKey_eq {path other target : Path} (habs : path.isAbsolute = true)
    (habs' : other.isAbsolute = true) (hpath : fs.isFile path = true)
    (hother : fs.isFile other = true) (hkey : fs.visitKey other = fs.visitKey path)
    (h : Includes fs vocabulary fs.readText path target) :
    Includes fs vocabulary fs.readText other target := by
  obtain ⟨text, htext, code, hcode, htarget⟩ := h
  refine ⟨text, (readText_eq_of_visitKey_eq hother hpath hkey).trans htext, code, hcode, ?_⟩
  have hdirectory := normalParts_dropLast_eq hfree habs habs' hpath hother hkey
  rw [← htarget, target?_eq_find?, target?_eq_find?]
  simp only [lineCandidates, candidates_eq_of_normalParts_eq hdirectory]

omit hfree in
/-- The targets of an absolute path of a file are absolute. -/
theorem isAbsolute_of_target? {path target : Path} (habs : path.isAbsolute = true)
    (hfile : fs.isFile path = true) {code : CodeLine}
    (h : target? fs vocabulary path code = some target) : target.isAbsolute = true := by
  obtain ⟨front, last, hparts⟩ := FileSystem.exists_parts_of_isFile habs hfile
  have hroot : Part.root ∈ path.parts.dropLast := by
    rw [hparts, List.dropLast_concat]
    exact List.mem_cons_self
  rw [target?_eq_find?] at h
  have hmem := List.mem_of_find?_eq_some h
  rw [lineCandidates] at hmem
  split at hmem
  · split at hmem
    · exact isAbsolute_of_mem_candidates hroot hmem
    · cases hmem
  · cases hmem

omit hfree in
/-- An absolute path of a file includes absolute paths. -/
theorem Includes.isAbsolute {path target : Path} (habs : path.isAbsolute = true)
    (h : Includes fs vocabulary fs.readText path target) : target.isAbsolute = true := by
  obtain ⟨content, hread⟩ := h.exists_read
  obtain ⟨text, -, code, -, htarget⟩ := h
  exact isAbsolute_of_target? habs (FileSystem.isFile_of_read hread) htarget

omit hfree in
/-- A chain from an absolute path leads to absolute paths. -/
theorem Reaches.isAbsolute {path : Path} (h : Reaches fs vocabulary root path)
    (habs : root.isAbsolute = true) : path.isAbsolute = true := by
  induction h with
  | refl => exact habs
  | tail _ hincludes ih => exact hincludes.isAbsolute ih

/-- On a disk without links, the path of a file makes no difference to the scripts that it includes,
if the root is absolute. -/
theorem spellingFree_of_linkFree (hroot : fs.isFile root = true) (habs : root.isAbsolute = true) :
    SpellingFree fs vocabulary root := by
  intro path other hpath hother hkey target htarget
  exact ⟨target, includes_of_visitKey_eq hfree (hpath.isAbsolute habs) (hother.isAbsolute habs)
    (hpath.isFile hroot) (hother.isFile hroot) hkey htarget, rfl⟩

end LinkFree

/-- A walk visits every file that a chain of includes leads to and that can be read, if on the way
the path under which a file was reached makes no difference to what it includes. Where it never
makes one, the files that are visited do not depend on the order of the include lines either. This
is so for absolute roots on disks without links. -/
theorem visits_every_chain (fs : FileSystem) (vocabulary : Vocabulary) {root : Path}
    (hroot : fs.isFile root = true) :
    (∀ path,
      Relation.ReflTransGen (CarriesOver fs vocabulary (closure fs vocabulary root none))
          root path →
        (∃ content, fs.read path = .ok content) →
        ∃ listed ∈ closure fs vocabulary root none, fs.visitKey listed = fs.visitKey path) ∧
    (SpellingFree fs vocabulary root →
      (∀ path, Reaches fs vocabulary root path → (∃ content, fs.read path = .ok content) →
        ∃ listed ∈ closure fs vocabulary root none, fs.visitKey listed = fs.visitKey path) ∧
      ∀ change, KeepsArguments fs vocabulary change → ∀ key,
        key ∈ (closure (fs.mapFiles change) vocabulary root none).map fs.visitKey ↔
          key ∈ (closure fs vocabulary root none).map fs.visitKey) ∧
    (fs.LinkFree → root.isAbsolute = true → SpellingFree fs vocabulary root) := by
  refine ⟨fun path hpath ⟨content, hread⟩ => exists_listed_of_chain hpath hread,
    fun hfree => ⟨fun path hpath ⟨content, hread⟩ => ?_, fun change hkeeps key => ?_⟩,
    fun hlinks habs => ?_⟩
  · exact exists_listed_of_reaches hfree hpath hread
  · exact mem_map_visitKey_closure_mapFiles_iff hfree hkeeps
  · exact spellingFree_of_linkFree hlinks hroot habs

/-! ## Two sample disks -/

/-- A disk whose root script has the text `text`, with `object` as `a/x.osc` beside another script,
and a script `b/x.osc` that includes `b/y.osc`. -/
def forkedDisk (text : Text) (object : Node) : FileSystem :=
  ⟨true,
    [("main.osc".toList, .file true (Utf8.encode text)),
      ("a".toList, .directory true [("keep.osc".toList, .file true []), ("x.osc".toList, object)]),
      ("b".toList, .directory true
        [("x.osc".toList, .file true (Utf8.encode "include y\n".toList)),
          ("y.osc".toList, .file true [])])], []⟩

/-- A text that includes both scripts with the name `x.osc`. -/
def sampleIncludes : Text :=
  "include a/x\ninclude b/x\n".toList

/-- The same includes in the other order. -/
def swappedIncludes : Text :=
  "include b/x\ninclude a/x\n".toList

/-- A disk without links, on which `a/x.osc` includes `b/x.osc`. -/
def plainDisk : FileSystem :=
  forkedDisk sampleIncludes (.file true (Utf8.encode "include ../b/x\n".toList))

/-- The change that swaps the includes of the root script. -/
def swapIncludes (address : Address) (content : List UInt8) : List UInt8 :=
  if address = ["main.osc".toList] then Utf8.encode swappedIncludes else content

theorem keepsArguments_swapIncludes : KeepsArguments plainDisk .standard swapIncludes := by
  intro address readable content hnode argument
  rw [swapIncludes]
  split
  · next haddress =>
    subst haddress
    cases hnode
    have hswapped : includeArguments .standard swappedIncludes =
        ["b/x".toList, "a/x".toList] := by decide +kernel
    have hsample : includeArguments .standard sampleIncludes =
        ["a/x".toList, "b/x".toList] := by decide +kernel
    rw [Utf8.decodeLossy_encode, Utf8.decodeLossy_encode, hswapped, hsample]
    exact (List.Perm.swap _ _ _).mem_iff
  · rfl

/-- A file that holds the bytes of a text has this text. -/
theorem readText_of_encode {path : Path} {text : Text}
    (hread : fs.read path = .ok (Utf8.encode text)) : fs.readText path = .ok text := by
  rw [FileSystem.readText, hread]
  show Except.ok (Utf8.decodeLossy (Utf8.encode text)) = _
  rw [Utf8.decodeLossy_encode]

/-- A script with a known text includes the targets of its lines. -/
theorem includes_of_encode {path target : Path} (text : Text)
    (hread : fs.read path = .ok (Utf8.encode text))
    (h : target ∈ targets fs vocabulary (Visit.ofText path text)) :
    Includes fs vocabulary fs.readText path target := by
  obtain ⟨code, hcode, htarget⟩ := List.mem_filterMap.1 h
  exact ⟨text, readText_of_encode hread, code, hcode, htarget⟩

/-- On the disk without links, the walk comes to the end of the longest chain, and it comes to the
same files when the includes of the root are swapped. -/
theorem visits_every_chain_sample :
    let root : Path := ⟨"/main.osc".toList⟩
    plainDisk.isFile root = true ∧ plainDisk.LinkFree ∧ root.isAbsolute = true ∧
    (∃ listed ∈ closure plainDisk .standard root none,
      plainDisk.visitKey listed = plainDisk.visitKey ⟨"/b/y.osc".toList⟩) ∧
    KeepsArguments plainDisk .standard swapIncludes ∧
    ∀ key, key ∈ (closure (plainDisk.mapFiles swapIncludes) .standard root none).map
        plainDisk.visitKey ↔
      key ∈ (closure plainDisk .standard root none).map plainDisk.visitKey := by
  intro root
  have hroot : plainDisk.isFile root = true := by decide +kernel
  have hlinks : plainDisk.LinkFree := by
    simp [FileSystem.LinkFree, plainDisk, forkedDisk, Directory.linkFree]
  have habs : root.isAbsolute = true := by decide +kernel
  obtain ⟨-, hvisits, hfree⟩ := visits_every_chain plainDisk .standard hroot
  obtain ⟨hchains, horder⟩ := hvisits (hfree hlinks habs)
  refine ⟨hroot, hlinks, habs, hchains _ ?_ ⟨[], by decide +kernel⟩, keepsArguments_swapIncludes,
    horder _ keepsArguments_swapIncludes⟩
  have hfirst : Includes plainDisk .standard plainDisk.readText root ⟨"/a/x.osc".toList⟩ :=
    includes_of_encode sampleIncludes (by decide +kernel) (by decide +kernel)
  have hsecond : Includes plainDisk .standard plainDisk.readText ⟨"/a/x.osc".toList⟩
      ⟨"/b/x.osc".toList⟩ :=
    includes_of_encode "include ../b/x\n".toList (by decide +kernel) (by decide +kernel)
  have hthird : Includes plainDisk .standard plainDisk.readText ⟨"/b/x.osc".toList⟩
      ⟨"/b/y.osc".toList⟩ :=
    includes_of_encode "include y\n".toList (by decide +kernel) (by decide +kernel)
  exact .head hfirst (.head hsecond (.single hthird))

/-- A disk on which `a/x.osc` is a link to `b/x.osc`. -/
def linkedDisk (text : Text) : FileSystem :=
  forkedDisk text (.link ⟨"../b/x.osc".toList⟩)

/-- The script is visited as `a/x.osc`, and there is no `y.osc` beside that path. -/
theorem closure_linkedDisk :
    closure (linkedDisk sampleIncludes) .standard ⟨"main.osc".toList⟩ none =
      [⟨"main.osc".toList⟩, ⟨"a/x.osc".toList⟩] := by
  rw [closure, walk, explore_of_encode sampleIncludes [⟨"a/x.osc".toList⟩, ⟨"b/x.osc".toList⟩]
      List.not_mem_nil (by decide +kernel) (by decide +kernel),
    List.append_nil, explore_of_encode "include y\n".toList [] (by decide +kernel)
      (by decide +kernel) (by decide +kernel),
    List.nil_append, explore_of_mem (by decide +kernel), explore]
  rfl

/-- With the includes of the root swapped, the script is visited as `b/x.osc`. -/
theorem closure_linkedDisk_swapped :
    closure (linkedDisk swappedIncludes) .standard ⟨"main.osc".toList⟩ none =
      [⟨"main.osc".toList⟩, ⟨"b/x.osc".toList⟩, ⟨"b/y.osc".toList⟩] := by
  rw [closure, walk, explore_of_encode swappedIncludes [⟨"b/x.osc".toList⟩, ⟨"a/x.osc".toList⟩]
      List.not_mem_nil (by decide +kernel) (by decide +kernel),
    List.append_nil, explore_of_encode "include y\n".toList [⟨"b/y.osc".toList⟩]
      (by decide +kernel) (by decide +kernel) (by decide +kernel),
    List.singleton_append, explore_of_encode [] [] (by decide +kernel) (by decide +kernel)
      (by decide +kernel),
    List.nil_append, explore_of_mem (by decide +kernel), explore]
  rfl

/-- On the disk with a link, a chain leads from the root through `b/x.osc` to `b/y.osc`, but the
walk does not come there. It does when the includes of the root are swapped. -/
theorem chain_cut_off :
    let root : Path := ⟨"main.osc".toList⟩
    let last : Path := ⟨"b/y.osc".toList⟩
    (linkedDisk sampleIncludes).isFile root = true ∧
    Reaches (linkedDisk sampleIncludes) .standard root last ∧
    (¬∃ listed ∈ closure (linkedDisk sampleIncludes) .standard root none,
      (linkedDisk sampleIncludes).visitKey listed = (linkedDisk sampleIncludes).visitKey last) ∧
    ∃ listed ∈ closure (linkedDisk swappedIncludes) .standard root none,
      (linkedDisk swappedIncludes).visitKey listed =
        (linkedDisk swappedIncludes).visitKey last := by
  intro root last
  refine ⟨by decide +kernel, ?_, ?_, ?_⟩
  · have hfirst : Includes (linkedDisk sampleIncludes) .standard
        (linkedDisk sampleIncludes).readText root ⟨"b/x.osc".toList⟩ :=
      includes_of_encode sampleIncludes (by decide +kernel) (by decide +kernel)
    have hsecond : Includes (linkedDisk sampleIncludes) .standard
        (linkedDisk sampleIncludes).readText ⟨"b/x.osc".toList⟩ last :=
      includes_of_encode "include y\n".toList (by decide +kernel) (by decide +kernel)
    exact .head hfirst (.single hsecond)
  · rw [closure_linkedDisk]
    decide +kernel
  · rw [closure_linkedDisk_swapped]
    decide +kernel

end Include

end ScriptAnalysis
