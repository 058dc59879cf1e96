import Mathlib.Algebra.GroupWithZero.Nat
import ScriptAnalysis.Proofs.FileSystem.SameFile
import ScriptAnalysis.Proofs.Path.Normal

/-!
# Disks without links

On a disk without links an absolute path leads where its names lead, each `..` back to the directory
around. Every path that can be opened can then be named as well, and its key is its normal form. Two
absolute paths of one file thus have the same normal form, and a script includes the same scripts
under both.

* `FileSystem.LinkFree`: whether a disk has no links.
* `Step.move`: where a step leads when no link is on the way.
* `FileSystem.follow_of_linkFree`: where steps lead, and that what they open can be named, if their
  spelling is short enough.
* `FileSystem.visitKey_eq_normalParts`: the key of an absolute path is its normal form.
-/

namespace ScriptAnalysis

/-- Whether no object in the tree below a directory is a link. -/
def Directory.linkFree : Directory → Bool
  | [] => true
  | (_, .file _ _) :: rest => linkFree rest
  | (_, .directory _ objects) :: rest => linkFree objects && linkFree rest
  | (_, .link _) :: _ => false

/-- Whether an object is no link and holds none. -/
def Node.linkFree : Node → Bool
  | .file _ _ => true
  | .directory _ objects => Directory.linkFree objects
  | .link _ => false

/-- The objects in a directory without links are and hold none. -/
theorem Directory.linkFree_of_find? {objects : Directory} {name : Text} {node : Node}
    (hfree : linkFree objects = true) (h : find? objects name = some node) :
    node.linkFree = true := by
  induction objects with
  | nil => cases h
  | cons object rest ih =>
    obtain ⟨other, content⟩ := object
    have hparts : content.linkFree = true ∧ linkFree rest = true := by
      cases content with
      | file readable bytes => exact ⟨rfl, by simpa [linkFree] using hfree⟩
      | directory searchable inner => simpa [linkFree, Node.linkFree] using hfree
      | link target => simp [linkFree] at hfree
    rw [find?] at h
    split at h
    · cases h
      exact hparts.1
    · exact ih hparts.2 h

namespace Step

/-- Where a step from the directory at `around` leads when no link is on the way. -/
def move (around : Address) : Step → Address
  | stay => around
  | up => around.tail
  | enter name => name :: around

/-- The number of bytes that a step takes in a path, with the slash before it. -/
def width : Step → Nat
  | stay => 2
  | up => 3
  | enter name => Utf8.size name + 1

/-- Steps that need a directory take some bytes. -/
theorem sum_width_pos {steps : List Step} (h : needDirectory steps = true) :
    0 < (steps.map width).sum := by
  cases steps with
  | nil => cases h
  | cons step steps =>
    have hstep : 0 < step.width := by cases step <;> simp [width]
    rw [List.map_cons, List.sum_cons]
    omega

end Step

namespace Path

/-- The segments of a path with a slash each take one byte more than the path. -/
theorem sum_size_segments (spelling : Text) :
    ((segments spelling).map fun segment => Utf8.size segment + 1).sum =
      Utf8.size spelling + 1 := by
  induction spelling with
  | nil => rfl
  | cons c rest ih =>
    rw [segments]
    split
    · next hc =>
      have hslash : c.utf8Size = 1 := by rw [hc]; rfl
      rw [List.map_cons, List.sum_cons, ih, Utf8.size, Utf8.size, hslash]
      omega
    · obtain ⟨first, others, hsegments⟩ := List.exists_cons_of_ne_nil (segments_ne_nil rest)
      rw [hsegments, List.map_cons, List.sum_cons] at ih
      simp only [hsegments, List.map_cons, List.sum_cons, Utf8.size]
      omega

/-- The steps of segments take no more bytes than the segments with a slash each. -/
theorem sum_width_segments_le (texts : List Text) :
    ((((texts.filterMap Part.ofSegment?).filterMap Part.step?)).map Step.width).sum ≤
      (texts.map fun segment => Utf8.size segment + 1).sum := by
  induction texts with
  | nil => exact Nat.le_refl _
  | cons text rest ih =>
    rw [List.map_cons, List.sum_cons]
    cases hpart : Part.ofSegment? text with
    | none =>
      rw [List.filterMap_cons_none hpart]
      omega
    | some part =>
      rw [List.filterMap_cons_some hpart]
      have hstep : ∃ step, part.step? = some step ∧ step.width = Utf8.size text + 1 := by
        unfold Part.ofSegment? at hpart
        split at hpart
        · cases hpart
        · cases hpart
        · cases hpart
          exact ⟨.up, rfl, rfl⟩
        · cases hpart
          exact ⟨.enter text, rfl, rfl⟩
      obtain ⟨step, hsome, hwidth⟩ := hstep
      rw [List.filterMap_cons_some hsome, List.map_cons, List.sum_cons]
      omega

/-- The steps of an absolute path take no more bytes than the path. -/
theorem sum_width_le_size {path : Path} (h : path.isAbsolute = true) :
    ((path.parts.filterMap Part.step?).map Step.width).sum ≤ Utf8.size path.spelling := by
  obtain ⟨others, hsegments, hparts⟩ := exists_parts_of_isAbsolute h
  have hsum := sum_size_segments path.spelling
  rw [hsegments, List.map_cons, List.sum_cons, Utf8.size] at hsum
  rw [hparts, List.filterMap_cons_none rfl]
  have hle := sum_width_segments_le others
  omega

/-- The steps of a path from the top lead to its normal form. -/
theorem normalParts_eq_parts_moves {path : Path} (h : path.isAbsolute = true) :
    normalParts path.parts =
      Address.parts ((path.parts.filterMap Part.step?).foldl Step.move []) := by
  obtain ⟨others, -, hparts⟩ := exists_parts_of_isAbsolute h
  -- The stack of parts holds the names of the address above the root.
  have hstack (rest : List Part) (hroot : Part.root ∉ rest) (around : Address) :
      rest.foldl cancel (around.map .name ++ [.root]) =
        ((rest.filterMap Part.step?).foldl Step.move around).map .name ++ [.root] := by
    induction rest generalizing around with
    | nil => rfl
    | cons part rest ih =>
      obtain ⟨hpart, hrest⟩ := not_or.1 (fun hmem => hroot (List.mem_cons.2 hmem))
      cases part with
      | root => exact absurd rfl hpart
      | here => exact ih hrest around
      | up =>
        show List.foldl cancel (cancel (around.map .name ++ [.root]) .up) rest =
          (List.foldl Step.move around.tail (rest.filterMap Part.step?)).map .name ++ [.root]
        rw [← ih hrest]
        cases around <;> rfl
      | name text => exact ih hrest (text :: around)
  have hrest : Part.root ∉ others.filterMap Part.ofSegment? := root_not_mem_filterMap others
  rw [hparts, normalParts, List.foldl_cons, List.filterMap_cons_none rfl]
  have hfold := hstack _ hrest []
  rw [List.map_nil, List.nil_append] at hfold
  show (List.foldl cancel [.root] _).reverse = _
  rw [hfold, List.reverse_append, ← List.map_reverse]
  rfl

end Path

namespace FileSystem

/-- Whether a disk has no links. -/
def LinkFree (fs : FileSystem) : Prop :=
  Directory.linkFree fs.top = true

/-- Whether a disk has no links can be decided. -/
instance (fs : FileSystem) : Decidable fs.LinkFree :=
  inferInstanceAs (Decidable (_ = true))

variable {fs : FileSystem}

/-- No directory on a disk without links holds one. -/
theorem linkFree_trailTo (hfree : fs.LinkFree) (address : Address) :
    Directory.linkFree ((fs.trailTo address).objects fs.top) = true := by
  induction address with
  | nil => exact hfree
  | cons name around ih =>
    simp only [trailTo]
    split
    · next searchable objects hfind => exact Directory.linkFree_of_find? ih hfind
    · show Directory.linkFree [] = true
      rw [Directory.linkFree]

theorem width_trailTo_cons (fs : FileSystem) (name : Text) (around : Address) :
    (fs.trailTo (name :: around)).width = (fs.trailTo around).widthOf name := by
  simp only [trailTo]
  split <;> rfl

/-- The directory around another has no longer path. -/
theorem width_trailTo_tail_le (fs : FileSystem) (address : Address) :
    (fs.trailTo address.tail).width ≤ (fs.trailTo address).width := by
  cases address with
  | nil => exact Nat.le_refl _
  | cons name around =>
    rw [width_trailTo_cons, Trail.widthOf, List.tail_cons]
    omega

/-- Whether objects may be looked up in all directories around the one where a trail ends. -/
def aroundSearchable (fs : FileSystem) : Trail → Bool
  | [] => true
  | _ :: around => Trail.allSearchable fs.topSearchable around

/-- In a directory where objects may be looked up, as in all around it, they may also be named. -/
theorem allSearchable_of_aroundSearchable {trail : Trail}
    (haround : fs.aroundSearchable trail = true)
    (htrail : trail.isSearchable fs.topSearchable = true) :
    trail.allSearchable fs.topSearchable = true := by
  cases trail with
  | nil => simpa [Trail.allSearchable, Trail.isSearchable] using htrail
  | cons entered around =>
    simp_all [aroundSearchable, Trail.allSearchable, Trail.isSearchable]

/-- Objects may still be looked up in all directories around, one step up. -/
theorem aroundSearchable_tail {trail : Trail} (haround : fs.aroundSearchable trail = true) :
    fs.aroundSearchable trail.tail = true := by
  cases trail with
  | nil => rfl
  | cons entered around =>
    cases around with
    | nil => rfl
    | cons other outer => simp_all [aroundSearchable, Trail.allSearchable]

/-- On a disk without links, successful steps lead where their names lead. What is opened in this
way can be named too, if the spelling of the steps is short enough: the directories on the way were
searchable when the steps went through them. -/
theorem walkSteps_of_linkFree (hfree : fs.LinkFree)
    {onLink onLink' : Trail → List Step → Except Fault Found} {around : Address} {found : Found}
    {steps : List Step} (h : fs.walkSteps .opening onLink (fs.trailTo around) steps = .ok found)
    (hfits : (fs.trailTo around).width + (steps.map Step.width).sum ≤ pathLimit)
    (haround : fs.aroundSearchable (fs.trailTo around) = true) :
    fs.walkSteps .naming onLink' (fs.trailTo around) steps = .ok found ∧
      found.address = steps.foldl Step.move around := by
  induction steps generalizing around with
  | nil =>
    rw [walkSteps] at h ⊢
    cases h
    exact ⟨rfl, address_trailTo fs around⟩
  | cons step steps ih =>
    rw [List.map_cons, List.sum_cons] at hfits
    cases step with
    | stay => exact ih h (by omega) haround
    | up =>
      have hinner := (walkSteps_up_eq_ok_iff.1 h).2
      have haround' := aroundSearchable_tail haround
      have htail := width_trailTo_tail_le fs around
      rw [tail_trailTo] at hinner haround'
      obtain ⟨hnamed, haddress⟩ := ih hinner (by omega) haround'
      refine ⟨walkSteps_up_eq_ok_iff.2 ⟨rfl, ?_⟩, haddress⟩
      rw [tail_trailTo]
      exact hnamed
    | enter name =>
      obtain ⟨hopen, hname, -, hcases⟩ := walkSteps_enter_eq_ok_iff.1 h
      have hnaming := allSearchable_of_aroundSearchable haround hopen
      have hwidth : (fs.trailTo around).widthOf name + (steps.map Step.width).sum ≤ pathLimit := by
        simp only [Step.width] at hfits
        rw [Trail.widthOf]
        omega
      have hfit : fits .naming ((fs.trailTo around).widthOf name) = true :=
        decide_eq_true (Nat.le_of_add_right_le hwidth)
      rw [walkSteps_enter_eq_ok_iff]
      rcases hcases with ⟨searchable, objects, hfind, -, hinner⟩ |
        ⟨readable, content, hfind, rfl, rfl⟩ | ⟨target, hfind, -⟩
      · -- All directories around the one entered are searchable: the step was taken in them.
        have henter := enter_trailTo hfind
        rw [henter] at hinner
        -- Steps that need a directory leave room for the slash that shows it.
        have hroom : Step.needDirectory steps = true →
            fits .naming ((fs.trailTo around).widthOf name + 1) = true := by
          intro hneed
          have hpos := Step.sum_width_pos hneed
          exact decide_eq_true (by omega)
        rw [← width_trailTo_cons] at hwidth
        have haround' : fs.aroundSearchable (fs.trailTo (name :: around)) = true := by
          rw [← henter]
          exact hnaming
        obtain ⟨hnamed, haddress⟩ := ih hinner hwidth haround'
        refine ⟨⟨hnaming, hname, hfit, .inl ⟨searchable, objects, hfind, hroom, ?_⟩⟩, haddress⟩
        rw [henter]
        exact hnamed
      · refine ⟨⟨hnaming, hname, hfit, .inr (.inl ⟨readable, content, hfind, rfl, rfl⟩)⟩, ?_⟩
        rw [address_trailTo]
        rfl
      · have hnode := Directory.linkFree_of_find? (linkFree_trailTo hfree around) hfind
        cases hnode

theorem follow_of_linkFree (hfree : fs.LinkFree) {links : Nat} {around : Address}
    {found : Found} {steps : List Step}
    (h : fs.follow .opening links (fs.trailTo around) steps = .ok found)
    (hfits : (fs.trailTo around).width + (steps.map Step.width).sum ≤ pathLimit)
    (haround : fs.aroundSearchable (fs.trailTo around) = true) :
    fs.follow .naming links (fs.trailTo around) steps = .ok found ∧
      found.address = steps.foldl Step.move around := by
  cases links with
  | zero => exact walkSteps_of_linkFree hfree h hfits haround
  | succ links => exact walkSteps_of_linkFree hfree h hfits haround

/-- On a disk without links, the absolute path of a file can be named, and its normal form is the
address of the file. -/
theorem canonical_of_linkFree (hfree : fs.LinkFree) {path : Path} (habs : path.isAbsolute = true)
    {address : Address} {readable : Bool} {content : List UInt8}
    (h : fs.locate path = .ok ⟨address, .file readable content⟩) :
    fs.canonical path = .ok ⟨address, .file readable content⟩ ∧
      address.parts = Path.normalParts path.parts := by
  obtain ⟨hlookUp, hsize⟩ := lookUp_of_locate h
  have hfollow := follow_of_lookUp hlookUp
  -- The path ends by entering a name, so that stays on the way make no difference.
  obtain ⟨name, hlast⟩ := getLast?_of_follow hfollow
  have halike : Step.Alike path.steps (path.parts.filterMap Part.step?) := by
    rw [← Path.filter_steps]
    exact Step.Alike.filter_stay (by simp [hlast])
  have horigin : origin (fs.trailTo fs.workingDirectory) path = fs.trailTo [] := by
    rw [origin, if_pos habs, trailTo]
  rw [horigin, follow_eq_of_alike halike] at hfollow
  have hfits : (fs.trailTo []).width +
      ((path.parts.filterMap Part.step?).map Step.width).sum ≤ pathLimit := by
    have hle := Path.sum_width_le_size habs
    rw [trailTo, Trail.width]
    omega
  obtain ⟨hnamed, haddress⟩ := follow_of_linkFree hfree hfollow hfits rfl
  refine ⟨?_, ?_⟩
  · rw [← follow_eq_of_alike halike, ← horigin] at hnamed
    rw [canonical, lookUp]
    rw [lookUp] at hlookUp
    split at hlookUp
    · cases hlookUp
    · split at hlookUp
      · cases hlookUp
      · next hempty hnull => rw [if_neg hempty, if_neg hnull, hnamed]
  · rw [Path.normalParts_eq_parts_moves habs, ← haddress]

/-- On a disk without links, the key of the absolute path of a file is its normal form. -/
theorem visitKey_eq_normalParts (hfree : fs.LinkFree) {path : Path}
    (habs : path.isAbsolute = true) (hfile : fs.isFile path = true) :
    fs.visitKey path = Path.normalParts path.parts := by
  obtain ⟨address, readable, content, hlocate⟩ := isFile_iff.1 hfile
  obtain ⟨hcanonical, hparts⟩ := canonical_of_linkFree hfree habs hlocate
  rw [visitKey, hcanonical]
  exact hparts

/-- The absolute path of a file ends with a name. -/
theorem exists_parts_of_isFile {path : Path} (habs : path.isAbsolute = true)
    (hfile : fs.isFile path = true) :
    ∃ front text, path.parts = (.root :: front) ++ [.name text] := by
  obtain ⟨others, -, hparts⟩ := Path.exists_parts_of_isAbsolute habs
  obtain ⟨name, hlast⟩ := getLast?_steps_of_isFile hfile
  obtain ⟨before, hsteps⟩ := List.getLast?_eq_some_iff.1 hlast
  have hmoves : (others.filterMap Part.ofSegment?).filterMap Part.step? =
      before.filter (· ≠ .stay) ++ [.enter name] := by
    have hfilter := path.filter_steps
    rw [hsteps, hparts, List.filter_append, List.filterMap_cons_none rfl] at hfilter
    exact hfilter.symm
  -- A segment stands for a name or a `..`, and the path does not end with a `..`.
  rcases List.eq_nil_or_concat (others.filterMap Part.ofSegment?) with hnil | ⟨front, last, hrest⟩
  · rw [hnil] at hmoves
    simp at hmoves
  · have hmem : last ∈ others.filterMap Part.ofSegment? := by simp [hrest]
    obtain ⟨segment, -, hsegment⟩ := List.mem_filterMap.1 hmem
    rw [List.concat_eq_append] at hrest
    rw [hrest, List.filterMap_append] at hmoves
    unfold Part.ofSegment? at hsegment
    split at hsegment
    · cases hsegment
    · cases hsegment
    · cases hsegment
      simp [Part.step?] at hmoves
    · cases hsegment
      exact ⟨front, segment, by rw [hparts, hrest, List.cons_append]⟩

end FileSystem

end ScriptAnalysis
