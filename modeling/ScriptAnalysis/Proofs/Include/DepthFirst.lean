import ScriptAnalysis.Include.Walk

/-!
# The walk as a depth-first search

A walk keeps one stack of pending paths: all targets of a script are put on it at once, and a path
is looked at only when its turn comes. The search below is recursive instead. It marks a script,
visits it, and then searches its targets one after the other, each search starting from the marks
that the one before it has left.

* `Include.search`: the recursive search from one path.
* `Include.searchAll_append`: a search of two lists of paths threads the marks through both.
* `Include.explore_eq_searchAll`: a stack of pending paths explores what their searches visit.
* `Include.walk_eq_search`: the walk makes the visits of the search, in the same order.
-/

namespace ScriptAnalysis

namespace Include

/-- What a search that started with the keys `marks` has done. -/
structure Search (fs : FileSystem) (marks : List (List Part)) where
  /-- The visits that it made, in order. -/
  visits : List Visit
  /-- The keys that are marked after it. -/
  marked : List (List Part)
  /-- A search takes no mark away. -/
  unvisited_le : unvisited fs marked ≤ unvisited fs marks

/-- A text that was read belongs to a file that can be read. -/
theorem exists_read_of_readText {fs : FileSystem} {path : Path} {text : Text}
    (h : (fs.readText path).toOption = some text) :
    ∃ content, fs.read path = .ok content ∧ Utf8.decodeLossy content = text := by
  rw [← FileSystem.readText_eq_ok_iff]
  cases hread : fs.readText path with
  | error fault => simp [hread, Except.toOption] at h
  | ok found => simpa [hread, Except.toOption] using h

mutual

/-- Search the script at `path`, whose content is `given` or else read from the disk, and then the
scripts it includes. A marked script is left alone, and one that cannot be read is only marked. -/
def search (fs : FileSystem) (vocabulary : Vocabulary) (given : Option Text) (path : Path)
    (marks : List (List Part)) : Search fs marks :=
  if _hmarked : fs.visitKey path ∈ marks then ⟨[], marks, Nat.le_refl _⟩
  else
    match _htext : given.or (fs.readText path).toOption with
    | none => ⟨[], fs.visitKey path :: marks, unvisited_cons_le fs marks _⟩
    | some text =>
      let visit := Visit.ofText path text
      let inner := searchAll fs vocabulary (targets fs vocabulary visit) (fs.visitKey path :: marks)
      ⟨visit :: inner.visits, inner.marked,
        Nat.le_trans inner.unvisited_le (unvisited_cons_le fs marks _)⟩
-- A given text need not be on the disk. Only the first call has one, and the calls below it are
-- smaller for that reason.
termination_by (if given.isSome then 1 else 0, unvisited fs marks, 0)
decreasing_by
  cases given with
  | some text => exact Prod.Lex.left _ _ (by simp)
  -- Without a given text the script was read, so that its key is one of those of the disk.
  | none =>
    obtain ⟨content, hread, -⟩ := exists_read_of_readText (by simpa using _htext)
    exact Prod.Lex.right _ (Prod.Lex.left _ _ (unvisited_cons_lt_of_read hread _hmarked))

/-- Search the scripts at `paths` one after the other. -/
def searchAll (fs : FileSystem) (vocabulary : Vocabulary) (paths : List Path)
    (marks : List (List Part)) : Search fs marks :=
  match paths with
  | [] => ⟨[], marks, Nat.le_refl _⟩
  | path :: rest =>
    let first := search fs vocabulary none path marks
    let others := searchAll fs vocabulary rest first.marked
    ⟨first.visits ++ others.visits, others.marked,
      Nat.le_trans others.unvisited_le first.unvisited_le⟩
termination_by (0, unvisited fs marks, paths.length)
decreasing_by
  · exact Prod.Lex.right _ (Prod.Lex.right _ (Nat.succ_pos _))
  · -- The first search may have marked nothing, but then the list of paths is shorter.
    apply Prod.Lex.right
    rcases Nat.lt_or_eq_of_le first.unvisited_le with h | h
    · exact Prod.Lex.left _ _ h
    · rw [h]
      exact Prod.Lex.right _ (Nat.lt_succ_self _)

end

/-- A marked script is left alone. -/
theorem search_of_mem {fs : FileSystem} {vocabulary : Vocabulary} {given : Option Text}
    {path : Path} {marks : List (List Part)} (h : fs.visitKey path ∈ marks) :
    search fs vocabulary given path marks = ⟨[], marks, Nat.le_refl _⟩ := by
  rw [search, dif_pos h]

/-- A script that cannot be read is marked and not visited. -/
theorem search_of_text_none {fs : FileSystem} (vocabulary : Vocabulary) {given : Option Text}
    {path : Path} {marks : List (List Part)} (hfresh : fs.visitKey path ∉ marks)
    (htext : given.or (fs.readText path).toOption = none) :
    (search fs vocabulary given path marks).visits = [] ∧
      (search fs vocabulary given path marks).marked = fs.visitKey path :: marks := by
  rw [search, dif_neg hfresh]
  split
  · exact ⟨rfl, rfl⟩
  · next hsome => rw [htext] at hsome; cases hsome

/-- A script with a text is marked and visited, and its targets are searched after it. -/
theorem search_of_text_some {fs : FileSystem} (vocabulary : Vocabulary) {given : Option Text}
    {path : Path} {marks : List (List Part)} {text : Text} (hfresh : fs.visitKey path ∉ marks)
    (htext : given.or (fs.readText path).toOption = some text) :
    let visit := Visit.ofText path text
    let inner := searchAll fs vocabulary (targets fs vocabulary visit) (fs.visitKey path :: marks)
    (search fs vocabulary given path marks).visits = visit :: inner.visits ∧
      (search fs vocabulary given path marks).marked = inner.marked := by
  rw [search, dif_neg hfresh]
  split
  · next hnone => rw [htext] at hnone; cases hnone
  · next found hsome =>
    rw [htext] at hsome
    cases hsome
    exact ⟨rfl, rfl⟩

/-- The searches of several scripts are the search of the first and then those of the others. -/
theorem searchAll_cons (fs : FileSystem) (vocabulary : Vocabulary) (path : Path) (rest : List Path)
    (marks : List (List Part)) :
    let first := search fs vocabulary none path marks
    let others := searchAll fs vocabulary rest first.marked
    (searchAll fs vocabulary (path :: rest) marks).visits = first.visits ++ others.visits ∧
      (searchAll fs vocabulary (path :: rest) marks).marked = others.marked := by
  rw [searchAll]
  exact ⟨rfl, rfl⟩

/-- Nothing is searched without a path. -/
theorem searchAll_nil (fs : FileSystem) (vocabulary : Vocabulary) (marks : List (List Part)) :
    searchAll fs vocabulary [] marks = ⟨[], marks, Nat.le_refl _⟩ := by
  rw [searchAll]

/-- Searching two lists of scripts is searching the second with the marks that the first leaves. -/
theorem searchAll_append (fs : FileSystem) (vocabulary : Vocabulary) (first second : List Path)
    (marks : List (List Part)) :
    (searchAll fs vocabulary (first ++ second) marks).visits =
      (searchAll fs vocabulary first marks).visits ++
        (searchAll fs vocabulary second (searchAll fs vocabulary first marks).marked).visits := by
  induction first generalizing marks with
  | nil => rw [searchAll_nil, List.nil_append, List.nil_append]
  | cons path rest ih =>
    obtain ⟨hvisits, -⟩ := searchAll_cons fs vocabulary path (rest ++ second) marks
    obtain ⟨hvisits', hmarked⟩ := searchAll_cons fs vocabulary path rest marks
    rw [List.cons_append, hvisits, hvisits', hmarked, ih, List.append_assoc]

/-- A stack of pending paths explores what their searches visit. The targets that a visited script
puts on top of the stack are searched before what was pending, as the recursive search does. -/
theorem explore_eq_searchAll (fs : FileSystem) (vocabulary : Vocabulary) (pending : List Path)
    (visited : List (List Part)) :
    explore fs vocabulary pending visited = (searchAll fs vocabulary pending visited).visits := by
  -- The cases are those of the top of the stack: none, marked, unreadable, and visited.
  fun_induction explore fs vocabulary pending visited with
  | case1 visited => rw [searchAll_nil]
  | case2 visited path rest hmarked ih =>
    rw [(searchAll_cons fs vocabulary path rest visited).1, search_of_mem hmarked, ih,
      List.nil_append]
  | case3 visited path rest hfresh fault hread ih =>
    have htext : (none : Option Text).or (fs.readText path).toOption = none := by
      simp [FileSystem.readText, hread, Except.map, Except.toOption]
    obtain ⟨hvisits, hmarked⟩ := search_of_text_none vocabulary hfresh htext
    rw [(searchAll_cons fs vocabulary path rest visited).1, hvisits, hmarked, ih, List.nil_append]
  | case4 visited path rest hfresh content hread visit ih =>
    have htext : (none : Option Text).or (fs.readText path).toOption =
        some (Utf8.decodeLossy content) := by
      simp [FileSystem.readText, hread, Except.map, Except.toOption]
    obtain ⟨hvisits, hmarked⟩ := search_of_text_some vocabulary hfresh htext
    -- By induction the stack is the targets followed by the rest, which are searched in turn.
    rw [(searchAll_cons fs vocabulary path rest visited).1, hvisits, hmarked, ih, searchAll_append,
      List.cons_append]

/-- The walk from a root makes the visits of the recursive search from it, in the same order. -/
theorem walk_eq_search (fs : FileSystem) (vocabulary : Vocabulary) (root : Path)
    (text : Option Text) :
    walk fs vocabulary root text = (search fs vocabulary text root []).visits := by
  cases text with
  | none =>
    obtain ⟨hvisits, -⟩ := searchAll_cons fs vocabulary root [] []
    rw [walk, explore_eq_searchAll, hvisits, searchAll_nil, List.append_nil]
  | some text =>
    have htext : (some text).or (fs.readText root).toOption = some text := rfl
    have hfresh : fs.visitKey root ∉ [] := List.not_mem_nil
    obtain ⟨hvisits, -⟩ := search_of_text_some vocabulary hfresh htext
    rw [walk, explore_eq_searchAll, hvisits]

end Include

end ScriptAnalysis
