import Mathlib.Data.List.Induction
import Mathlib.Data.List.Nodup
import Mathlib.Data.List.Pairwise
import ScriptAnalysis.Outline
import ScriptAnalysis.Proofs.CodeLine

/-!
# The items of an outline

The subroutines found so far can also be kept in one list, the last one first, in which each is
marked as open or closed. Then a closer changes an item where it stands, and the items stay in the
order of their lines. Two lists, one of the closed and one of the open subroutines, hold the same
items in another order, and the sorting in the end restores it.

* `Outline.itemsOf`: the items that lines of code give.
* `Outline.close_cases`: what closing does to the items.
* `Outline.Nested`, `Outline.nested_itemsOf`: how the items lie to each other.
* `Outline.Lists`, `Outline.lists_itemsOf`: the two lists hold the items.
* `outline_eq_itemsOf`: an outline is its items in the order of their lines.
-/

namespace ScriptAnalysis

open scoped List

namespace Outline

/-- A subroutine found so far, and whether it is still open. -/
abbrev Item := OutlineEntry × Bool

/-- Close the first open item on line `line`. -/
def close (line : Nat) : List Item → List Item
  | [] => []
  | (entry, true) :: others => ({ entry with endLine := line }, false) :: others
  | (entry, false) :: others => (entry, false) :: close line others

/-- The items after one more line of code, the last one first. -/
def extend (vocabulary : Vocabulary) (items : List Item) (code : CodeLine) : List Item :=
  if code.commandName = vocabulary.subroutineKeyword then
    match code.argument? with
    | some name => (⟨name.text, name.span code.line, code.line⟩, true) :: items
    | none => items
  else if some code.commandName = vocabulary.closerFor? vocabulary.subroutineKeyword then
    close code.line items
  else items

/-- The items in lines of code, the last one first. -/
def itemsOf (vocabulary : Vocabulary) (codes : List CodeLine) : List Item :=
  codes.foldl (extend vocabulary) []

/-- The name and its place on a line that defines a subroutine with a name. -/
def head? (vocabulary : Vocabulary) (code : CodeLine) : Option (Text × Span) :=
  if code.commandName = vocabulary.subroutineKeyword then
    code.argument?.map fun argument => (argument.text, argument.span code.line)
  else none

/-- Whether a line of code has the command that closes subroutines. -/
def Ends (vocabulary : Vocabulary) (code : CodeLine) : Prop :=
  vocabulary.closerFor? vocabulary.subroutineKeyword = some code.commandName

/-! ## How items lie to each other -/

/-- What holds of the items that are found in lines of code, the last one first. -/
structure Nested (vocabulary : Vocabulary) (codes : List CodeLine) (items : List Item) : Prop where
  /-- There is one item for each line that defines a subroutine with a name. -/
  heads : items.map (fun item => (item.1.name, item.1.selection)) =
    (codes.filterMap (head? vocabulary)).reverse
  /-- An open item ends on its first line. -/
  endLine_of_open : ∀ item ∈ items, item.2 = true → item.1.endLine = item.1.startLine
  /-- A closed item ends on a later line, which has the closer. -/
  endLine_of_closed : ∀ item ∈ items, item.2 = false →
    item.1.startLine < item.1.endLine ∧
      ∃ code ∈ codes, code.line = item.1.endLine ∧ Ends vocabulary code
  /-- A later item starts behind an earlier one, or it has been closed inside. -/
  pairwise : items.Pairwise fun later earlier => earlier.1.startLine < later.1.startLine ∧
    (earlier.1.endLine < later.1.startLine ∨
      later.2 = false ∧ later.1.endLine < earlier.1.endLine)

variable {vocabulary : Vocabulary} {codes : List CodeLine} {items : List Item} {code : CodeLine}

/-- Closing keeps every item and where it starts. -/
theorem map_selection_close (line : Nat) (items : List Item) :
    (close line items).map (·.1.selection) = items.map (·.1.selection) := by
  induction items with
  | nil => rfl
  | cons item others ih =>
    obtain ⟨entry, isOpen⟩ := item
    cases isOpen <;> simp [close, ih]

/-- Closing changes the first item that is open, if there is one. -/
theorem close_cases (line : Nat) (items : List Item) :
    ((∀ item ∈ items, item.2 = false) ∧ close line items = items) ∨
      ∃ above entry below, (∀ item ∈ above, item.2 = false) ∧
        items = above ++ (entry, true) :: below ∧
        close line items = above ++ ({ entry with endLine := line }, false) :: below := by
  induction items with
  | nil => exact .inl ⟨fun _ => List.not_mem_nil.elim, rfl⟩
  | cons item others ih =>
    obtain ⟨entry, isOpen⟩ := item
    cases isOpen with
    | true => exact .inr ⟨[], entry, others, fun _ => List.not_mem_nil.elim, rfl, rfl⟩
    | false =>
      rcases ih with ⟨hclosed, hsame⟩ | ⟨above, first, below, hclosed, hitems, hclose⟩
      · exact .inl ⟨List.forall_mem_cons.2 ⟨rfl, hclosed⟩, by rw [close, hsame]⟩
      · exact .inr ⟨(entry, false) :: above, first, below, List.forall_mem_cons.2 ⟨rfl, hclosed⟩,
          by rw [hitems, List.cons_append], by rw [close, hclose, List.cons_append]⟩

/-! ## One more line -/

namespace Nested

/-- An item starts and ends on lines that have been read. -/
theorem lines_lt (h : Nested vocabulary codes items) {n : Nat}
    (hlines : ∀ code ∈ codes, code.line < n) {item : Item} (hitem : item ∈ items) :
    item.1.startLine < n ∧ item.1.endLine < n := by
  have hstart : item.1.startLine < n := by
    have hmem : (item.1.name, item.1.selection) ∈ (codes.filterMap (head? vocabulary)).reverse :=
      h.heads ▸ List.mem_map_of_mem hitem
    obtain ⟨code, hcode, hhead⟩ := List.mem_filterMap.1 (List.mem_reverse.1 hmem)
    unfold head? at hhead
    split at hhead
    · obtain ⟨argument, -, hargument⟩ := Option.map_eq_some_iff.1 hhead
      have hselection : argument.span code.line = item.1.selection := congrArg Prod.snd hargument
      rw [OutlineEntry.startLine, ← hselection]
      exact hlines code hcode
    · cases hhead
  -- An open item ends where it starts, a closed one on the line of its closer.
  refine ⟨hstart, ?_⟩
  cases hopen : item.2 with
  | true =>
    rw [h.endLine_of_open item hitem hopen]
    exact hstart
  | false =>
    obtain ⟨-, code, hcode, hline, -⟩ := h.endLine_of_closed item hitem hopen
    rw [← hline]
    exact hlines code hcode

/-- A line without a name for the outline can leave the items alone. -/
theorem keep (h : Nested vocabulary codes items) (hhead : head? vocabulary code = none) :
    Nested vocabulary (codes ++ [code]) items where
  heads := by
    rw [h.heads, List.filterMap_append]
    simp [hhead]
  endLine_of_open := h.endLine_of_open
  endLine_of_closed item hitem hclosed := by
    obtain ⟨hlt, closer, hmem, hcloser⟩ := h.endLine_of_closed item hitem hclosed
    exact ⟨hlt, closer, List.mem_append_left _ hmem, hcloser⟩
  pairwise := h.pairwise

/-- A line with a name opens an item behind all others. -/
theorem push (h : Nested vocabulary codes items)
    (hlines : ∀ earlier ∈ codes, earlier.line < code.line) {argument : Token}
    (hhead : head? vocabulary code = some (argument.text, argument.span code.line)) :
    Nested vocabulary (codes ++ [code])
      ((⟨argument.text, argument.span code.line, code.line⟩, true) :: items) where
  heads := by
    rw [List.map_cons, h.heads, List.filterMap_append]
    simp [hhead]
  endLine_of_open item hitem hopen := by
    rcases List.mem_cons.1 hitem with rfl | hitem
    · rfl
    · exact h.endLine_of_open item hitem hopen
  endLine_of_closed item hitem hclosed := by
    rcases List.mem_cons.1 hitem with rfl | hitem
    · cases hclosed
    · obtain ⟨hlt, closer, hmem, hcloser⟩ := h.endLine_of_closed item hitem hclosed
      exact ⟨hlt, closer, List.mem_append_left _ hmem, hcloser⟩
  pairwise := by
    refine List.pairwise_cons.2 ⟨fun earlier hearlier => ?_, h.pairwise⟩
    obtain ⟨hstart, hend⟩ := h.lines_lt hlines hearlier
    exact ⟨hstart, .inl hend⟩

/-- A line with the closer ends the last item that is open. The items above it have been closed
before, and those below it keep their distance from its first line. -/
theorem close (h : Nested vocabulary codes items)
    (hlines : ∀ earlier ∈ codes, earlier.line < code.line)
    (hhead : head? vocabulary code = none) (hends : Ends vocabulary code) :
    Nested vocabulary (codes ++ [code]) (Outline.close code.line items) := by
  rcases close_cases code.line items with
    ⟨-, hsame⟩ | ⟨above, entry, below, hclosed, rfl, hclose⟩
  · rw [hsame]
    exact h.keep hhead
  have hkeep := h.keep hhead
  obtain ⟨habove, hitem, hacross⟩ := List.pairwise_append.1 hkeep.pairwise
  obtain ⟨hbelow, hrest⟩ := List.pairwise_cons.1 hitem
  rw [hclose]
  -- The one item that changes keeps its name and its first line.
  refine ⟨?_, fun item hmem hopen => ?_, fun item hmem hopen => ?_, ?_⟩
  · rw [← hkeep.heads]
    simp
  · rcases List.mem_append.1 hmem with hmem | hmem
    · exact hkeep.endLine_of_open item (List.mem_append_left _ hmem) hopen
    · rcases List.mem_cons.1 hmem with rfl | hmem
      · cases hopen
      · exact hkeep.endLine_of_open item (by simp [hmem]) hopen
  · rcases List.mem_append.1 hmem with hmem | hmem
    · exact hkeep.endLine_of_closed item (List.mem_append_left _ hmem) hopen
    · rcases List.mem_cons.1 hmem with rfl | hmem
      · exact ⟨(h.lines_lt hlines (by simp : (entry, true) ∈ _)).1, code, by simp, rfl, hends⟩
      · exact hkeep.endLine_of_closed item (by simp [hmem]) hopen
  · refine List.pairwise_append.2 ⟨habove, List.pairwise_cons.2 ⟨fun earlier hearlier => ?_, hrest⟩,
      fun later hlater earlier hearlier => ?_⟩
    · -- The item was open, so that the earlier ones are not around it.
      obtain ⟨hlt, hbehind | ⟨hfalse, -⟩⟩ := hbelow earlier hearlier
      · exact ⟨hlt, .inl hbehind⟩
      · cases hfalse
    · -- The later items have been closed, on lines before that of the closer.
      rcases List.mem_cons.1 hearlier with rfl | hearlier
      · have hlt := (hacross later hlater (entry, true) List.mem_cons_self).1
        have hend := (h.lines_lt hlines (List.mem_append_left _ hlater)).2
        exact ⟨hlt, .inr ⟨hclosed later hlater, hend⟩⟩
      · exact hacross later hlater earlier (List.mem_cons_of_mem _ hearlier)

/-- One more line of code. -/
theorem extend (h : Nested vocabulary codes items)
    (hlines : ∀ earlier ∈ codes, earlier.line < code.line) :
    Nested vocabulary (codes ++ [code]) (Outline.extend vocabulary items code) := by
  unfold Outline.extend
  split
  · next hcommand =>
    split
    · next argument hargument =>
      exact h.push hlines (by rw [head?, if_pos hcommand, hargument, Option.map_some])
    · next hargument => exact h.keep (by rw [head?, if_pos hcommand, hargument, Option.map_none])
  · next hcommand =>
    have hhead : head? vocabulary code = none := by rw [head?, if_neg hcommand]
    split
    · next hends => exact h.close hlines hhead hends.symm
    · exact h.keep hhead

end Nested

/-- The items in lines of code are nested. -/
theorem nested_itemsOf (vocabulary : Vocabulary) {codes : List CodeLine}
    (hsorted : codes.Pairwise fun left right => left.line < right.line) :
    Nested vocabulary codes (itemsOf vocabulary codes) := by
  -- The last line is taken off, since the invariant is about all lines before it.
  induction codes using List.reverseRecOn with
  | nil => exact ⟨rfl, by simp [itemsOf], by simp [itemsOf], .nil⟩
  | append_singleton codes code ih =>
    obtain ⟨hbefore, -, hlast⟩ := List.pairwise_append.1 hsorted
    rw [itemsOf, List.foldl_append, List.foldl_cons, List.foldl_nil]
    exact (ih hbefore).extend fun earlier hearlier => hlast earlier hearlier code (by simp)

/-! ## The two lists -/

/-- Whether the subroutines found so far are the ones in some items, which stand last first. -/
structure Lists (found : Outline) (items : List Item) : Prop where
  /-- The open ones are in the order of the items. -/
  opened : found.opened = (items.filter (·.2)).map (·.1)
  /-- The closed ones are in any order. -/
  closed : found.closed.Perm ((items.filter (!·.2)).map (·.1))

namespace Lists

variable {found : Outline}

/-- A line with a name opens an item. -/
theorem push (h : found.Lists items) (entry : OutlineEntry) :
    Lists { found with opened := entry :: found.opened } ((entry, true) :: items) where
  opened := by simp [h.opened]
  closed := by simpa using h.closed

/-- Without an open item, closing changes nothing. -/
theorem close_of_nil (h : found.Lists items) (hnone : found.opened = []) (line : Nat) :
    Outline.close line items = items := by
  rcases close_cases line items with ⟨-, hsame⟩ | ⟨above, entry, below, -, rfl, -⟩
  · exact hsame
  · have hopened := h.opened
    simp [hnone] at hopened

/-- The first open item is the first open subroutine. It leaves the list of open subroutines, and
comes last among the closed ones. -/
theorem close (h : found.Lists items) {entry : OutlineEntry} {others : List OutlineEntry}
    (hopened : found.opened = entry :: others) (line : Nat) :
    Lists ⟨found.closed ++ [{ entry with endLine := line }], others⟩
      (Outline.close line items) := by
  rcases close_cases line items with ⟨hclosed, -⟩ | ⟨above, first, below, habove, rfl, hclose⟩
  · have hnone : (items.filter (·.2)) = [] := by
      simpa [List.filter_eq_nil_iff] using hclosed
    rw [h.opened, hnone] at hopened
    cases hopened
  · have hopen : above.filter (·.2) = [] := by
      simpa [List.filter_eq_nil_iff] using habove
    obtain ⟨rfl, hrest⟩ : entry = first ∧ others = (below.filter (·.2)).map (·.1) := by
      simpa [h.opened, hopen, eq_comm] using hopened.symm
    rw [hclose]
    refine ⟨by simp [hopen, hrest], ?_⟩
    have hperm := h.closed.append_right [{ entry with endLine := line }]
    refine hperm.trans ?_
    simp only [List.filter_append, List.filter_cons, List.map_append]
    exact (List.perm_append_singleton _ _).trans List.perm_middle.symm

/-- One more line of code. -/
theorem step (h : found.Lists items) (vocabulary : Vocabulary) (code : CodeLine) :
    (found.step vocabulary code).Lists (extend vocabulary items code) := by
  rw [Outline.step, extend]
  split
  · cases code.argument? with
    | none => exact h
    | some name => exact h.push _
  · split
    · split
      · next hnone => rwa [h.close_of_nil hnone]
      · next hopened => exact h.close hopened code.line
    · exact h

/-- All subroutines are those of the items. -/
theorem entries_perm (h : found.Lists items) : found.entries.Perm (items.reverse.map (·.1)) :=
  calc found.closed ++ found.opened.reverse
    _ ~ (items.filter (!·.2)).map (·.1) ++ (items.filter (·.2)).map (·.1) :=
      h.closed.append (h.opened ▸ List.reverse_perm _)
    _ ~ (items.filter (·.2) ++ items.filter (!·.2)).map (·.1) := by
      rw [List.map_append]
      exact List.perm_append_comm
    _ ~ items.map (·.1) := (List.filter_append_perm _ items).map _
    _ ~ items.reverse.map (·.1) := (List.reverse_perm items).symm.map _

end Lists

/-- The two lists hold the items in the lines of code. -/
theorem lists_itemsOf (vocabulary : Vocabulary) (codes : List CodeLine) :
    (codes.foldl (step vocabulary) .empty).Lists (itemsOf vocabulary codes) := by
  induction codes using List.reverseRecOn with
  | nil => exact ⟨rfl, .nil⟩
  | append_singleton codes code ih =>
    rw [itemsOf, List.foldl_append, List.foldl_append]
    exact ih.step vocabulary code

end Outline

open Outline

/-- An outline has the items of its lines of code, in the order of these lines. -/
theorem outline_eq_itemsOf (vocabulary : Vocabulary) (text : Text) :
    outline vocabulary text = (itemsOf vocabulary (codeLines text)).reverse.map (·.1) := by
  have hperm : outline vocabulary text ~ (itemsOf vocabulary (codeLines text)).reverse.map (·.1) :=
    (List.mergeSort_perm _ _).trans (lists_itemsOf vocabulary (codeLines text)).entries_perm
  have houtline : (outline vocabulary text).Pairwise fun earlier later =>
      decide (earlier.startLine ≤ later.startLine) = true :=
    List.pairwise_mergeSort (fun _ _ _ => by simpa using Nat.le_trans)
      (fun _ _ => by simpa using Nat.le_total _ _) _
  have hitems : ((itemsOf vocabulary (codeLines text)).reverse.map (·.1)).Pairwise
      fun earlier later => earlier.startLine < later.startLine := by
    rw [List.pairwise_map, List.pairwise_reverse]
    exact (nested_itemsOf vocabulary (pairwise_codeLines text)).pairwise.imp And.left
  have hnodup :
      (((itemsOf vocabulary (codeLines text)).reverse.map (·.1)).map (·.startLine)).Nodup :=
    List.pairwise_map.2 (hitems.imp Nat.ne_of_lt)
  -- Entries that start on one line are the same, so that the sorting has no choice.
  refine List.Perm.eq_of_pairwise (fun entry other hentry hother hle hge => ?_) houtline
    (hitems.imp fun hlt => decide_eq_true (Nat.le_of_lt hlt)) hperm
  have hline := Nat.le_antisymm (of_decide_eq_true hle) (of_decide_eq_true hge)
  exact List.inj_on_of_nodup_map hnodup (hperm.mem_iff.1 hentry) hother hline

end ScriptAnalysis
