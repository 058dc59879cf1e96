import ScriptAnalysis.Proofs.Outline.Items
import ScriptAnalysis.Proofs.Validation.Comments
import ScriptAnalysis.Proofs.Validation.Matching

/-!
# Where subroutines end

The outline and the validator pair the lines that open and close subroutines separately: the
validator keeps all open blocks, the outline the open subroutines that have a name. In a script
without problems both find the same last line of a subroutine, unless a subroutine without a name is
opened inside. Its closer then counts for a subroutine with a name, so that the outline ends early.

* `Outline.before`: the subroutines that the outline has found before a line.
* `Outline.IsOpen`, `Blocks.IsOpen`: the open subroutines of the outline and of the validator.
* `Outline.Phase`, `Outline.phase_of_closes`: how the two compare while a block is open.
* `outline_endLine_eq_iff`: where the outline of a subroutine ends.
-/

namespace ScriptAnalysis

/-- Whether `closer` is the command that closes subroutines, and closes no other block. -/
structure Vocabulary.ClosesSubroutines (vocabulary : Vocabulary) (closer : Text) : Prop where
  /-- The command that defines a subroutine opens a block. -/
  opening : vocabulary.event? vocabulary.subroutineKeyword =
    some (.opening vocabulary.subroutineKeyword)
  /-- The closer closes a block. -/
  closing : vocabulary.event? closer = some (.closing closer)
  /-- A subroutine requires the closer. -/
  required : vocabulary.closerFor? vocabulary.subroutineKeyword = some closer
  /-- No other block requires it. -/
  opener_eq : ∀ opener, vocabulary.closerFor? opener = some closer →
    opener = vocabulary.subroutineKeyword

theorem Vocabulary.closesSubroutines_standard :
    standard.ClosesSubroutines "endsubroutine".toList where
  opening := by decide +kernel
  closing := by decide +kernel
  required := by decide +kernel
  opener_eq opener h := by
    have hall : ∀ pair ∈ standard.blockOpeners, pair.2 = "endsubroutine".toList →
        pair.1 = standard.subroutineKeyword := by
      decide +kernel
    obtain ⟨pair, hfind, hcloser⟩ := Option.map_eq_some_iff.1 h
    have hopener : pair.1 = opener := by simpa using List.find?_some hfind
    rw [← hopener]
    exact hall pair (List.mem_of_find?_eq_some hfind) hcloser

namespace Outline

/-! ## The outline line by line -/

/-- Whether line number `n` of a text opens a subroutine with a name. -/
def isNamed (vocabulary : Vocabulary) (text : Text) (n : Nat) : Bool :=
  (Instruction.at? text n).any fun instruction =>
    instruction.name = vocabulary.subroutineKeyword && instruction.argument.isSome

/-- Whether line number `n` of a text opens a subroutine without a name. -/
def isNameless (vocabulary : Vocabulary) (text : Text) (n : Nat) : Bool :=
  (Instruction.at? text n).any fun instruction =>
    instruction.name = vocabulary.subroutineKeyword && instruction.argument.isNone

/-- The items after one more instruction, the last one first. -/
def follow (vocabulary : Vocabulary) (items : List Item) (instruction : Instruction) : List Item :=
  if instruction.name = vocabulary.subroutineKeyword then
    match instruction.argument with
    | some name =>
      (⟨name.text, name.span instruction.line, instruction.line⟩, true) :: items
    | none => items
  else if some instruction.name = vocabulary.closerFor? vocabulary.subroutineKeyword then
    close instruction.line items
  else items

/-- The items found before line number `n` of a text, the last one first. -/
def before (vocabulary : Vocabulary) (text : Text) (n : Nat) : List Item :=
  (Instruction.before text n).foldl (follow vocabulary) []

variable {vocabulary : Vocabulary} {text : Text} {n : Nat}

/-- Without comments behind code, the outline is what is found before the end of the text. -/
theorem outline_eq_before
    (h : ∀ instruction ∈ Instruction.ofText text, instruction.comment = none) :
    outline vocabulary text =
      (before vocabulary text (Text.lines text).length).reverse.map (·.1) := by
  rw [outline_eq_itemsOf, itemsOf, before, ← Instruction.ofText_eq_before,
    Instruction.ofText_eq_map_ofCode h, List.foldl_map]
  rfl

theorem before_succ (vocabulary : Vocabulary) (text : Text) (n : Nat) :
    before vocabulary text (n + 1) =
      (Instruction.at? text n).toList.foldl (follow vocabulary) (before vocabulary text n) := by
  rw [before, Instruction.before_succ, List.foldl_append, before]

theorem before_succ_of_none (h : Instruction.at? text n = none) :
    before vocabulary text (n + 1) = before vocabulary text n := by
  rw [before_succ, h]
  rfl

theorem before_succ_of_some {instruction : Instruction}
    (h : Instruction.at? text n = some instruction) :
    before vocabulary text (n + 1) = follow vocabulary (before vocabulary text n) instruction := by
  rw [before_succ, h]
  rfl

/-- The items start on the lines that open subroutines with a name. -/
theorem map_startLine_before (vocabulary : Vocabulary) (text : Text) (n : Nat) :
    (before vocabulary text n).map (·.1.startLine) =
      ((List.range n).filter (isNamed vocabulary text)).reverse := by
  induction n with
  | zero => simp [before, Instruction.before]
  | succ n ih =>
    rw [List.range_succ, List.filter_append, List.reverse_append, ← ih]
    cases hat : Instruction.at? text n with
    | none => simp [before_succ_of_none hat, isNamed, hat]
    | some instruction =>
      have hline := Instruction.line_of_at? hat
      rw [before_succ_of_some hat, follow]
      by_cases hname : instruction.name = vocabulary.subroutineKeyword
      · cases hargument : instruction.argument with
        | none => simp [isNamed, hat, hname, hargument]
        | some name =>
          simp [isNamed, hat, hname, hargument, OutlineEntry.startLine, Token.span, hline]
      · have hclose := congrArg (List.map Span.line)
          (map_selection_close instruction.line (before vocabulary text n))
        simp only [List.map_map, Function.comp_def] at hclose
        rw [if_neg hname]
        split <;> simp [isNamed, hat, hname, OutlineEntry.startLine, hclose]

/-- A line opens at most one item. -/
theorem eq_of_startLine_eq {item other : Item} (hitem : item ∈ before vocabulary text n)
    (hother : other ∈ before vocabulary text n) (h : item.1.startLine = other.1.startLine) :
    item = other := by
  have hnodup : ((before vocabulary text n).map (·.1.startLine)).Nodup := by
    rw [map_startLine_before, List.nodup_reverse]
    exact List.nodup_range.filter _
  exact List.inj_on_of_nodup_map hnodup hitem hother h

/-! ## Closing items -/

/-- Closing skips items that are closed. -/
theorem close_append_of_closed {above : List Item} (h : ∀ item ∈ above, item.2 = false)
    (line : Nat) (rest : List Item) : close line (above ++ rest) = above ++ close line rest := by
  induction above with
  | nil => rfl
  | cons item others ih =>
    obtain ⟨entry, isOpen⟩ := item
    obtain ⟨hclosed, hothers⟩ := List.forall_mem_cons.1 h
    obtain rfl : isOpen = false := hclosed
    rw [List.cons_append, close, ih hothers, List.cons_append]

/-- Closing closes one of the first items, if one of them is open. -/
theorem exists_close_append {above : List Item} {later : Nat}
    (h : above.countP (·.2) = later + 1) (line : Nat) (rest : List Item) :
    ∃ others, close line (above ++ rest) = others ++ rest ∧ others.countP (·.2) = later := by
  induction above with
  | nil => cases h
  | cons item others ih =>
    obtain ⟨entry, isOpen⟩ := item
    cases isOpen with
    | true =>
      exact ⟨(⟨entry.name, entry.selection, line⟩, false) :: others, rfl, by simpa using h⟩
    | false =>
      obtain ⟨next, hnext, hcount⟩ := ih (by simpa using h)
      exact ⟨(entry, false) :: next, by rw [List.cons_append, close, hnext, List.cons_append],
        by simpa using hcount⟩

/-- What is closed stays closed where it is. -/
theorem mem_close_of_closed {entry : OutlineEntry} {items : List Item} (line : Nat)
    (h : (entry, false) ∈ items) : (entry, false) ∈ close line items := by
  induction items with
  | nil => cases h
  | cons item others ih =>
    obtain ⟨first, isOpen⟩ := item
    cases isOpen with
    | true =>
      rcases List.mem_cons.1 h with hfirst | hothers
      · cases hfirst
      · exact List.mem_cons_of_mem _ hothers
    | false =>
      rcases List.mem_cons.1 h with hfirst | hothers
      · exact hfirst ▸ List.mem_cons_self
      · exact List.mem_cons_of_mem _ (ih hothers)

/-- An item that is closed before one line is the same before every later line. -/
theorem mem_before_of_le {entry : OutlineEntry} {m : Nat} (hle : n ≤ m)
    (h : (entry, false) ∈ before vocabulary text n) :
    (entry, false) ∈ before vocabulary text m := by
  induction hle with
  | refl => exact h
  | @step m hle ih =>
    cases hat : Instruction.at? text m with
    | none => rwa [before_succ_of_none hat]
    | some instruction =>
      rw [before_succ_of_some hat, follow]
      split
      · split
        · exact List.mem_cons_of_mem _ ih
        · exact ih
      · split
        · exact mem_close_of_closed _ ih
        · exact ih

end Outline

/-! ## What a line does in a script without problems -/

/-- What a line can do to the items of the outline and to the open blocks. -/
inductive Outline.Effect (vocabulary : Vocabulary) (text : Text) (n : Nat) : Prop where
  /-- Nothing. -/
  | nothing (items : before vocabulary text (n + 1) = before vocabulary text n)
    (blocks : Blocks.openBefore vocabulary text (n + 1) = Blocks.openBefore vocabulary text n)
    (name : isNameless vocabulary text n = false)
  /-- It opens a block that is no subroutine. -/
  | opens (block : OpenBlock) (other : block.opener ≠ vocabulary.subroutineKeyword)
    (items : before vocabulary text (n + 1) = before vocabulary text n)
    (blocks : Blocks.openBefore vocabulary text (n + 1) =
      block :: Blocks.openBefore vocabulary text n)
    (name : isNameless vocabulary text n = false)
  /-- It closes a block that is no subroutine. -/
  | closes (block : OpenBlock) (other : block.opener ≠ vocabulary.subroutineKeyword)
    (items : before vocabulary text (n + 1) = before vocabulary text n)
    (blocks : Blocks.openBefore vocabulary text n =
      block :: Blocks.openBefore vocabulary text (n + 1))
    (closed : Blocks.Closes vocabulary text block.span.line n)
    (name : isNameless vocabulary text n = false)
  /-- It opens a subroutine with a name. -/
  | named (block : OpenBlock) (subroutine : block.opener = vocabulary.subroutineKeyword)
    (entry : OutlineEntry)
    (items : before vocabulary text (n + 1) = (entry, true) :: before vocabulary text n)
    (blocks : Blocks.openBefore vocabulary text (n + 1) =
      block :: Blocks.openBefore vocabulary text n)
    (name : isNameless vocabulary text n = false)
  /-- It opens a subroutine without a name, which the outline leaves out. -/
  | nameless (block : OpenBlock) (subroutine : block.opener = vocabulary.subroutineKeyword)
    (items : before vocabulary text (n + 1) = before vocabulary text n)
    (blocks : Blocks.openBefore vocabulary text (n + 1) =
      block :: Blocks.openBefore vocabulary text n)
    (name : isNameless vocabulary text n = true)
  /-- It closes a subroutine. -/
  | ends (block : OpenBlock) (subroutine : block.opener = vocabulary.subroutineKeyword)
    (items : before vocabulary text (n + 1) = close n (before vocabulary text n))
    (blocks : Blocks.openBefore vocabulary text n =
      block :: Blocks.openBefore vocabulary text (n + 1))
    (closed : Blocks.Closes vocabulary text block.span.line n)
    (name : isNameless vocabulary text n = false)

/-- A closer is the one that the block requires which it closes. -/
theorem Blocks.closerFor?_of_closes {vocabulary : Vocabulary} {text command : Text} {n : Nat}
    {block : OpenBlock} {outer : List OpenBlock}
    (hopen : openBefore vocabulary text n = block :: outer)
    (hcloses : Closes vocabulary text block.span.line n)
    (hevent : eventAt? vocabulary text n = some (.closing command)) :
    vocabulary.closerFor? block.opener = some command := by
  obtain ⟨other, others, hopen', hcloser, -⟩ := (closes_iff_of_closing hevent).1 hcloses
  rw [hopen] at hopen'
  cases hopen'
  obtain ⟨-, -, -, hrequired, -⟩ :=
    (tracks_openBefore vocabulary text n).openedBy block (by simp [hopen])
  rw [hrequired, hcloser]

namespace Vocabulary.ClosesSubroutines

variable {vocabulary : Vocabulary} {text closer : Text} {n : Nat}

/-- The closer of subroutines opens none. -/
theorem ne_subroutineKeyword (h : vocabulary.ClosesSubroutines closer) :
    closer ≠ vocabulary.subroutineKeyword := by
  rintro rfl
  have hevent := h.opening
  rw [h.closing] at hevent
  cases hevent

/-- The closer of subroutines closes an item of the outline. -/
theorem before_succ (h : vocabulary.ClosesSubroutines closer) {instruction : Instruction}
    (hat : Instruction.at? text n = some instruction) (hname : instruction.name = closer) :
    Outline.before vocabulary text (n + 1) =
      Outline.close n (Outline.before vocabulary text n) := by
  rw [Outline.before_succ_of_some hat, Outline.follow, hname, if_neg h.ne_subroutineKeyword,
    h.required, if_pos rfl, Instruction.line_of_at? hat]

/-- The block of a subroutine is closed by the closer of subroutines. -/
theorem exists_instruction_of_closes (h : vocabulary.ClosesSubroutines closer)
    {instruction : Instruction} (hat : Instruction.at? text n = some instruction)
    (hname : instruction.name = vocabulary.subroutineKeyword) {last : Nat}
    (hcloses : Blocks.Closes vocabulary text n last) :
    ∃ found, Instruction.at? text last = some found ∧ found.name = closer := by
  obtain ⟨opener, command, hopening, hclosing, hrequired⟩ :=
    (Blocks.blockMatching_closes vocabulary text).fits n last hcloses
  rw [Blocks.eventAt?_of_at? hat, hname, h.opening] at hopening
  cases hopening
  obtain rfl : command = closer := Option.some.inj (hrequired.symm.trans h.required)
  obtain ⟨found, hfound, hevent⟩ := Option.bind_eq_some_iff.1 hclosing
  exact ⟨found, hfound, (Blocks.role_of_event?_closing hevent).1.symm⟩

end Vocabulary.ClosesSubroutines

section Clean

open Outline Blocks

variable {fs : FileSystem} {vocabulary : Vocabulary} {path : Path} {text : Text} {closer : Text}
  {n : Nat} {instruction : Instruction}
  (hcloser : vocabulary.ClosesSubroutines closer) (hclean : validate fs vocabulary path text = [])
  (hat : Instruction.at? text n = some instruction)

include hclean hat

/-- Every block is closed. -/
theorem Blocks.exists_closes_of_opening {opener : Text}
    (hevent : vocabulary.event? instruction.name = some (.opening opener)) :
    ∃ j, Closes vocabulary text n j := by
  obtain ⟨closer, hcloser, -⟩ := step_of_event?_opening hevent []
  rcases openersAccounted_closes fs vocabulary path text n instruction opener closer hat hevent
    hcloser with ⟨hcloses, -⟩ | ⟨-, hreported⟩
  · exact hcloses
  · rw [hclean] at hreported
    cases hreported

/-- Every closer closes a block, which requires it. -/
theorem Blocks.exists_block_of_closing {command : Text}
    (hevent : vocabulary.event? instruction.name = some (.closing command)) :
    ∃ block, openBefore vocabulary text n = block :: openBefore vocabulary text (n + 1) ∧
      Closes vocabulary text block.span.line n ∧
      vocabulary.closerFor? block.opener = some command := by
  have hcloses : ∃ i, Closes vocabulary text i n := by
    rcases closersAccounted_closes fs vocabulary path text n instruction command hat hevent with
      ⟨hcloses, -⟩ | ⟨-, -, hreported⟩ | ⟨-, i, opener, expected, -, -, -, hreported⟩
    · exact hcloses
    · rw [hclean] at hreported
      cases hreported
    · rw [hclean] at hreported
      cases hreported
  obtain ⟨i, hcloses⟩ := hcloses
  rcases openBefore_succ_of_closing hat hevent with ⟨-, hquiet⟩ | ⟨block, hopen, hblock⟩
  · exact absurd hcloses (hquiet i)
  · have hclosed := (hblock block.span.line).2 rfl
    exact ⟨block, hopen, hclosed,
      closerFor?_of_closes hopen hclosed ((eventAt?_of_at? hat).trans hevent)⟩

include hcloser

/-- A line with the closer of subroutines ends one for both. -/
theorem Outline.effect_of_closer (h : instruction.name = closer) : Effect vocabulary text n := by
  obtain ⟨block, hopen, hcloses, hrequired⟩ :=
    exists_block_of_closing hclean hat (h ▸ hcloser.closing)
  exact .ends block (hcloser.opener_eq _ (h ▸ hrequired)) (hcloser.before_succ hat h) hopen hcloses
    (by simp [isNameless, hat, h, hcloser.ne_subroutineKeyword])

/-- A line with another command does nothing to subroutines. -/
theorem Outline.effect_of_ne (hname : instruction.name ≠ vocabulary.subroutineKeyword)
    (h : instruction.name ≠ closer) : Effect vocabulary text n := by
  have hitems : before vocabulary text (n + 1) = before vocabulary text n := by
    rw [before_succ_of_some hat, follow, if_neg hname, hcloser.required,
      if_neg fun heq => h (Option.some.inj heq)]
  have hnameless : isNameless vocabulary text n = false := by simp [isNameless, hat, hname]
  have hblocks := openBefore_succ_of_some vocabulary hat
  cases hevent : vocabulary.event? instruction.name with
  | none =>
    rw [(step_of_event?_none hevent _).1] at hblocks
    exact .nothing hitems hblocks hnameless
  | some event =>
    cases event with
    | opening opener =>
      -- The block is one of another command, so that the outline does not show it.
      obtain ⟨rfl, -⟩ := role_of_event?_opening hevent
      obtain ⟨required, -, hstep⟩ := step_of_event?_opening hevent (openBefore vocabulary text n)
      rw [hstep] at hblocks
      exact .opens _ hname hitems hblocks hnameless
    | closing command =>
      obtain ⟨rfl, -⟩ := role_of_event?_closing hevent
      obtain ⟨block, hopen, hcloses, hrequired⟩ := exists_block_of_closing hclean hat hevent
      refine .closes block (fun heq => ?_) hitems hopen hcloses hnameless
      rw [heq, hcloser.required] at hrequired
      exact h (Option.some.inj hrequired).symm

end Clean

namespace Outline

open Blocks

variable {fs : FileSystem} {vocabulary : Vocabulary} {path : Path} {text : Text} {closer : Text}
  {n : Nat}

/-- A line that opens a subroutine opens a block. -/
theorem exists_block_of_subroutine (hcloser : vocabulary.ClosesSubroutines closer)
    {instruction : Instruction} (hat : Instruction.at? text n = some instruction)
    (h : instruction.name = vocabulary.subroutineKeyword) :
    ∃ block, block.opener = vocabulary.subroutineKeyword ∧ block.span.line = n ∧
      openBefore vocabulary text (n + 1) = block :: openBefore vocabulary text n := by
  have hopening : vocabulary.event? instruction.name =
      some (.opening vocabulary.subroutineKeyword) := by rw [h, hcloser.opening]
  obtain ⟨required, -, hstep⟩ := step_of_event?_opening hopening (openBefore vocabulary text n)
  refine ⟨⟨_, required, instruction.commandSpan⟩, rfl, Instruction.line_of_at? hat, ?_⟩
  rw [openBefore_succ_of_some vocabulary hat, hstep]

/-- A line that opens a subroutine with a name opens an item. -/
theorem exists_item_of_named {instruction : Instruction} {name : Token}
    (hat : Instruction.at? text n = some instruction)
    (h : instruction.name = vocabulary.subroutineKeyword)
    (hargument : instruction.argument = some name) :
    ∃ entry, entry.startLine = n ∧
      before vocabulary text (n + 1) = (entry, true) :: before vocabulary text n := by
  refine ⟨⟨name.text, name.span instruction.line, instruction.line⟩, Instruction.line_of_at? hat,
    ?_⟩
  rw [before_succ_of_some hat, follow, if_pos h, hargument]

/-- A line that opens a subroutine adds it to the open blocks, and to the items if it has a name. -/
theorem effect_of_subroutine (hcloser : vocabulary.ClosesSubroutines closer)
    {instruction : Instruction} (hat : Instruction.at? text n = some instruction)
    (h : instruction.name = vocabulary.subroutineKeyword) : Effect vocabulary text n := by
  obtain ⟨block, hopener, -, hblocks⟩ := exists_block_of_subroutine hcloser hat h
  cases hargument : instruction.argument with
  | none =>
    refine .nameless block hopener ?_ hblocks (by simp [isNameless, hat, h, hargument])
    rw [before_succ_of_some hat, follow, if_pos h, hargument]
  | some name =>
    obtain ⟨entry, -, hitems⟩ := exists_item_of_named hat h hargument
    exact .named block hopener entry hitems hblocks (by simp [isNameless, hat, h, hargument])

/-- What the lines of a script without problems do. -/
theorem effect (hcloser : vocabulary.ClosesSubroutines closer)
    (hclean : validate fs vocabulary path text = []) (n : Nat) : Effect vocabulary text n := by
  cases hat : Instruction.at? text n with
  | none =>
    exact .nothing (before_succ_of_none hat) (openBefore_succ_of_none vocabulary hat)
      (by simp [isNameless, hat])
  | some instruction =>
    by_cases hname : instruction.name = vocabulary.subroutineKeyword
    · exact effect_of_subroutine hcloser hat hname
    · by_cases hends : instruction.name = closer
      · exact effect_of_closer hcloser hclean hat hends
      · exact effect_of_ne hcloser hclean hat hname hends

end Outline

/-! ## Open subroutines of the outline and of the validator -/

/-- Whether the outline has an open item of line `start` before line `n`, and `later` open items
after that. -/
def Outline.IsOpen (vocabulary : Vocabulary) (text : Text) (start n later : Nat) : Prop :=
  ∃ above entry below, before vocabulary text n = above ++ (entry, true) :: below ∧
    entry.startLine = start ∧ above.countP (·.2) = later

/-- Whether the block of line `start` is open before line `n`, and `later` subroutines inside. -/
def Blocks.IsOpen (vocabulary : Vocabulary) (text : Text) (start n later : Nat) : Prop :=
  ∃ inner block outer, openBefore vocabulary text n = inner ++ block :: outer ∧
    block.span.line = start ∧
    inner.countP (·.opener = vocabulary.subroutineKeyword) = later

section IsOpen

variable {vocabulary : Vocabulary} {text : Text} {start n later : Nat}

namespace Outline

theorem IsOpen.keep (h : IsOpen vocabulary text start n later)
    (hitems : before vocabulary text (n + 1) = before vocabulary text n) :
    IsOpen vocabulary text start (n + 1) later := by
  obtain ⟨above, entry, below, hbefore, hrest⟩ := h
  exact ⟨above, entry, below, hitems.trans hbefore, hrest⟩

theorem IsOpen.push (h : IsOpen vocabulary text start n later) {entry : OutlineEntry}
    (hitems : before vocabulary text (n + 1) = (entry, true) :: before vocabulary text n) :
    IsOpen vocabulary text start (n + 1) (later + 1) := by
  obtain ⟨above, first, below, hbefore, hline, hcount⟩ := h
  exact ⟨(entry, true) :: above, first, below, by rw [hitems, hbefore, List.cons_append], hline,
    by simp [hcount]⟩

/-- A closer closes a later item, if one is open. -/
theorem IsOpen.close_later (h : IsOpen vocabulary text start n (later + 1))
    (hitems : before vocabulary text (n + 1) = close n (before vocabulary text n)) :
    IsOpen vocabulary text start (n + 1) later := by
  obtain ⟨above, entry, below, hbefore, hline, hcount⟩ := h
  obtain ⟨others, hclose, hothers⟩ := exists_close_append hcount n ((entry, true) :: below)
  exact ⟨others, entry, below, by rw [hitems, hbefore, hclose], hline, hothers⟩

/-- Without a later open item, a closer ends the item. -/
theorem IsOpen.exists_closed (h : IsOpen vocabulary text start n 0)
    (hitems : before vocabulary text (n + 1) = close n (before vocabulary text n)) :
    ∃ entry, entry.startLine = start ∧ entry.endLine = n ∧
      (entry, false) ∈ before vocabulary text (n + 1) := by
  obtain ⟨above, entry, below, hbefore, hline, hcount⟩ := h
  have hclosed : ∀ item ∈ above, item.2 = false := by
    simpa [List.countP_eq_zero] using hcount
  refine ⟨{ entry with endLine := n }, hline, rfl, ?_⟩
  rw [hitems, hbefore, close_append_of_closed hclosed, close]
  exact List.mem_append_right _ List.mem_cons_self

end Outline

namespace Blocks

theorem IsOpen.keep (h : IsOpen vocabulary text start n later)
    (hblocks : openBefore vocabulary text (n + 1) = openBefore vocabulary text n) :
    IsOpen vocabulary text start (n + 1) later := by
  obtain ⟨inner, block, outer, hopen, hrest⟩ := h
  exact ⟨inner, block, outer, hblocks.trans hopen, hrest⟩

theorem IsOpen.push (h : IsOpen vocabulary text start n later) {block : OpenBlock}
    (hblocks : openBefore vocabulary text (n + 1) = block :: openBefore vocabulary text n) :
    IsOpen vocabulary text start (n + 1)
      (later + if block.opener = vocabulary.subroutineKeyword then 1 else 0) := by
  obtain ⟨inner, first, outer, hopen, hline, hcount⟩ := h
  refine ⟨block :: inner, first, outer, by rw [hblocks, hopen, List.cons_append], hline, ?_⟩
  rw [List.countP_cons, hcount]
  simp

/-- A line that closes another block closes one inside. -/
theorem IsOpen.pop (h : IsOpen vocabulary text start n later) {block : OpenBlock}
    (hblocks : openBefore vocabulary text n = block :: openBefore vocabulary text (n + 1))
    (hne : block.span.line ≠ start) :
    ∃ rest, IsOpen vocabulary text start (n + 1) rest ∧
      later = rest + if block.opener = vocabulary.subroutineKeyword then 1 else 0 := by
  obtain ⟨inner, first, outer, hopen, hline, hcount⟩ := h
  cases inner with
  | nil =>
    rw [hblocks, List.nil_append] at hopen
    cases hopen
    exact absurd hline hne
  | cons top inner =>
    rw [hblocks, List.cons_append] at hopen
    obtain ⟨rfl, hrest⟩ := List.cons.inj hopen
    refine ⟨_, ⟨inner, first, outer, hrest, hline, rfl⟩, ?_⟩
    rw [← hcount, List.countP_cons]
    simp

/-- A line that closes the block closes it when no subroutine is open inside. -/
theorem IsOpen.eq_zero (h : IsOpen vocabulary text start n later)
    (hcloses : Closes vocabulary text start n) : later = 0 := by
  obtain ⟨inner, first, outer, hopen, hline, hcount⟩ := h
  obtain ⟨-, block, others, -, hblocks, -, hblock⟩ := hcloses
  cases inner with
  | nil => exact hcount.symm
  | cons top inner =>
    -- The innermost block would be opened on the same line as one around it.
    exfalso
    have hsorted := (tracks_openBefore vocabulary text n).sorted
    rw [hopen, List.cons_append] at hblocks hsorted
    obtain ⟨rfl, -⟩ := List.cons.inj hblocks
    have hlt := List.rel_of_pairwise_cons hsorted (List.mem_append_right _ List.mem_cons_self)
    omega

end Blocks

end IsOpen

/-! ## How the two compare -/

namespace Outline

/-- Whether every subroutine that is opened between two lines has a name. -/
def NamedBetween (vocabulary : Vocabulary) (text : Text) (start n : Nat) : Prop :=
  ∀ m, start < m → m < n → isNameless vocabulary text m = false

/-- How far the outline of the subroutine on line `start` has come before line `n`, while its block
is open. -/
inductive Phase (vocabulary : Vocabulary) (text : Text) (start n : Nat) : Prop where
  /-- It has not ended. Of the subroutines that are open inside the block the outline misses `lag`,
  none as long as all had a name. -/
  | going (later lag : Nat) (items : IsOpen vocabulary text start n later)
    (blocks : Blocks.IsOpen vocabulary text start n (later + lag))
    (lag_eq_zero_iff : lag = 0 ↔ NamedBetween vocabulary text start n)
  /-- It has ended, which takes a subroutine without a name. -/
  | ended (entry : OutlineEntry) (line : entry.startLine = start) (early : entry.endLine < n)
    (closed : (entry, false) ∈ before vocabulary text n)
    (nameless : ¬ NamedBetween vocabulary text start n)

variable {fs : FileSystem} {vocabulary : Vocabulary} {path : Path} {text : Text} {closer : Text}
  {start n : Nat}

theorem namedBetween_succ_iff (hstart : start < n) :
    NamedBetween vocabulary text start (n + 1) ↔
      NamedBetween vocabulary text start n ∧ isNameless vocabulary text n = false := by
  constructor
  · intro h
    exact ⟨fun m hm hlt => h m hm (Nat.lt_succ_of_lt hlt), h n hstart (Nat.lt_succ_self n)⟩
  · rintro ⟨hbefore, hlast⟩ m hm hlt
    rcases Nat.lt_succ_iff_lt_or_eq.1 hlt with hearlier | rfl
    · exact hbefore m hm hearlier
    · exact hlast

/-- One line more, which does not close the block. -/
theorem Phase.succ (h : Phase vocabulary text start n) (hstart : start < n)
    (heffect : Effect vocabulary text n) (hopen : ¬ Blocks.Closes vocabulary text start n) :
    Phase vocabulary text start (n + 1) := by
  have hothers (block : OpenBlock) (hcloses : Blocks.Closes vocabulary text block.span.line n) :
      block.span.line ≠ start := fun heq => hopen (heq ▸ hcloses)
  cases h with
  | ended entry line early closed nameless =>
    refine .ended entry line (Nat.lt_succ_of_lt early) (mem_before_of_le (Nat.le_succ n) closed) ?_
    rw [namedBetween_succ_iff hstart]
    exact fun hnamed => nameless hnamed.1
  | going later lag items blocks hlag =>
    have hsame (hname : isNameless vocabulary text n = false) :
        lag = 0 ↔ NamedBetween vocabulary text start (n + 1) := by
      rw [namedBetween_succ_iff hstart, and_iff_left hname, hlag]
    cases heffect with
    | nothing hitems hblocks hname =>
      exact .going later lag (items.keep hitems) (blocks.keep hblocks) (hsame hname)
    | opens block hother hitems hblocks hname =>
      have hpush := blocks.push hblocks
      rw [if_neg hother] at hpush
      exact .going later lag (items.keep hitems) hpush (hsame hname)
    | closes block hother hitems hblocks hclosed hname =>
      obtain ⟨rest, hrest, hcount⟩ := blocks.pop hblocks (hothers block hclosed)
      rw [if_neg hother, Nat.add_zero] at hcount
      exact .going later lag (items.keep hitems) (hcount ▸ hrest) (hsame hname)
    | named block hsubroutine entry hitems hblocks hname =>
      have hpush := blocks.push hblocks
      rw [if_pos hsubroutine, Nat.add_right_comm] at hpush
      exact .going (later + 1) lag (items.push hitems) hpush (hsame hname)
    | nameless block hsubroutine hitems hblocks hname =>
      have hpush := blocks.push hblocks
      rw [if_pos hsubroutine] at hpush
      refine .going later (lag + 1) (items.keep hitems) hpush ?_
      simp [namedBetween_succ_iff hstart, hname]
    | ends block hsubroutine hitems hblocks hclosed hname =>
      obtain ⟨rest, hrest, hcount⟩ := blocks.pop hblocks (hothers block hclosed)
      rw [if_pos hsubroutine] at hcount
      cases later with
      | zero =>
        -- The closer of an inner subroutine without a name ends the outline of this one.
        obtain ⟨entry, hline, hend, hmem⟩ := items.exists_closed hitems
        refine .ended entry hline (hend ▸ Nat.lt_succ_self n) hmem fun hnamed => ?_
        have hzero := (hsame hname).2 hnamed
        omega
      | succ later =>
        obtain rfl : rest = later + lag := by omega
        exact .going later lag (items.close_later hitems) hrest (hsame hname)

/-- The phases of a subroutine with a name, up to the line that closes its block. -/
theorem phase_of_closes (hcloser : vocabulary.ClosesSubroutines closer)
    (hclean : validate fs vocabulary path text = []) {instruction : Instruction} {name : Token}
    (hat : Instruction.at? text start = some instruction)
    (hname : instruction.name = vocabulary.subroutineKeyword)
    (hargument : instruction.argument = some name) {last : Nat}
    (hcloses : Blocks.Closes vocabulary text start last) (hstart : start < n) (hlast : n ≤ last) :
    Phase vocabulary text start n := by
  induction hstart with
  | refl =>
    obtain ⟨block, -, hblock, hblocks⟩ := exists_block_of_subroutine hcloser hat hname
    obtain ⟨entry, hentry, hitems⟩ := exists_item_of_named hat hname hargument
    refine .going 0 0 ⟨[], entry, _, hitems, hentry, rfl⟩ ⟨[], block, _, hblocks, hblock, rfl⟩ ?_
    exact iff_of_true rfl fun m hm hlt => by omega
  | @step n hstart ih =>
    have hopen : ¬ Blocks.Closes vocabulary text start n := by
      intro hearlier
      have heq := (Blocks.blockMatching_closes vocabulary text).closer_unique start n last hearlier
        hcloses
      omega
    exact (ih (by omega)).succ hstart (effect hcloser hclean n) hopen

/-- Where the outline of a subroutine ends, compared with its block. -/
theorem exists_closed_of_closes (hcloser : vocabulary.ClosesSubroutines closer)
    (hclean : validate fs vocabulary path text = []) {instruction : Instruction} {name : Token}
    (hat : Instruction.at? text start = some instruction)
    (hname : instruction.name = vocabulary.subroutineKeyword)
    (hargument : instruction.argument = some name) {last : Nat}
    (hcloses : Blocks.Closes vocabulary text start last) :
    ∃ entry, entry.startLine = start ∧ (entry, false) ∈ before vocabulary text (last + 1) ∧
      entry.endLine ≤ last ∧
      (entry.endLine = last ↔ NamedBetween vocabulary text start last) := by
  have hlt := Blocks.lt_of_closes (Blocks.tracks_openBefore vocabulary text last) hcloses
  cases phase_of_closes hcloser hclean hat hname hargument hcloses hlt (Nat.le_refl last) with
  | ended entry line early closed nameless =>
    exact ⟨entry, line, mem_before_of_le (Nat.le_succ last) closed, Nat.le_of_lt early,
      iff_of_false (Nat.ne_of_lt early) nameless⟩
  | going later lag items blocks hlag =>
    -- When the block is closed, no subroutine is open inside, and the outline misses none.
    obtain ⟨rfl, rfl⟩ := Nat.add_eq_zero_iff.1 (blocks.eq_zero hcloses)
    obtain ⟨found, hfound, hend⟩ := hcloser.exists_instruction_of_closes hat hname hcloses
    obtain ⟨entry, hline, hlast, hmem⟩ := items.exists_closed (hcloser.before_succ hfound hend)
    exact ⟨entry, hline, hmem, Nat.le_of_eq hlast, iff_of_true hlast (hlag.1 rfl)⟩

end Outline

open Outline

/-- The entries of an outline start on lines that open subroutines with a name. -/
theorem Outline.exists_named_of_mem {vocabulary : Vocabulary} {text : Text} {n : Nat} {item : Item}
    (h : item ∈ before vocabulary text n) :
    ∃ instruction name, Instruction.at? text item.1.startLine = some instruction ∧
      instruction.name = vocabulary.subroutineKeyword ∧ instruction.argument = some name := by
  have hmem : item.1.startLine ∈ ((List.range n).filter (isNamed vocabulary text)).reverse := by
    rw [← map_startLine_before]
    exact List.mem_map_of_mem h
  have hnamed := (List.mem_filter.1 (List.mem_reverse.1 hmem)).2
  rw [isNamed, Option.any_eq_true] at hnamed
  obtain ⟨instruction, hat, hboth⟩ := hnamed
  rw [Bool.and_eq_true, decide_eq_true_eq, Option.isSome_iff_exists] at hboth
  obtain ⟨hname, name, hargument⟩ := hboth
  exact ⟨instruction, name, hat, hname, hargument⟩

/-- In a script without problems the block of every entry of the outline is closed, and the entry
ends on that line or before. It ends there exactly if every subroutine that is opened inside has a
name. -/
theorem outline_endLine_eq_iff (fs : FileSystem) (path : Path) (text : Text)
    (hclean : validate fs .standard path text = []) (entry : OutlineEntry)
    (hentry : entry ∈ outline .standard text) :
    ∃ last, Blocks.Closes .standard text entry.startLine last ∧ entry.endLine ≤ last ∧
      (entry.endLine = last ↔ NamedBetween .standard text entry.startLine last) := by
  have hcloser := Vocabulary.closesSubroutines_standard
  have hcomments := Instruction.comment_eq_none_of_validate
    (by rw [hclean]; exact fun _ => List.not_mem_nil.elim)
  rw [outline_eq_before hcomments, List.mem_map] at hentry
  obtain ⟨item, hitem, rfl⟩ := hentry
  rw [List.mem_reverse] at hitem
  obtain ⟨instruction, name, hat, hname, hargument⟩ := exists_named_of_mem hitem
  obtain ⟨last, hcloses⟩ :=
    Blocks.exists_closes_of_opening hclean hat (hname ▸ hcloser.opening)
  obtain ⟨entry, hline, hclosed, hends⟩ :=
    exists_closed_of_closes hcloser hclean hat hname hargument hcloses
  -- The entry that ends there is the one that starts on the line.
  have hmem := mem_before_of_le (Blocks.lt_length_of_closes hcloses) hclosed
  obtain rfl : item = (entry, false) := eq_of_startLine_eq hitem hmem hline.symm
  exact ⟨last, hcloses, hends⟩

/-- With a condition and a subroutine with a name inside, both find the last line. -/
theorem outline_endLine_eq_iff_sample :
    let text := "subroutine a\nif 1\nsubroutine b\nendsubroutine\nendif\nendsubroutine\n".toList
    let entry : OutlineEntry := ⟨"a".toList, ⟨0, 11, 12⟩, 5⟩
    validate ⟨true, [], []⟩ .standard ⟨"main.osc".toList⟩ text = [] ∧
      entry ∈ outline .standard text ∧
      NamedBetween .standard text 0 (Text.lines text).length ∧
      Blocks.Closes .standard text entry.startLine entry.endLine := by
  intro text entry
  have hclean : validate ⟨true, [], []⟩ .standard ⟨"main.osc".toList⟩ text = [] := by decide +kernel
  have hentry : entry ∈ outline .standard text := by
    rw [outline_eq_itemsOf]
    decide +kernel
  have hnamed : ∀ n < (Text.lines text).length, isNameless .standard text n = false := by
    decide +kernel
  obtain ⟨last, hcloses, -, hends⟩ := outline_endLine_eq_iff _ _ text hclean entry hentry
  have hlast := Blocks.lt_length_of_closes hcloses
  have heq := hends.2 fun n _ hlt => hnamed n (Nat.lt_trans hlt hlast)
  exact ⟨hclean, hentry, fun n _ hlt => hnamed n hlt, heq ▸ hcloses⟩

/-- With a subroutine without a name inside, the outline ends with that one. -/
theorem outline_ends_early :
    let text := "subroutine a\nsubroutine\nendsubroutine\nendsubroutine\n".toList
    let entry : OutlineEntry := ⟨"a".toList, ⟨0, 11, 12⟩, 2⟩
    validate ⟨true, [], []⟩ .standard ⟨"main.osc".toList⟩ text = [] ∧
      outline .standard text = [entry] ∧ Blocks.Closes .standard text entry.startLine 3 ∧
      ¬ Blocks.Closes .standard text entry.startLine entry.endLine := by
  intro text entry
  have hcloses : Blocks.Closes .standard text entry.startLine 3 :=
    ⟨"endsubroutine".toList, ⟨"subroutine".toList, "endsubroutine".toList, ⟨0, 0, 10⟩⟩, [],
      by decide +kernel, by decide +kernel, rfl, rfl⟩
  have houtline : outline .standard text = [entry] := by
    rw [outline_eq_itemsOf]
    decide +kernel
  refine ⟨by decide +kernel, houtline, hcloses, fun hearly => ?_⟩
  have heq := (Blocks.blockMatching_closes .standard text).closer_unique _ _ _ hearly hcloses
  cases heq

end ScriptAnalysis
