import ScriptAnalysis.Proofs.Validation.Reading

/-!
# Well-nested scripts

A script is well nested when its block events form a sequence of blocks, each from an opener to the
closer it requires, with a well-nested sequence between them. The validation keeps a stack of open
blocks instead, and goes on after a closer that does not fit.

* `blockEvents_eq_filterMap_lines`: the block events of a text from the tokens of its lines.
* `WellNested`: the grammar of well-nested block events.
* `Finishes`: what must follow when some blocks are open, with one lemma for each event.
* `no_closer_problem_iff_wellNested`: a validation finds no problem with closers exactly in the
  well-nested scripts.
-/

namespace ScriptAnalysis

/-- The block events of the lines of a text. -/
def blockEvents (vocabulary : Vocabulary) (text : Text) : List BlockEvent :=
  (Instruction.ofText text).filterMap fun instruction => vocabulary.event? instruction.name

/-- The block events of a text are those of its lines, each told by the first token before its
comment. -/
theorem blockEvents_eq_filterMap_lines (vocabulary : Vocabulary) (text : Text) :
    blockEvents vocabulary text = (Text.lines text).filterMap (lineEvent? vocabulary) := by
  rw [blockEvents, Instruction.ofText, List.filterMap_filterMap]
  simp only [Instruction.bind_event?_ofLine?]
  conv_rhs => rw [← List.zipIdx_map_fst 0 (Text.lines text), List.filterMap_map]
  rfl

/-- The sequences of block events in which every block is closed by the closer it requires, and
blocks do not overlap. -/
inductive WellNested (vocabulary : Vocabulary) : List BlockEvent → Prop
  /-- No block. -/
  | nil : WellNested vocabulary []
  /-- A block and what follows it. -/
  | block {opener closer : Text} {inner rest : List BlockEvent} :
      vocabulary.closerFor? opener = some closer → WellNested vocabulary inner →
      WellNested vocabulary rest →
      WellNested vocabulary (.opening opener :: inner ++ .closing closer :: rest)

/-- Whether events finish the blocks that require `closers`, the innermost first: well-nested events
and a closer for each block, and well-nested events at the end. -/
def Finishes (vocabulary : Vocabulary) : List Text → List BlockEvent → Prop
  | [], events => WellNested vocabulary events
  | closer :: closers, events =>
    ∃ inner rest, WellNested vocabulary inner ∧ events = inner ++ .closing closer :: rest ∧
      Finishes vocabulary closers rest

/-- A problem with a closer: one that closes nothing, or one that is missing. -/
def Problem.concernsCloser (problem : Problem) : Bool :=
  problem.isStrayCloser || problem.isMissingCloser

variable {vocabulary : Vocabulary}

/-- Well-nested events do not start with a closer. -/
theorem not_wellNested_closing (closer : Text) (events : List BlockEvent) :
    ¬ WellNested vocabulary (.closing closer :: events) := by
  intro h
  cases h

/-- Well-nested events that start with an opener hold its closer after well-nested events. -/
theorem exists_of_wellNested_opening {opener closer : Text} {events : List BlockEvent}
    (hcloser : vocabulary.closerFor? opener = some closer)
    (h : WellNested vocabulary (.opening opener :: events)) :
    ∃ inner rest, WellNested vocabulary inner ∧ WellNested vocabulary rest ∧
      events = inner ++ .closing closer :: rest := by
  -- The index of `WellNested` has to be a variable before the derivation is taken apart.
  generalize hall : BlockEvent.opening opener :: events = all at h
  cases h with
  | nil => cases hall
  | block hrequired hinner hrest =>
    rw [List.cons_append] at hall
    cases hall
    rw [hcloser] at hrequired
    cases hrequired
    exact ⟨_, _, hinner, hrest, rfl⟩

/-- At the end of the events no block may be open. -/
theorem finishes_nil_iff {closers : List Text} :
    Finishes vocabulary closers [] ↔ closers = [] := by
  cases closers with
  | nil => simp [Finishes, WellNested.nil]
  | cons closer closers => simp [Finishes]

/-- An opener adds a block to those that have to be finished. -/
theorem finishes_opening_iff {opener closer : Text} {closers : List Text}
    {events : List BlockEvent} (hcloser : vocabulary.closerFor? opener = some closer) :
    Finishes vocabulary closers (.opening opener :: events) ↔
      Finishes vocabulary (closer :: closers) events := by
  cases closers with
  | nil =>
    constructor
    · intro h
      obtain ⟨inner, rest, hinner, hrest, heq⟩ := exists_of_wellNested_opening hcloser h
      exact ⟨inner, rest, hinner, heq, hrest⟩
    · rintro ⟨inner, rest, hinner, rfl, hrest⟩
      exact .block hcloser hinner hrest
  | cons outer closers =>
    constructor
    · rintro ⟨inner, rest, hinner, heq, hrest⟩
      -- The well-nested events before the outer closer start with the opener.
      cases inner with
      | nil => cases heq
      | cons event inner =>
        cases heq
        obtain ⟨inside, after, hinside, hafter, rfl⟩ := exists_of_wellNested_opening hcloser hinner
        exact ⟨inside, after ++ .closing outer :: rest, hinside, by simp, after, rest, hafter, rfl,
          hrest⟩
    · -- What finishes the new block and then the outer one is a block in front of the outer closer.
      rintro ⟨inner, rest, hinner, rfl, after, last, hafter, rfl, hlast⟩
      exact ⟨.opening opener :: inner ++ .closing closer :: after, last,
        .block hcloser hinner hafter, by simp, hlast⟩

/-- A closer finishes the innermost block, which must require it. -/
theorem finishes_closing_iff {closer required : Text} {closers : List Text}
    {events : List BlockEvent} :
    Finishes vocabulary (required :: closers) (.closing closer :: events) ↔
      required = closer ∧ Finishes vocabulary closers events := by
  constructor
  · rintro ⟨inner, rest, hinner, heq, hrest⟩
    cases inner with
    | nil =>
      cases heq
      exact ⟨rfl, hrest⟩
    | cons event inner =>
      -- Otherwise the well-nested events before the closer would start with it.
      cases heq
      exact absurd hinner (not_wellNested_closing closer inner)
  · rintro ⟨rfl, h⟩
    exact ⟨[], events, .nil, rfl, h⟩

/-- No problem in a list of diagnostics concerns a closer. -/
def CloserFree (diagnostics : List Diagnostic) : Prop :=
  ∀ diagnostic ∈ diagnostics, diagnostic.problem.concernsCloser = false

/-- Two lists are free of problems with closers exactly if each of them is. -/
theorem closerFree_append {first second : List Diagnostic} :
    CloserFree (first ++ second) ↔ CloserFree first ∧ CloserFree second := by
  simp only [CloserFree, List.mem_append]
  constructor
  · intro h
    exact ⟨fun diagnostic hmem => h diagnostic (.inl hmem),
      fun diagnostic hmem => h diagnostic (.inr hmem)⟩
  · rintro ⟨hfirst, hsecond⟩ diagnostic (hmem | hmem)
    · exact hfirst diagnostic hmem
    · exact hsecond diagnostic hmem

/-- Diagnostics that are neither about a stray nor about a missing closer concern no closer. -/
theorem closerFree_of_forall {diagnostics : List Diagnostic}
    (h : ∀ diagnostic ∈ diagnostics, diagnostic.problem.isStrayCloser = false ∧
      diagnostic.problem.isMissingCloser = false) : CloserFree diagnostics := by
  intro diagnostic hmem
  obtain ⟨hstray, hmissing⟩ := h diagnostic hmem
  rw [Problem.concernsCloser, hstray, hmissing]
  rfl

/-- Blocks that are never closed are reported, so that only an empty list of them is free of
problems with closers. -/
theorem closerFree_unclosed_iff {blocks : List OpenBlock} :
    CloserFree (blocks.reverse.map Blocks.unclosed) ↔ blocks = [] := by
  constructor
  · intro h
    cases blocks with
    | nil => rfl
    | cons block outer =>
      have hblock := h (Blocks.unclosed block) (by simp)
      simp [Blocks.unclosed, Problem.concernsCloser, Problem.isMissingCloser] at hblock
  · rintro rfl
    intro diagnostic hmem
    cases hmem

/-- The problems of an instruction by itself and of the instructions after it concern closers only
among the blocks. -/
theorem closerFree_scan_cons {blocks : List OpenBlock} {instruction : Instruction}
    {rest : List Instruction} :
    CloserFree (Blocks.scan vocabulary blocks (instruction :: rest)).1 ↔
      CloserFree (Blocks.step vocabulary blocks instruction).2 ∧
        CloserFree
          (Blocks.scan vocabulary (Blocks.step vocabulary blocks instruction).1 rest).1 := by
  have hremarks : CloserFree (instruction.remarks vocabulary) :=
    closerFree_of_forall fun _ => Blocks.remarks_concern_no_closer
  rw [Blocks.scan, closerFree_append, closerFree_append]
  exact ⟨fun h => ⟨h.1.2, h.2⟩, fun h => ⟨⟨hremarks, h.1⟩, h.2⟩⟩

/-- A scan finds no problem with closers and leaves no block open exactly if the events of the
instructions finish the blocks that are open before them. -/
theorem scan_clean_iff_finishes (vocabulary : Vocabulary) (blocks : List OpenBlock)
    (instructions : List Instruction) :
    CloserFree (Blocks.scan vocabulary blocks instructions).1 ∧
        (Blocks.scan vocabulary blocks instructions).2 = [] ↔
      Finishes vocabulary (blocks.map (·.closer))
        (instructions.filterMap fun instruction => vocabulary.event? instruction.name) := by
  -- The stack is general: an opener adds to it what the rest of the script has to finish.
  induction instructions generalizing blocks with
  | nil => simp [Blocks.scan, CloserFree, finishes_nil_iff]
  | cons instruction rest ih =>
    have hlast : (Blocks.scan vocabulary blocks (instruction :: rest)).2 =
        (Blocks.scan vocabulary (Blocks.step vocabulary blocks instruction).1 rest).2 := rfl
    rw [closerFree_scan_cons, hlast, and_assoc, ih]
    cases hevent : vocabulary.event? instruction.name with
    | none =>
      obtain ⟨hblocks, hfound⟩ := Blocks.step_of_event?_none hevent blocks
      simp only [List.filterMap_cons, hevent, hblocks]
      exact and_iff_right (closerFree_of_forall hfound)
    | some event =>
      simp only [List.filterMap_cons, hevent]
      cases event with
      | opening opener =>
        obtain ⟨closer, hcloser, hstep⟩ := Blocks.step_of_event?_opening hevent blocks
        rw [hstep, finishes_opening_iff hcloser]
        exact and_iff_right (closerFree_of_forall (by simp))
      | closing closer =>
        cases blocks with
        | nil =>
          rw [Blocks.step_nil_of_event?_closing hevent]
          constructor
          · rintro ⟨hfree, -⟩
            simp [CloserFree, Problem.concernsCloser, Problem.isStrayCloser] at hfree
          · intro h
            exact absurd h (not_wellNested_closing closer _)
        | cons block outer =>
          rw [List.map_cons, finishes_closing_iff]
          by_cases hfits : block.closer = closer
          · rw [Blocks.step_of_event?_closing hevent hfits]
            simp [CloserFree, hfits]
          · -- The scan goes on with the block still open, but has reported the closer.
            rw [Blocks.step_of_event?_closing_ne hevent hfits]
            simp [CloserFree, hfits, Problem.concernsCloser, Problem.isStrayCloser]

/-- A validation reports no unexpected, mismatched or missing closer exactly if the block events of
the script are well nested. -/
theorem no_closer_problem_iff_wellNested (fs : FileSystem) (vocabulary : Vocabulary) (path : Path)
    (text : Text) :
    (∀ diagnostic ∈ validate fs vocabulary path text,
        diagnostic.problem.concernsCloser = false) ↔
      WellNested vocabulary (blockEvents vocabulary text) := by
  have hsymbols : CloserFree (symbolProblems fs vocabulary path text) :=
    closerFree_of_forall fun _ => symbolProblems_concern_no_closer
  -- At first no block is open, and finishing no block is being well nested.
  have hscan := scan_clean_iff_finishes vocabulary [] (Instruction.ofText text)
  rw [Instruction.ofText_eq_before, Blocks.scan_before, ← Instruction.ofText_eq_before] at hscan
  calc CloserFree (validate fs vocabulary path text)
      ↔ (CloserFree ((List.range (Text.lines text).length).flatMap
            (Blocks.problemsAt vocabulary text)) ∧
          Blocks.openBefore vocabulary text (Text.lines text).length = []) ∧
          CloserFree (symbolProblems fs vocabulary path text) := by
        rw [validate_eq_run, closerFree_append, closerFree_append, closerFree_unclosed_iff]
    _ ↔ WellNested vocabulary (blockEvents vocabulary text) := by
        rw [and_iff_left hsymbols]
        exact hscan

end ScriptAnalysis
