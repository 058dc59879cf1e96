import ScriptAnalysis.CodeLine
import ScriptAnalysis.Proofs.Text.LetterCase
import ScriptAnalysis.Validation.Instruction

/-!
# Tokens and the case of letters

Where the tokens and the comment of a line are does not depend on the case of its letters. Dividing
a folded line gives the folded tokens, and so on to the lines of code and the instructions of a
text.

* `Token.fold`, `CodeLine.fold`, `Instruction.fold`: with the letters of the tokens folded.
* `Token.scan_fold`, `codeTokens_fold`: the tokens of a folded line.
* `codeLines_fold`, `Instruction.ofText_fold`: the lines of code and the instructions of a folded
  text.
-/

namespace ScriptAnalysis

namespace QuoteState

/-- Whether a state that is inside a quoted string knows by which quote it was opened. -/
def OpenedByQuote (state : QuoteState) : Prop :=
  ∀ quote, state.opened = some quote → isQuote quote = true

theorem openedByQuote_initial : initial.OpenedByQuote := by
  intro quote hquote
  cases hquote

/-- A scan opens strings by quotes only. -/
theorem OpenedByQuote.next {state : QuoteState} (h : state.OpenedByQuote) (c : Char) :
    (state.next c).OpenedByQuote := by
  intro quote hquote
  simp only [QuoteState.next] at hquote
  split at hquote
  · next opened hopened =>
    split at hquote
    · cases hquote
    · cases hquote
      exact h _ hopened
  · split at hquote
    · next hc =>
      cases hquote
      exact hc
    · cases hquote

/-- Folding a character changes neither whether it is quoted nor what follows. -/
theorem quotes_toLower (state : QuoteState) (c : Char) :
    state.quotes c.toLower = state.quotes c := by
  rw [quotes, quotes, isQuote_toLower]

theorem next_toLower {state : QuoteState} (h : state.OpenedByQuote) (c : Char) :
    state.next c.toLower = state.next c := by
  have hescape : (c.toLower == '\\') = (c == '\\') := beq_toLower (by decide)
  rw [next, next, hescape]
  cases hopened : state.opened with
  | some quote =>
    -- A quote is no letter.
    have hquote : c.toLower = quote ↔ c = quote := by
      rcases Bool.or_eq_true_iff.1 (h quote hopened) with heq | heq
      · rw [beq_iff_eq.1 heq]
        exact toLower_eq_iff (by decide)
      · rw [beq_iff_eq.1 heq]
        exact toLower_eq_iff (by decide)
    simp only [hquote]
  | none =>
    simp only [isQuote_toLower]
    cases hc : isQuote c with
    | false => rfl
    | true =>
      have hsame : c.toLower = c := by
        rcases Bool.or_eq_true_iff.1 hc with heq | heq <;> rw [beq_iff_eq.1 heq] <;> rfl
      rw [hsame]

end QuoteState

/-! ## The tokens of a line -/

namespace Token

/-- The token with its letters folded. -/
def fold (token : Token) : Token :=
  { token with text := Text.fold token.text }

@[simp]
theorem start_fold (token : Token) : token.fold.start = token.start :=
  rfl

theorem extend_fold (c : Char) (column : Nat) (tokens : List Token) :
    extend c.toLower column (tokens.map fold) = (extend c column tokens).map fold := by
  cases tokens with
  | nil => rfl
  | cons first others =>
    rw [List.map_cons, extend, extend, start_fold]
    split <;> rfl

/-- The tokens of a folded text are the folded tokens. -/
theorem scanFrom_fold {state : QuoteState} (h : state.OpenedByQuote) (column : Nat) (text : Text) :
    scanFrom state column (Text.fold text) = (scanFrom state column text).map fold := by
  induction text generalizing state column with
  | nil => rfl
  | cons c rest ih =>
    -- No test of the scan tells a letter from its other case.
    simp only [Text.fold_cons, scanFrom, QuoteState.quotes_toLower, QuoteState.next_toLower h,
      isBlank_toLower, ih (h.next c)]
    split
    · exact extend_fold c column _
    · rfl

theorem scan_fold (line : Text) : scan (Text.fold line) = (scan line).map fold :=
  scanFrom_fold QuoteState.openedByQuote_initial 0 line

end Token

/-- Folding leaves the comment where it is. -/
theorem commentColumnFrom?_fold {state : QuoteState} (h : state.OpenedByQuote) (column : Nat)
    (text : Text) :
    commentColumnFrom? state column (Text.fold text) = commentColumnFrom? state column text := by
  induction text generalizing state column with
  | nil => rfl
  | cons c rest ih =>
    have hmark : (c.toLower == '#') = (c == '#') := beq_toLower (by decide)
    simp only [Text.fold_cons, commentColumnFrom?, QuoteState.quotes_toLower, hmark,
      QuoteState.next_toLower h, ih (h.next c)]

@[simp]
theorem commentColumn?_fold (raw : Text) : commentColumn? (Text.fold raw) = commentColumn? raw :=
  commentColumnFrom?_fold QuoteState.openedByQuote_initial 0 raw

@[simp]
theorem visibleColumn?_fold (raw : Text) : visibleColumn? (Text.fold raw) = visibleColumn? raw := by
  simp [visibleColumn?, Text.fold, List.findIdx?_map, Function.comp_def]

/-- The code tokens of a folded line are the folded code tokens. -/
theorem codeTokens_fold (raw : Text) :
    codeTokens (Text.fold raw) = (codeTokens raw).map Token.fold := by
  rw [codeTokens, codeTokens, commentColumn?_fold, visibleColumn?_fold, Token.scan_fold]
  split
  · rfl
  · split
    · rw [List.filter_map]
      rfl
    · rfl

/-- The part before the comment of a folded line is folded. -/
theorem codeText_fold (raw : Text) : codeText (Text.fold raw) = Text.fold (codeText raw) := by
  rw [codeText, codeText, commentColumn?_fold]
  split
  · exact List.map_take.symm
  · rfl

/-! ## Lines of code -/

namespace CodeLine

/-- The line of code with the letters of its tokens folded. -/
def fold (code : CodeLine) : CodeLine :=
  ⟨code.line, code.command.fold, code.arguments.map Token.fold⟩

@[simp]
theorem line_fold (code : CodeLine) : code.fold.line = code.line :=
  rfl

theorem tokens_fold (code : CodeLine) : code.fold.tokens = code.tokens.map Token.fold :=
  rfl

@[simp]
theorem commandName_fold (code : CodeLine) : code.fold.commandName = code.commandName :=
  Text.lowercase_fold _

theorem argument?_fold (code : CodeLine) :
    code.fold.argument? = code.argument?.map Token.fold :=
  List.head?_map

theorem ofLine?_fold (line : Nat) (raw : Text) :
    ofLine? line (Text.fold raw) = (ofLine? line raw).map fold := by
  rw [ofLine?, ofLine?, codeTokens_fold]
  cases codeTokens raw <;> rfl

end CodeLine

/-- The lines of code of a folded text are the folded lines of code. -/
theorem codeLines_fold (text : Text) :
    codeLines (Text.fold text) = (codeLines text).map CodeLine.fold := by
  rw [codeLines, codeLines, Text.lines_fold, List.zipIdx_map, List.filterMap_map,
    List.map_filterMap]
  exact List.filterMap_congr fun (raw, line) _ => CodeLine.ofLine?_fold line raw

/-! ## Instructions -/

namespace Instruction

/-- The instruction with the letters of its tokens folded. -/
def fold (instruction : Instruction) : Instruction :=
  { instruction with
    command := instruction.command.fold
    argument := instruction.argument.map Token.fold }

@[simp]
theorem line_fold (instruction : Instruction) : instruction.fold.line = instruction.line :=
  rfl

@[simp]
theorem commandSpan_fold (instruction : Instruction) :
    instruction.fold.commandSpan = instruction.commandSpan :=
  rfl

@[simp]
theorem name_fold (instruction : Instruction) : instruction.fold.name = instruction.name :=
  Text.lowercase_fold _

theorem ofLine?_fold (line : Nat) (raw : Text) :
    ofLine? line (Text.fold raw) = (ofLine? line raw).map fold := by
  rw [ofLine?, ofLine?, commentColumn?_fold, visibleColumn?_fold, codeText_fold, Token.scan_fold,
    Text.length_fold]
  split
  · rfl
  · cases Token.scan (codeText raw) with
    | nil => rfl
    | cons command arguments => simp [fold, List.head?_map]

/-- The instructions of a folded text are the folded instructions. -/
theorem ofText_fold (text : Text) : ofText (Text.fold text) = (ofText text).map fold := by
  rw [ofText, ofText, Text.lines_fold, List.zipIdx_map, List.filterMap_map, List.map_filterMap]
  exact List.filterMap_congr fun (raw, line) _ => ofLine?_fold line raw

end Instruction

end ScriptAnalysis
