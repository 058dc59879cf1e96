import Mathlib.Data.List.Find
import ScriptAnalysis.Proofs.Token.Layout
import ScriptAnalysis.Symbol.Rename

/-!
# Editing a line

An edit replaces the columns of its span by a new text. All columns are those of the line before the
edits, so that the line is read once from left to right: the new text of an edit is written where
the edit starts, and the characters in its columns are left out.

Edits that replace whole words by plain words, free of blanks, quotes and comments, neither join nor
divide words.

* `Text.editLine`: a line after its edits.
* `Edit.Fit.forall₂_codeTokens`: the code tokens of a line before and after its edits.
-/

namespace ScriptAnalysis

namespace Span

/-- Whether a span starts in column `column` of line number `line`. -/
def startsAt (span : Span) (line column : Nat) : Bool :=
  span.line = line && span.start = column

/-- Whether column `column` of line number `line` is one of the span's columns. -/
def holds (span : Span) (line column : Nat) : Bool :=
  span.line = line && (span.start ≤ column && column < span.stop)

end Span

namespace Text

/-- What the edits leave of line number `line`, from column `column` on. Of several edits that start
in one column, the first is written. -/
def editLine (edits : List Edit) (line : Nat) : (column : Nat) → Text → Text
  | _, [] => []
  | column, c :: rest =>
    ((edits.find? (·.location.span.startsAt line column)).map (·.newText)).getD [] ++
      ((if edits.any (·.location.span.holds line column) then [] else [c]) ++
        editLine edits line (column + 1) rest)

/-- Whether a text is a word that neither opens a quoted string nor starts a comment. -/
structure Plain (text : Text) : Prop where
  /-- There is a character. -/
  ne_nil : text ≠ []
  /-- No character is blank. -/
  not_blank : ∀ c ∈ text, isBlank c = false
  /-- No character is a quote. -/
  not_quote : ∀ c ∈ text, isQuote c = false
  /-- No character starts a comment. -/
  not_mark : ∀ c ∈ text, c ≠ '#'

/-- A plain text has no comment. -/
theorem Plain.commentColumn? {text : Text} (h : Plain text) : commentColumn? text = none := by
  have hfrom (state : QuoteState) (column : Nat) (text : Text) (hmark : ∀ c ∈ text, c ≠ '#') :
      commentColumnFrom? state column text = none := by
    induction text generalizing state column with
    | nil => rfl
    | cons c rest ih =>
      have hc : (c == '#') = false := beq_eq_false_iff_ne.2 (hmark c List.mem_cons_self)
      rw [commentColumnFrom?, hc, Bool.and_false, if_neg Bool.false_ne_true]
      exact ih _ _ fun other hother => hmark other (List.mem_cons_of_mem c hother)
  exact hfrom _ _ _ h.not_mark

/-- A line is edited part by part. -/
theorem editLine_append (edits : List Edit) (line column : Nat) (left right : Text) :
    editLine edits line column (left ++ right) =
      editLine edits line column left ++ editLine edits line (column + left.length) right := by
  induction left generalizing column with
  | nil => rfl
  | cons c rest ih =>
    have hlength : column + (c :: rest).length = column + 1 + rest.length := by
      rw [List.length_cons]
      omega
    rw [List.cons_append, editLine, editLine, ih, hlength]
    simp only [List.append_assoc]

/-- Columns without an edit stay as they are. -/
theorem editLine_eq_self {edits : List Edit} {line column : Nat} {text : Text}
    (h : ∀ edit ∈ edits, ∀ offset < text.length,
      edit.location.span.startsAt line (column + offset) = false ∧
        edit.location.span.holds line (column + offset) = false) :
    editLine edits line column text = text := by
  induction text generalizing column with
  | nil => rfl
  | cons c rest ih =>
    have hstart : edits.find? (·.location.span.startsAt line column) = none := by
      rw [List.find?_eq_none]
      intro edit hedit
      simpa using (h edit hedit 0 (by simp)).1
    have hholds : edits.any (·.location.span.holds line column) = false := by
      rw [List.any_eq_false]
      intro edit hedit
      simpa using (h edit hedit 0 (by simp)).2
    have hrest : editLine edits line (column + 1) rest = rest := by
      apply ih
      intro edit hedit offset hoffset
      have hcolumn : column + 1 + offset = column + (offset + 1) := by omega
      rw [hcolumn]
      exact h edit hedit (offset + 1) (by simpa using hoffset)
    rw [editLine, hstart, hholds, hrest]
    rfl

/-- Columns of an edit that starts before them are left out. -/
theorem editLine_eq_nil {edits : List Edit} {line column : Nat} {text : Text}
    (hstart : ∀ edit ∈ edits, ∀ offset < text.length,
      edit.location.span.startsAt line (column + offset) = false)
    (hholds : ∃ edit ∈ edits, ∀ offset < text.length,
      edit.location.span.holds line (column + offset) = true) :
    editLine edits line column text = [] := by
  induction text generalizing column with
  | nil => rfl
  | cons c rest ih =>
    have hnone : edits.find? (·.location.span.startsAt line column) = none := by
      rw [List.find?_eq_none]
      intro edit hedit
      simpa using hstart edit hedit 0 (by simp)
    obtain ⟨held, hheld, hcolumns⟩ := hholds
    have hany : edits.any (·.location.span.holds line column) = true :=
      List.any_eq_true.2 ⟨held, hheld, by simpa using hcolumns 0 (by simp)⟩
    have hcolumn (offset : Nat) : column + 1 + offset = column + (offset + 1) := by omega
    have hrest : editLine edits line (column + 1) rest = [] := by
      apply ih
      · intro edit hedit offset hoffset
        rw [hcolumn]
        exact hstart edit hedit (offset + 1) (by simpa using hoffset)
      · refine ⟨held, hheld, fun offset hoffset => ?_⟩
        rw [hcolumn]
        exact hcolumns (offset + 1) (by simpa using hoffset)
    rw [editLine, hnone, hany, hrest]
    rfl

end Text

/-- The text of a token after the edits of its line. -/
def Token.textAfter (edits : List Edit) (line : Nat) (token : Token) : Text :=
  ((edits.find? (·.location.span = token.span line)).map (·.newText)).getD token.text

/-- Whether the edits on line number `line` lie before column `column` or replace plain words among
`tokens`. -/
def Edit.OnWords (edits : List Edit) (line column : Nat) (tokens : List Token) : Prop :=
  ∀ edit ∈ edits, edit.location.span.line = line →
    (edit.location.span.start < column ∧ edit.location.span.stop ≤ column) ∨
      ∃ token ∈ tokens, edit.location.span = token.span line ∧ Text.Plain token.text

namespace Edit.OnWords

variable {edits : List Edit} {line column : Nat} {tokens : List Token}

/-- Edits on later words leave a column alone. -/
theorem editLine_cons (h : OnWords edits line column tokens)
    (hlater : ∀ token ∈ tokens, column < token.start) (c : Char) (rest : Text) :
    Text.editLine edits line column (c :: rest) =
      c :: Text.editLine edits line (column + 1) rest := by
  -- The column is edited as a text of its own.
  have hself : Text.editLine edits line column [c] = [c] := by
    apply Text.editLine_eq_self
    intro edit hedit offset hoffset
    have hzero : offset = 0 := by simpa using hoffset
    subst hzero
    simp only [Span.startsAt, Span.holds, Bool.and_eq_false_iff, decide_eq_false_iff_not,
      Nat.add_zero]
    by_cases hline : edit.location.span.line = line
    · rcases h edit hedit hline with hbefore | ⟨token, htoken, hspan, -⟩
      · omega
      · have hstart := hlater token htoken
        rw [hspan]
        simp only [Token.span]
        omega
    · exact ⟨.inl hline, .inl hline⟩
  rw [← List.singleton_append, Text.editLine_append, hself]
  rfl

/-- On its line, an edit lies before a word, replaces the word, or lies behind it. -/
theorem span_cases {word : Text}
    (h : OnWords edits line column (⟨word, column, column + word.length⟩ :: tokens))
    (hlater : ∀ token ∈ tokens, column + word.length < token.start) {edit : Edit}
    (hedit : edit ∈ edits) (hline : edit.location.span.line = line) :
    (edit.location.span.start < column ∧ edit.location.span.stop ≤ column) ∨
      edit.location.span = ⟨line, column, column + word.length⟩ ∨
      column + word.length < edit.location.span.start := by
  rcases h edit hedit hline with hbefore | ⟨token, htoken, hspan, -⟩
  · exact .inl hbefore
  · rcases List.mem_cons.1 htoken with rfl | htoken
    · exact .inr (.inl hspan)
    · refine .inr (.inr ?_)
      rw [hspan]
      exact hlater token htoken

/-- A word that no edit replaces stays as it is. -/
theorem editLine_word_eq_self {word : Text}
    (h : OnWords edits line column (⟨word, column, column + word.length⟩ :: tokens))
    (hlater : ∀ token ∈ tokens, column + word.length < token.start)
    (hnone : ∀ edit ∈ edits, edit.location.span ≠ ⟨line, column, column + word.length⟩) :
    Text.editLine edits line column word = word := by
  apply Text.editLine_eq_self
  intro edit hedit offset hoffset
  simp only [Span.startsAt, Span.holds, Bool.and_eq_false_iff, decide_eq_false_iff_not]
  by_cases hline : edit.location.span.line = line
  · rcases h.span_cases hlater hedit hline with hbefore | hword | hafter
    · omega
    · exact absurd hword (hnone edit hedit)
    · omega
  · exact ⟨.inl hline, .inl hline⟩

/-- The first edit that replaces a word is the first that starts with it. -/
theorem find?_startsAt {word : Text}
    (h : OnWords edits line column (⟨word, column, column + word.length⟩ :: tokens))
    (hlater : ∀ token ∈ tokens, column + word.length < token.start) :
    edits.find? (·.location.span.startsAt line column) =
      edits.find? (·.location.span = ⟨line, column, column + word.length⟩) := by
  apply List.find?_congr
  intro edit hedit
  rw [Span.startsAt, ← Bool.decide_and, decide_eq_decide]
  constructor
  · rintro ⟨hline, hcolumn⟩
    rcases h.span_cases hlater hedit hline with hbefore | hword | hafter
    · omega
    · exact hword
    · omega
  · intro hword
    rw [hword]
    exact ⟨rfl, rfl⟩

/-- A word that an edit replaces becomes the new text of the first such edit. -/
theorem editLine_word_eq_newText {word : Text}
    (h : OnWords edits line column (⟨word, column, column + word.length⟩ :: tokens))
    (hne : word ≠ []) (hlater : ∀ token ∈ tokens, column + word.length < token.start)
    {found : Edit}
    (hfound : edits.find? (·.location.span = ⟨line, column, column + word.length⟩) = some found) :
    Text.editLine edits line column word = found.newText := by
  have hmem : found ∈ edits := List.mem_of_find?_eq_some hfound
  have hword : found.location.span = ⟨line, column, column + word.length⟩ := by
    simpa using List.find?_some hfound
  have hfind := h.find?_startsAt hlater
  obtain ⟨c, rest, rfl⟩ := List.exists_cons_of_ne_nil hne
  have hheld (offset : Nat) (hoffset : offset < (c :: rest).length) :
      found.location.span.holds line (column + offset) = true := by
    rw [hword]
    simp only [Span.holds, decide_true, Bool.true_and, Bool.and_eq_true, decide_eq_true_eq]
    omega
  have hany : edits.any (·.location.span.holds line column) = true :=
    List.any_eq_true.2 ⟨found, hmem, hheld 0 (by simp)⟩
  -- After the first character nothing starts, and all is covered.
  have hrest : Text.editLine edits line (column + 1) rest = [] := by
    apply Text.editLine_eq_nil
    · intro edit hedit offset hoffset
      simp only [Span.startsAt, Bool.and_eq_false_iff, decide_eq_false_iff_not]
      by_cases hline : edit.location.span.line = line
      · rcases h.span_cases hlater hedit hline with hbefore | hword | hafter
        · omega
        · rw [hword]
          simp only
          omega
        · rw [List.length_cons] at hafter
          omega
      · exact .inl hline
    · refine ⟨found, hmem, fun offset hoffset => ?_⟩
      have hcolumn : column + 1 + offset = column + (offset + 1) := by omega
      rw [hcolumn]
      exact hheld (offset + 1) (by simpa using hoffset)
  rw [Text.editLine, hfind, hfound, hany, hrest]
  simp

/-- A word is replaced by the new text of its edit, if it has one. -/
theorem editLine_word {word : Text}
    (h : OnWords edits line column (⟨word, column, column + word.length⟩ :: tokens))
    (hne : word ≠ []) (hlater : ∀ token ∈ tokens, column + word.length < token.start) :
    Text.editLine edits line column word =
      Token.textAfter edits line ⟨word, column, column + word.length⟩ := by
  show _ = ((edits.find? (·.location.span = ⟨line, column, column + word.length⟩)).map
    (·.newText)).getD word
  cases hfound : edits.find? (·.location.span = ⟨line, column, column + word.length⟩) with
  | none =>
    rw [List.find?_eq_none] at hfound
    exact h.editLine_word_eq_self hlater fun edit hedit => by simpa using hfound edit hedit
  | some found => exact h.editLine_word_eq_newText hne hlater hfound

/-- A word is plain after an edit. -/
theorem textAfter_eq_or_plain (token : Token)
    (hplain : ∀ edit ∈ edits, Text.Plain edit.newText) :
    token.textAfter edits line = token.text ∨ Text.Plain (token.textAfter edits line) := by
  rw [Token.textAfter]
  cases hfound : edits.find? (·.location.span = token.span line) with
  | none => exact .inl rfl
  | some found => exact .inr (hplain found (List.mem_of_find?_eq_some hfound))

theorem succ (h : OnWords edits line column tokens) : OnWords edits line (column + 1) tokens := by
  intro edit hedit hline
  rcases h edit hedit hline with hbefore | hword
  · exact .inl (by omega)
  · exact .inr hword

/-- Behind a word, its edit lies before the column. -/
theorem tail {word : Text}
    (h : OnWords edits line column (⟨word, column, column + word.length⟩ :: tokens)) :
    OnWords edits line (column + word.length + 1) tokens := by
  intro edit hedit hline
  rcases h edit hedit hline with hbefore | ⟨token, htoken, hspan, hword⟩
  · exact .inl (by omega)
  · rcases List.mem_cons.1 htoken with rfl | hlater
    · rw [hspan]
      simp only [Token.span]
      exact .inl (by omega)
    · exact .inr ⟨token, hlater, hspan, hword⟩

/-- A word before a blank is replaced, and the blank stays. -/
theorem editLine_word_append {word : Text}
    (h : OnWords edits line column (⟨word, column, column + word.length⟩ :: tokens))
    (hne : word ≠ []) (hlater : ∀ token ∈ tokens, column + word.length < token.start)
    (c : Char) (rest : Text) :
    Text.editLine edits line column (word ++ c :: rest) =
      Token.textAfter edits line ⟨word, column, column + word.length⟩ ++
        c :: Text.editLine edits line (column + word.length + 1) rest := by
  rw [Text.editLine_append, h.editLine_word hne hlater]
  -- At the blank, the edit of the word lies before the column and the others behind it.
  have hblank : OnWords edits line (column + word.length) tokens := by
    intro edit hedit hline
    rcases h.tail edit hedit hline with hbefore | hword
    · rcases h edit hedit hline with hfirst | ⟨token, htoken, hspan, -⟩
      · exact .inl (by omega)
      · have hpos : 0 < word.length := List.length_pos_iff.2 hne
        rcases List.mem_cons.1 htoken with rfl | hothers
        · rw [hspan]
          simp only [Token.span]
          exact .inl (by omega)
        · have hstart := hlater token hothers
          rw [hspan] at hbefore
          simp only [Token.span] at hbefore
          omega
    · exact .inr hword
  rw [hblank.editLine_cons hlater]

end Edit.OnWords

namespace Token.Layout

variable {edits : List Edit} {line column : Nat} {text : Text} {tokens : List Token}

/-- The words of a line after its edits are the replaced words, in the same order. -/
theorem editLine (h : Layout column text tokens) (hedits : Edit.OnWords edits line column tokens)
    (hplain : ∀ edit ∈ edits, Text.Plain edit.newText) (moved : Nat) :
    ∃ tokens', Layout moved (Text.editLine edits line column text) tokens' ∧
      List.Forall₂ (fun before after => after.text = before.textAfter edits line)
        tokens tokens' := by
  induction h generalizing moved with
  | nil => exact ⟨[], .nil, .nil⟩
  -- The new columns are general, since replaced words may differ in length.
  | @blank column c rest tokens hblank hrest ih =>
    rw [hedits.editLine_cons fun token htoken => hrest.le_start htoken]
    obtain ⟨tokens', hlayout, hwords⟩ := ih hedits.succ (moved + 1)
    exact ⟨tokens', .blank hblank hlayout, hwords⟩
  | @last column word hne hkeeps =>
    rw [hedits.editLine_word hne (by simp)]
    refine ⟨_, .last ?_ ?_, .cons rfl .nil⟩
    · rcases Edit.OnWords.textAfter_eq_or_plain _ hplain with heq | hword
      · rw [heq]
        exact hne
      · exact hword.ne_nil
    · rcases Edit.OnWords.textAfter_eq_or_plain _ hplain with heq | hword
      · rw [heq]
        exact hkeeps
      · exact QuoteState.keeps_of_not_blank hword.not_blank
  | @word column word c rest tokens hne hkeeps hclosed hblank hrest ih =>
    rw [hedits.editLine_word_append hne fun token htoken => hrest.le_start htoken]
    generalize hafter : Token.textAfter edits line ⟨word, column, column + word.length⟩ = word'
    obtain ⟨tokens', hlayout, hwords⟩ := ih hedits.tail (moved + word'.length + 1)
    -- The replaced word is again a word after which no quoted string is open.
    have hword' : word' ≠ [] ∧ QuoteState.initial.Keeps word' ∧
        (QuoteState.initial.after word').opened = none := by
      rw [← hafter]
      rcases Edit.OnWords.textAfter_eq_or_plain _ hplain with heq | hword
      · rw [heq]
        exact ⟨hne, hkeeps, hclosed⟩
      · exact ⟨hword.ne_nil, QuoteState.keeps_of_not_blank hword.not_blank,
          QuoteState.opened_after_eq_none rfl hword.not_quote⟩
    exact ⟨_, .word hword'.1 hword'.2.1 hword'.2.2 hblank hlayout, .cons hafter.symm hwords⟩

/-- A line keeps its last character, or ends with a character that is not blank. -/
theorem getLast?_editLine (h : Layout column text tokens)
    (hedits : Edit.OnWords edits line column tokens)
    (hplain : ∀ edit ∈ edits, Text.Plain edit.newText) (hne : text ≠ []) :
    ∃ c, (Text.editLine edits line column text).getLast? = some c ∧
      (text.getLast? = some c ∨ Text.isBlank c = false) := by
  -- The end of what follows a blank is the blank itself, if nothing does.
  have hend (c : Char) {before after : Text} (hnil : before = [] → after = [])
      (hrest : before ≠ [] → ∃ d, after.getLast? = some d ∧
        (before.getLast? = some d ∨ Text.isBlank d = false)) :
      ∃ d, (c :: after).getLast? = some d ∧
        ((c :: before).getLast? = some d ∨ Text.isBlank d = false) := by
    by_cases hbefore : before = []
    · rw [hbefore, hnil hbefore]
      exact ⟨c, rfl, .inl rfl⟩
    · obtain ⟨d, hafter, hd⟩ := hrest hbefore
      refine ⟨d, ?_, ?_⟩
      · rw [List.getLast?_cons, hafter]
        rfl
      · rcases hd with hd | hd
        · rw [List.getLast?_cons, hd]
          exact .inl rfl
        · exact .inr hd
  induction h with
  | nil => exact absurd rfl hne
  | @blank column c rest tokens hblank hrest ih =>
    rw [hedits.editLine_cons fun token htoken => hrest.le_start htoken]
    exact hend c (fun hnil => by rw [hnil, Text.editLine]) (ih hedits.succ)
  | @last column word hword hkeeps =>
    rw [hedits.editLine_word hword (by simp)]
    rcases Edit.OnWords.textAfter_eq_or_plain _ hplain with heq | hafter
    · rw [heq]
      exact ⟨_, List.getLast?_eq_some_getLast hword, .inl (List.getLast?_eq_some_getLast hword)⟩
    · refine ⟨_, List.getLast?_eq_some_getLast hafter.ne_nil, .inr ?_⟩
      exact hafter.not_blank _ (List.getLast_mem hafter.ne_nil)
  | @word column word c rest tokens hword hkeeps hclosed hblank hrest ih =>
    rw [hedits.editLine_word_append hword fun token htoken => hrest.le_start htoken]
    rw [List.getLast?_append_of_ne_nil _ (List.cons_ne_nil _ _),
      List.getLast?_append_of_ne_nil _ (List.cons_ne_nil _ _)]
    exact hend c (fun hnil => by rw [hnil, Text.editLine]) (ih hedits.tail)

end Token.Layout

/-- Which words are code does not depend on how they are spelled, as long as their comments stay. -/
theorem Token.forall₂_codeOf {after : Token → Text} {tokens tokens' : List Token}
    (h : List.Forall₂ (fun token token' => token'.text = after token) tokens tokens')
    (hcomment : ∀ token ∈ tokens, commentColumn? (after token) = commentColumn? token.text) :
    List.Forall₂ (fun token token' => token'.text = after token) (codeOf tokens)
      (codeOf tokens') := by
  induction h with
  | nil => exact .nil
  | @cons token token' tokens tokens' htext hrest ih =>
    have hfirst : commentColumn? token'.text = commentColumn? token.text := by
      rw [htext]
      exact hcomment token List.mem_cons_self
    have hothers := ih fun other hother => hcomment other (List.mem_cons_of_mem token hother)
    -- Both lists are cut at the same word, as the comments of their words are alike.
    rw [codeOf, codeOf, hfirst]
    split
    · exact .cons htext hothers
    · exact .nil
    · exact .cons htext .nil

/-- Whether the edits on line number `line`, whose characters are `raw`, replace plain code tokens
by plain words. -/
structure Edit.Fit (edits : List Edit) (line : Nat) (raw : Text) : Prop where
  /-- Each edit on the line has the span of a plain code token. -/
  token : ∀ edit ∈ edits, edit.location.span.line = line →
    ∃ token ∈ codeTokens raw, edit.location.span = token.span line ∧ Text.Plain token.text
  /-- Each new text is plain. -/
  newText : ∀ edit ∈ edits, Text.Plain edit.newText

namespace Edit.Fit

variable {edits : List Edit} {line : Nat} {raw : Text}

theorem onWords (h : Edit.Fit edits line raw) : OnWords edits line 0 (Token.scan raw) := by
  intro edit hedit hline
  obtain ⟨token, htoken, hspan, hplain⟩ := h.token edit hedit hline
  exact .inr ⟨token, mem_scan_of_mem_codeTokens htoken, hspan, hplain⟩

/-- The code tokens of a line after its edits are the replaced code tokens, in the same order. -/
theorem forall₂_codeTokens (h : Edit.Fit edits line raw) :
    List.Forall₂ (fun before after => after.text = before.textAfter edits line)
      (codeTokens raw) (codeTokens (Text.editLine edits line 0 raw)) := by
  obtain ⟨tokens', hlayout, hwords⟩ :=
    (Token.layout_scan raw).editLine h.onWords h.newText 0
  rw [codeTokens_eq_codeOf, codeTokens_eq_codeOf, Token.scan, Token.scan, hlayout.scanFrom_eq]
  refine Token.forall₂_codeOf hwords fun token htoken => ?_
  -- A replaced word is plain before and after, and so without a comment.
  rw [Token.textAfter]
  cases hfound : edits.find? (·.location.span = token.span line) with
  | none => rfl
  | some found =>
    have hmem := List.mem_of_find?_eq_some hfound
    have hspan : found.location.span = token.span line := by
      simpa using List.find?_some hfound
    obtain ⟨other, hother, hspan', hplain⟩ := h.token found hmem (by rw [hspan]; rfl)
    have heq : other = token :=
      Token.eq_of_span_eq (mem_scan_of_mem_codeTokens hother) htoken (hspan'.symm.trans hspan)
    rw [← heq, hplain.commentColumn?]
    exact (h.newText found hmem).commentColumn?

end Edit.Fit

end ScriptAnalysis
