import ScriptAnalysis.CodeLine
import ScriptAnalysis.Proofs.Token.Columns
import ScriptAnalysis.Validation.Validate

/-!
# Instructions and lines of code

The validator cuts the comment from a line before it divides the line into tokens, whereas a line of
code is divided first. The two differ only where a comment follows code, and every such comment is
reported. Without such a report, the instructions of a text are its lines of code.

* `scan_codeText_ne_nil`: a token stands before a comment that is not the first thing on its line.
* `Instruction.ofText_eq_map_ofCode`: the instructions of a text without comments behind code.
* `Instruction.comment_eq_none_of_validate`: there are none if the validator reports none.
-/

namespace ScriptAnalysis

/-- A comment starts with its mark. -/
theorem getElem?_of_commentColumnFrom? {state : QuoteState} {column found : Nat} {text : Text}
    (h : commentColumnFrom? state column text = some found) :
    ∃ offset, found = column + offset ∧ text[offset]? = some '#' := by
  induction text generalizing state column with
  | nil => cases h
  | cons c rest ih =>
    rw [commentColumnFrom?] at h
    split at h
    · next hmark =>
      cases h
      simp only [Bool.and_eq_true, beq_iff_eq] at hmark
      exact ⟨0, rfl, by rw [List.getElem?_cons_zero, hmark.2]⟩
    · obtain ⟨offset, hfound, hmark⟩ := ih h
      exact ⟨offset + 1, by omega, by rwa [List.getElem?_cons_succ]⟩

/-- A comment that is not the first thing on its line has something that can be seen before it. -/
theorem exists_visible_lt_commentColumn? {raw : Text} {column : Nat}
    (h : commentColumn? raw = some column) (hne : commentColumn? raw ≠ visibleColumn? raw) :
    ∃ first c, first < column ∧ raw[first]? = some c ∧ Text.isBlank c = false := by
  obtain ⟨offset, hoffset, hmark⟩ := getElem?_of_commentColumnFrom? h
  obtain rfl : column = offset := by omega
  obtain ⟨hlength, hmark⟩ := List.getElem?_eq_some_iff.1 hmark
  have hvisible : Text.isBlank '#' = false := by decide
  -- The mark of the comment can be seen, so that the first thing to be seen is not behind it.
  cases hfirst : visibleColumn? raw with
  | none =>
    rw [visibleColumn?, List.findIdx?_eq_none_iff] at hfirst
    have hblank := hfirst _ (List.getElem_mem hlength)
    rw [hmark, hvisible] at hblank
    cases hblank
  | some first =>
    rw [h, hfirst] at hne
    rw [visibleColumn?, List.findIdx?_eq_some_iff_getElem] at hfirst
    obtain ⟨hlt, hseen, hbefore⟩ := hfirst
    refine ⟨first, raw[first], ?_, List.getElem?_eq_getElem hlt, by simpa using hseen⟩
    rcases Nat.lt_trichotomy first column with hless | heq | hgreater
    · exact hless
    · exact absurd (congrArg some heq.symm) hne
    · have hblank := hbefore column hgreater
      rw [hmark, hvisible] at hblank
      exact absurd rfl hblank

/-- The part of a line before a comment that is not the first thing on the line holds a token. -/
theorem scan_codeText_ne_nil {raw : Text} {column : Nat} (h : commentColumn? raw = some column)
    (hne : commentColumn? raw ≠ visibleColumn? raw) : Token.scan (codeText raw) ≠ [] := by
  obtain ⟨first, c, hlt, hc, hseen⟩ := exists_visible_lt_commentColumn? h hne
  have hkept : QuoteState.initial.KeepsAt (codeText raw) first := by
    refine ⟨c, ?_, .inr hseen⟩
    rw [codeText, h, List.getElem?_take_of_lt hlt, hc]
  obtain ⟨token, htoken, -⟩ :=
    (Token.covers_scanFrom_iff .initial 0 (codeText raw) first).2
      ⟨first, (Nat.zero_add first).symm, hkept⟩
  exact List.ne_nil_of_mem htoken

namespace Instruction

/-- The instruction on a line of code without a comment. -/
def ofCode (code : CodeLine) : Instruction :=
  ⟨code.line, none, code.command, code.argument?⟩

@[simp]
theorem name_ofCode (code : CodeLine) : (ofCode code).name = code.commandName :=
  rfl

@[simp]
theorem argument_ofCode (code : CodeLine) : (ofCode code).argument = code.argument? :=
  rfl

/-- Without a comment behind code, the instruction of a line is its line of code. -/
theorem ofLine?_eq_map_ofCode {line : Nat} {raw : Text}
    (h : ∀ instruction, ofLine? line raw = some instruction → instruction.comment = none) :
    ofLine? line raw = (CodeLine.ofLine? line raw).map ofCode := by
  rw [CodeLine.ofLine?, codeTokens]
  rw [ofLine?] at h ⊢
  split
  · rfl
  · next hne =>
    rw [if_neg hne] at h
    cases hcomment : commentColumn? raw with
    | some column =>
      -- There would be an instruction with a comment.
      exfalso
      obtain ⟨command, arguments, htokens⟩ :=
        List.exists_cons_of_ne_nil (scan_codeText_ne_nil hcomment hne)
      rw [htokens] at h
      have hnone := h _ rfl
      rw [hcomment] at hnone
      cases hnone
    | none =>
      have hcode : codeText raw = raw := by rw [codeText, hcomment]
      rw [hcode]
      cases Token.scan raw <;> rfl

/-- Without comments behind code, the instructions of a text are its lines of code. -/
theorem ofText_eq_map_ofCode {text : Text}
    (h : ∀ instruction ∈ ofText text, instruction.comment = none) :
    ofText text = (codeLines text).map ofCode := by
  rw [codeLines, List.map_filterMap]
  apply List.filterMap_congr
  rintro ⟨raw, line⟩ hraw
  refine ofLine?_eq_map_ofCode fun instruction hinstruction => ?_
  exact h instruction (List.mem_filterMap.2 ⟨(raw, line), hraw, hinstruction⟩)

/-- The problems that an instruction has by itself are among those of the script. -/
theorem mem_scan_of_mem_remarks {vocabulary : Vocabulary} (blocks : List OpenBlock)
    {instructions : List Instruction} {instruction : Instruction} {diagnostic : Diagnostic}
    (hinstruction : instruction ∈ instructions)
    (h : diagnostic ∈ instruction.remarks vocabulary) :
    diagnostic ∈ (Blocks.scan vocabulary blocks instructions).1 := by
  induction instructions generalizing blocks with
  | nil => cases hinstruction
  | cons first rest ih =>
    rw [Blocks.scan]
    rcases List.mem_cons.1 hinstruction with rfl | hrest
    · exact List.mem_append_left _ (List.mem_append_left _ h)
    · exact List.mem_append_right _ (ih _ hrest)

/-- If the validator reports no comment behind code, there is none. -/
theorem comment_eq_none_of_validate {fs : FileSystem} {vocabulary : Vocabulary} {path : Path}
    {text : Text}
    (h : ∀ diagnostic ∈ validate fs vocabulary path text, diagnostic.problem ≠ .inlineComment) :
    ∀ instruction ∈ ofText text, instruction.comment = none := by
  intro instruction hinstruction
  cases hcomment : instruction.comment with
  | none => rfl
  | some span =>
    have hremark : Diagnostic.report span .inlineComment ∈ instruction.remarks vocabulary := by
      rw [remarks, hcomment]
      exact List.mem_append_left _ (List.mem_append_left _ List.mem_cons_self)
    have hmem := mem_scan_of_mem_remarks [] hinstruction hremark
    exact absurd rfl (h _ (List.mem_append_left _ (List.mem_append_left _
      (List.mem_append_left _ hmem))))

end Instruction

end ScriptAnalysis
