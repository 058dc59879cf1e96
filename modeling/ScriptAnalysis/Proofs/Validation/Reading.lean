import ScriptAnalysis.Proofs.Token.Cut
import ScriptAnalysis.Proofs.Validation.Comments
import ScriptAnalysis.Proofs.Validation.Run

/-!
# Two readings of a line

The validator divides the part of a line before its comment, whereas the code tokens of a line come
from a division of the whole line. The two readings differ in one way only: a comment that is glued
to the last code token is cut from it by the validator.

* `SameButComment`: how the tokens of the two readings correspond.
* `scan_codeText`: the tokens before the comment as the code tokens without it.
* `readings_agree`: the two readings of every line.
* `Instruction.map_name_ofLine?`: the command of a line as its first token before the comment.
* `lineEvent?`: the block event that this token makes.
-/

namespace ScriptAnalysis

/-- Whether `read` are the tokens `code`, except that a comment of the line is cut from the last of
them. -/
structure SameButComment (raw : Text) (read code : List Token) : Prop where
  /-- There are tokens. -/
  ne_nil : read ≠ []
  /-- Both readings have the same number of tokens. -/
  length_eq : read.length = code.length
  /-- The tokens start in the same columns. -/
  map_start_eq : read.map (·.start) = code.map (·.start)
  /-- The tokens before the last one are the same. -/
  getElem?_eq : ∀ i, i + 1 < code.length → read[i]? = code[i]?
  /-- If the last token holds the column where the comment starts, it is cut there. -/
  last_cut : ∀ token column, code.getLast? = some token → StartsComment raw column →
    token.covers column = true →
    read.getLast? = some ⟨token.text.take (column - token.start), token.start, column⟩
  /-- Otherwise the last token is the same too. -/
  last_eq : ∀ token, code.getLast? = some token →
    (∀ column, StartsComment raw column → token.covers column = false) →
    read.getLast? = some token

/-- A line has its comment in front, or nothing at all to be seen, if and only if the column of its
comment is the first one to be seen. -/
theorem commentColumn?_eq_visibleColumn?_iff {raw : Text} :
    commentColumn? raw = visibleColumn? raw ↔
      (∀ c ∈ raw, Text.isBlank c = true) ∨
        ∃ column, StartsComment raw column ∧ visibleColumn? raw = some column := by
  constructor
  · intro h
    cases hvisible : visibleColumn? raw with
    | none =>
      rw [visibleColumn?, List.findIdx?_eq_none_iff] at hvisible
      exact .inl fun c hc => by simpa using hvisible c hc
    | some column =>
      rw [hvisible, commentColumn?_eq_some_iff] at h
      exact .inr ⟨column, h, rfl⟩
  · rintro (hblank | ⟨column, hcolumn, hvisible⟩)
    · have hvisible : visibleColumn? raw = none := by
        rw [visibleColumn?, List.findIdx?_eq_none_iff]
        intro c hc
        rw [hblank c hc, Bool.not_true]
      rw [hvisible, Option.eq_none_iff_forall_ne_some]
      -- The mark of a comment can be seen.
      intro column hcolumn
      have hmark := (commentColumn?_eq_some_iff.1 hcolumn).mark
      exact absurd (hblank '#' (List.mem_of_getElem? hmark)) (by decide)
    · rw [hvisible, commentColumn?_eq_some_iff]
      exact hcolumn

section Tokens

variable {raw : Text}

/-- The token of a line without the comment of the line, if this is glued to the token. -/
def cutComment (raw : Text) : Token → Token :=
  match commentColumn? raw with
  | some column => Token.cutAt column
  | none => id

@[simp]
theorem start_cutComment (raw : Text) (token : Token) :
    (cutComment raw token).start = token.start := by
  rw [cutComment]
  cases commentColumn? raw with
  | some column => exact Token.start_cutAt column token
  | none => rfl

/-- A token that holds no comment is left as it is. -/
theorem cutComment_eq_self {token : Token}
    (h : ∀ column, StartsComment raw column → token.covers column = false) :
    cutComment raw token = token := by
  rw [cutComment]
  cases hcomment : commentColumn? raw with
  | some column => exact Token.cutAt_eq_self (h column (commentColumn?_eq_some_iff.1 hcomment))
  | none => rfl

/-- On a line with code, the validator reads a token. -/
theorem scan_codeText_ne_nil_of_ne (hne : commentColumn? raw ≠ visibleColumn? raw) :
    Token.scan (codeText raw) ≠ [] := by
  cases hcomment : commentColumn? raw with
  | some column => exact scan_codeText_ne_nil hcomment hne
  | none =>
    -- Without a comment, the line has something to be seen.
    obtain ⟨column, hvisible⟩ := Option.ne_none_iff_exists'.1 (hcomment ▸ hne).symm
    rw [visibleColumn?, List.findIdx?_eq_some_iff_getElem] at hvisible
    obtain ⟨hlt, hseen, -⟩ := hvisible
    rw [codeText, hcomment]
    exact Token.scan_ne_nil (List.getElem_mem hlt) (by simpa using hseen)

/-- The tokens before the comment are the code tokens without the comment. -/
theorem scan_codeText (hne : commentColumn? raw ≠ visibleColumn? raw) :
    Token.scan (codeText raw) = (codeTokens raw).map (cutComment raw) := by
  rw [codeText, codeTokens, if_neg hne, cutComment]
  cases commentColumn? raw with
  | none => exact (List.map_id _).symm
  | some column => exact Token.scan_take raw column

/-- The code tokens before the last one end before the comment. -/
theorem covers_eq_false_of_lt {column i : Nat} {token : Token}
    (hcolumn : StartsComment raw column) (htoken : (codeTokens raw)[i]? = some token)
    (hi : i + 1 < (codeTokens raw).length) : token.covers column = false := by
  obtain ⟨hlt, rfl⟩ := List.getElem?_eq_some_iff.1 htoken
  have hsorted := (Token.pairwise_scan raw).sublist (codeTokens_sublist raw)
  have hapart := List.pairwise_iff_getElem.1 hsorted i (i + 1) hlt hi (Nat.lt_succ_self i)
  have hnext : (codeTokens raw)[i + 1].start < column := by
    have hmem := List.getElem_mem hi
    generalize (codeTokens raw)[i + 1] = next at hmem
    rw [codeTokens, commentColumn?_eq_some_iff.2 hcolumn] at hmem
    split at hmem
    · cases hmem
    · simpa using (List.mem_filter.1 hmem).2
  rw [← Bool.not_eq_true, Token.covers_iff]
  omega

/-- The tokens of the two readings of a line with code. -/
theorem sameButComment_scan (hne : commentColumn? raw ≠ visibleColumn? raw) :
    SameButComment raw (Token.scan (codeText raw)) (codeTokens raw) := by
  have hnil := scan_codeText_ne_nil_of_ne hne
  rw [scan_codeText hne] at hnil ⊢
  refine ⟨hnil, List.length_map _, by simp [Function.comp_def], fun i hi => ?_, ?_, ?_⟩
  · have htoken := List.getElem?_eq_getElem (Nat.lt_of_succ_lt hi)
    rw [List.getElem?_map, htoken, Option.map_some, cutComment_eq_self]
    exact fun column hcolumn => covers_eq_false_of_lt hcolumn htoken hi
  · intro token column hlast hcolumn hcovers
    rw [List.getLast?_map, hlast, Option.map_some, cutComment, commentColumn?_eq_some_iff.2 hcolumn]
    exact congrArg some (Token.cutAt_of_covers hcovers)
  · intro token hlast hfree
    rw [List.getLast?_map, hlast, Option.map_some, cutComment_eq_self hfree]

end Tokens

/-- The two readings of a line. On a line with something to be seen before its comment, the tokens
that the validator reads are the code tokens, except that a comment glued to the last one is cut
from it, and the first two of them are the validator's command and argument. Every other line has no
code tokens, and the validator reads no instruction on it. -/
theorem readings_agree (raw : Text) :
    ((∃ c ∈ raw, Text.isBlank c = false) →
      (∀ column, StartsComment raw column → visibleColumn? raw ≠ some column) →
      SameButComment raw (Token.scan (codeText raw)) (codeTokens raw) ∧
        ∀ line, ∃ command arguments, Token.scan (codeText raw) = command :: arguments ∧
          Instruction.ofLine? line raw =
            some ⟨line, (commentColumn? raw).map fun column => ⟨line, column, raw.length⟩, command,
              arguments.head?⟩) ∧
    (((∀ c ∈ raw, Text.isBlank c = true) ∨
        ∃ column, StartsComment raw column ∧ visibleColumn? raw = some column) →
      codeTokens raw = [] ∧ ∀ line, Instruction.ofLine? line raw = none) := by
  constructor
  · rintro ⟨c, hc, hvisible⟩ hbehind
    have hne : commentColumn? raw ≠ visibleColumn? raw := by
      rw [Ne, commentColumn?_eq_visibleColumn?_iff]
      rintro (hblank | ⟨column, hcolumn, hfirst⟩)
      · rw [hblank c hc] at hvisible
        cases hvisible
      · exact hbehind column hcolumn hfirst
    refine ⟨sameButComment_scan hne, fun line => ?_⟩
    obtain ⟨command, arguments, htokens⟩ :=
      List.exists_cons_of_ne_nil (scan_codeText_ne_nil_of_ne hne)
    refine ⟨command, arguments, htokens, ?_⟩
    rw [Instruction.ofLine?, if_neg hne, htokens]
  · intro hidle
    rw [← commentColumn?_eq_visibleColumn?_iff] at hidle
    refine ⟨by rw [codeTokens, if_pos hidle], fun line => ?_⟩
    rw [Instruction.ofLine?, if_pos hidle]

/-- A line with a quoted mark and a comment glued to its last code token. -/
theorem readings_agree_sample :
    let raw := "log \"#1\" it#'s here".toList
    (∃ c ∈ raw, Text.isBlank c = false) ∧ StartsComment raw 11 ∧ visibleColumn? raw = some 0 ∧
      codeTokens raw =
        [⟨"log".toList, 0, 3⟩, ⟨"\"#1\"".toList, 4, 8⟩, ⟨"it#'s here".toList, 9, 19⟩] ∧
      (Token.scan (codeText raw)).length = 3 ∧
      (Token.scan (codeText raw))[1]? = some ⟨"\"#1\"".toList, 4, 8⟩ ∧
      (Token.scan (codeText raw)).getLast? = some ⟨"it".toList, 9, 11⟩ ∧
      codeTokens " \t# it's".toList = [] := by
  intro raw
  have hcomment : commentColumn? raw = some 11 := by decide +kernel
  have hvisible : visibleColumn? raw = some 0 := by decide +kernel
  have hcode : codeTokens raw =
      [⟨"log".toList, 0, 3⟩, ⟨"\"#1\"".toList, 4, 8⟩, ⟨"it#'s here".toList, 9, 19⟩] := by
    decide +kernel
  have hstarts := commentColumn?_eq_some_iff.1 hcomment
  obtain ⟨hsame, -⟩ := (readings_agree raw).1 ⟨'l', by decide +kernel, by decide +kernel⟩ (by
    intro column hcolumn hfirst
    rw [← commentColumn?_eq_some_iff, hcomment] at hcolumn
    rw [← hcolumn] at hfirst
    exact absurd (hvisible.symm.trans hfirst) (by decide))
  have hempty := ((readings_agree " \t# it's".toList).2
    (commentColumn?_eq_visibleColumn?_iff.1 (by decide +kernel))).1
  refine ⟨⟨'l', by decide +kernel, by decide +kernel⟩, hstarts, hvisible, hcode, ?_, ?_, ?_, hempty⟩
  · rw [hsame.length_eq, hcode]
    rfl
  · rw [hsame.getElem?_eq 1 (by rw [hcode]; decide), hcode]
    rfl
  · exact hsame.last_cut ⟨"it#'s here".toList, 9, 19⟩ 11 (by rw [hcode]; rfl) hstarts (by decide)

/-! ### The command of a line and its block event -/

/-- If nothing is to be seen before the comment, what stands there is blank. -/
theorem isBlank_of_mem_codeText {raw : Text} (h : commentColumn? raw = visibleColumn? raw) :
    ∀ c ∈ codeText raw, Text.isBlank c = true := by
  intro c hc
  rw [codeText, h] at hc
  cases hvisible : visibleColumn? raw with
  | none =>
    rw [hvisible] at hc
    rw [visibleColumn?, List.findIdx?_eq_none_iff] at hvisible
    simpa using hvisible c hc
  | some column =>
    rw [hvisible] at hc
    rw [visibleColumn?, List.findIdx?_eq_some_iff_getElem] at hvisible
    obtain ⟨hlt, -, hbefore⟩ := hvisible
    obtain ⟨earlier, hearlier, rfl⟩ := List.mem_take_iff_getElem.1 hc
    simpa using hbefore earlier (by omega)

/-- The command of a line in lower case is that of the first token before its comment. A line
without such a token has no instruction, and every other line has one. -/
theorem Instruction.map_name_ofLine? (line : Nat) (raw : Text) :
    (ofLine? line raw).map (·.name) =
      (Token.scan (codeText raw)).head?.map fun command => Text.lowercase command.text := by
  by_cases hidle : commentColumn? raw = visibleColumn? raw
  · have hnil := Token.scan_eq_nil (isBlank_of_mem_codeText hidle)
    rw [ofLine?, if_pos hidle, hnil, List.head?_nil, Option.map_none, Option.map_none]
  · rw [ofLine?, if_neg hidle]
    cases Token.scan (codeText raw) <;> rfl

/-- The block event of a line with the characters `raw`: that of the first token before its
comment. -/
def lineEvent? (vocabulary : Vocabulary) (raw : Text) : Option BlockEvent :=
  (Token.scan (codeText raw)).head?.bind fun command =>
    vocabulary.event? (Text.lowercase command.text)

/-- The event of the instruction of a line is that of the first token before its comment. -/
theorem Instruction.bind_event?_ofLine? (vocabulary : Vocabulary) (line : Nat) (raw : Text) :
    ((ofLine? line raw).bind fun instruction => vocabulary.event? instruction.name) =
      lineEvent? vocabulary raw := by
  have hname := congrArg (Option.bind · vocabulary.event?) (map_name_ofLine? line raw)
  simpa only [Option.bind_map, Function.comp_def, lineEvent?] using hname

end ScriptAnalysis
