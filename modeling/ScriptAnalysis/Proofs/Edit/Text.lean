import ScriptAnalysis.CodeLine
import ScriptAnalysis.Proofs.Edit.Line

/-!
# Editing a text

The edits of a text are applied line by line. The line feeds stay where they are, so that an edit
moves nothing on other lines.

* `Text.applyEdits`: a text after its edits.
* `Text.lines_applyEdits`: its lines are the edited lines.
* `forall₂_codeLines_applyEdits`: its lines of code are those of the text before, with the edited
  tokens replaced.
-/

namespace ScriptAnalysis

namespace Text

/-- The text with the lines `ended`, each before a line feed, and `last` at the end. -/
def joinFeeds (ended : List Text) (last : Text) : Text :=
  ended.flatMap (· ++ ['\n']) ++ last

/-- The text after the edits, whose lines and columns are those of the text before. -/
def applyEdits (edits : List Edit) (text : Text) : Text :=
  let (ended, last) := splitFeeds text
  joinFeeds (ended.mapIdx fun line raw => editLine edits line 0 raw)
    (editLine edits ended.length 0 last)

/-! ## Cutting at the line feeds -/

theorem splitFeeds_cons (c : Char) (rest : Text) :
    splitFeeds (c :: rest) = consFeeds c (splitFeeds rest) :=
  rfl

theorem splitFeeds_eq_last {text : Text} (h : '\n' ∉ text) : splitFeeds text = ([], text) := by
  induction text with
  | nil => rfl
  | cons c rest ih =>
    have hc : c ≠ '\n' := fun heq => h (by simp [heq])
    have hrest : '\n' ∉ rest := fun hmem => h (List.mem_cons_of_mem c hmem)
    rw [splitFeeds_cons, ih hrest, consFeeds, if_neg hc]

/-- A line before a line feed is cut off as it stands. -/
theorem splitFeeds_append_feed {raw : Text} (h : '\n' ∉ raw) (rest : Text) :
    splitFeeds (raw ++ '\n' :: rest) = (raw :: (splitFeeds rest).1, (splitFeeds rest).2) := by
  induction raw with
  | nil => rfl
  | cons c raw ih =>
    have hc : c ≠ '\n' := fun heq => h (by simp [heq])
    have hraw : '\n' ∉ raw := fun hmem => h (List.mem_cons_of_mem c hmem)
    rw [List.cons_append, splitFeeds_cons, ih hraw, consFeeds, if_neg hc]

/-- Joined lines are cut apart again. -/
theorem splitFeeds_joinFeeds {ended : List Text} {last : Text} (hended : ∀ raw ∈ ended, '\n' ∉ raw)
    (hlast : '\n' ∉ last) : splitFeeds (joinFeeds ended last) = (ended, last) := by
  induction ended with
  | nil => exact splitFeeds_eq_last hlast
  | cons raw ended ih =>
    have hjoin : joinFeeds (raw :: ended) last = raw ++ '\n' :: joinFeeds ended last := by
      simp [joinFeeds]
    rw [hjoin, splitFeeds_append_feed (hended raw List.mem_cons_self),
      ih fun other hother => hended other (List.mem_cons_of_mem raw hother)]

/-- Cutting a text at its line feeds loses nothing. -/
theorem joinFeeds_splitFeeds (text : Text) :
    joinFeeds (splitFeeds text).1 (splitFeeds text).2 = text := by
  induction text with
  | nil => rfl
  | cons c rest ih =>
    rw [splitFeeds_cons]
    generalize splitFeeds rest = cut at ih
    obtain ⟨ended, last⟩ := cut
    simp only [consFeeds]
    -- A line feed starts a new line; any other character goes to the first line of the rest.
    split
    · next hc =>
      rw [hc, ← ih]
      rfl
    · cases ended with
      | nil => rw [← ih]; rfl
      | cons raw ended => rw [← ih]; rfl

theorem not_mem_splitFeeds (text : Text) :
    (∀ raw ∈ (splitFeeds text).1, '\n' ∉ raw) ∧ '\n' ∉ (splitFeeds text).2 := by
  induction text with
  | nil => simp [splitFeeds]
  | cons c rest ih =>
    rw [splitFeeds_cons]
    generalize splitFeeds rest = cut at ih
    obtain ⟨ended, last⟩ := cut
    simp only [consFeeds]
    split
    · simpa using ih
    · next hc =>
      cases ended with
      | nil => simpa [Ne.symm hc] using ih
      | cons raw ended => simpa [Ne.symm hc] using ih

/-! ## Line ends -/

@[simp]
theorem dropReturn_append_return (body : Text) : dropReturn (body ++ ['\r']) = body := by
  induction body with
  | nil => rfl
  | cons c body ih =>
    rw [List.cons_append, dropReturn, ih]
    simp

theorem dropReturn_eq_self {raw : Text} (h : raw.getLast? ≠ some '\r') : dropReturn raw = raw := by
  induction raw with
  | nil => rfl
  | cons c rest ih =>
    cases rest with
    | nil =>
      have hc : c ≠ '\r' := fun heq => h (by simp [heq])
      rw [dropReturn]
      · rfl
      · simp [hc]
    | cons d rest =>
      rw [List.getLast?_cons_cons] at h
      rw [dropReturn, ih h]
      simp

/-- Every line ends with a carriage return or is left as it is. -/
theorem eq_append_return_or (raw : Text) :
    (∃ body, raw = body ++ ['\r']) ∨ raw.getLast? ≠ some '\r' := by
  by_cases h : raw.getLast? = some '\r'
  · obtain ⟨body, hbody⟩ := List.getLast?_eq_some_iff.1 h
    exact .inl ⟨body, hbody⟩
  · exact .inr h

/-- Edits bring no line feed into a line. -/
theorem not_mem_editLine {edits : List Edit} {line column : Nat} {raw : Text}
    (hplain : ∀ edit ∈ edits, Plain edit.newText) (hraw : '\n' ∉ raw) :
    '\n' ∉ editLine edits line column raw := by
  induction raw generalizing column with
  | nil => exact hraw
  | cons c rest ih =>
    have hc : '\n' ≠ c := fun heq => hraw (heq ▸ List.mem_cons_self)
    have hrest : '\n' ∉ rest := fun hmem => hraw (List.mem_cons_of_mem c hmem)
    rw [editLine, List.mem_append, List.mem_append, not_or, not_or]
    refine ⟨?_, ?_, ih hrest⟩
    · cases hfound : edits.find? (·.location.span.startsAt line column) with
      | none => simp
      | some found =>
        intro hmem
        have hblank := (hplain found (List.mem_of_find?_eq_some hfound)).not_blank _ hmem
        exact absurd hblank (by decide)
    · split
      · simp
      · simpa using hc

end Text

namespace Edit.Fit

variable {edits : List Edit} {line : Nat} {raw : Text}

/-- Edits of a line leave its carriage return alone, and make none. -/
theorem dropReturn_editLine (h : Edit.Fit edits line (Text.dropReturn raw)) :
    Text.dropReturn (Text.editLine edits line 0 raw) =
      Text.editLine edits line 0 (Text.dropReturn raw) := by
  rcases Text.eq_append_return_or raw with ⟨body, rfl⟩ | hlast
  · rw [Text.dropReturn_append_return] at h ⊢
    -- The words end before the carriage return.
    have hafter : OnWords edits line body.length [] := by
      intro edit hedit hline
      obtain ⟨token, htoken, hspan, -⟩ := h.token edit hedit hline
      have hfits := Token.fits_of_mem_scan (mem_scan_of_mem_codeTokens htoken)
      have hstart := hfits.start_lt_stop
      have hstop := hfits.stop_le
      rw [hspan]
      simp only [Token.span]
      exact .inl (by omega)
    rw [Text.editLine_append, Nat.zero_add, hafter.editLine_cons (by simp) '\r' [], Text.editLine,
      Text.dropReturn_append_return]
  · -- A carriage return is a blank, so that no new text ends with one.
    rw [Text.dropReturn_eq_self hlast] at h ⊢
    apply Text.dropReturn_eq_self
    by_cases hnil : raw = []
    · rw [hnil, Text.editLine]
      simp
    · obtain ⟨c, hc, hend⟩ :=
        (Token.layout_scan raw).getLast?_editLine h.onWords h.newText hnil
      rw [hc]
      rintro ⟨⟩
      rcases hend with hend | hend
      · exact hlast hend
      · exact absurd hend (by decide)

theorem editLine_eq_nil_iff (h : Edit.Fit edits line raw) :
    Text.editLine edits line 0 raw = [] ↔ raw = [] := by
  constructor
  · intro hnil
    by_contra hne
    obtain ⟨c, hc, -⟩ := (Token.layout_scan raw).getLast?_editLine h.onWords h.newText hne
    rw [hnil] at hc
    cases hc
  · rintro rfl
    rfl

end Edit.Fit

/-- Whether the edits replace plain code tokens of a text by plain words. -/
def Edit.FitText (edits : List Edit) (text : Text) : Prop :=
  ∀ line raw, (Text.lines text)[line]? = some raw → Edit.Fit edits line raw

/-- The lines of a text after its edits are the edited lines. -/
theorem Text.lines_applyEdits {edits : List Edit} {text : Text} (h : Edit.FitText edits text) :
    lines (applyEdits edits text) =
      (lines text).mapIdx fun line raw => editLine edits line 0 raw := by
  have hfeeds := not_mem_splitFeeds text
  have hlines : lines text = (splitFeeds text).1.map dropReturn ++
      if (splitFeeds text).2 = [] then [] else [(splitFeeds text).2] := rfl
  have happly : applyEdits edits text =
      joinFeeds ((splitFeeds text).1.mapIdx fun line raw => editLine edits line 0 raw)
        (editLine edits (splitFeeds text).1.length 0 (splitFeeds text).2) := rfl
  -- From here on, the text is given by its lines.
  generalize (splitFeeds text).1 = ended at hfeeds hlines happly
  generalize (splitFeeds text).2 = last at hfeeds hlines happly
  have hended (line : Nat) (raw : Text) (hraw : ended[line]? = some raw) :
      Edit.Fit edits line (dropReturn raw) := by
    apply h
    have hline : line < ended.length := (List.getElem?_eq_some_iff.1 hraw).1
    rw [hlines, List.getElem?_append_left (by simpa using hline), List.getElem?_map, hraw]
    rfl
  have hlast (hne : last ≠ []) : Edit.Fit edits ended.length last := by
    apply h
    rw [hlines, if_neg hne, List.getElem?_append_right (by simp)]
    simp
  -- No line feed is added, so that the edited lines are cut apart again.
  have hcut : splitFeeds (applyEdits edits text) =
      (ended.mapIdx fun line raw => editLine edits line 0 raw,
        editLine edits ended.length 0 last) := by
    rw [happly]
    apply splitFeeds_joinFeeds
    · intro raw hraw
      obtain ⟨line, hline, rfl⟩ := List.mem_mapIdx.1 hraw
      exact not_mem_editLine (hended line _ (List.getElem?_eq_getElem hline)).newText
        (hfeeds.1 _ (List.getElem_mem hline))
    · by_cases hne : last = []
      · rw [hne, editLine]
        simp
      · exact not_mem_editLine (hlast hne).newText hfeeds.2
  rw [lines, hcut, hlines, List.mapIdx_append]
  show List.map dropReturn _ ++ (if _ = [] then [] else [_]) = _
  congr 1
  · -- A carriage return at the end of a line is dropped before or after the edits alike.
    apply List.ext_getElem?
    intro line
    rw [List.getElem?_map, List.getElem?_mapIdx, List.getElem?_mapIdx, List.getElem?_map]
    cases hraw : ended[line]? with
    | none => rfl
    | some raw => simp [(hended line raw hraw).dropReturn_editLine]
  · -- An empty last line is no line, and edits neither empty it nor fill it.
    by_cases hne : last = []
    · rw [hne, if_pos rfl]
      rfl
    · rw [if_neg hne, if_neg (mt (hlast hne).editLine_eq_nil_iff.1 hne)]
      simp

/-- Without edits, a text stays as it is. -/
theorem Text.applyEdits_nil (text : Text) : applyEdits [] text = text := by
  have hline (line : Nat) (raw : Text) : editLine [] line 0 raw = raw :=
    editLine_eq_self (by simp)
  have hlines : (splitFeeds text).1.mapIdx (fun line raw => editLine [] line 0 raw) =
      (splitFeeds text).1 := by
    apply List.ext_getElem?
    intro line
    rw [List.getElem?_mapIdx]
    simp only [hline]
    exact Option.map_id'
  have happly : applyEdits [] text =
      joinFeeds ((splitFeeds text).1.mapIdx fun line raw => editLine [] line 0 raw)
        (editLine [] (splitFeeds text).1.length 0 (splitFeeds text).2) := rfl
  rw [happly, hlines, hline, joinFeeds_splitFeeds]

/-- A line of code with the same number and with the edited tokens replaced. -/
structure CodeLine.Respelled (edits : List Edit) (before after : CodeLine) : Prop where
  /-- The line keeps its number. -/
  line : after.line = before.line
  /-- The tokens are replaced one by one. -/
  tokens : List.Forall₂ (fun token token' => token'.text = token.textAfter edits before.line)
    before.tokens after.tokens

/-- The lines of code of a text after its edits are those before, with the edited tokens
replaced. -/
theorem forall₂_codeLines_applyEdits {edits : List Edit} {text : Text}
    (h : Edit.FitText edits text) :
    List.Forall₂ (CodeLine.Respelled edits) (codeLines text)
      (codeLines (Text.applyEdits edits text)) := by
  -- The induction is on the lines, with the number of the first of them general.
  have hfrom (raws : List Text) (number : Nat)
      (hraws : ∀ line raw, raws[line]? = some raw → Edit.Fit edits (number + line) raw) :
      List.Forall₂ (CodeLine.Respelled edits)
        ((raws.zipIdx number).filterMap fun numbered => CodeLine.ofLine? numbered.2 numbered.1)
        (((raws.mapIdx fun line raw => Text.editLine edits (number + line) 0 raw).zipIdx
          number).filterMap fun numbered => CodeLine.ofLine? numbered.2 numbered.1) := by
    induction raws generalizing number with
    | nil => exact .nil
    | cons raw raws ih =>
      have hfirst := (hraws 0 raw rfl).forall₂_codeTokens
      have hrest := ih (number + 1) fun line other hother => by
        have hnumber : number + 1 + line = number + (line + 1) := by omega
        rw [hnumber]
        exact hraws (line + 1) other hother
      have hnumber (line : Nat) : number + 1 + line = number + (line + 1) := by omega
      simp only [hnumber] at hrest
      simp only [List.mapIdx_cons, List.zipIdx_cons, List.filterMap_cons, CodeLine.ofLine?,
        Nat.add_zero] at hfirst hrest ⊢
      -- Both lines have code or neither has, as their code tokens are related one by one.
      generalize codeTokens raw = tokens at hfirst
      generalize codeTokens (Text.editLine edits number 0 raw) = tokens' at hfirst
      cases hfirst with
      | nil => exact hrest
      | cons htoken htokens => exact .cons ⟨rfl, .cons htoken htokens⟩ hrest
  have hzero := hfrom (Text.lines text) 0 fun line raw hraw => by
    rw [Nat.zero_add]
    exact h line raw hraw
  have hcode (text : Text) : codeLines text = (Text.lines text).zipIdx.filterMap
      fun numbered => CodeLine.ofLine? numbered.2 numbered.1 := rfl
  rw [hcode, hcode, Text.lines_applyEdits h]
  simpa using hzero

end ScriptAnalysis
