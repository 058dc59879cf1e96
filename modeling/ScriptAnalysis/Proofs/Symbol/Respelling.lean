import ScriptAnalysis.Proofs.Edit.Disk
import ScriptAnalysis.Proofs.Symbol.Name
import ScriptAnalysis.Proofs.Symbol.Sites

/-!
# Respelling the mentions of a name

When every token of a text that names one symbol is replaced by a token that names another one, and
nothing else is, the text has the same sightings as before, the renamed ones under the new name. An
include line still names the same script, unless its first argument is one of the replaced tokens.

* `SymbolKind.Mentions`: the spans at which a name occurs.
* `SymbolKind.Respells`: edits at all these spans and no other.
* `SymbolKind.Respells.sightings`: the sightings after the edits.
* `SymbolKind.Respells.targets`: the targets after the edits.
-/

namespace ScriptAnalysis

/-- The sighting with `name` replaced by `renamed`. -/
def Sighting.rename (name renamed : Text) (sighting : Sighting) : Sighting :=
  if sighting.name = name then { sighting with name := renamed } else sighting

@[simp]
theorem Sighting.usage_rename (name renamed : Text) (sighting : Sighting) :
    (sighting.rename name renamed).usage = sighting.usage := by
  rw [rename]
  split <;> rfl

@[simp]
theorem Sighting.site_rename (name renamed : Text) (sighting : Sighting) :
    (sighting.rename name renamed).site = sighting.site := by
  rw [rename]
  split <;> rfl

/-- Numbered lists with related members are filtered alike, if related members are. -/
theorem filterMap_zipIdx_of_forall₂ {α β γ δ : Type} {related : α → β → Prop}
    {before : α × Nat → Option γ} {after : β × Nat → Option δ} {change : γ → δ} {left : List α}
    {right : List β} (h : List.Forall₂ related left right) (number : Nat)
    (hmember : ∀ a b position, (a, position) ∈ left.zipIdx number → related a b →
      after (b, position) = (before (a, position)).map change) :
    (right.zipIdx number).filterMap after = ((left.zipIdx number).filterMap before).map change := by
  induction h generalizing number with
  | nil => rfl
  | @cons a b left right hfirst hothers ih =>
    have hrest := ih (number + 1) fun a b position hmem =>
      hmember a b position (by rw [List.zipIdx_cons]; exact List.mem_cons_of_mem _ hmem)
    have hhead := hmember a b number (by rw [List.zipIdx_cons]; exact List.mem_cons_self) hfirst
    rw [List.zipIdx_cons, List.zipIdx_cons, List.filterMap_cons, List.filterMap_cons, hhead, hrest]
    cases before (a, number) <;> rfl

namespace SymbolKind

/-- Whether the token at a position of a line of code mentions `name`. -/
def MentionsAt (kind : SymbolKind) (vocabulary : Vocabulary) (name : Text) (code : CodeLine)
    (token : Token) (position : Nat) : Prop :=
  (kind.usageAt? vocabulary code position).isSome = true ∧ kind.name? token.text = some name

/-- Whether a mention can be told. -/
instance (kind : SymbolKind) (vocabulary : Vocabulary) (name : Text) (code : CodeLine)
    (token : Token) (position : Nat) :
    Decidable (kind.MentionsAt vocabulary name code token position) :=
  inferInstanceAs (Decidable (_ ∧ _))

/-- Whether `name` is mentioned at a span of the given lines of code. -/
def Mentions (kind : SymbolKind) (vocabulary : Vocabulary) (name : Text) (lines : List CodeLine)
    (span : Span) : Prop :=
  ∃ code ∈ lines, ∃ token position, (token, position) ∈ code.tokens.zipIdx ∧
    kind.MentionsAt vocabulary name code token position ∧ span = token.span code.line

/-- Whether edits write `written` at every mention of `name` in a text, and nowhere else. -/
structure Respells (kind : SymbolKind) (vocabulary : Vocabulary) (name written : Text)
    (edits : List Edit) (text : Text) : Prop where
  /-- Every edit writes the new spelling at a mention. -/
  mentions : ∀ edit ∈ edits, edit.newText = written ∧
    kind.Mentions vocabulary name (codeLines text) edit.location.span
  /-- Every mention is edited. -/
  exists_edit : ∀ span, kind.Mentions vocabulary name (codeLines text) span →
    ∃ edit ∈ edits, edit.location.span = span

/-- A token of a text can be told by its line and its columns. -/
theorem eq_of_span_eq {text : Text} {code code' : CodeLine} {token token' : Token}
    {position position' : Nat} (hcode : code ∈ codeLines text) (hcode' : code' ∈ codeLines text)
    (htoken : (token, position) ∈ code.tokens.zipIdx)
    (htoken' : (token', position') ∈ code'.tokens.zipIdx)
    (h : token.span code.line = token'.span code'.line) :
    code = code' ∧ token = token' ∧ position = position' := by
  -- Both tokens have the site of their common columns.
  have hpaths : [Visit.ofText ⟨[]⟩ text].Pairwise fun left right => left.path ≠ right.path :=
    List.pairwise_singleton _ _
  have hsite := Include.siteOf?_eq_some hpaths List.mem_cons_self rfl hcode htoken
  have hsite' := Include.siteOf?_eq_some hpaths List.mem_cons_self rfl hcode' htoken'
  rw [h, hsite'] at hsite
  simp only [Option.some.injEq, Site.mk.injEq, true_and] at hsite
  have hlines : (codeLines text).Pairwise fun left right => left.line ≠ right.line :=
    (pairwise_codeLines text).imp Nat.ne_of_lt
  have hfind := Include.find?_eq_some_of_pairwise hlines hcode
  have hfind' := Include.find?_eq_some_of_pairwise hlines hcode'
  rw [hsite.1, hfind] at hfind'
  cases hfind'
  refine ⟨rfl, ?_, hsite.2.symm⟩
  have hget := List.mem_zipIdx_iff_getElem?.1 htoken
  have hget' := List.mem_zipIdx_iff_getElem?.1 htoken'
  rw [hsite.2, hget] at hget'
  exact Option.some.inj hget'

namespace Respells

variable {kind : SymbolKind} {vocabulary : Vocabulary} {name written renamed : Text}
  {edits : List Edit} {text : Text}

/-- The edits replace plain words by plain words. -/
theorem fitText (h : kind.Respells vocabulary name written edits text)
    (hwritten : kind.name? written = some renamed) : Edit.FitText edits text := by
  intro line raw hraw
  refine ⟨fun edit hedit hline => ?_, fun edit hedit => ?_⟩
  · obtain ⟨-, code, hcode, token, position, htoken, ⟨-, hname⟩, hspan⟩ := h.mentions edit hedit
    obtain ⟨raw', hraw', htokens⟩ := exists_raw_of_mem_codeLines hcode
    have hnumber : code.line = line := by
      rw [hspan] at hline
      exact hline
    rw [hnumber, hraw] at hraw'
    cases hraw'
    refine ⟨token, ?_, by rw [hspan, hnumber], plain_of_name? hname⟩
    rw [← htokens]
    exact List.mem_of_getElem? (List.mem_zipIdx_iff_getElem?.1 htoken)
  · rw [(h.mentions edit hedit).1]
    exact plain_of_name? hwritten

/-- A token is written anew if it mentions the name, and stays as it is otherwise. -/
theorem textAfter_eq (h : kind.Respells vocabulary name written edits text) {code : CodeLine}
    (hcode : code ∈ codeLines text) {token : Token} {position : Nat}
    (htoken : (token, position) ∈ code.tokens.zipIdx) :
    token.textAfter edits code.line =
      if kind.MentionsAt vocabulary name code token position then written else token.text := by
  rw [Token.textAfter]
  cases hfound : edits.find? (·.location.span = token.span code.line) with
  | none =>
    rw [List.find?_eq_none] at hfound
    rw [if_neg]
    · rfl
    · intro hmention
      obtain ⟨edit, hedit, hspan⟩ :=
        h.exists_edit _ ⟨code, hcode, token, position, htoken, hmention, rfl⟩
      exact hfound edit hedit (decide_eq_true hspan)
  | some found =>
    have hspan : found.location.span = token.span code.line := by
      simpa using List.find?_some hfound
    obtain ⟨hnew, code', hcode', token', position', htoken', hmention, hspan'⟩ :=
      h.mentions found (List.mem_of_find?_eq_some hfound)
    -- The edited mention is at this very token.
    obtain ⟨rfl, rfl, rfl⟩ :=
      eq_of_span_eq hcode hcode' htoken htoken' (hspan.symm.trans hspan')
    rw [if_pos hmention]
    exact hnew

/-- The command of a line is not a mention, and stays. -/
theorem commandName_eq (h : kind.Respells vocabulary name written edits text)
    {code code' : CodeLine} (hcode : code ∈ codeLines text)
    (hafter : CodeLine.Respelled edits code code') : code'.commandName = code.commandName := by
  have htokens := hafter.tokens
  rw [CodeLine.tokens, CodeLine.tokens] at htokens
  cases htokens with
  | cons hcommand harguments =>
    have hfirst : (code.command, 0) ∈ code.tokens.zipIdx :=
      List.mem_zipIdx_iff_getElem?.2 rfl
    rw [h.textAfter_eq hcode hfirst, if_neg (by simp [MentionsAt, usageAt?])] at hcommand
    rw [CodeLine.commandName, CodeLine.commandName, hcommand]

/-- The sightings on a line are the same after the edits, but for the name. -/
theorem sightings_line (h : kind.Respells vocabulary name written edits text)
    (hwritten : kind.name? written = some renamed) {code code' : CodeLine}
    (hcode : code ∈ codeLines text) (hafter : CodeLine.Respelled edits code code') (path : Path) :
    kind.sightings vocabulary path code' =
      (kind.sightings vocabulary path code).map (Sighting.rename name renamed) := by
  rw [sightings, sightings]
  refine filterMap_zipIdx_of_forall₂ hafter.tokens 0 ?_
  intro token token' position htoken htext
  dsimp only
  rw [usageAt?_congr kind vocabulary (h.commandName_eq hcode hafter), hafter.line, htext,
    h.textAfter_eq hcode htoken]
  -- Where no symbol is used the token does not matter; elsewhere it is a mention or another name.
  cases husage : kind.usageAt? vocabulary code position with
  | none => rfl
  | some usage =>
    simp only [Option.bind_some, MentionsAt, husage, Option.isSome_some, true_and]
    by_cases hname : kind.name? token.text = some name
    · rw [if_pos hname, hwritten, hname]
      simp [Sighting.rename]
    · rw [if_neg hname]
      cases hother : kind.name? token.text with
      | none => rfl
      | some other =>
        have hne : other ≠ name := by
          rintro rfl
          exact hname hother
        simp [Sighting.rename, hne]

/-- The sightings in a text are the same after the edits, but for the name. -/
theorem sightings (h : kind.Respells vocabulary name written edits text)
    (hwritten : kind.name? written = some renamed) (path : Path) :
    (codeLines (Text.applyEdits edits text)).flatMap (kind.sightings vocabulary path) =
      ((codeLines text).flatMap (kind.sightings vocabulary path)).map
        (Sighting.rename name renamed) := by
  have hlines := forall₂_codeLines_applyEdits (h.fitText hwritten)
  have hline {code code' : CodeLine} (hcode : code ∈ codeLines text)
      (hafter : CodeLine.Respelled edits code code') :=
    h.sightings_line hwritten hcode hafter path
  -- The induction is on the pairs of lines, of which only the first ones come from the text.
  generalize codeLines text = lines at hlines hline
  generalize codeLines (Text.applyEdits edits text) = lines' at hlines
  induction hlines with
  | nil => rfl
  | cons hfirst hothers ih =>
    rw [List.flatMap_cons, List.flatMap_cons, List.map_append, hline List.mem_cons_self hfirst,
      ih fun hcode => hline (List.mem_cons_of_mem _ hcode)]

/-- A line includes the same script after the edits, if they do not touch what it includes. -/
theorem target?_line (h : kind.Respells vocabulary name written edits text)
    {code code' : CodeLine} (hcode : code ∈ codeLines text)
    (hafter : CodeLine.Respelled edits code code') {fs fs' : FileSystem}
    (hfiles : ∀ path, fs'.isFile path = fs.isFile path)
    (hargument : vocabulary.isInclude code.commandName = true →
      ∀ token, code.argument? = some token → ¬kind.MentionsAt vocabulary name code token 1)
    (path : Path) :
    Include.target? fs' vocabulary path code' = Include.target? fs vocabulary path code := by
  rw [Include.target?, Include.target?, h.commandName_eq hcode hafter]
  split
  · next hinclude =>
    have htokens := hafter.tokens
    have hresolve (argument : Text) : Include.resolve fs' vocabulary path argument =
        Include.resolve fs vocabulary path argument := by
      rw [Include.resolve, Include.resolve, funext hfiles]
    rw [CodeLine.tokens, CodeLine.tokens] at htokens
    cases htokens with
    | cons hcommand harguments =>
      have hhead := hargument hinclude
      rw [CodeLine.argument?] at hhead ⊢
      rw [CodeLine.argument?]
      generalize harguments' : code'.arguments = arguments' at harguments
      cases hcases : code.arguments with
      | nil =>
        rw [hcases] at harguments
        cases harguments
        rfl
      | cons argument others =>
        -- The first argument is no mention, and so it is written as before.
        rw [hcases] at harguments hhead
        cases harguments with
        | @cons _ argument' _ others' htext hothers =>
          have hmem : (argument, 1) ∈ code.tokens.zipIdx := by
            rw [List.mem_zipIdx_iff_getElem?, CodeLine.tokens, hcases]
            rfl
          rw [h.textAfter_eq hcode hmem, if_neg (hhead argument rfl)] at htext
          show Include.resolve fs' vocabulary path argument'.text =
            Include.resolve fs vocabulary path argument.text
          rw [htext, hresolve]
  · rfl

/-- A script includes the same targets after the edits, if they do not touch what it includes. -/
theorem targets (h : kind.Respells vocabulary name written edits text)
    (hwritten : kind.name? written = some renamed) {fs fs' : FileSystem}
    (hfiles : ∀ path, fs'.isFile path = fs.isFile path)
    (harguments : ∀ code ∈ codeLines text, vocabulary.isInclude code.commandName = true →
      ∀ token, code.argument? = some token → ¬kind.MentionsAt vocabulary name code token 1)
    (path : Path) :
    Include.targets fs' vocabulary (Visit.ofText path (Text.applyEdits edits text)) =
      Include.targets fs vocabulary (Visit.ofText path text) := by
  have hlines := forall₂_codeLines_applyEdits (h.fitText hwritten)
  have hline {code code' : CodeLine} (hcode : code ∈ codeLines text)
      (hafter : CodeLine.Respelled edits code code') :=
    h.target?_line hcode hafter hfiles (harguments code hcode) path
  show (codeLines (Text.applyEdits edits text)).filterMap (Include.target? fs' vocabulary path) =
    (codeLines text).filterMap (Include.target? fs vocabulary path)
  clear harguments
  generalize codeLines text = lines at hlines hline
  generalize codeLines (Text.applyEdits edits text) = lines' at hlines
  induction hlines with
  | nil => rfl
  | cons hfirst hothers ih =>
    rw [List.filterMap_cons, List.filterMap_cons, hline List.mem_cons_self hfirst,
      ih fun hcode => hline (List.mem_cons_of_mem _ hcode)]

end Respells

end SymbolKind

end ScriptAnalysis
