import Mathlib.Data.List.Forall2
import ScriptAnalysis.Proofs.Token.Scan

/-!
# A line as blanks and words

Outside quoted strings, a line consists of blanks and of words, a word being followed by a blank or
by the end of the line. The layout of a line says where its words stand, and determines its tokens.

* `Token.layout_scan`: the tokens of a line are the words of its layout, and of no other.
* `codeTokens_eq_codeOf`: the code tokens of a line can be told from the words alone.
-/

namespace ScriptAnalysis

/-- A blank is no quote. -/
theorem isQuote_of_isBlank {c : Char} (h : Text.isBlank c = true) : isQuote c = false := by
  rw [isQuote, Bool.or_eq_false_iff, beq_eq_false_iff_ne, beq_eq_false_iff_ne]
  constructor
  · rintro rfl
    exact absurd h (by decide)
  · rintro rfl
    exact absurd h (by decide)

namespace QuoteState

/-- Whether every character of a text that starts in a state is quoted or not blank. -/
def Keeps (state : QuoteState) : Text → Prop
  | [] => True
  | c :: rest => (state.quotes c || !Text.isBlank c) = true ∧ Keeps (state.next c) rest

/-- Outside quoted strings, the state after a character does not depend on the one before. -/
theorem next_of_opened_eq_none {state : QuoteState} (h : state.opened = none) (c : Char) :
    state.next c = initial.next c := by
  simp [next, initial, h]

/-- Outside quoted strings, only a quote is quoted. -/
theorem quotes_of_opened_eq_none {state : QuoteState} (h : state.opened = none) (c : Char) :
    state.quotes c = initial.quotes c := by
  simp [quotes, initial, h]

/-- The state after a text is reached through its first character. -/
@[simp]
theorem after_cons (state : QuoteState) (c : Char) (rest : Text) :
    state.after (c :: rest) = (state.next c).after rest :=
  rfl

/-- A text without quotes does not open a quoted string. -/
theorem opened_after_eq_none {state : QuoteState} {text : Text} (hstate : state.opened = none)
    (htext : ∀ c ∈ text, isQuote c = false) : (state.after text).opened = none := by
  induction text generalizing state with
  | nil => exact hstate
  | cons c rest ih =>
    rw [after_cons]
    apply ih
    · simp [next, hstate, htext c List.mem_cons_self]
    · exact fun other hother => htext other (List.mem_cons_of_mem c hother)

/-- A text without blanks is kept in every state. -/
theorem keeps_of_not_blank {state : QuoteState} {text : Text}
    (h : ∀ c ∈ text, Text.isBlank c = false) : state.Keeps text := by
  induction text generalizing state with
  | nil => exact trivial
  | cons c rest ih =>
    refine ⟨by simp [h c List.mem_cons_self], ih fun other hother => ?_⟩
    exact h other (List.mem_cons_of_mem c hother)

/-- Every text begins with a kept part, which ends with the text or before a blank that is not
quoted. -/
theorem exists_keeps (state : QuoteState) (text : Text) :
    ∃ word, state.Keeps word ∧
      (text = word ∨ ∃ c rest, text = word ++ c :: rest ∧ (state.after word).opened = none ∧
        Text.isBlank c = true) := by
  induction text generalizing state with
  | nil => exact ⟨[], trivial, .inl rfl⟩
  | cons c rest ih =>
    by_cases hkept : (state.quotes c || !Text.isBlank c) = true
    · obtain ⟨word, hword, hend⟩ := ih (state.next c)
      refine ⟨c :: word, ⟨hkept, hword⟩, ?_⟩
      rcases hend with rfl | ⟨other, others, rfl, hclosed, hblank⟩
      · exact .inl rfl
      · exact .inr ⟨other, others, rfl, hclosed, hblank⟩
    · -- A character that is not kept is a blank outside quoted strings.
      refine ⟨[], trivial, .inr ⟨c, rest, rfl, ?_, ?_⟩⟩
      · have hquotes : state.quotes c = false := by simp_all
        have hopened : state.opened.isSome = false := (Bool.or_eq_false_iff.1 hquotes).1
        exact Option.isNone_iff_eq_none.1 (Option.isSome_eq_false_iff.1 hopened)
      · simp_all

end QuoteState

namespace Token

/-- A text that starts in column `column`, outside quoted strings, as blanks and words. -/
inductive Layout : Nat → Text → List Token → Prop
  /-- The empty text has no words. -/
  | nil {column : Nat} : Layout column [] []
  /-- A blank before the other words. -/
  | blank {column : Nat} {c : Char} {rest : Text} {tokens : List Token} :
      Text.isBlank c = true → Layout (column + 1) rest tokens → Layout column (c :: rest) tokens
  /-- A word that ends with the text. -/
  | last {column : Nat} {word : Text} :
      word ≠ [] → QuoteState.initial.Keeps word →
        Layout column word [⟨word, column, column + word.length⟩]
  /-- A word that ends before a blank. -/
  | word {column : Nat} {word : Text} {c : Char} {rest : Text} {tokens : List Token} :
      word ≠ [] → QuoteState.initial.Keeps word →
        (QuoteState.initial.after word).opened = none → Text.isBlank c = true →
        Layout (column + word.length + 1) rest tokens →
        Layout column (word ++ c :: rest) (⟨word, column, column + word.length⟩ :: tokens)

/-- The words of a layout start in its columns. -/
theorem Layout.le_start {column : Nat} {text : Text} {tokens : List Token}
    (h : Layout column text tokens) {token : Token} (htoken : token ∈ tokens) :
    column ≤ token.start := by
  induction h with
  | nil => cases htoken
  | blank hblank hrest ih => exact Nat.le_of_succ_le (ih htoken)
  | last hne hkeeps =>
    cases List.mem_singleton.1 htoken
    exact Nat.le_refl _
  | word hne hkeeps hclosed hblank hrest ih =>
    rcases List.mem_cons.1 htoken with rfl | hlater
    · exact Nat.le_refl _
    · have hstart := ih hlater
      omega

/-- Every text has a layout. -/
theorem exists_layout (column : Nat) (text : Text) : ∃ tokens, Layout column text tokens := by
  -- What follows a word and its blank is shorter than the text.
  induction hlength : text.length using Nat.strongRecOn generalizing column text with
  | ind length ih =>
    cases text with
    | nil => exact ⟨[], .nil⟩
    | cons c rest =>
      rw [List.length_cons] at hlength
      by_cases hblank : Text.isBlank c = true
      · obtain ⟨tokens, htokens⟩ := ih rest.length (by omega) (column + 1) rest rfl
        exact ⟨tokens, .blank hblank htokens⟩
      · obtain ⟨word, hword, hend⟩ := QuoteState.initial.exists_keeps (c :: rest)
        rcases hend with heq | ⟨other, others, heq, hclosed, hother⟩
        · subst heq
          exact ⟨_, .last (List.cons_ne_nil _ _) hword⟩
        · have hne : word ≠ [] := by
            rintro rfl
            cases heq
            exact hblank hother
          have hshort := congrArg List.length heq
          rw [List.length_cons, List.length_append, List.length_cons] at hshort
          obtain ⟨tokens, htokens⟩ :=
            ih others.length (by omega) (column + word.length + 1) others rfl
          rw [heq]
          exact ⟨_, .word hne hword hclosed hother htokens⟩

/-- Outside quoted strings, the tokens of a text do not depend on the character before it. -/
theorem scanFrom_of_opened_eq_none {state : QuoteState} (h : state.opened = none) (column : Nat)
    (text : Text) : scanFrom state column text = scanFrom .initial column text := by
  cases text with
  | nil => rfl
  | cons c rest =>
    simp only [scanFrom, QuoteState.next_of_opened_eq_none h,
      QuoteState.quotes_of_opened_eq_none h]

/-- A blank outside quoted strings belongs to no token. -/
theorem scanFrom_blank {state : QuoteState} {c : Char} (hstate : state.opened = none)
    (hblank : Text.isBlank c = true) (column : Nat) (rest : Text) :
    scanFrom state column (c :: rest) = scanFrom .initial (column + 1) rest := by
  have hquote := isQuote_of_isBlank hblank
  have hnext : (state.next c).opened = none := by simp [QuoteState.next, hstate, hquote]
  rw [← scanFrom_of_opened_eq_none hnext]
  simp [scanFrom, QuoteState.quotes, hstate, hquote, hblank]

/-- A blank line has no tokens. -/
theorem scan_eq_nil {line : Text} (h : ∀ c ∈ line, Text.isBlank c = true) : scan line = [] := by
  rw [scan]
  generalize 0 = column
  induction line generalizing column with
  | nil => rfl
  | cons c rest ih =>
    obtain ⟨hc, hrest⟩ := List.forall_mem_cons.1 h
    rw [scanFrom_blank rfl hc, ih hrest]

/-- A kept text in front of a gap is one token. -/
theorem scanFrom_append {state : QuoteState} {column : Nat} {word rest : Text} (hne : word ≠ [])
    (hkeeps : state.Keeps word)
    (hgap : ∀ token ∈ scanFrom (state.after word) (column + word.length) rest,
      column + word.length < token.start) :
    scanFrom state column (word ++ rest) =
      ⟨word, column, column + word.length⟩ ::
        scanFrom (state.after word) (column + word.length) rest := by
  induction word generalizing state column with
  | nil => exact absurd rfl hne
  | cons c word ih =>
    rw [List.cons_append, scanFrom, if_pos hkeeps.1]
    by_cases hword : word = []
    · -- The last character of the word does not join what follows the gap.
      subst hword
      simp only [QuoteState.after_cons, List.length_cons, List.length_nil, List.nil_append]
        at hgap ⊢
      change ∀ token ∈ scanFrom (state.next c) (column + 1) rest, _ at hgap
      change extend c column (scanFrom (state.next c) (column + 1) rest) =
        _ :: scanFrom (state.next c) (column + 1) rest
      cases htokens : scanFrom (state.next c) (column + 1) rest with
      | nil => rfl
      | cons first others =>
        have hfirst := hgap first (by simp [htokens])
        rw [extend, if_neg (by omega)]
    · -- Any other character joins the token that the rest of the word is.
      have hlength : column + (c :: word).length = column + 1 + word.length := by
        rw [List.length_cons]
        omega
      rw [QuoteState.after_cons, hlength] at hgap ⊢
      rw [ih hword hkeeps.2 hgap, extend, if_pos rfl]

/-- The words of a layout are the tokens of the text. -/
theorem Layout.scanFrom_eq {column : Nat} {text : Text} {tokens : List Token}
    (h : Layout column text tokens) : scanFrom .initial column text = tokens := by
  induction h with
  | nil => rfl
  | blank hblank hrest ih => rw [scanFrom_blank rfl hblank, ih]
  | @last column word hne hkeeps =>
    have hword : scanFrom .initial column (word ++ []) = _ :=
      scanFrom_append hne hkeeps (by simp [scanFrom])
    simpa [scanFrom] using hword
  | @word column word c rest tokens hne hkeeps hclosed hblank hrest ih =>
    rw [scanFrom_append hne hkeeps, scanFrom_blank hclosed hblank, ih]
    intro token htoken
    rw [scanFrom_blank hclosed hblank, ih] at htoken
    exact Nat.lt_of_succ_le (hrest.le_start htoken)

/-- The tokens of a line are the words of its layout. -/
theorem layout_scan (line : Text) : Layout 0 line (scan line) := by
  obtain ⟨tokens, htokens⟩ := exists_layout 0 line
  rw [scan, htokens.scanFrom_eq]
  exact htokens

end Token

/-- Outside quoted strings, the comment of a text does not depend on the character before it. -/
theorem commentColumnFrom?_of_opened_eq_none {state : QuoteState} (h : state.opened = none)
    (column : Nat) (text : Text) :
    commentColumnFrom? state column text = commentColumnFrom? .initial column text := by
  cases text with
  | nil => rfl
  | cons c rest =>
    simp only [commentColumnFrom?, QuoteState.next_of_opened_eq_none h,
      QuoteState.quotes_of_opened_eq_none h]

/-- The comment of a text starts in its first part, or else in the rest. -/
theorem commentColumnFrom?_append (state : QuoteState) (column : Nat) (word rest : Text) :
    commentColumnFrom? state column (word ++ rest) =
      (commentColumnFrom? state column word).or
        (commentColumnFrom? (state.after word) (column + word.length) rest) := by
  induction word generalizing state column with
  | nil => rfl
  | cons c word ih =>
    have hlength : column + (c :: word).length = column + 1 + word.length := by
      rw [List.length_cons]
      omega
    rw [List.cons_append, commentColumnFrom?, commentColumnFrom?, ih, QuoteState.after_cons,
      hlength]
    split <;> rfl

/-- Moving a text moves its comment. -/
theorem commentColumnFrom?_add (state : QuoteState) (column offset : Nat) (text : Text) :
    commentColumnFrom? state (column + offset) text =
      (commentColumnFrom? state offset text).map (column + ·) := by
  induction text generalizing state offset with
  | nil => rfl
  | cons c rest ih =>
    rw [commentColumnFrom?, commentColumnFrom?, Nat.add_assoc, ih]
    split <;> rfl

/-- Moving a line moves its comment. -/
theorem commentColumnFrom?_initial (column : Nat) (text : Text) :
    commentColumnFrom? .initial column text = (commentColumn? text).map (column + ·) :=
  commentColumnFrom?_add _ _ 0 _

/-- The comment of a text starts in the text. -/
theorem commentColumnFrom?_lt {state : QuoteState} {column found : Nat} {text : Text}
    (h : commentColumnFrom? state column text = some found) : found < column + text.length := by
  induction text generalizing state column with
  | nil => cases h
  | cons c rest ih =>
    rw [commentColumnFrom?] at h
    rw [List.length_cons]
    split at h
    · cases h
      omega
    · have hfound := ih h
      omega

/-- A blank outside quoted strings is no comment. -/
theorem commentColumnFrom?_blank {state : QuoteState} {c : Char} (hstate : state.opened = none)
    (hblank : Text.isBlank c = true) (column : Nat) (rest : Text) :
    commentColumnFrom? state column (c :: rest) =
      commentColumnFrom? .initial (column + 1) rest := by
  have hnext : (state.next c).opened = none := by
    simp [QuoteState.next, hstate, isQuote_of_isBlank hblank]
  have hmark : (c == '#') = false := by
    rw [beq_eq_false_iff_ne]
    rintro rfl
    exact absurd hblank (by decide)
  rw [commentColumnFrom?, hmark, Bool.and_false, if_neg Bool.false_ne_true,
    commentColumnFrom?_of_opened_eq_none hnext]

/-- The words that are code, among the words of a line: those before the first one with a comment,
and that one too unless the comment is all of it. -/
def Token.codeOf : List Token → List Token
  | [] => []
  | token :: tokens =>
    match commentColumn? token.text with
    | none => token :: codeOf tokens
    | some 0 => []
    | some _ => [token]

/-- The words of a layout that start before the comment are those that are code. -/
theorem Token.Layout.filter_start_lt {column : Nat} {text : Text} {tokens : List Token}
    (h : Layout column text tokens) :
    (match commentColumnFrom? .initial column text with
      | some found => tokens.filter (·.start < found)
      | none => tokens) = codeOf tokens := by
  induction h with
  | nil => rfl
  | blank hblank hrest ih => rw [commentColumnFrom?_blank rfl hblank, ih]
  | @last column word hne hkeeps =>
    rw [commentColumnFrom?_initial, codeOf]
    cases hcomment : commentColumn? word with
    | none => rfl
    | some offset => cases offset <;> simp
  | @word column word c rest tokens hne hkeeps hclosed hblank hrest ih =>
    rw [commentColumnFrom?_append, commentColumnFrom?_blank hclosed hblank,
      commentColumnFrom?_initial column word, codeOf]
    cases hcomment : commentColumn? word with
    | none =>
      -- Without a comment in the word, the word is before the comment of the rest.
      simp only [Option.map_none, Option.none_or]
      cases hlater : commentColumnFrom? .initial (column + word.length + 1) rest with
      | none =>
        rw [hlater] at ih
        rw [← ih]
      | some found =>
        have hfound : column < found := by
          rw [commentColumnFrom?_initial] at hlater
          obtain ⟨offset, -, heq⟩ := Option.map_eq_some_iff.1 hlater
          omega
        rw [hlater] at ih
        simp [hfound, ih]
    | some offset =>
      have hoffset : offset < word.length := by
        simpa using commentColumnFrom?_lt hcomment
      -- The other words start after this one, and so after the comment.
      have hlater : tokens.filter (·.start < column + offset) = [] := by
        rw [List.filter_eq_nil_iff]
        intro token htoken
        have hstart := hrest.le_start htoken
        simp only [decide_eq_true_eq]
        omega
      cases offset with
      | zero => simpa using hlater
      | succ offset => simpa using hlater

/-- No word is code on a line without a visible character or with a comment in front of it. -/
theorem Token.Layout.codeOf_eq_nil {column : Nat} {text : Text} {tokens : List Token}
    (h : Layout column text tokens)
    (hcomment : commentColumnFrom? .initial column text =
      (visibleColumn? text).map (column + ·)) : codeOf tokens = [] := by
  -- A word starts with a character that is not blank.
  have hvisible (word rest : Text) (hne : word ≠ []) (hkeeps : QuoteState.initial.Keeps word) :
      visibleColumn? (word ++ rest) = some 0 := by
    cases word with
    | nil => exact absurd rfl hne
    | cons c word =>
      have hc : Text.isBlank c = false := by
        cases hblank : Text.isBlank c with
        | false => rfl
        | true =>
          have hkept := hkeeps.1
          simp [QuoteState.quotes, QuoteState.initial, isQuote_of_isBlank hblank, hblank] at hkept
      simp [visibleColumn?, List.findIdx?_cons, hc]
  induction h with
  | nil => rfl
  | @blank column c rest tokens hblank hrest ih =>
    apply ih
    rw [commentColumnFrom?_blank rfl hblank] at hcomment
    rw [hcomment, visibleColumn?, visibleColumn?, List.findIdx?_cons, hblank]
    simp [Function.comp_def, Nat.add_assoc, Nat.add_comm 1]
  | @last column word hne hkeeps =>
    have hfirst := hvisible word [] hne hkeeps
    rw [List.append_nil] at hfirst
    rw [commentColumnFrom?_initial, hfirst] at hcomment
    obtain ⟨offset, hoffset, heq⟩ := Option.map_eq_some_iff.1 hcomment
    have hzero : offset = 0 := by simpa using heq
    simp only [codeOf, hoffset, hzero]
  | @word column word c rest tokens hne hkeeps hclosed hblank hrest ih =>
    rw [commentColumnFrom?_append, commentColumnFrom?_blank hclosed hblank,
      commentColumnFrom?_initial column word, hvisible word (c :: rest) hne hkeeps] at hcomment
    rw [codeOf]
    cases hword : commentColumn? word with
    | none =>
      -- The comment of the rest lies behind the word, and the visible column is that of the word.
      rw [hword, commentColumnFrom?_initial] at hcomment
      obtain ⟨offset, -, heq⟩ := Option.map_eq_some_iff.1 hcomment
      simp only [Nat.add_zero] at heq
      omega
    | some offset =>
      rw [hword] at hcomment
      have hzero : offset = 0 := by simpa using hcomment
      simp only [hzero]

/-- The code tokens of a line are the words that are code. -/
theorem codeTokens_eq_codeOf (line : Text) :
    codeTokens line = Token.codeOf (Token.scan line) := by
  have hlayout := Token.layout_scan line
  rw [codeTokens]
  split
  · next hnone =>
    refine (hlayout.codeOf_eq_nil ?_).symm
    simpa [commentColumnFrom?_initial] using hnone
  · exact hlayout.filter_start_lt

end ScriptAnalysis
