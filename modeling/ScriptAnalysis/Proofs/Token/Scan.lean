import ScriptAnalysis.Token.Lexer

/-!
# The columns of the tokens of a line

The tokens of a line hold at least one column each, lie within the line, and follow each other with
a column between them that belongs to none. Each consists of the characters of its columns.

* `Token.Fits`: a token with its columns and characters, as a part of a text.
* `Token.fits_of_mem_scan`, `Token.pairwise_scan`: the tokens of a line.
-/

namespace ScriptAnalysis

namespace Token

/-- Whether a token is a part of a text that starts in column `column`: it holds a column, and its
characters are those of its columns. -/
structure Fits (column : Nat) (text : Text) (token : Token) : Prop where
  /-- The text starts before the token. -/
  start_le : column ≤ token.start
  /-- The token is not empty. -/
  start_lt_stop : token.start < token.stop
  /-- The text does not end before the token does. -/
  stop_le : token.stop ≤ column + text.length
  /-- The token holds the characters of its columns. -/
  text_eq : token.text = (text.take (token.stop - column)).drop (token.start - column)

/-- A part of a text is a part of the text with one more character in front. -/
theorem Fits.cons {column : Nat} {text : Text} {token : Token} (h : Fits (column + 1) text token)
    (c : Char) : Fits column (c :: text) token := by
  have hstart := h.start_le
  have hlt := h.start_lt_stop
  have hstop := h.stop_le
  refine ⟨by omega, hlt, by simp only [List.length_cons]; omega, ?_⟩
  have hstop' : token.stop - column = token.stop - (column + 1) + 1 := by omega
  have hstart' : token.start - column = token.start - (column + 1) + 1 := by omega
  rw [hstop', hstart', List.take_succ_cons, List.drop_succ_cons, h.text_eq]

/-- One character is a part of the text that starts with it. -/
theorem fits_singleton (c : Char) (column : Nat) (text : Text) :
    Fits column (c :: text) ⟨[c], column, column + 1⟩ := by
  refine ⟨Nat.le_refl _, Nat.lt_succ_self _, ?_, ?_⟩
  · simp only [List.length_cons]
    omega
  · simp

/-- A part that starts with the text can be lengthened by a character in front. -/
theorem Fits.lengthen {column : Nat} {text : Text} {token : Token}
    (h : Fits (column + 1) text token) (hstart : token.start = column + 1) (c : Char) :
    Fits column (c :: text) ⟨c :: token.text, column, token.stop⟩ := by
  have hlt := h.start_lt_stop
  have hstop := h.stop_le
  refine ⟨Nat.le_refl _, by simp only; omega, by simp only [List.length_cons]; omega, ?_⟩
  have hstop' : token.stop - column = token.stop - (column + 1) + 1 := by omega
  have htext := h.text_eq
  rw [hstart, Nat.sub_self, List.drop_zero] at htext
  rw [hstop', Nat.sub_self, List.take_succ_cons, List.drop_zero, htext]

/-- The tokens of a text are parts of it. -/
theorem fits_of_mem_scanFrom {state : QuoteState} {column : Nat} {text : Text} {token : Token}
    (h : token ∈ scanFrom state column text) : Fits column text token := by
  induction text generalizing state column token with
  | nil => cases h
  | cons c rest ih =>
    simp only [scanFrom] at h
    split at h
    · -- A kept character joins the first token of the rest if that starts in the next column.
      generalize htokens : scanFrom (state.next c) (column + 1) rest = tokens at h
      have hrest (other : Token) (hother : other ∈ tokens) : Fits (column + 1) rest other :=
        ih (htokens ▸ hother)
      cases tokens with
      | nil =>
        cases List.mem_singleton.1 h
        exact fits_singleton c column rest
      | cons first others =>
        rw [extend] at h
        split at h
        · next hglued =>
          rcases List.mem_cons.1 h with rfl | hlater
          · exact (hrest first List.mem_cons_self).lengthen hglued c
          · exact (hrest token (List.mem_cons_of_mem _ hlater)).cons c
        · rcases List.mem_cons.1 h with rfl | hlater
          · exact fits_singleton c column rest
          · exact (hrest token hlater).cons c
    · exact (ih h).cons c

/-- The tokens of a text follow each other with a column between them. -/
theorem pairwise_scanFrom (state : QuoteState) (column : Nat) (text : Text) :
    (scanFrom state column text).Pairwise fun left right => left.stop < right.start := by
  induction text generalizing state column with
  | nil => exact List.Pairwise.nil
  | cons c rest ih =>
    simp only [scanFrom]
    split
    · have htokens := ih (state.next c) (column + 1)
      have hfits (token : Token) (hmem : token ∈ scanFrom (state.next c) (column + 1) rest) :
          Fits (column + 1) rest token := fits_of_mem_scanFrom hmem
      generalize scanFrom (state.next c) (column + 1) rest = tokens at htokens hfits
      cases tokens with
      | nil => exact List.pairwise_singleton _ _
      | cons first others =>
        obtain ⟨hfirst, hothers⟩ := List.pairwise_cons.1 htokens
        obtain ⟨hstart, hstop, -, -⟩ := hfits first List.mem_cons_self
        rw [extend]
        split
        · exact List.pairwise_cons.2 ⟨hfirst, hothers⟩
        · next hgap =>
          -- The character is a token alone, and the first of the others starts after a gap.
          refine List.pairwise_cons.2 ⟨fun token hmem => ?_, htokens⟩
          rcases List.mem_cons.1 hmem with rfl | hlater
          · exact Nat.lt_of_le_of_ne hstart (Ne.symm hgap)
          · have hafter := hfirst token hlater
            show column + 1 < token.start
            omega
    · exact ih _ _

/-- The tokens of a line are parts of it. -/
theorem fits_of_mem_scan {line : Text} {token : Token} (h : token ∈ scan line) :
    Fits 0 line token :=
  fits_of_mem_scanFrom h

/-- The tokens of a line follow each other with a column between them. -/
theorem pairwise_scan (line : Text) :
    (scan line).Pairwise fun left right => left.stop < right.start :=
  pairwise_scanFrom _ _ _

/-- A token of a line can be told by its span. -/
theorem eq_of_span_eq {line : Text} {number : Nat} {left right : Token} (hleft : left ∈ scan line)
    (hright : right ∈ scan line) (h : left.span number = right.span number) : left = right := by
  simp only [span, Span.mk.injEq, true_and] at h
  have htext : left.text = right.text := by
    rw [(fits_of_mem_scan hleft).text_eq, (fits_of_mem_scan hright).text_eq, h.1, h.2]
  cases left
  cases right
  simp_all

end Token

/-- The code tokens of a line are some of its tokens, in the same order. -/
theorem codeTokens_sublist (line : Text) : (codeTokens line).Sublist (Token.scan line) := by
  rw [codeTokens]
  split
  · exact List.nil_sublist _
  · split
    · exact List.filter_sublist
    · exact List.Sublist.refl _

/-- A code token of a line is one of its tokens. -/
theorem mem_scan_of_mem_codeTokens {line : Text} {token : Token} (h : token ∈ codeTokens line) :
    token ∈ Token.scan line :=
  (codeTokens_sublist line).subset h

end ScriptAnalysis
