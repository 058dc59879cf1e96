import ScriptAnalysis.Proofs.Token.Layout

/-!
# Dividing words again

The words of a line do not depend on the blanks between them. A word is divided into itself alone,
and the words of a line, put together with any blanks in between, are divided into the same words.
Both hold for every line, since only its last word may have a quoted string that is not closed.

* `Token.words`, `Token.spaced`: the words of a line, and words with gaps between them.
* `Token.Layout.exists_spaced`: the layout of a line carries over to other gaps.
* `Token.words_spaced`: dividing words again.
-/

namespace ScriptAnalysis

namespace Token

/-- The words of a line: its tokens without their places. -/
def words (line : Text) : List Text :=
  (scan line).map (·.text)

/-- Words in order, with `lead` before the first one and one of `gaps` before each other one. -/
def spaced (lead : Text) (gaps : List Text) : List Text → Text
  | [] => lead
  | word :: others => lead ++ word ++ (List.zipWith (· ++ ·) gaps others).flatten

/-- The gap before the second word leads the words from there on. -/
theorem spaced_cons_cons (lead gap : Text) (gaps : List Text) (word next : Text)
    (others : List Text) :
    spaced lead (gap :: gaps) (word :: next :: others) =
      lead ++ (word ++ spaced gap gaps (next :: others)) := by
  simp [spaced, List.append_assoc]

/-- The first character of what leads the words can be split off. -/
theorem spaced_cons_lead (c : Char) (lead : Text) (gaps words : List Text) :
    spaced (c :: lead) gaps words = c :: spaced lead gaps words := by
  cases words <;> rfl

/-- Words put together with single spaces. -/
theorem intercalate_eq_spaced (words : List Text) :
    List.intercalate [' '] words =
      spaced [] (List.replicate (words.length - 1) [' ']) words := by
  induction words with
  | nil => rfl
  | cons word others ih =>
    cases others with
    | nil => simp [spaced]
    | cons next others =>
      have hlength : (word :: next :: others).length - 1 = (next :: others).length - 1 + 1 := by
        simp
      rw [List.intercalate_cons_cons, ih, hlength, List.replicate_succ, spaced_cons_cons,
        spaced_cons_lead, List.append_assoc]
      rfl

/-- A layout with more blanks in front. -/
theorem Layout.blanks {column : Nat} {gap rest : Text} {tokens : List Token}
    (hgap : ∀ c ∈ gap, Text.isBlank c = true) (h : Layout (column + gap.length) rest tokens) :
    Layout column (gap ++ rest) tokens := by
  induction gap generalizing column with
  | nil => exact h
  | cons c gap ih =>
    obtain ⟨hc, hothers⟩ := List.forall_mem_cons.1 hgap
    refine .blank hc (ih hothers ?_)
    rwa [List.length_cons, Nat.add_comm gap.length, ← Nat.add_assoc] at h

/-- The words of a layout have a layout with any other gaps between them. -/
theorem Layout.exists_spaced {column : Nat} {text : Text} {tokens : List Token}
    (h : Layout column text tokens) {lead : Text} {gaps : List Text}
    (hlead : ∀ c ∈ lead, Text.isBlank c = true)
    (hgaps : ∀ gap ∈ gaps, gap ≠ [] ∧ ∀ c ∈ gap, Text.isBlank c = true)
    (hlength : gaps.length = tokens.length - 1) (moved : Nat) :
    ∃ tokens', Layout moved (spaced lead gaps (tokens.map (·.text))) tokens' ∧
      tokens'.map (·.text) = tokens.map (·.text) := by
  -- A word that ends the text needs only the blanks before it.
  have hword (word : Text) (hne : word ≠ []) (hkeeps : QuoteState.initial.Keeps word)
      {lead : Text} (hlead : ∀ c ∈ lead, Text.isBlank c = true) (gaps : List Text) (moved : Nat) :
      ∃ tokens', Layout moved (spaced lead gaps [word]) tokens' ∧
        tokens'.map (·.text) = [word] := by
    refine ⟨[⟨word, moved + lead.length, moved + lead.length + word.length⟩], ?_, rfl⟩
    rw [spaced, List.zipWith_nil_right, List.flatten_nil, List.append_nil]
    exact Layout.blanks hlead (.last hne hkeeps)
  -- The lead is general, as what follows the first blank of a gap leads the words from there on.
  induction h generalizing lead gaps moved with
  | nil =>
    have hblanks : Layout moved (lead ++ []) [] := Layout.blanks hlead .nil
    rw [List.append_nil] at hblanks
    exact ⟨[], hblanks, rfl⟩
  | blank hblank hrest ih => exact ih hlead hgaps hlength moved
  | @last column word hne hkeeps => exact hword word hne hkeeps hlead gaps moved
  | @word column word c rest tokens hne hkeeps hclosed hblank hrest ih =>
    cases tokens with
    | nil => exact hword word hne hkeeps hlead gaps moved
    | cons next tokens =>
      obtain ⟨gap, gaps, rfl⟩ : ∃ gap others, gaps = gap :: others :=
        List.exists_cons_of_length_eq_add_one hlength
      obtain ⟨⟨hgap, hblanks⟩, hothers⟩ := List.forall_mem_cons.1 hgaps
      obtain ⟨d, gap, rfl⟩ := List.exists_cons_of_ne_nil hgap
      obtain ⟨hd, hlead'⟩ := List.forall_mem_cons.1 hblanks
      obtain ⟨tokens', hlayout, hwords⟩ := ih hlead' hothers (by simpa using hlength)
        (moved + lead.length + word.length + 1)
      refine ⟨⟨word, moved + lead.length, moved + lead.length + word.length⟩ :: tokens', ?_,
        congrArg (word :: ·) hwords⟩
      rw [List.map_cons, List.map_cons, spaced_cons_cons, spaced_cons_lead, ← List.map_cons]
      exact Layout.blanks hlead (.word hne hkeeps hclosed hd hlayout)

/-- The words of a text are those of its layout. -/
theorem Layout.words_eq {text : Text} {tokens : List Token} (h : Layout 0 text tokens) :
    words text = tokens.map (·.text) := by
  rw [words, scan, h.scanFrom_eq]

/-- A word of a layout is not empty and has no blank outside its quoted strings. -/
theorem Layout.keeps_text {column : Nat} {text : Text} {tokens : List Token}
    (h : Layout column text tokens) {token : Token} (htoken : token ∈ tokens) :
    token.text ≠ [] ∧ QuoteState.initial.Keeps token.text := by
  induction h with
  | nil => cases htoken
  | blank hblank hrest ih => exact ih htoken
  | last hne hkeeps =>
    cases List.mem_singleton.1 htoken
    exact ⟨hne, hkeeps⟩
  | word hne hkeeps hclosed hblank hrest ih =>
    rcases List.mem_cons.1 htoken with rfl | hlater
    · exact ⟨hne, hkeeps⟩
    · exact ih hlater

/-- Dividing words again gives the same words. A word of a line is divided into itself. The words of
a line are divided into themselves if they are put together with blanks, which may also stand before
the first word, and so too with single spaces. -/
theorem words_spaced (raw : Text) :
    (∀ word ∈ words raw, words word = [word]) ∧
      (∀ (lead : Text) (gaps : List Text), (∀ c ∈ lead, Text.isBlank c = true) →
        (∀ gap ∈ gaps, gap ≠ [] ∧ ∀ c ∈ gap, Text.isBlank c = true) →
        gaps.length = (words raw).length - 1 →
        words (spaced lead gaps (words raw)) = words raw) ∧
      words (List.intercalate [' '] (words raw)) = words raw := by
  have hlayout := layout_scan raw
  have hspaced (lead : Text) (gaps : List Text) (hlead : ∀ c ∈ lead, Text.isBlank c = true)
      (hgaps : ∀ gap ∈ gaps, gap ≠ [] ∧ ∀ c ∈ gap, Text.isBlank c = true)
      (hlength : gaps.length = (words raw).length - 1) :
      words (spaced lead gaps (words raw)) = words raw := by
    obtain ⟨tokens', hlayout', hwords⟩ :=
      hlayout.exists_spaced hlead hgaps (by simpa [words] using hlength) 0
    exact hlayout'.words_eq.trans hwords
  refine ⟨fun word hword => ?_, hspaced, ?_⟩
  · obtain ⟨token, htoken, rfl⟩ := List.mem_map.1 hword
    obtain ⟨hne, hkeeps⟩ := hlayout.keeps_text htoken
    exact (Layout.last hne hkeeps).words_eq
  · rw [intercalate_eq_spaced]
    refine hspaced [] _ (by simp) (fun gap hgap => ?_) (by simp)
    obtain rfl := List.eq_of_mem_replicate hgap
    exact ⟨by simp, List.forall_mem_singleton.2 (by decide)⟩

/-- A line with blanks in quoted strings, an escaped quote and a quoted string that is not closed,
its words put together with other blanks. -/
theorem words_spaced_sample :
    let raw := " set  'a b'c \"d\\\" e ".toList
    let lead := "\t".toList
    let gaps := ["\u3000".toList, "  ".toList]
    words raw = ["set".toList, "'a b'c".toList, "\"d\\\" e ".toList] ∧
      (∀ c ∈ lead, Text.isBlank c = true) ∧
      (∀ gap ∈ gaps, gap ≠ [] ∧ ∀ c ∈ gap, Text.isBlank c = true) ∧
      gaps.length = (words raw).length - 1 ∧
      words "\tset\u3000'a b'c  \"d\\\" e ".toList = words raw ∧
      words "\"d\\\" e ".toList = ["\"d\\\" e ".toList] := by
  intro raw lead gaps
  have hwords : words raw = ["set".toList, "'a b'c".toList, "\"d\\\" e ".toList] := by
    decide +kernel
  have hlead : ∀ c ∈ lead, Text.isBlank c = true := List.all_eq_true.1 (by decide +kernel)
  have hgaps : ∀ gap ∈ gaps, gap ≠ [] ∧ ∀ c ∈ gap, Text.isBlank c = true :=
    List.forall_mem_cons.2 ⟨⟨by decide, List.all_eq_true.1 (by decide +kernel)⟩,
      List.forall_mem_singleton.2 ⟨by decide, List.all_eq_true.1 (by decide +kernel)⟩⟩
  have hlength : gaps.length = (words raw).length - 1 := by rw [hwords]; rfl
  obtain ⟨hword, hspaced, -⟩ := words_spaced raw
  refine ⟨hwords, hlead, hgaps, hlength, ?_, hword _ (by rw [hwords]; simp)⟩
  have hagain := hspaced lead gaps hlead hgaps hlength
  have hjoined : spaced lead gaps (words raw) = "\tset\u3000'a b'c  \"d\\\" e ".toList := by
    rw [hwords]
    decide +kernel
  rwa [hjoined] at hagain

end Token

end ScriptAnalysis
