/-!
# Text

Lines, words, names and file contents are all held as their code points in order, so that a column
is a position in a list. The order on texts is the one of the lists, code point by code point; on
well-formed text this is also the order of the encoded bytes.

* `Text.sortDistinct`: a collection of texts in increasing order, each once.
-/

namespace ScriptAnalysis

/-- A piece of text, as its code points in order. -/
abbrev Text := List Char

namespace Text

/-- Put `word` into an increasing list of texts, unless it is already there. -/
def insertDistinct (word : Text) : List Text → List Text
  | [] => [word]
  | other :: others =>
    if word = other then other :: others
    else if word < other then word :: other :: others
    else other :: insertDistinct word others

/-- The texts of `words` in increasing order, each once. -/
def sortDistinct (words : List Text) : List Text :=
  words.foldr insertDistinct []

/-- Inserting adds exactly the inserted text. -/
@[simp]
theorem mem_insertDistinct {word other : Text} {words : List Text} :
    other ∈ insertDistinct word words ↔ other = word ∨ other ∈ words := by
  induction words with
  | nil => simp [insertDistinct]
  | cons first rest ih =>
    rw [insertDistinct]
    split
    · next h => subst h; simp
    · split
      · simp
      · simp only [List.mem_cons, ih]
        constructor
        · rintro (h | h | h)
          · exact .inr (.inl h)
          · exact .inl h
          · exact .inr (.inr h)
        · rintro (h | h | h)
          · exact .inr (.inl h)
          · exact .inl h
          · exact .inr (.inr h)

/-- Sorting neither loses nor invents a text. -/
@[simp]
theorem mem_sortDistinct {word : Text} {words : List Text} :
    word ∈ sortDistinct words ↔ word ∈ words := by
  induction words with
  | nil => simp [sortDistinct]
  | cons first rest ih =>
    simp only [sortDistinct, List.foldr_cons, mem_insertDistinct, List.mem_cons] at ih ⊢
    rw [ih]

/-- Inserting keeps a list increasing. -/
theorem pairwise_insertDistinct {word : Text} {words : List Text} (h : words.Pairwise (· < ·)) :
    (insertDistinct word words).Pairwise (· < ·) := by
  induction words with
  | nil => exact List.pairwise_singleton _ _
  | cons first rest ih =>
    obtain ⟨hfirst, hrest⟩ := List.pairwise_cons.1 h
    rw [insertDistinct]
    split
    · exact h
    · next hne =>
      split
      · next hlt =>
        refine List.pairwise_cons.2 ⟨fun other hother => ?_, h⟩
        rcases List.mem_cons.1 hother with rfl | hlater
        · exact hlt
        · exact List.lt_trans hlt (hfirst other hlater)
      · next hge =>
        have hgt : first < word := Decidable.byContradiction fun hnot =>
          hne (Std.Trichotomous.trichotomous word first hge hnot)
        refine List.pairwise_cons.2 ⟨fun other hother => ?_, ih hrest⟩
        rcases mem_insertDistinct.1 hother with rfl | hlater
        · exact hgt
        · exact hfirst other hlater

/-- Sorted texts are increasing, and so each of them occurs once. -/
theorem pairwise_sortDistinct (words : List Text) : (sortDistinct words).Pairwise (· < ·) := by
  induction words with
  | nil => exact List.Pairwise.nil
  | cons first rest ih => exact pairwise_insertDistinct ih

/-- Drop every leading copy of `mark`. -/
def trimLeading (mark : Char) (text : Text) : Text :=
  text.dropWhile (· == mark)

end Text

end ScriptAnalysis
