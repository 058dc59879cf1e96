import ScriptAnalysis.Proofs.Edit.Text
import ScriptAnalysis.Text.Lowercase

/-!
# The case of ASCII letters

Two texts that differ only in the case of ASCII letters become equal when these letters are folded
to lower case. Folding changes neither the lower case of a text, though that depends on which
letters surround a sigma, nor where its lines end.

* `Text.fold`: a text with its ASCII letters in lower case.
* `apply_toLower`: what is the same for all letters of ASCII.
* `Text.lowercase_fold`: the lower case of a folded text.
* `Text.lines_fold`: the lines of a folded text.
-/

namespace ScriptAnalysis

/-- Whether a character is a letter of ASCII. -/
def IsLetter (c : Char) : Prop :=
  (0x41 ≤ c.toNat ∧ c.toNat ≤ 0x5A) ∨ (0x61 ≤ c.toNat ∧ c.toNat ≤ 0x7A)

/-- Whether a character is a letter of ASCII can be decided. -/
instance (c : Char) : Decidable (IsLetter c) :=
  inferInstanceAs (Decidable (_ ∨ _))

/-- The small letter of a capital is 32 code points behind it. -/
theorem toNat_toLower_of_capital {c : Char} (h : 0x41 ≤ c.toNat ∧ c.toNat ≤ 0x5A) :
    c.toLower.toNat = c.toNat + 0x20 := by
  have hlower : c.toLower.val = c.val + 0x20 := congrArg Char.val (dif_pos h)
  rw [Char.toNat, hlower, UInt32.toNat_add, ← Char.toNat]
  show (c.toNat + 0x20) % 2 ^ 32 = _
  omega

theorem toLower_of_not_capital {c : Char} (h : ¬(0x41 ≤ c.toNat ∧ c.toNat ≤ 0x5A)) :
    c.toLower = c :=
  dif_neg h

/-- Folding a character changes only letters, and makes letters of them. -/
theorem toLower_cases (c : Char) : c.toLower = c ∨ (IsLetter c ∧ IsLetter c.toLower) := by
  by_cases hcapital : 0x41 ≤ c.toNat ∧ c.toNat ≤ 0x5A
  · have hsmall := toNat_toLower_of_capital hcapital
    exact .inr ⟨.inl hcapital, .inr (by omega)⟩
  · exact .inl (toLower_of_not_capital hcapital)

/-- What is the same for all letters of ASCII does not change when a character is folded. -/
theorem apply_toLower {β : Type} {f : Char → β} {b : β} (h : ∀ c, IsLetter c → f c = b)
    (c : Char) : f c.toLower = f c := by
  rcases toLower_cases c with hsame | ⟨hletter, hfolded⟩
  · rw [hsame]
  · rw [h c hletter, h c.toLower hfolded]

@[simp]
theorem isBlank_toLower (c : Char) : Text.isBlank c.toLower = Text.isBlank c := by
  refine apply_toLower (b := false) (fun c hc => ?_) c
  rw [IsLetter] at hc
  rw [← Bool.not_eq_true, Text.isBlank]
  simp only [Bool.or_eq_true, Bool.and_eq_true, decide_eq_true_eq, beq_iff_eq]
  omega

/-- A character is folded to one that is no letter only if it is this one. -/
theorem toLower_eq_iff {c d : Char} (hd : ¬IsLetter d) : c.toLower = d ↔ c = d := by
  have hsame : decide (c.toLower = d) = decide (c = d) := by
    refine apply_toLower (f := fun c => decide (c = d)) (b := false) (fun c hc => ?_) c
    exact decide_eq_false fun heq => hd (heq ▸ hc)
  simpa using hsame

theorem beq_toLower {c d : Char} (hd : ¬IsLetter d) : (c.toLower == d) = (c == d) := by
  rw [Bool.eq_iff_iff, beq_iff_eq, beq_iff_eq, toLower_eq_iff hd]

@[simp]
theorem isQuote_toLower (c : Char) : isQuote c.toLower = isQuote c := by
  rw [isQuote, isQuote, beq_toLower (by decide), beq_toLower (by decide)]

/-- Folded letters stay as they are. -/
theorem toLower_toLower (c : Char) : c.toLower.toLower = c.toLower := by
  by_cases hcapital : 0x41 ≤ c.toNat ∧ c.toNat ≤ 0x5A
  · have hsmall := toNat_toLower_of_capital hcapital
    exact toLower_of_not_capital (by omega)
  · rw [toLower_of_not_capital hcapital, toLower_of_not_capital hcapital]

namespace Text

/-- The text with its ASCII letters in lower case. -/
def fold (text : Text) : Text :=
  text.map Char.toLower

@[simp]
theorem fold_cons (c : Char) (rest : Text) : fold (c :: rest) = c.toLower :: fold rest :=
  rfl

@[simp]
theorem length_fold (text : Text) : (fold text).length = text.length :=
  List.length_map _

@[simp]
theorem fold_eq_nil_iff {text : Text} : fold text = [] ↔ text = [] :=
  List.map_eq_nil_iff

/-- Folded letters stay as they are. -/
@[simp]
theorem fold_fold (text : Text) : fold (fold text) = fold text := by
  rw [fold, fold, List.map_map]
  exact List.map_congr_left fun c _ => toLower_toLower c

/-! ## Lower case -/

/-- Whether a character is ignored when case is judged does not depend on its own case: no letter of
ASCII is. -/
theorem isCaseIgnorable_toLower (c : Char) : isCaseIgnorable c.toLower = isCaseIgnorable c := by
  have hruns : ∀ run ∈ caseIgnorableRanges, run.last < 0x41 ∨
      (0x5A < run.first ∧ run.last < 0x61) ∨ 0x7A < run.first := by
    decide +kernel
  refine apply_toLower (b := false) (fun c hc => ?_) c
  rw [isCaseIgnorable, List.any_eq_false]
  intro run hrun hcontains
  rw [CodeRange.contains, Bool.and_eq_true, decide_eq_true_eq, decide_eq_true_eq] at hcontains
  have hapart := hruns run hrun
  rw [IsLetter] at hc
  omega

/-- A character is cased in both cases: all letters of ASCII are. -/
theorem isCased_toLower (c : Char) : isCased c.toLower = isCased c := by
  refine apply_toLower (f := isCased) (b := true) (fun c hc => List.any_eq_true.2 ?_) c
  rcases hc with hcapital | hsmall
  · exact ⟨⟨0x41, 0x5A⟩, .head _, by simpa [CodeRange.contains] using hcapital⟩
  · exact ⟨⟨0x61, 0x7A⟩, .tail _ (.head _), by simpa [CodeRange.contains] using hsmall⟩

/-- The two cases of a letter have the same lower case. -/
theorem lowerChar_toLower (c : Char) : lowerChar c.toLower = lowerChar c := by
  by_cases hcapital : 0x41 ≤ c.toNat ∧ c.toNat ≤ 0x5A
  · have hsmall := toNat_toLower_of_capital hcapital
    rw [lowerChar, if_pos (by omega), lowerChar, if_pos (by omega), toLower_toLower]
  · rw [toLower_of_not_capital hcapital]

/-- The letters around a sigma are cased, whatever their case is. -/
theorem startsCased_fold (text : Text) : startsCased (fold text) = startsCased text := by
  induction text with
  | nil => rfl
  | cons c rest ih =>
    rw [startsCased, startsCased, fold_cons]
    rw [startsCased, startsCased] at ih
    cases hc : isCaseIgnorable c with
    | true =>
      rw [List.dropWhile_cons_of_pos ((isCaseIgnorable_toLower c).trans hc),
        List.dropWhile_cons_of_pos hc]
      exact ih
    | false =>
      rw [List.dropWhile_cons_of_neg (by simp [isCaseIgnorable_toLower, hc]),
        List.dropWhile_cons_of_neg (by simp [hc])]
      exact isCased_toLower c

/-- Folded letters have the same lower case, also where they decide how a sigma ends. -/
theorem lowerAfter_fold (before text : Text) :
    lowerAfter (fold before) (fold text) = lowerAfter before text := by
  -- The characters passed so far are folded too, since a sigma looks back at them.
  induction text generalizing before with
  | nil => rfl
  | cons c rest ih =>
    have hsigma : c.toLower = 'Σ' ↔ c = 'Σ' := toLower_eq_iff (by decide)
    rw [fold_cons, lowerAfter, lowerAfter, ← fold_cons, ih]
    simp only [hsigma, lowerChar_toLower, lowerSigma, startsCased_fold]

/-- A folded text has the same lower case. -/
@[simp]
theorem lowercase_fold (text : Text) : lowercase (fold text) = lowercase text :=
  lowerAfter_fold [] text

/-! ## Lines -/

/-- Folding keeps the line feeds. -/
theorem splitFeeds_fold (text : Text) :
    splitFeeds (fold text) = ((splitFeeds text).1.map fold, fold (splitFeeds text).2) := by
  induction text with
  | nil => rfl
  | cons c rest ih =>
    have hfeed : c.toLower = '\n' ↔ c = '\n' := toLower_eq_iff (by decide)
    rw [fold_cons, splitFeeds_cons, splitFeeds_cons, ih]
    generalize splitFeeds rest = cut
    obtain ⟨ended, last⟩ := cut
    by_cases hc : c = '\n'
    · simp [consFeeds, hc]
    · cases ended with
      | nil => simp [consFeeds, hc, hfeed]
      | cons raw ended => simp [consFeeds, hc, hfeed]

/-- Folding keeps the carriage return at the end of a line. -/
theorem dropReturn_fold (raw : Text) : dropReturn (fold raw) = fold (dropReturn raw) := by
  have hreturn (c : Char) : c.toLower = '\r' ↔ c = '\r' := toLower_eq_iff (by decide)
  rcases eq_append_return_or raw with ⟨body, rfl⟩ | hlast
  · have hfold : fold (body ++ ['\r']) = fold body ++ ['\r'] := by
      rw [fold, List.map_append]
      rfl
    rw [hfold, dropReturn_append_return, dropReturn_append_return]
  · rw [dropReturn_eq_self hlast, dropReturn_eq_self]
    rw [fold, List.getLast?_map]
    intro hfold
    obtain ⟨c, hc, heq⟩ := Option.map_eq_some_iff.1 hfold
    exact hlast (by rw [hc, (hreturn c).1 heq])

/-- The lines of a folded text are the folded lines. -/
theorem lines_fold (text : Text) : lines (fold text) = (lines text).map fold := by
  simp only [lines, splitFeeds_fold, List.map_append, List.map_map]
  refine congrArg₂ (· ++ ·) (List.map_congr_left fun raw _ => dropReturn_fold raw) ?_
  by_cases hlast : (splitFeeds text).2 = [] <;> simp [hlast]

end Text

end ScriptAnalysis
