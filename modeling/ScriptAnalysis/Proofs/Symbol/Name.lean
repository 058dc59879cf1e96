import ScriptAnalysis.Proofs.Edit.Line

/-!
# How a name may be written

A token that names a symbol consists of characters whose lower case is a letter, a digit, `_` or the
sigil. Blanks, quotes and the comment mark are their own lower case, and are none of these.

* `SymbolKind.plain_of_name?`: a token that names a symbol is a plain word.
-/

namespace ScriptAnalysis

namespace Text

/-- The code points of the blanks. -/
def blankCodes : List Nat :=
  [0x09, 0x0A, 0x0B, 0x0C, 0x0D, 0x20, 0x85, 0xA0, 0x1680, 0x2000, 0x2001, 0x2002, 0x2003, 0x2004,
    0x2005, 0x2006, 0x2007, 0x2008, 0x2009, 0x200A, 0x2028, 0x2029, 0x202F, 0x205F, 0x3000]

theorem toNat_mem_blankCodes {c : Char} (h : isBlank c = true) : c.toNat ∈ blankCodes := by
  simp only [isBlank, Bool.or_eq_true, Bool.and_eq_true, decide_eq_true_eq, beq_iff_eq] at h
  simp only [blankCodes, List.mem_cons, List.not_mem_nil, or_false]
  omega

/-- Whether a character is its own lower case, whatever surrounds it, and cannot stand in a name. -/
def isForeign (c : Char) : Bool :=
  c ≠ 'Σ' && lowerChar c == [c] && !isNamePart c && c ≠ '$'

theorem isForeign_of_isBlank {c : Char} (h : isBlank c = true) : isForeign c = true := by
  have hcodes : ∀ code ∈ blankCodes, isForeign (Char.ofNat code) = true := by decide
  rw [← Char.ofNat_toNat c]
  exact hcodes _ (toNat_mem_blankCodes h)

theorem isForeign_of_isQuote {c : Char} (h : isQuote c = true) : isForeign c = true := by
  rcases Bool.or_eq_true_iff.1 h with heq | heq
  · rw [beq_iff_eq.1 heq]
    decide
  · rw [beq_iff_eq.1 heq]
    decide

/-- Lower-casing keeps a foreign character. -/
theorem mem_lowercase_of_isForeign {c : Char} {text : Text} (hc : isForeign c = true)
    (hmem : c ∈ text) : c ∈ lowercase text := by
  simp only [isForeign, Bool.and_eq_true, decide_eq_true_eq, beq_iff_eq] at hc
  -- The lower case of a sigma depends on the text before it, which is general here.
  have hafter (before text : Text) (hmem : c ∈ text) : c ∈ lowerAfter before text := by
    induction text generalizing before with
    | nil => exact hmem
    | cons d rest ih =>
      rw [lowerAfter, List.mem_append]
      rcases List.mem_cons.1 hmem with rfl | hrest
      · left
        rw [if_neg hc.1.1.1, hc.1.1.2]
        exact List.mem_singleton.2 rfl
      · exact .inr (ih _ hrest)
  exact hafter [] text hmem

/-- A text whose lower case consists of name characters and the sigil is plain. -/
theorem plain_of_lowercase {text : Text} (hne : lowercase text ≠ [])
    (hparts : ∀ c ∈ lowercase text, isNamePart c = true ∨ c = '$') : Plain text := by
  -- A foreign character would still be there in lower case.
  have hforeign (c : Char) (hmem : c ∈ text) : isForeign c = false := by
    rw [Bool.eq_false_iff]
    intro hc
    have hpart := hparts c (mem_lowercase_of_isForeign hc hmem)
    simp only [isForeign, Bool.and_eq_true, Bool.not_eq_true', decide_eq_true_eq] at hc
    rcases hpart with hpart | hsigil
    · rw [hc.1.2] at hpart
      cases hpart
    · exact hc.2 hsigil
  refine ⟨?_, fun c hmem => ?_, fun c hmem => ?_, ?_⟩
  · rintro rfl
    exact hne rfl
  · rw [Bool.eq_false_iff]
    intro hblank
    have hc := hforeign c hmem
    rw [isForeign_of_isBlank hblank] at hc
    cases hc
  · rw [Bool.eq_false_iff]
    intro hquote
    have hc := hforeign c hmem
    rw [isForeign_of_isQuote hquote] at hc
    cases hc
  · rintro c hmem rfl
    have hmark : isForeign '#' = true := by decide
    rw [hforeign '#' hmem] at hmark
    cases hmark

end Text

theorem isNamePart_of_mem {name : Text} (h : isIdentifier name = true) {c : Char} (hc : c ∈ name) :
    isNamePart c = true := by
  cases name with
  | nil => cases hc
  | cons first rest =>
    obtain ⟨hfirst, hrest⟩ := (Bool.and_eq_true _ _).mp h
    rcases List.mem_cons.1 hc with rfl | hmem
    · rw [isNamePart, hfirst, Bool.true_or]
    · exact List.all_eq_true.1 hrest c hmem

/-- A token that names a symbol is a plain word. -/
theorem SymbolKind.plain_of_name? {kind : SymbolKind} {text name : Text}
    (h : kind.name? text = some name) : Text.Plain text := by
  cases kind with
  | subroutine =>
    simp only [SymbolKind.name?, subroutineName?] at h
    split at h
    · next hidentifier =>
      apply Text.plain_of_lowercase
      · intro hnil
        rw [hnil] at hidentifier
        cases hidentifier
      · exact fun c hc => .inl (isNamePart_of_mem hidentifier hc)
    · cases h
  | var =>
    simp only [SymbolKind.name?, variableName?] at h
    split at h
    · next written hlower =>
      split at h
      · next hidentifier =>
        apply Text.plain_of_lowercase
        · rw [hlower]
          exact List.cons_ne_nil _ _
        · intro c hc
          rw [hlower] at hc
          rcases List.mem_cons.1 hc with rfl | hmem
          · exact .inr rfl
          · exact .inl (isNamePart_of_mem hidentifier hmem)
      · cases h
    · cases h

end ScriptAnalysis
