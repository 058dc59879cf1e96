import ScriptAnalysis.Proofs.Symbol.Name
import ScriptAnalysis.Proofs.Text.LetterCase

/-!
# What may be written for a name

A name is meant to be a word of ASCII letters, digits and `_`, in any case. The words are told in
lower case, and one letter outside ASCII has its lower case there: the Kelvin sign, whose lower case
is `k`. So a token names a symbol exactly if it is such a word once each Kelvin sign is read as a
`K`, and without that sign exactly if it is such a word.

* `Text.lowercase_eq_iff`: the texts with a given lower case in ASCII.
* `IsWord`, `isIdentifier_fold_iff`: the words, told without their lower case.
* `SymbolKind.name?_eq_some_iff_isWord`: the tokens that name a symbol.
* `SymbolKind.names_are_words`: this, with and without the Kelvin sign.
* `SymbolKind.kelvin_names_symbol`: a token that is no word and names a symbol.
-/

namespace ScriptAnalysis

namespace Text

/-- The sign for kelvins, a letter of its own. -/
def kelvin : Char := '\u212A'

/-- The text with a `K` for each Kelvin sign. -/
def readKelvin (text : Text) : Text :=
  text.map fun c => if c = kelvin then 'K' else c

theorem readKelvin_eq_self {text : Text} (h : kelvin ∉ text) : readKelvin text = text := by
  refine (List.map_congr_left fun c hc => ?_).trans (List.map_id text)
  have hne : c ≠ kelvin := fun heq => h (heq ▸ hc)
  exact if_neg hne

/-- Whether all characters of a text are in ASCII. -/
def IsAscii (text : Text) : Prop :=
  ∀ c ∈ text, c.toNat < 0x80

/-! ## Lower case in ASCII -/

/-- The partner of a letter is outside ASCII, except for that of the Kelvin sign. -/
theorem toNat_ofNat_partner {run : CaseRun} (hrun : run ∈ lowerRuns) {code partner : Nat}
    (h : run.partner? code = some partner) (hcode : code ≠ 0x212A) :
    0x80 ≤ (Char.ofNat partner).toNat := by
  have hruns : ∀ run ∈ lowerRuns, (run.first = 0x212A ∧ run.last = 0x212A) ∨
      (0x80 ≤ run.target ∧ (run.target + (run.last - run.first) < 0xD800 ∨
        (0xDFFF < run.target ∧ run.target + (run.last - run.first) < 0x110000))) := by
    decide +kernel
  rw [CaseRun.partner?] at h
  split at h
  · next hmem =>
    cases h
    rcases hruns run hrun with hkelvin | ⟨htarget, hvalid⟩
    · omega
    · have hpartner : (run.target + (code - run.first)).isValidChar := by
        show _ < 0xD800 ∨ _
        omega
      rw [Char.ofNat, dif_pos hpartner]
      show 0x80 ≤ run.target + (code - run.first)
      omega
  · cases h

/-- A letter outside ASCII has a lower case that is not in ASCII, except for the Kelvin sign. -/
theorem not_isAscii_lowerChar {c : Char} (hascii : ¬c.toNat < 0x80) (hkelvin : c ≠ kelvin) :
    ¬IsAscii (lowerChar c) := by
  intro hlower
  rw [lowerChar, if_neg hascii] at hlower
  split at hlower
  · exact absurd (hlower '\u0307' (by simp)) (by decide)
  · have hpartner := hlower _ List.mem_cons_self
    cases hfind : lowerRuns.findSome? (·.partner? c.toNat) with
    | none =>
      rw [hfind] at hpartner
      exact hascii hpartner
    | some partner =>
      rw [hfind] at hpartner
      obtain ⟨run, hrun, hsome⟩ := List.exists_of_findSome?_eq_some hfind
      have hcode : c.toNat ≠ 0x212A := by
        intro heq
        apply hkelvin
        rw [← Char.ofNat_toNat c, heq]
        rfl
      have hle := toNat_ofNat_partner hrun hsome hcode
      exact absurd hpartner (Nat.not_lt.2 hle)

/-- The lower case of a text is in ASCII only if the text is, with its Kelvin signs read as `K`. -/
theorem isAscii_readKelvin {before text : Text} (h : IsAscii (lowerAfter before text)) :
    IsAscii (readKelvin text) := by
  induction text generalizing before with
  | nil => exact h
  | cons c rest ih =>
    rw [lowerAfter] at h
    have hrest : IsAscii (readKelvin rest) := ih fun d hd => h d (List.mem_append_right _ hd)
    have hfirst := fun d hd => h d (List.mem_append_left _ hd)
    rw [readKelvin, List.map_cons]
    refine List.forall_mem_cons.2 ⟨?_, hrest⟩
    split
    · decide
    · next hkelvin =>
      by_contra hascii
      split at hfirst
      · -- Neither of the two small letters for a sigma is in ASCII.
        have hsigma := hfirst _ (List.mem_singleton.2 rfl)
        rw [lowerSigma] at hsigma
        split at hsigma
        · exact absurd hsigma (by decide)
        · exact absurd hsigma (by decide)
      · exact not_isAscii_lowerChar hascii hkelvin hfirst

/-- In ASCII, the lower case is that of each letter. -/
theorem lowerAfter_eq_fold {before text : Text} (h : IsAscii (readKelvin text)) :
    lowerAfter before text = fold (readKelvin text) := by
  induction text generalizing before with
  | nil => rfl
  | cons c rest ih =>
    rw [readKelvin, List.map_cons] at h ⊢
    obtain ⟨hfirst, hrest⟩ := List.forall_mem_cons.1 h
    rw [lowerAfter, fold_cons, ih hrest]
    split at hfirst
    · next hkelvin =>
      have hlower : lowerChar kelvin = ['k'] := by decide
      have hsigma : kelvin ≠ 'Σ' := by decide
      rw [hkelvin, if_neg hsigma, hlower, if_pos rfl]
      rfl
    · next hkelvin =>
      have hsigma : c ≠ 'Σ' := by
        rintro rfl
        exact absurd hfirst (by decide)
      rw [if_neg hsigma, lowerChar, if_pos hfirst, if_neg hkelvin]
      rfl

/-- The texts with a given lower case in ASCII. -/
theorem lowercase_eq_iff {text lowered : Text} (h : IsAscii lowered) :
    lowercase text = lowered ↔ fold (readKelvin text) = lowered := by
  constructor
  · rintro rfl
    exact (lowerAfter_eq_fold (isAscii_readKelvin h)).symm
  · rintro rfl
    refine lowerAfter_eq_fold fun c hc => ?_
    by_contra hascii
    -- A character outside ASCII would still be there.
    have hsame : c.toLower = c :=
      dif_neg fun hcapital => hascii (Nat.lt_of_le_of_lt hcapital.2 (by decide))
    have hfold := h c.toLower (List.mem_map_of_mem hc)
    rw [hsame] at hfold
    exact hascii hfold

end Text

/-! ## Words -/

/-- Whether a character may start a word. -/
def IsWordStart (c : Char) : Prop :=
  ('A' ≤ c ∧ c ≤ 'Z') ∨ ('a' ≤ c ∧ c ≤ 'z') ∨ c = '_'

/-- Whether a character may stand in a word. -/
def IsWordPart (c : Char) : Prop :=
  IsWordStart c ∨ ('0' ≤ c ∧ c ≤ '9')

/-- Whether a text is a word: an ASCII letter or `_`, and then such characters and digits. -/
def IsWord (text : Text) : Prop :=
  ∃ first rest, text = first :: rest ∧ IsWordStart first ∧ ∀ c ∈ rest, IsWordPart c

/-- Whether a character may start a word can be decided. -/
instance (c : Char) : Decidable (IsWordStart c) :=
  inferInstanceAs (Decidable (_ ∨ _))

/-- A character may start a word if its small letter may start an identifier. -/
theorem isNameStart_toLower (c : Char) : isNameStart c.toLower = true ↔ IsWordStart c := by
  by_cases hcapital : 0x41 ≤ c.toNat ∧ c.toNat ≤ 0x5A
  · have hcode := toNat_toLower_of_capital hcapital
    have hsmall : 'a' ≤ c.toLower ∧ c.toLower ≤ 'z' := by
      show 0x61 ≤ c.toLower.toNat ∧ c.toLower.toNat ≤ 0x7A
      omega
    have hword : IsWordStart c := .inl hcapital
    simp [isNameStart, hsmall, hword]
  · have hlower : c.toLower = c := toLower_of_not_capital hcapital
    have hsmall : ¬('A' ≤ c ∧ c ≤ 'Z') := hcapital
    simp [hlower, isNameStart, IsWordStart, hsmall]

theorem isNamePart_toLower (c : Char) : isNamePart c.toLower = true ↔ IsWordPart c := by
  have hdigit : (decide ('0' ≤ c.toLower) && decide (c.toLower ≤ '9')) =
      (decide ('0' ≤ c) && decide (c ≤ '9')) := by
    refine apply_toLower (f := fun c => decide ('0' ≤ c) && decide (c ≤ '9')) (b := false)
      (fun c hc => ?_) c
    have hbehind : ¬c ≤ '9' := by
      show ¬c.toNat ≤ 0x39
      rw [IsLetter] at hc
      omega
    rw [decide_eq_false hbehind, Bool.and_false]
  rw [isNamePart, hdigit, Bool.or_eq_true, isNameStart_toLower, IsWordPart]
  simp

/-- A text is a word if it is an identifier once its letters are small. -/
theorem isIdentifier_fold_iff {text : Text} :
    isIdentifier (Text.fold text) = true ↔ IsWord text := by
  cases text with
  | nil => simp [Text.fold, isIdentifier, IsWord]
  | cons first rest =>
    simp [isIdentifier, IsWord, isNameStart_toLower, Text.fold, isNamePart_toLower]

/-- Whether a text is a word can be decided. -/
instance (text : Text) : Decidable (IsWord text) :=
  decidable_of_iff _ isIdentifier_fold_iff

/-- An identifier is in ASCII. -/
theorem isAscii_of_isIdentifier {name : Text} (h : isIdentifier name = true) :
    Text.IsAscii name := by
  intro c hc
  have hpart := isNamePart_of_mem h hc
  simp only [isNamePart, isNameStart, Bool.or_eq_true, Bool.and_eq_true, decide_eq_true_eq,
    beq_iff_eq] at hpart
  rcases hpart with (hletter | rfl) | hdigit
  · exact Nat.lt_of_le_of_lt hletter.2 (by decide)
  · decide
  · exact Nat.lt_of_le_of_lt hdigit.2 (by decide)

namespace SymbolKind

/-- What is written in front of the name of a symbol. -/
def sigil : SymbolKind → Text
  | subroutine => []
  | var => ['$']

/-- A token names a symbol if its lower case is an identifier behind the sigil. -/
theorem name?_eq_some_iff {kind : SymbolKind} {text name : Text} :
    kind.name? text = some name ↔
      Text.lowercase text = kind.sigil ++ name ∧ isIdentifier name = true := by
  cases kind with
  | subroutine =>
    simp only [name?, subroutineName?, sigil, List.nil_append]
    constructor
    · intro h
      split at h
      · next hidentifier =>
        cases h
        exact ⟨rfl, hidentifier⟩
      · cases h
    · rintro ⟨rfl, hidentifier⟩
      rw [if_pos hidentifier]
  | var =>
    simp only [name?, variableName?, sigil, List.singleton_append]
    constructor
    · intro h
      split at h
      · next written hlower =>
        split at h
        · next hidentifier =>
          cases h
          exact ⟨hlower, hidentifier⟩
        · cases h
      · cases h
    · rintro ⟨hlower, hidentifier⟩
      rw [hlower]
      exact if_pos hidentifier

/-- Neither reading a Kelvin sign nor folding a letter gives the sigil. -/
theorem exists_eq_sigil_append {kind : SymbolKind} {text name : Text}
    (h : Text.fold (Text.readKelvin text) = kind.sigil ++ name) :
    ∃ word, text = kind.sigil ++ word := by
  cases kind with
  | subroutine => exact ⟨text, rfl⟩
  | var =>
    cases text with
    | nil => cases h
    | cons c rest =>
      have hdollar : (if c = Text.kelvin then 'K' else c).toLower = '$' := (List.cons.inj h).1
      rw [toLower_eq_iff (by decide)] at hdollar
      split at hdollar
      · exact absurd hdollar (by decide)
      · exact ⟨rest, by rw [hdollar]; rfl⟩

/-- A token names a symbol if it is a word behind the sigil, with each Kelvin sign read as a `K`. -/
theorem name?_eq_some_iff_isWord {kind : SymbolKind} {text name : Text} :
    kind.name? text = some name ↔
      ∃ word, text = kind.sigil ++ word ∧ IsWord (Text.readKelvin word) ∧
        name = Text.fold (Text.readKelvin word) := by
  have hsigil (word : Text) : Text.fold (Text.readKelvin (kind.sigil ++ word)) =
      kind.sigil ++ Text.fold (Text.readKelvin word) := by
    cases kind <;> rfl
  have hascii {name : Text} (hname : isIdentifier name = true) :
      Text.IsAscii (kind.sigil ++ name) := by
    cases kind with
    | subroutine => exact isAscii_of_isIdentifier hname
    | var => exact List.forall_mem_cons.2 ⟨by decide, isAscii_of_isIdentifier hname⟩
  rw [name?_eq_some_iff]
  constructor
  · rintro ⟨hlower, hname⟩
    rw [Text.lowercase_eq_iff (hascii hname)] at hlower
    obtain ⟨word, rfl⟩ : ∃ word, text = kind.sigil ++ word := exists_eq_sigil_append hlower
    rw [hsigil] at hlower
    obtain rfl := List.append_cancel_left hlower
    exact ⟨word, rfl, isIdentifier_fold_iff.1 hname, rfl⟩
  · rintro ⟨word, rfl, hword, rfl⟩
    have hname := isIdentifier_fold_iff.2 hword
    exact ⟨(Text.lowercase_eq_iff (hascii hname)).2 (hsigil word), hname⟩

/-- A token names a symbol exactly if it is a word behind the sigil of the symbol, each Kelvin sign
being read as a `K`, and the name is the word with small letters. Without a Kelvin sign, this is so
of the word itself. What a name is written as, with small letters, names the same symbol. -/
theorem names_are_words (kind : SymbolKind) (text : Text) :
    (∀ name, kind.name? text = some name ↔
      ∃ word, text = kind.sigil ++ word ∧ IsWord (Text.readKelvin word) ∧
        name = Text.fold (Text.readKelvin word)) ∧
    (Text.kelvin ∉ text → ∀ name, kind.name? text = some name ↔
      ∃ word, text = kind.sigil ++ word ∧ IsWord word ∧ name = Text.fold word) ∧
    ∀ name, kind.name? text = some name → kind.name? (kind.sigil ++ name) = some name := by
  refine ⟨fun name => name?_eq_some_iff_isWord, fun hkelvin name => ?_, fun name hname => ?_⟩
  · rw [name?_eq_some_iff_isWord]
    -- The word has no Kelvin sign either, so that it is read as it is.
    have hread (word : Text) (hword : text = kind.sigil ++ word) : Text.readKelvin word = word :=
      Text.readKelvin_eq_self fun hmem =>
        hkelvin (by rw [hword]; exact List.mem_append_right _ hmem)
    constructor
    · rintro ⟨word, hword, hisWord, rfl⟩
      rw [hread word hword] at hisWord ⊢
      exact ⟨word, hword, hisWord, rfl⟩
    · rintro ⟨word, hword, hisWord, rfl⟩
      exact ⟨word, hword, by rwa [hread word hword], by rw [hread word hword]⟩
  · have hascii := isAscii_of_isIdentifier (name?_eq_some_iff.1 hname).2
    obtain ⟨word, -, hword, rfl⟩ := name?_eq_some_iff_isWord.1 hname
    have hread := Text.readKelvin_eq_self fun hmem => absurd (hascii _ hmem) (by decide)
    refine name?_eq_some_iff_isWord.2 ⟨_, rfl, ?_, ?_⟩
    · rw [hread, ← isIdentifier_fold_iff, Text.fold_fold, isIdentifier_fold_iff]
      exact hword
    · rw [hread, Text.fold_fold]

/-- A variable with capital letters, and how its name is written without them. -/
theorem names_are_words_sample :
    Text.kelvin ∉ "$Count_1".toList ∧ IsWord "Count_1".toList ∧
      var.name? "$Count_1".toList = some "count_1".toList ∧
      var.name? "$count_1".toList = some "count_1".toList := by
  obtain ⟨-, hplain, hagain⟩ := names_are_words var "$Count_1".toList
  have hkelvin : Text.kelvin ∉ "$Count_1".toList := by decide
  have hword : IsWord "Count_1".toList := by decide
  have hname : var.name? "$Count_1".toList = some "count_1".toList :=
    (hplain hkelvin _).2 ⟨"Count_1".toList, rfl, hword, by decide⟩
  exact ⟨hkelvin, hword, hname, hagain _ hname⟩

/-- The Kelvin sign is no word, and names a subroutine and, behind the sigil, a variable. -/
theorem kelvin_names_symbol :
    ¬IsWord [Text.kelvin] ∧ subroutine.name? [Text.kelvin] = some ['k'] ∧
      var.name? ['$', Text.kelvin] = some ['k'] := by
  decide

end SymbolKind

end ScriptAnalysis
