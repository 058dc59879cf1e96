import ScriptAnalysis.CodeLine
import ScriptAnalysis.Proofs.Token.Scan

/-!
# The lines of code of a text

Every line of code has the number and the code tokens of a line of the text, and the numbers
increase. A token can be told by its line and its columns.

* `exists_raw_of_mem_codeLines`: the line of the text behind a line of code.
* `ofLine?_eq_some_iff_mem_codeLines`: the line of code of a line of the text.
* `filter_filterMap_zipIdx`, `pairwise_filterMap_zipIdx`: what is read from the lines of a text.
* `pairwise_codeLines`: the numbers of the lines of code.
* `CodeLine.pairwise_tokens`: the tokens of a line of code lie apart.
-/

namespace ScriptAnalysis

/-- A line of code has the number and the code tokens of a line of the text. -/
theorem exists_raw_of_mem_codeLines {text : Text} {code : CodeLine} (h : code ∈ codeLines text) :
    ∃ raw, (Text.lines text)[code.line]? = some raw ∧ code.tokens = codeTokens raw := by
  obtain ⟨⟨raw, line⟩, hmem, hcode⟩ := List.mem_filterMap.1 h
  obtain ⟨hline, htokens⟩ := CodeLine.ofTokens?_eq_some_iff.1 hcode
  refine ⟨raw, ?_, htokens⟩
  rw [hline]
  exact List.mem_zipIdx_iff_getElem?.1 hmem

/-- The code of a line of the text is the line of code with its number. -/
theorem ofLine?_eq_some_iff_mem_codeLines {text raw : Text} {line : Nat} {code : CodeLine}
    (h : (Text.lines text)[line]? = some raw) :
    CodeLine.ofLine? line raw = some code ↔ code ∈ codeLines text ∧ code.line = line := by
  constructor
  · intro hcode
    exact ⟨List.mem_filterMap.2 ⟨(raw, line), List.mem_zipIdx_iff_getElem?.2 h, hcode⟩,
      (CodeLine.ofTokens?_eq_some_iff.1 hcode).1⟩
  · rintro ⟨hcode, rfl⟩
    obtain ⟨found, hfound, htokens⟩ := exists_raw_of_mem_codeLines hcode
    rw [h] at hfound
    cases hfound
    exact CodeLine.ofTokens?_eq_some_iff.2 ⟨rfl, htokens⟩

/-- One of the numbered members of a list has a given number, if the list is long enough. -/
theorem filter_zipIdx {α : Type} (members : List α) (first n : Nat) :
    ((members.zipIdx first).filter fun numbered => numbered.2 == first + n) =
      (members[n]?.map fun member => (member, first + n)).toList := by
  induction members generalizing first n with
  | nil => rfl
  | cons member others ih =>
    rw [List.zipIdx_cons]
    cases n with
    | zero =>
      have hothers : ((others.zipIdx (first + 1)).filter fun numbered =>
          numbered.2 == first + 0) = [] := by
        refine List.filter_eq_nil_iff.2 fun numbered hmem => ?_
        have hle := List.le_snd_of_mem_zipIdx hmem
        simp only [beq_iff_eq]
        omega
      rw [List.filter_cons_of_pos (by simp), hothers]
      rfl
    | succ n =>
      have hnext : first + (n + 1) = first + 1 + n := by omega
      rw [hnext, List.filter_cons_of_neg (by simp; omega), List.getElem?_cons_succ, ih]

/-- Of what is read from numbered lines, one line holds what is read from it. -/
theorem filter_filterMap_zipIdx {α β : Type} {read : α × Nat → Option β} {line : β → Nat}
    (hline : ∀ numbered found, read numbered = some found → line found = numbered.2)
    (raws : List α) (n : Nat) :
    ((raws.zipIdx.filterMap read).filter fun found => line found == n) =
      (raws[n]?.bind fun raw => read (raw, n)).toList := by
  have hread (numbered : α × Nat) : ((read numbered).filter fun found => line found == n) =
      if numbered.2 == n then read numbered else none := by
    cases hfound : read numbered with
    | none => simp
    | some found => simp [hline numbered found hfound, Option.filter_some]
  have hnumbered := filter_zipIdx raws 0 n
  rw [Nat.zero_add] at hnumbered
  rw [List.filter_filterMap]
  simp only [hread]
  rw [← List.filterMap_filter, hnumbered]
  cases raws[n]? with
  | none => rfl
  | some raw => cases hfound : read (raw, n) <;> simp [hfound]

/-- What is read from numbered lines is in the order of the numbers. -/
theorem pairwise_filterMap_zipIdx {α β : Type} {read : α × Nat → Option β} {line : β → Nat}
    (hline : ∀ numbered found, read numbered = some found → line found = numbered.2)
    (raws : List α) :
    (raws.zipIdx.filterMap read).Pairwise fun left right => line left < line right := by
  have hnumbers : raws.zipIdx.Pairwise fun left right => left.2 < right.2 := by
    rw [← List.pairwise_map, List.zipIdx_map_snd]
    exact List.pairwise_lt_range'
  refine List.Pairwise.filterMap _ (fun left right hlt found hfound found' hfound' => ?_) hnumbers
  rw [hline left found hfound, hline right found' hfound']
  exact hlt

/-- The numbers of the lines of code increase. -/
theorem pairwise_codeLines (text : Text) :
    (codeLines text).Pairwise fun left right => left.line < right.line :=
  pairwise_filterMap_zipIdx
    (fun _ _ hcode => (CodeLine.ofTokens?_eq_some_iff.1 hcode).1) (Text.lines text)

/-- The tokens of a line of code lie apart. -/
theorem CodeLine.pairwise_tokens {text : Text} {code : CodeLine} (h : code ∈ codeLines text) :
    code.tokens.Pairwise fun left right => left.stop < right.start := by
  obtain ⟨raw, -, htokens⟩ := exists_raw_of_mem_codeLines h
  rw [htokens]
  exact (Token.pairwise_scan raw).sublist (codeTokens_sublist raw)

/-- A token of a line of code holds a column. -/
theorem CodeLine.start_lt_stop {text : Text} {code : CodeLine} (h : code ∈ codeLines text)
    {token : Token} (htoken : token ∈ code.tokens) : token.start < token.stop := by
  obtain ⟨raw, -, htokens⟩ := exists_raw_of_mem_codeLines h
  rw [htokens] at htoken
  exact (Token.fits_of_mem_scan (mem_scan_of_mem_codeTokens htoken)).start_lt_stop

end ScriptAnalysis
