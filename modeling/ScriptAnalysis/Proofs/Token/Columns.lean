import Mathlib.Data.List.Pairwise
import Mathlib.Data.List.Perm.Basic
import ScriptAnalysis.Proofs.Token.Scan

/-!
# Tokens as runs of kept columns

A column of a line is kept if its character is quoted or not blank. A division of a line covers just
the kept columns, by tokens that leave a column between each other. Its tokens are the maximal runs
of kept columns, so that a line has one division, and the scan finds it.

* `QuoteState.quotesAt`, `QuoteState.KeepsAt`: the columns that are quoted, and those that are kept.
* `Token.IsDivision`, `Token.IsRun`: the divisions of a line, and the maximal runs of kept columns.
* `Token.IsDivision.mem_iff_isRun`: a division consists of the maximal runs.
* `Token.covers_scanFrom_iff`: the tokens that a scan finds cover the kept columns.
* `Token.isDivision_iff_eq_scan`: the tokens of a line are its one division.
-/

namespace ScriptAnalysis

namespace QuoteState

/-- Whether the character in a column of a text is quoted, when the text starts in this state. -/
def quotesAt (state : QuoteState) (text : Text) (column : Nat) : Bool :=
  text[column]?.any (state.after (text.take column)).quotes

/-- Whether a column of a text that starts in this state is kept: it is quoted or not blank. -/
def KeepsAt (state : QuoteState) (text : Text) (column : Nat) : Prop :=
  ∃ c, text[column]? = some c ∧ (state.quotesAt text column = true ∨ Text.isBlank c = false)

@[simp]
theorem not_keepsAt_nil (state : QuoteState) (column : Nat) : ¬state.KeepsAt [] column := by
  simp [KeepsAt]

@[simp]
theorem keepsAt_cons_zero (state : QuoteState) (c : Char) (rest : Text) :
    state.KeepsAt (c :: rest) 0 ↔ (state.quotes c || !Text.isBlank c) = true := by
  simp [KeepsAt, quotesAt, after]

@[simp]
theorem keepsAt_cons_succ (state : QuoteState) (c : Char) (rest : Text) (column : Nat) :
    state.KeepsAt (c :: rest) (column + 1) ↔ (state.next c).KeepsAt rest column := by
  simp [KeepsAt, quotesAt, after]

end QuoteState

namespace Token

/-- A division of a line into tokens. -/
structure IsDivision (line : Text) (tokens : List Token) : Prop where
  /-- A token holds the characters of its columns. -/
  text_eq : ∀ token ∈ tokens, token.text = (line.take token.stop).drop token.start
  /-- A token holds at least one column. -/
  start_lt_stop : ∀ token ∈ tokens, token.start < token.stop
  /-- A token ends within the line. -/
  stop_le : ∀ token ∈ tokens, token.stop ≤ line.length
  /-- Between two tokens that follow each other there is a column that belongs to neither. -/
  apart : tokens.IsChain fun left right => left.stop < right.start
  /-- The columns of the tokens are those that are kept. -/
  covers_iff : ∀ column,
    (∃ token ∈ tokens, token.covers column = true) ↔ QuoteState.initial.KeepsAt line column

/-- A token whose columns are a maximal run of kept columns. -/
structure IsRun (line : Text) (token : Token) : Prop where
  /-- The token holds the characters of its columns. -/
  text_eq : token.text = (line.take token.stop).drop token.start
  /-- The token holds at least one column. -/
  start_lt_stop : token.start < token.stop
  /-- All columns of the token are kept. -/
  keepsAt : ∀ column, token.covers column = true → QuoteState.initial.KeepsAt line column
  /-- The column before the token, if there is one, is not kept. -/
  not_keepsAt_before : ∀ column, column + 1 = token.start → ¬QuoteState.initial.KeepsAt line column
  /-- The column after the token is not kept. -/
  not_keepsAt_stop : ¬QuoteState.initial.KeepsAt line token.stop

variable {line : Text}

/-! ## Maximal runs -/

/-- A run that holds a column starts no later than another that holds it. -/
theorem IsRun.start_le_of_covers {left right : Token} (hleft : IsRun line left)
    (hright : IsRun line right) {column : Nat} (hcovers : left.covers column = true)
    (hcovers' : right.covers column = true) : left.start ≤ right.start := by
  rw [covers_iff] at hcovers hcovers'
  by_contra hlt
  -- The column before the left run would be one of the right run.
  have hstart : left.start - 1 + 1 = left.start := by omega
  apply hleft.not_keepsAt_before _ hstart
  apply hright.keepsAt
  rw [covers_iff]
  omega

/-- A run that holds a column ends no earlier than another that holds it. -/
theorem IsRun.stop_le_of_covers {left right : Token} (hleft : IsRun line left)
    (hright : IsRun line right) {column : Nat} (hcovers : left.covers column = true)
    (hcovers' : right.covers column = true) : right.stop ≤ left.stop := by
  rw [covers_iff] at hcovers hcovers'
  by_contra hlt
  apply hleft.not_keepsAt_stop
  apply hright.keepsAt
  rw [covers_iff]
  omega

/-- Two runs that share a column are the same. -/
theorem IsRun.eq_of_covers {left right : Token} (hleft : IsRun line left)
    (hright : IsRun line right) {column : Nat} (hcovers : left.covers column = true)
    (hcovers' : right.covers column = true) : left = right := by
  have hstart : left.start = right.start :=
    Nat.le_antisymm (hleft.start_le_of_covers hright hcovers hcovers')
      (hright.start_le_of_covers hleft hcovers' hcovers)
  have hstop : left.stop = right.stop :=
    Nat.le_antisymm (hright.stop_le_of_covers hleft hcovers' hcovers)
      (hleft.stop_le_of_covers hright hcovers hcovers')
  have htext : left.text = right.text := by
    rw [hleft.text_eq, hright.text_eq, hstart, hstop]
  cases left
  cases right
  simp_all

/-! ## Divisions -/

namespace IsDivision

variable {tokens : List Token}

/-- The gap between neighbours is one between any two tokens, since no token is empty. -/
theorem pairwise (h : IsDivision line tokens) :
    tokens.Pairwise fun left right => left.stop < right.start := by
  have hchain := h.apart
  have hlt := h.start_lt_stop
  clear h
  induction tokens with
  | nil => exact .nil
  | cons first others ih =>
    cases others with
    | nil => exact List.pairwise_singleton _ _
    | cons second others =>
      obtain ⟨hnext, hchain⟩ := List.isChain_cons_cons.1 hchain
      have hothers := ih hchain fun token hmem => hlt token (List.mem_cons_of_mem _ hmem)
      refine .cons (fun token hmem => ?_) hothers
      rcases List.mem_cons.1 hmem with rfl | hlater
      · exact hnext
      · have hsecond := hlt second (List.mem_cons_of_mem _ List.mem_cons_self)
        have hafter := List.rel_of_pairwise_cons hothers hlater
        omega

/-- Two tokens of a division are the same or have a gap between them. -/
theorem eq_or_apart (h : IsDivision line tokens) {left right : Token} (hleft : left ∈ tokens)
    (hright : right ∈ tokens) :
    left = right ∨ left.stop < right.start ∨ right.stop < left.start := by
  have hsymm : Std.Symm fun left right : Token =>
      left = right ∨ left.stop < right.start ∨ right.stop < left.start := by
    refine ⟨fun first second hapart => ?_⟩
    rcases hapart with rfl | hlt | hlt
    · exact .inl rfl
    · exact .inr (.inr hlt)
    · exact .inr (.inl hlt)
  have hpairs := h.pairwise.imp fun {first second : Token} hlt =>
    (.inr (.inl hlt) :
      first = second ∨ first.stop < second.start ∨ second.stop < first.start)
  exact hpairs.forall_of_forall (fun _ _ => .inl rfl) hleft hright

/-- The columns next to a token belong to no token, and so are not kept. -/
theorem isRun_of_mem (h : IsDivision line tokens) {token : Token} (hmem : token ∈ tokens) :
    IsRun line token := by
  have hlt := h.start_lt_stop token hmem
  refine ⟨h.text_eq token hmem, hlt, fun column hcovers => ?_, fun column hbefore hkept => ?_,
    fun hkept => ?_⟩
  · exact (h.covers_iff column).1 ⟨token, hmem, hcovers⟩
  · obtain ⟨other, hother, hcovers⟩ := (h.covers_iff column).2 hkept
    rw [Token.covers_iff] at hcovers
    rcases h.eq_or_apart hmem hother with rfl | hgap | hgap <;> omega
  · obtain ⟨other, hother, hcovers⟩ := (h.covers_iff token.stop).2 hkept
    rw [Token.covers_iff] at hcovers
    rcases h.eq_or_apart hmem hother with rfl | hgap | hgap <;> omega

/-- A division consists of the maximal runs of kept columns. -/
theorem mem_iff_isRun (h : IsDivision line tokens) {token : Token} :
    token ∈ tokens ↔ IsRun line token := by
  refine ⟨h.isRun_of_mem, fun hrun => ?_⟩
  -- The first column of the run is kept, and the token that holds it is a run too.
  have hfirst : token.covers token.start = true :=
    Token.covers_iff.2 ⟨Nat.le_refl _, hrun.start_lt_stop⟩
  obtain ⟨other, hother, hcovers⟩ := (h.covers_iff token.start).2 (hrun.keepsAt _ hfirst)
  rw [hrun.eq_of_covers (h.isRun_of_mem hother) hfirst hcovers]
  exact hother

/-- A line has at most one division: two of them have the same tokens in the same order. -/
theorem unique {others : List Token} (h : IsDivision line tokens) (h' : IsDivision line others) :
    tokens = others := by
  have hsorted {all : List Token} (hall : IsDivision line all) :
      all.Pairwise fun left right => left.start < right.start := by
    refine hall.pairwise.imp_of_mem fun hleft _ hgap => ?_
    exact Nat.lt_trans (hall.start_lt_stop _ hleft) hgap
  have hnodup {all : List Token} (hall : IsDivision line all) : all.Nodup := by
    refine (hsorted hall).imp fun hlt heq => ?_
    rw [heq] at hlt
    exact Nat.lt_irrefl _ hlt
  have hperm : tokens.Perm others :=
    (List.perm_ext_iff_of_nodup (hnodup h) (hnodup h')).2 fun token => by
      rw [h.mem_iff_isRun, h'.mem_iff_isRun]
  refine hperm.eq_of_pairwise (fun left right _ _ hlt hgt => ?_) (hsorted h) (hsorted h')
  exact absurd hgt (Nat.lt_asymm hlt)

end IsDivision

/-! ## The scan -/

/-- A kept character adds its column to those that the tokens behind it cover. -/
theorem covers_extend_iff {c : Char} {column : Nat} {tokens : List Token}
    (hlt : ∀ token ∈ tokens, token.start < token.stop) (place : Nat) :
    (∃ token ∈ extend c column tokens, token.covers place = true) ↔
      place = column ∨ ∃ token ∈ tokens, token.covers place = true := by
  have hone : (⟨[c], column, column + 1⟩ : Token).covers place = true ↔ place = column := by
    rw [covers_iff]
    exact ⟨fun h => Nat.le_antisymm (Nat.le_of_lt_succ h.2) h.1, by rintro rfl; simp⟩
  cases tokens with
  | nil => simp only [extend, List.mem_singleton, exists_eq_left, hone, List.not_mem_nil,
      false_and, exists_false, or_false]
  | cons first others =>
    rw [extend]
    split
    · next hglued =>
      -- The first token is lengthened by one column.
      have hlonger : (⟨c :: first.text, column, first.stop⟩ : Token).covers place = true ↔
          place = column ∨ first.covers place = true := by
        have hfirst := hlt first List.mem_cons_self
        rw [covers_iff, covers_iff]
        show column ≤ place ∧ place < first.stop ↔ _
        omega
      simp only [List.mem_cons, exists_eq_or_imp, hlonger, or_assoc]
    · rw [List.exists_mem_cons_iff, hone]

/-- The tokens of a text cover the columns that are kept. -/
theorem covers_scanFrom_iff (state : QuoteState) (column : Nat) (text : Text) (place : Nat) :
    (∃ token ∈ scanFrom state column text, token.covers place = true) ↔
      ∃ offset, place = column + offset ∧ state.KeepsAt text offset := by
  induction text generalizing state column with
  | nil => simp [scanFrom]
  | cons c rest ih =>
    -- A column of the text is the first one, or a column of the rest.
    have hsplit : (∃ offset, place = column + offset ∧ state.KeepsAt (c :: rest) offset) ↔
        place = column ∧ (state.quotes c || !Text.isBlank c) = true ∨
          ∃ offset, place = column + 1 + offset ∧ (state.next c).KeepsAt rest offset := by
      constructor
      · rintro ⟨offset, hplace, hkept⟩
        cases offset with
        | zero => exact .inl ⟨hplace, (QuoteState.keepsAt_cons_zero _ _ _).1 hkept⟩
        | succ offset =>
          refine .inr ⟨offset, by omega, ?_⟩
          exact (QuoteState.keepsAt_cons_succ _ _ _ _).1 hkept
      · rintro (⟨hplace, hkept⟩ | ⟨offset, hplace, hkept⟩)
        · exact ⟨0, hplace, (QuoteState.keepsAt_cons_zero _ _ _).2 hkept⟩
        · exact ⟨offset + 1, by omega, (QuoteState.keepsAt_cons_succ _ _ _ _).2 hkept⟩
    rw [hsplit, ← ih (state.next c) (column + 1)]
    simp only [scanFrom]
    split
    · next hkept =>
      rw [covers_extend_iff fun token hmem => (fits_of_mem_scanFrom hmem).start_lt_stop]
      simp only [hkept, and_true]
    · next hdropped => simp [hdropped]

/-- The tokens of a line are a division of it. -/
theorem isDivision_scan (line : Text) : IsDivision line (scan line) where
  text_eq token hmem := by simpa using (fits_of_mem_scan hmem).text_eq
  start_lt_stop token hmem := (fits_of_mem_scan hmem).start_lt_stop
  stop_le token hmem := by simpa using (fits_of_mem_scan hmem).stop_le
  apart := (pairwise_scan line).isChain
  covers_iff column := by
    rw [scan, covers_scanFrom_iff]
    simp

/-- The tokens of a line are its one division. They are the maximal runs of kept columns, and a
column of the line that belongs to none of them holds a blank that is not quoted. -/
theorem isDivision_iff_eq_scan (raw : Text) :
    (∀ tokens, IsDivision raw tokens ↔ tokens = scan raw) ∧
      (∀ token, token ∈ scan raw ↔ IsRun raw token) ∧
      ∀ column c, raw[column]? = some c →
        ((∀ token ∈ scan raw, token.covers column = false) ↔
          QuoteState.initial.quotesAt raw column = false ∧ Text.isBlank c = true) := by
  have hscan := isDivision_scan raw
  refine ⟨fun tokens => ⟨fun h => h.unique hscan, ?_⟩, fun token => hscan.mem_iff_isRun, ?_⟩
  · rintro rfl
    exact hscan
  · intro column c hc
    have hcovers := hscan.covers_iff column
    have hkept : QuoteState.initial.KeepsAt raw column ↔
        QuoteState.initial.quotesAt raw column = true ∨ Text.isBlank c = false := by
      simp [QuoteState.KeepsAt, hc]
    rw [hkept] at hcovers
    rw [← not_iff_not, ← Bool.not_eq_true, not_and_or, Bool.not_eq_true, Bool.not_eq_true,
      Bool.not_eq_false, ← hcovers]
    simp

end Token

end ScriptAnalysis
