import ScriptAnalysis.Proofs.Token.Columns
import ScriptAnalysis.Proofs.Token.Layout

/-!
# The tokens of the beginning of a line

Whether a column is kept follows from the characters up to it. The beginning of a line, up to some
column, therefore has the tokens of the line that start before the column; a token that holds the
column ends there.

* `Token.cutAt`: the part of a token before a column.
* `Token.scan_take`: the tokens of the beginning of a line.
* `StartsComment`, `commentColumn?_eq_some_iff`: where the comment of a line starts.
-/

namespace ScriptAnalysis

namespace Token

/-- The part of a token before a column, if the token holds the column, and otherwise the token. -/
def cutAt (column : Nat) (token : Token) : Token :=
  if token.covers column then ⟨token.text.take (column - token.start), token.start, column⟩
  else token

theorem cutAt_of_covers {column : Nat} {token : Token} (h : token.covers column = true) :
    token.cutAt column = ⟨token.text.take (column - token.start), token.start, column⟩ :=
  if_pos h

theorem cutAt_eq_self {column : Nat} {token : Token} (h : token.covers column = false) :
    token.cutAt column = token := by
  rw [cutAt, h, if_neg Bool.false_ne_true]

/-- A cut token starts where it started. -/
@[simp]
theorem start_cutAt (column : Nat) (token : Token) : (token.cutAt column).start = token.start := by
  rw [cutAt]
  split <;> rfl

/-- A character in front of a token is not touched by a cut behind it. -/
theorem cutAt_lengthen {c : Char} {column limit : Nat} {token : Token}
    (hstart : token.start = column + 1) (hlimit : token.start < limit) :
    cutAt limit ⟨c :: token.text, column, token.stop⟩ =
      ⟨c :: (token.cutAt limit).text, column, (token.cutAt limit).stop⟩ := by
  have hcovers : (⟨c :: token.text, column, token.stop⟩ : Token).covers limit =
      token.covers limit := by
    rw [Bool.eq_iff_iff, covers_iff, covers_iff]
    show column ≤ limit ∧ limit < token.stop ↔ _
    omega
  cases htoken : token.covers limit with
  | true =>
    have hlength : limit - column = limit - token.start + 1 := by omega
    rw [cutAt_of_covers (hcovers.trans htoken), cutAt_of_covers htoken]
    simp only [hlength, List.take_succ_cons]
  | false => rw [cutAt_eq_self (hcovers.trans htoken), cutAt_eq_self htoken]

/-- A cut right behind the first character of a token leaves this character. -/
theorem cutAt_succ {c : Char} {column stop : Nat} (rest : Text) (h : column + 1 < stop) :
    cutAt (column + 1) ⟨c :: rest, column, stop⟩ = ⟨[c], column, column + 1⟩ := by
  have hcovers : (⟨c :: rest, column, stop⟩ : Token).covers (column + 1) = true :=
    covers_iff.2 ⟨Nat.le_succ column, h⟩
  have hlength : column + 1 - column = 1 := by omega
  rw [cutAt_of_covers hcovers]
  simp only [hlength, List.take_succ_cons, List.take_zero]

/-- It makes no difference whether the tokens behind a kept character are cut before or after they
are put together with it. -/
theorem extend_cutAt {c : Char} {column limit : Nat} {tokens : List Token}
    (hlimit : column < limit) (hlt : ∀ token ∈ tokens, token.start < token.stop)
    (hsorted : tokens.Pairwise fun left right => left.stop < right.start) :
    extend c column ((tokens.filter (·.start < limit)).map (cutAt limit)) =
      ((extend c column tokens).filter (·.start < limit)).map (cutAt limit) := by
  have hone : cutAt limit ⟨[c], column, column + 1⟩ = ⟨[c], column, column + 1⟩ := by
    refine cutAt_eq_self ?_
    rw [← Bool.not_eq_true, covers_iff]
    show ¬ (column ≤ limit ∧ limit < column + 1)
    omega
  cases tokens with
  | nil => simp [extend, hlimit, hone]
  | cons first others =>
    by_cases hfirst : first.start < limit
    · rw [List.filter_cons_of_pos (by simpa using hfirst), List.map_cons, extend, extend,
        start_cutAt]
      split
      · next hglued => simp [hlimit, cutAt_lengthen hglued hfirst]
      · simp [hlimit, hfirst, hone]
    · -- Nothing of the tokens is left, but the first one may go on from the character.
      have hempty := hlt first List.mem_cons_self
      have hothers : others.filter (·.start < limit) = [] := by
        rw [List.filter_eq_nil_iff]
        intro token htoken
        have hafter := List.rel_of_pairwise_cons hsorted htoken
        simp only [decide_eq_true_eq]
        omega
      rw [List.filter_cons_of_neg (by simpa using hfirst), hothers, List.map_nil, extend, extend]
      split
      · next hglued =>
        obtain rfl : limit = column + 1 := by omega
        rw [List.filter_cons_of_pos (by simp), hothers, List.map_singleton,
          cutAt_succ first.text (by omega)]
      · simp [hlimit, hfirst, hothers, hone]

/-- The tokens of the beginning of a text are those that start there, cut where it ends. -/
theorem scanFrom_take (state : QuoteState) (column : Nat) (text : Text) (n : Nat) :
    scanFrom state column (text.take n) =
      ((scanFrom state column text).filter (·.start < column + n)).map (cutAt (column + n)) := by
  induction text generalizing state column n with
  | nil => simp [scanFrom]
  | cons c rest ih =>
    cases n with
    | zero =>
      have hnone : (scanFrom state column (c :: rest)).filter (·.start < column + 0) = [] := by
        rw [List.filter_eq_nil_iff]
        intro token htoken
        have hstart := (fits_of_mem_scanFrom htoken).start_le
        simp only [decide_eq_true_eq]
        omega
      rw [hnone, List.take_zero, scanFrom, List.map_nil]
    | succ n =>
      have hrest := ih (state.next c) (column + 1) n
      rw [Nat.add_assoc, Nat.add_comm 1] at hrest
      simp only [List.take_succ_cons, scanFrom, hrest]
      split
      · exact extend_cutAt (by omega)
          (fun token htoken => (fits_of_mem_scanFrom htoken).start_lt_stop)
          (pairwise_scanFrom _ _ _)
      · rfl

/-- The tokens of the beginning of a line. -/
theorem scan_take (line : Text) (n : Nat) :
    scan (line.take n) = ((scan line).filter (·.start < n)).map (cutAt n) := by
  have htake := scanFrom_take .initial 0 line n
  rwa [Nat.zero_add] at htake

/-- A line with something to be seen has a token. -/
theorem scan_ne_nil {line : Text} {c : Char} (hmem : c ∈ line) (hvisible : Text.isBlank c = false) :
    scan line ≠ [] := by
  obtain ⟨column, hcolumn⟩ := List.mem_iff_getElem?.1 hmem
  obtain ⟨token, htoken, -⟩ :=
    ((isDivision_scan line).covers_iff column).2 ⟨c, hcolumn, .inr hvisible⟩
  exact List.ne_nil_of_mem htoken

/-- A part of the beginning of a line is a part of the line. -/
theorem Fits.of_take {line : Text} {n : Nat} {token : Token} (h : Fits 0 (line.take n) token) :
    Fits 0 line token := by
  have hstop := h.stop_le
  rw [List.length_take] at hstop
  refine ⟨h.start_le, h.start_lt_stop, by omega, ?_⟩
  rw [h.text_eq, List.take_take, Nat.min_eq_left (by omega)]

end Token

/-! ## Where the comment starts -/

namespace QuoteState

@[simp]
theorem quotesAt_cons_zero (state : QuoteState) (c : Char) (rest : Text) :
    state.quotesAt (c :: rest) 0 = state.quotes c := by
  simp [quotesAt, after]

@[simp]
theorem quotesAt_cons_succ (state : QuoteState) (c : Char) (rest : Text) (column : Nat) :
    state.quotesAt (c :: rest) (column + 1) = (state.next c).quotesAt rest column := by
  simp [quotesAt, after]

end QuoteState

/-- Whether the comment of a line starts in a column: it holds the first `#` that is not quoted. -/
structure StartsComment (raw : Text) (column : Nat) : Prop where
  /-- The column holds the mark of a comment. -/
  mark : raw[column]? = some '#'
  /-- The mark is not quoted. -/
  unquoted : QuoteState.initial.quotesAt raw column = false
  /-- Every mark before it is quoted. -/
  first : ∀ earlier < column, raw[earlier]? = some '#' →
    QuoteState.initial.quotesAt raw earlier = true

/-- The search finds a column if and only if it holds the first mark that is not quoted. -/
theorem commentColumnFrom?_eq_some_iff {state : QuoteState} {column : Nat} {text : Text}
    {offset : Nat} :
    commentColumnFrom? state column text = some (column + offset) ↔
      text[offset]? = some '#' ∧ state.quotesAt text offset = false ∧
        ∀ earlier < offset, text[earlier]? = some '#' → state.quotesAt text earlier = true := by
  induction text generalizing state column offset with
  | nil => simp [commentColumnFrom?]
  | cons c rest ih =>
    rw [commentColumnFrom?]
    by_cases hmark : (!state.quotes c && c == '#') = true
    · rw [if_pos hmark]
      simp only [Bool.and_eq_true, Bool.not_eq_true', beq_iff_eq] at hmark
      obtain ⟨hunquoted, rfl⟩ := hmark
      cases offset with
      | zero => simp [hunquoted]
      | succ offset =>
        constructor
        · intro h
          simp at h
        · rintro ⟨-, -, hfirst⟩
          have hquoted := hfirst 0 (Nat.succ_pos _) rfl
          rw [QuoteState.quotesAt_cons_zero, hunquoted] at hquoted
          cases hquoted
    · rw [if_neg hmark]
      have hquoted : c = '#' → state.quotes c = true := by
        rintro rfl
        simpa using hmark
      cases offset with
      | zero =>
        constructor
        · -- What is found in the rest lies behind the first column.
          intro h
          have hmoved := commentColumnFrom?_add (state.next c) (column + 1) 0 rest
          rw [Nat.add_zero] at hmoved h
          obtain ⟨place, -, hplace⟩ := Option.map_eq_some_iff.1 (hmoved.symm.trans h)
          omega
        · rintro ⟨hc, hunquoted, -⟩
          rw [List.getElem?_cons_zero, Option.some.injEq] at hc
          rw [QuoteState.quotesAt_cons_zero, hquoted hc] at hunquoted
          cases hunquoted
      | succ offset =>
        rw [← Nat.add_assoc, Nat.add_right_comm, ih, List.getElem?_cons_succ,
          QuoteState.quotesAt_cons_succ]
        refine and_congr_right fun _ => and_congr_right fun _ => ?_
        constructor
        · intro hfirst earlier hearlier hc
          cases earlier with
          | zero =>
            rw [List.getElem?_cons_zero, Option.some.injEq] at hc
            rw [QuoteState.quotesAt_cons_zero, hquoted hc]
          | succ earlier =>
            rw [QuoteState.quotesAt_cons_succ]
            exact hfirst earlier (by omega) (by simpa using hc)
        · intro hfirst earlier hearlier hc
          rw [← QuoteState.quotesAt_cons_succ]
          exact hfirst (earlier + 1) (by omega) (by simpa using hc)

/-- The comment of a line starts at the first mark that is not quoted. -/
theorem commentColumn?_eq_some_iff {raw : Text} {column : Nat} :
    commentColumn? raw = some column ↔ StartsComment raw column := by
  have hfrom : commentColumnFrom? .initial 0 raw = some (0 + column) ↔ _ :=
    commentColumnFrom?_eq_some_iff
  rw [Nat.zero_add] at hfrom
  rw [commentColumn?, hfrom]
  exact ⟨fun ⟨hmark, hunquoted, hfirst⟩ => ⟨hmark, hunquoted, hfirst⟩,
    fun h => ⟨h.mark, h.unquoted, h.first⟩⟩

end ScriptAnalysis
