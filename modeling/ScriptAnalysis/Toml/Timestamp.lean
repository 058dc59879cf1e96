import ScriptAnalysis.Toml.Reader

/-!
# Dates and times

A date, a time of day, or a date with a time and perhaps an offset, and the one way in which each
is written back: capital letters, the fraction without zeros at its end, and no negative zero
offset.
-/

namespace ScriptAnalysis

namespace Toml

open Reader

/-- A number with at least `width` decimal digits. -/
def padded (width number : Nat) : Text :=
  let digits := (Nat.repr number).toList
  List.replicate (width - digits.length) '0' ++ digits

/-- The number of days in a month. -/
def daysInMonth (year month : Nat) : Nat :=
  if month = 2 then
    if year % 4 = 0 ∧ (year % 100 ≠ 0 ∨ year % 400 = 0) then 29 else 28
  else if month ∈ [4, 6, 9, 11] then 30 else 31

/-- A day of the calendar. -/
def date : Reader Text := do
  let year ← digits 4
  char '-'
  let month ← digits 2
  char '-'
  let day ← digits 2
  guard (1 ≤ month ∧ month ≤ 12 ∧ 1 ≤ day ∧ day ≤ daysInMonth year month)
  return padded 4 year ++ '-' :: padded 2 month ++ '-' :: padded 2 day

/-- The fraction of a second, of which nine digits count. -/
def fraction : Reader Text := do
  char '.'
  let written ← takeWhile1 Char.isDigit
  -- Digits past the ninth are read and dropped, and zeros at the end of the others too.
  match ((written.take 9).reverse.dropWhile (· == '0')).reverse with
  | [] => return []
  | counted => return '.' :: counted

/-- A time of day. -/
def time : Reader Text := do
  let hour ← digits 2
  char ':'
  let minute ← digits 2
  char ':'
  let second ← digits 2
  -- A leap second is the sixtieth.
  guard (hour ≤ 23 ∧ minute ≤ 59 ∧ second ≤ 60)
  let part ← optional fraction
  return padded 2 hour ++ ':' :: padded 2 minute ++ ':' :: padded 2 second ++ part.getD []

/-- The distance from universal time. -/
def offset : Reader Text :=
  (do let _ ← satisfy (fun c => c == 'Z' || c == 'z'); return ['Z']) <|> do
    let sign ← satisfy (fun c => c == '+' || c == '-')
    let hour ← digits 2
    char ':'
    let minute ← digits 2
    guard (hour ≤ 23 ∧ minute ≤ 59)
    let shown := if hour = 0 ∧ minute = 0 then '+' else sign
    return shown :: padded 2 hour ++ ':' :: padded 2 minute

/-- A date, a time, or both. -/
def timestamp : Reader Text :=
  (do
    let day ← date
    let rest ← optional do
      let _ ← satisfy (fun c => c == 'T' || c == 't' || c == ' ')
      let clock ← time
      let shift ← optional offset
      return 'T' :: clock ++ shift.getD []
    return day ++ rest.getD []) <|> time

end Toml

end ScriptAnalysis
