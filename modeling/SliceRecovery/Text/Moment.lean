/-!
# SliceRecovery.Text.Moment -- moments as texts

A moment is a number of seconds since the start of 1970 and a part of a second in nanoseconds. It
is written in UTC with as many digits of the part as thousandths, millionths or billionths need.
-/

namespace SliceRecovery.Text.Moment

def isLeap (year : Nat) : Bool := year % 4 = 0 && (year % 100 ≠ 0 || year % 400 = 0)

def daysOfYear (year : Nat) : Nat := if isLeap year then 366 else 365

def daysOfMonths (year : Nat) : List Nat :=
  [31, if isLeap year then 29 else 28, 31, 30, 31, 30, 31, 31, 30, 31, 30, 31]

/-- The year of a day counted from the start of a year, and the day in that year. -/
def yearOf : (fuel year days : Nat) → Nat × Nat
  | 0, year, days => (year, days)
  | fuel + 1, year, days =>
    if days < daysOfYear year then (year, days) else yearOf fuel (year + 1) (days - daysOfYear year)

/-- The month of a day counted from the start of a month, and the day in that month. -/
def monthOf : (lengths : List Nat) → (month days : Nat) → Nat × Nat
  | [], month, days => (month, days)
  | n :: lengths, month, days =>
    if days < n then (month, days) else monthOf lengths (month + 1) (days - n)

/-- A number filled up with zeros. -/
def digits (width n : Nat) : String :=
  let s := toString n
  String.ofList (List.replicate (width - s.length) '0') ++ s

/-- The part of a second behind its point, if there is one. -/
def fraction (nanos : Nat) : String :=
  if nanos = 0 then ""
  else if nanos % 1000000 = 0 then "." ++ digits 3 (nanos / 1000000)
  else if nanos % 1000 = 0 then "." ++ digits 6 (nanos / 1000)
  else "." ++ digits 9 nanos

/-- A moment in UTC. -/
def write (seconds nanos : Nat) : String :=
  let days := seconds / 86400
  let second := seconds % 86400
  let (year, dayOfYear) := yearOf days 1970 days
  let (month, day) := monthOf (daysOfMonths year) 1 dayOfYear
  digits 4 year ++ "-" ++ digits 2 month ++ "-" ++ digits 2 (day + 1) ++ "T"
    ++ digits 2 (second / 3600) ++ ":" ++ digits 2 (second / 60 % 60) ++ ":" ++ digits 2 (second % 60)
    ++ fraction nanos ++ "+00:00"

end SliceRecovery.Text.Moment
