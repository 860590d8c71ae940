/-!
Points in time as seconds and nanoseconds from the start of 1970, and their text in the calendar
of the internet (year, month, day and time of day at offset zero).
-/

namespace SoftConfirm

structure Timestamp where
  seconds : UInt64
  nanoseconds : Nat
  deriving DecidableEq, Repr

namespace Timestamp

def padded (width n : Nat) : String :=
  let digits := toString n
  String.ofList (List.replicate (width - digits.length) '0') ++ digits

-- The year, month and day that lie so many days after the start of 1970.
def civilDate (days : Nat) : Nat × Nat × Nat :=
  -- Years start in March here, so that a leap day is the last day of its year.
  let shifted := days + 719468
  let era := shifted / 146097
  let dayOfEra := shifted % 146097
  let yearOfEra := (dayOfEra - dayOfEra / 1460 + dayOfEra / 36524 - dayOfEra / 146096) / 365
  let dayOfYear := dayOfEra - (365 * yearOfEra + yearOfEra / 4 - yearOfEra / 100)
  let month := (5 * dayOfYear + 2) / 153
  let day := dayOfYear - (153 * month + 2) / 5 + 1
  let civilMonth := if month < 10 then month + 3 else month - 9
  (yearOfEra + 400 * era + (if civilMonth ≤ 2 then 1 else 0), civilMonth, day)

-- A point and three, six or nine digits, as many as the fraction of a second needs.
def fraction (nanoseconds : Nat) : String :=
  if nanoseconds = 0 then ""
  else if nanoseconds % 1000000 = 0 then "." ++ padded 3 (nanoseconds / 1000000)
  else if nanoseconds % 1000 = 0 then "." ++ padded 6 (nanoseconds / 1000)
  else "." ++ padded 9 nanoseconds

def render (t : Timestamp) : String :=
  let seconds := t.seconds.toNat
  let (year, month, day) := civilDate (seconds / 86400)
  let time := seconds % 86400
  padded 4 year ++ "-" ++ padded 2 month ++ "-" ++ padded 2 day ++ "T" ++
    padded 2 (time / 3600) ++ ":" ++ padded 2 (time / 60 % 60) ++ ":" ++ padded 2 (time % 60) ++
    fraction t.nanoseconds ++ "+00:00"

end Timestamp

end SoftConfirm
