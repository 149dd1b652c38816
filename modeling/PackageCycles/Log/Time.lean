import PackageCycles.Text.Basic

/-!
# The time in a log

Moments are numbers of seconds since the start of 1970, and the log shows them as date and time of
day in universal time. Days are counted in eras of 400 years, after which the calendar repeats, and
years from March on, so that the day that is put in comes last.
-/

namespace PackageCycles.Log

/-- A date. -/
structure Date where
  /-- The year. -/
  year : Int
  /-- The month from 1 on. -/
  month : Nat
  /-- The day of the month from 1 on. -/
  day : Nat
  deriving DecidableEq

/-- The date that is a number of days after the first day of 1970. -/
def Date.ofDays (days : Int) : Date :=
  let shifted := days + 719468
  let era := shifted.fdiv 146097
  let ofEra := (shifted.fmod 146097).toNat
  let year := (ofEra - ofEra / 1460 + ofEra / 36524 - ofEra / 146096) / 365
  let ofYear := ofEra - (365 * year + year / 4 - year / 100)
  let month := (5 * ofYear + 2) / 153
  let day := ofYear - (153 * month + 2) / 5 + 1
  let january := 10 ≤ month
  { year := year + era * 400 + (if january then 1 else 0)
    month := if january then month - 9 else month + 3
    day := day }

/-- A number with zeros in front up to the given width. -/
def padded (width n : Nat) : Text :=
  let digits := Text.ofNat n
  List.replicate (width - digits.length) (Text.byte '0') ++ digits

/-- The moment a number of seconds after the start of 1970. -/
def timeOf (seconds : Int) : Text :=
  let date := Date.ofDays (seconds.fdiv 86400)
  let rest := (seconds.fmod 86400).toNat
  padded 4 date.year.toNat ++ "-" ++ padded 2 date.month ++ "-" ++ padded 2 date.day ++ "T" ++
    padded 2 (rest / 3600) ++ ":" ++ padded 2 (rest / 60 % 60) ++ ":" ++ padded 2 (rest % 60) ++ "Z"

end PackageCycles.Log
