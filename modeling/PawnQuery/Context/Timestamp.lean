/-!
# Points in time

A point in time as seconds since 1970 began, with nanoseconds, and its text in the Gregorian
calendar.
-/

namespace PawnQuery.Context

structure Timestamp where
  seconds : Int
  nanoseconds : Nat := 0
deriving DecidableEq, Repr, Inhabited

structure Date where
  year : Int
  month : Nat
  day : Nat
deriving DecidableEq, Repr

/-- The day that lies `days` after the first of January 1970.  Years are counted from March on in
eras of 400, so that the leap day comes last. -/
def Date.ofDays (days : Int) : Date :=
  let shifted := days + 719468
  let era := shifted.fdiv 146097
  let dayOfEra := (shifted.fmod 146097).toNat
  let yearOfEra :=
    (dayOfEra - dayOfEra / 1460 + dayOfEra / 36524 - dayOfEra / 146096) / 365
  let dayOfYear := dayOfEra - (365 * yearOfEra + yearOfEra / 4 - yearOfEra / 100)
  let shiftedMonth := (5 * dayOfYear + 2) / 153
  let day := dayOfYear - (153 * shiftedMonth + 2) / 5 + 1
  let month := if shiftedMonth < 10 then shiftedMonth + 3 else shiftedMonth - 9
  let year := (yearOfEra : Int) + era * 400 + (if month ≤ 2 then 1 else 0)
  ⟨year, month, day⟩

def padded (width n : Nat) : String :=
  let digits := toString n
  String.ofList (List.replicate (width - digits.length) '0') ++ digits

/-- A year with at least four digits, and with a sign if it is not one of four digits. -/
def yearText (year : Int) : String :=
  if 0 ≤ year ∧ year ≤ 9999 then padded 4 year.toNat
  else (if year < 0 then "-" else "+") ++ padded 4 year.natAbs

namespace Timestamp

def date (t : Timestamp) : Date := .ofDays (t.seconds.fdiv 86400)

def secondOfDay (t : Timestamp) : Nat := (t.seconds.fmod 86400).toNat

def dateText (t : Timestamp) : String :=
  let d := t.date
  yearText d.year ++ "-" ++ padded 2 d.month ++ "-" ++ padded 2 d.day

def timeText (t : Timestamp) : String :=
  let s := t.secondOfDay
  padded 2 (s / 3600) ++ ":" ++ padded 2 (s / 60 % 60) ++ ":" ++ padded 2 (s % 60)

/-- The fraction of the second with as few groups of three digits as it needs. -/
def fractionText (t : Timestamp) : String :=
  let n := t.nanoseconds
  if n = 0 then ""
  else if n % 1000000 = 0 then "." ++ padded 3 (n / 1000000)
  else if n % 1000 = 0 then "." ++ padded 6 (n / 1000)
  else "." ++ padded 9 n

def interchange (t : Timestamp) : String :=
  t.dateText ++ "T" ++ t.timeText ++ t.fractionText ++ "Z"

def display (t : Timestamp) : String := t.dateText ++ " " ++ t.timeText ++ " UTC"

end Timestamp

end PawnQuery.Context
