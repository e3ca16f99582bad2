/-!
# Dates

The date and the time of day of a number of milliseconds since the beginning of 1970, in the Gregorian
calendar without a time zone. Times in years beyond the calendar stay numbers.
-/

namespace QueryPlayground.CommandLine

/-! ## §1 Days -/

structure Date where
  year : Int
  /-- The month, from one. -/
  month : Nat
  /-- The day of the month, from one. -/
  day : Nat
  deriving DecidableEq, Repr

/-- The date of a number of days since the beginning of 1970. It counts from the first of March of
the year zero, in eras of four hundred years. -/
def Date.ofDays (days : Int) : Date :=
  let z := days + 719468
  let era := z.fdiv 146097
  let doe := (z - era * 146097).toNat
  let yoe := (doe - doe / 1460 + doe / 36524 - doe / 146096) / 365
  let doy := doe - (365 * yoe + yoe / 4 - yoe / 100)
  let mp := (5 * doy + 2) / 153
  let month := if mp < 10 then mp + 3 else mp - 9
  ⟨yoe + era * 400 + (if month ≤ 2 then 1 else 0), month, doy - (153 * mp + 2) / 5 + 1⟩

/-- The first and the last year of the calendar. -/
def yearRange : Int × Int := (-262143, 262142)

/-! ## §2 Texts -/

/-- A number with zeros in front up to a width. -/
def padded (width n : Nat) : String :=
  let digits := toString n
  String.ofList (List.replicate (width - digits.length) '0') ++ digits

/-- A year, with a sign unless it has four digits. -/
def yearText (year : Int) : String :=
  if 0 ≤ year && year ≤ 9999 then padded 4 year.toNat
  else (if year < 0 then "-" else "+") ++ padded 4 year.natAbs

/-- A time in milliseconds. -/
def timeText (millis : Int) : String :=
  let seconds := millis.fdiv 1000
  let days := seconds.fdiv 86400
  let rest := (seconds - days * 86400).toNat
  let date := Date.ofDays days
  if date.year < yearRange.1 || yearRange.2 < date.year then toString millis
  else
    yearText date.year ++ "-" ++ padded 2 date.month ++ "-" ++ padded 2 date.day ++ " " ++
      padded 2 (rest / 3600) ++ ":" ++ padded 2 (rest / 60 % 60) ++ ":" ++ padded 2 (rest % 60)

end QueryPlayground.CommandLine
