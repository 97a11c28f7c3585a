import MazeDuel.Fault
import MazeDuel.Number.Double
/-!
Time stamps: dates and times of day in universal time, from the seconds since the start of 1970.
-/

namespace MazeDuel.Stamp

structure Date where
  year : Int
  month : Nat
  day : Nat
  deriving DecidableEq, Repr

/-- Days from the first of March of the year 0 to the start of 1970. -/
def epochOffset : Int := 719468

/-- The date of a day counted from the start of 1970. Years are counted from March, so that a leap
day is the last of its year; 400 years have always the same number of days. -/
def dateOfDay (days : Int) : Date :=
  let shifted := days + epochOffset
  let era := shifted.fdiv 146097
  let dayOfEra := (shifted.fmod 146097).toNat
  let yearOfEra := (dayOfEra - dayOfEra / 1460 + dayOfEra / 36524 - dayOfEra / 146096) / 365
  let dayOfYear := dayOfEra - (365 * yearOfEra + yearOfEra / 4 - yearOfEra / 100)
  let shiftedMonth := (5 * dayOfYear + 2) / 153
  let day := dayOfYear - (153 * shiftedMonth + 2) / 5 + 1
  let month := if shiftedMonth < 10 then shiftedMonth + 3 else shiftedMonth - 9
  ⟨(yearOfEra : Int) + era * 400 + (if month ≤ 2 then 1 else 0), month, day⟩

def two (n : Nat) : String := Number.padLeft '0' 2 (toString n)

/-- Seconds are counted up to this number. -/
def maxSeconds : Int := 0x8000000000000000

/-- Years are counted up to this number from the year 1900. -/
def maxYears : Int := 0x80000000

/-- The stamp of whole seconds and millionths; millionths are written only where there are any. -/
def text (seconds : Int) (millionths : Nat) : Except Fault String :=
  let date := dateOfDay (seconds.fdiv 86400)
  let time := (seconds.fmod 86400).toNat
  if seconds < -maxSeconds ∨ maxSeconds ≤ seconds then .error .numberTooLarge
  else if date.year - 1900 < -maxYears ∨ maxYears ≤ date.year - 1900 then .error .noSuchYear
  else if date.year < 1 ∨ 9999 < date.year then .error .noSuchDate
  else .ok (Number.padLeft '0' 4 (toString date.year) ++ "-" ++ two date.month ++ "-" ++
    two date.day ++ "T" ++ two (time / 3600) ++ ":" ++ two (time / 60 % 60) ++ ":" ++
    two (time % 60) ++
    (if millionths = 0 then "" else "." ++ Number.padLeft '0' 6 (toString millionths)) ++ "+00:00")

/-- The whole part of a float, toward zero, as a float, and what is left of it. -/
def split (x : Float) : Float × Float :=
  let whole := if x < 0 then x.ceil else x.floor
  (whole, x - whole)

/-- The nearest whole number; a half goes to the even neighbour. -/
def nearest (x : Float) : Option Int :=
  match Number.read x with
  | .finite negative mantissa exponent =>
    let (num, den) := Number.fraction mantissa exponent
    let n := Int.ofNat (Number.roundDiv num den)
    some (if negative then -n else n)
  | _ => none

/-- The stamp of a moment, to the nearest millionth of a second. -/
def ofQuantity (q : Quantity) : Except Fault String :=
  match q with
  | .real x =>
    let (whole, rest) := split x
    match nearest whole, nearest (rest * 1e6) with
    | some seconds, some millionths =>
      let total := seconds * 1000000 + millionths
      text (total.fdiv 1000000) (total.fmod 1000000).toNat
    | _, _ => .error (if x.isNaN then .noSuchDate else .numberTooLarge)
  | q => text (q.toInt?.getD 0) 0

end MazeDuel.Stamp
