/-!
# Instants as text

An instant is a number of milliseconds since 1970 in the proleptic Gregorian calendar. `instant`
writes it in UTC to the millisecond. The calendar is computed from the number of days by counting
from the first of March of year 0, so that a leap day ends its year.
-/

namespace ChatRelay.Text

/-- A day of the calendar. -/
structure CivilDay where
  year : Int
  month : Nat
  day : Nat
  deriving DecidableEq, Repr

/-- The calendar day that lies `days` days after the first of January 1970. -/
def CivilDay.ofDays (days : Int) : CivilDay :=
  let shifted := days + 719468
  let era := shifted.fdiv 146097
  let dayOfEra := (shifted.fmod 146097).toNat
  let yearOfEra := (dayOfEra - dayOfEra / 1460 + dayOfEra / 36524 - dayOfEra / 146096) / 365
  let dayOfYear := dayOfEra - (365 * yearOfEra + yearOfEra / 4 - yearOfEra / 100)
  let monthFromMarch := (5 * dayOfYear + 2) / 153
  let day := dayOfYear - (153 * monthFromMarch + 2) / 5 + 1
  let month := if monthFromMarch < 10 then monthFromMarch + 3 else monthFromMarch - 9
  let year : Int := yearOfEra + era * 400
  ⟨if month ≤ 2 then year + 1 else year, month, day⟩

/-- Pad with leading zeros to at least `width` digits. -/
def zeroPadded (width n : Nat) : String :=
  let digits := toString n
  String.ofList (List.replicate (width - digits.length) '0') ++ digits

/-- An instant in UTC with a precision of one millisecond. -/
def instant (unixMillis : Int) : String :=
  let day := CivilDay.ofDays (unixMillis.fdiv 86400000)
  let millis := (unixMillis.fmod 86400000).toNat
  String.join
    [zeroPadded 4 day.year.toNat, "-", zeroPadded 2 day.month, "-", zeroPadded 2 day.day, "T",
      zeroPadded 2 (millis / 3600000), ":", zeroPadded 2 (millis / 60000 % 60), ":",
      zeroPadded 2 (millis / 1000 % 60), ".", zeroPadded 3 (millis % 1000), "Z"]

example : CivilDay.ofDays 0 = ⟨1970, 1, 1⟩ ∧ CivilDay.ofDays 19782 = ⟨2024, 2, 29⟩ ∧
    CivilDay.ofDays (-1) = ⟨1969, 12, 31⟩ := by decide

end ChatRelay.Text
