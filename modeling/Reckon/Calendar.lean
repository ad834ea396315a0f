/-!
# Calendar

Journal lines carry a date and a time of day, given as seconds since the start
of 1970. The day number is turned into a date of the Gregorian calendar, whose
pattern of leap years repeats every 400 years, that is, every 146097 days.
Within such a period years are counted from March, so that the leap day is the
last day of a year and the lengths of the months before it follow one arithmetic
rule.
-/

namespace Reckon.Calendar

/-- A date of the Gregorian calendar. -/
structure Date where
  year : Int
  month : Nat
  day : Nat
  deriving DecidableEq, Repr

/-- The days of a period of 400 years. -/
def daysInPeriod : Nat := 146097

/-- The days from the first of March of the year 0 to the first of January
1970. -/
def daysBefore1970 : Int := 719468

/-- The date of a day, counted from the first of January 1970. -/
def Date.ofDay (day : Int) : Date :=
  let shifted := day + daysBefore1970
  let period := Int.fdiv shifted daysInPeriod
  let dayOfPeriod := (Int.fmod shifted daysInPeriod).toNat
  let yearOfPeriod :=
    (dayOfPeriod - dayOfPeriod / 1460 + dayOfPeriod / 36524 - dayOfPeriod / 146096) / 365
  let dayOfYear := dayOfPeriod - (365 * yearOfPeriod + yearOfPeriod / 4 - yearOfPeriod / 100)
  let monthFromMarch := (5 * dayOfYear + 2) / 153
  let month := if monthFromMarch < 10 then monthFromMarch + 3 else monthFromMarch - 9
  { year := period * 400 + yearOfPeriod + (if month ≤ 2 then 1 else 0)
    month
    day := dayOfYear - (153 * monthFromMarch + 2) / 5 + 1 }

/-- The calendar repeats every 400 years. A period more leaves the day of the
period as it is, on which month and day depend, and only the year counts the
periods that have passed. -/
theorem ofDay_add_daysInPeriod (day : Int) :
    Date.ofDay (day + daysInPeriod) =
      { Date.ofDay day with year := (Date.ofDay day).year + 400 } := by
  have shifted : day + daysInPeriod + daysBefore1970 = day + daysBefore1970 + daysInPeriod := by
    omega
  have same : Int.fmod (day + daysBefore1970 + daysInPeriod) daysInPeriod =
      Int.fmod (day + daysBefore1970) daysInPeriod :=
    Int.add_fmod_right _ _
  have next : Int.fdiv (day + daysBefore1970 + daysInPeriod) daysInPeriod =
      Int.fdiv (day + daysBefore1970) daysInPeriod + 1 := by
    rw [Int.fdiv_eq_ediv_of_nonneg _ (by decide), Int.fdiv_eq_ediv_of_nonneg _ (by decide),
      Int.add_ediv_of_dvd_right (Int.dvd_refl _), Int.ediv_self (by decide)]
  simp only [Date.ofDay, shifted, same, next, Date.mk.injEq, and_true]
  omega

/-- Every date has one of the twelve months and a day that a month can have, so
that both fit into two digits. All of it is read off the day of the period,
which is below its length. -/
theorem ofDay_inRange (day : Int) :
    (1 ≤ (Date.ofDay day).month ∧ (Date.ofDay day).month ≤ 12) ∧
      1 ≤ (Date.ofDay day).day ∧ (Date.ofDay day).day ≤ 31 := by
  simp only [Date.ofDay]
  have inPeriod : (Int.fmod (day + daysBefore1970) daysInPeriod).toNat < 146097 := by
    have below := Int.fmod_lt_of_pos (day + daysBefore1970) (by decide : 0 < (daysInPeriod : Int))
    rw [Int.toNat_lt (Int.fmod_nonneg_of_pos _ (by decide))]
    exact below
  generalize (Int.fmod (day + daysBefore1970) daysInPeriod).toNat = dayOfPeriod at *
  refine ⟨⟨?_, ?_⟩, ?_, ?_⟩ <;> (try split) <;> omega

example : Date.ofDay 11016 = { year := 2000, month := 2, day := 29 } := by decide

/-- A number in decimal, filled with zeros up to a width. -/
def padded (width number : Nat) : String :=
  let digits := Nat.toDigits 10 number
  String.ofList (List.replicate (width - digits.length) '0' ++ digits)

/-- Date and time of day of a moment, given in seconds since the start of 1970.
All parts but the year have two digits; the year has as many as it needs. -/
def timestamp (moment : Int) : String :=
  let date := Date.ofDay (Int.fdiv moment 86400)
  let second := (Int.fmod moment 86400).toNat
  let year := toString date.year
  let month := padded 2 date.month
  let day := padded 2 date.day
  let hour := padded 2 (second / 3600)
  let minute := padded 2 (second / 60 % 60)
  let rest := padded 2 (second % 60)
  s!"{year}-{month}-{day} {hour}:{minute}:{rest}"

end Reckon.Calendar
