import Listing.Text.Digit

/-!
# Dates

`Date` is a day of the Gregorian calendar in the years 1 to 9999. `Date.dayNumber` counts days from
1 January of the year 1, which is day 1, and `Date.ofDayNumber?` goes back; `Date.ofWeek?` finds a
day by week of the year and day of the week. `Date.toText` writes year, month and day with hyphens.
-/

namespace Listing

/-- A day of the calendar. -/
structure Date where
  year : Nat
  month : Nat
  day : Nat
  deriving DecidableEq

namespace Date

/-- Does the year have a 29 February? -/
def isLeap (year : Nat) : Bool := year % 4 == 0 && (year % 100 != 0 || year % 400 == 0)

/-- The number of days of a month. -/
def monthLength (year month : Nat) : Nat :=
  if month = 2 then (if isLeap year then 29 else 28)
  else if month = 4 || month = 6 || month = 9 || month = 11 then 30
  else 31

/-- The date with these numbers, if there is one. -/
def ofNumbers? (year month day : Nat) : Option Date :=
  if 1 ≤ year && year ≤ 9999 && 1 ≤ month && month ≤ 12 && 1 ≤ day && day ≤ monthLength year month
  then some ⟨year, month, day⟩ else none

/-- The number of days before 1 January of a year. -/
def daysBeforeYear (year : Nat) : Nat :=
  let y := year - 1
  y * 365 + y / 4 - y / 100 + y / 400

/-- The number of days of a year before a month. -/
def daysBeforeMonth (year month : Nat) : Nat :=
  (List.range (month - 1)).foldl (fun days m => days + monthLength year (m + 1)) 0

/-- The number of the day; 1 January of the year 1 is day 1. -/
def dayNumber (d : Date) : Nat := daysBeforeYear d.year + daysBeforeMonth d.year d.month + d.day

/-- The month and day of the `n`-th day of a year, the first having number 1, from month `m` on. -/
def inYear? (year n : Nat) : Nat → Nat → Option Date
  | 0, _ => none
  | fuel + 1, m =>
    if n ≤ monthLength year m then ofNumbers? year m n
    else inYear? year (n - monthLength year m) fuel (m + 1)

/-- The day with a number, if it lies in the years 1 to 9999. -/
def ofDayNumber? (n : Nat) : Option Date :=
  -- 400 years have 146097 days, so the year is the guess or one of its neighbours
  let guess := (n - 1) * 400 / 146097
  match [guess + 2, guess + 1, guess].find? fun y => 1 ≤ y && daysBeforeYear y < n with
  | some y => inYear? y (n - daysBeforeYear y) 12 1
  | none => none

/-- The day of the week of day `n`, Monday being 0. -/
def weekday (n : Nat) : Nat := (n + 6) % 7

/-- Is 53 a week number of the year? -/
def hasLongWeekYear (year : Nat) : Bool :=
  let first := weekday (daysBeforeYear year + 1)
  first == 3 || (first == 2 && isLeap year)

/-- The day found by year, week and day of the week, Monday being 1. Week 1 holds the first
Thursday. -/
def ofWeek? (year week day : Nat) : Option Date :=
  if year = 0 || week = 0 || 53 < week || (week = 53 && !hasLongWeekYear year) ||
      day = 0 || 7 < day then none
  else
    let newYear := daysBeforeYear year + 1
    let first := weekday newYear
    -- the Monday of week 1 may lie in the year before, even before day 1
    let monday : Int := (newYear : Int) - first + (if 3 < first then 7 else 0)
    let n := monday + ((week - 1) * 7 + (day - 1) : Nat)
    if n < 1 then none else ofDayNumber? n.toNat

/-- A number with at least `width` digits. -/
def padded (width n : Nat) : List Char :=
  let ds := Text.natDigits n
  List.replicate (width - ds.length) '0' ++ ds

/-- The text of a date. -/
def toChars (d : Date) : List Char :=
  padded 4 d.year ++ '-' :: padded 2 d.month ++ '-' :: padded 2 d.day

/-- The text of a date. -/
def toText (d : Date) : String := String.ofList d.toChars

end Date

end Listing
