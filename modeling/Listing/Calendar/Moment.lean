import Listing.Calendar.Date

/-!
# Moments

`Moment` is a day with a time of day to the microsecond and, possibly, a distance from universal
time. `Moment.instant` is its place on one time line, universal time where the distance is known.
`Moment.toText` writes it with a separator of choice between the day and the time; the fraction of
a second and the seconds of the distance appear only where they are not zero.
-/

namespace Listing

/-- A day with a time of day. -/
structure Moment where
  date : Date
  hour : Nat
  minute : Nat
  second : Nat
  micro : Nat
  /-- The distance from universal time in microseconds, positive to the east. -/
  offset : Option Int
  deriving DecidableEq

namespace Moment

/-- The number of microseconds of a second. -/
def microsPerSecond : Nat := 1000000

/-- The number of microseconds of a day. -/
def microsPerDay : Nat := 86400 * microsPerSecond

/-- The moment with these numbers, if there is one. -/
def ofNumbers? (date : Date) (hour minute second micro : Nat) (offset : Option Int) :
    Option Moment :=
  let far := match offset with
    | some o => decide (microsPerDay ≤ o.natAbs)
    | none => false
  if 24 ≤ hour || 60 ≤ minute || 60 ≤ second || microsPerSecond ≤ micro || far then none
  else some ⟨date, hour, minute, second, micro, offset⟩

/-- Microseconds since the start of 1 January of the year 1, in universal time if the distance from
it is known. -/
def instant (m : Moment) : Int :=
  ((m.date.dayNumber - 1) * microsPerDay +
    ((m.hour * 60 + m.minute) * 60 + m.second) * microsPerSecond + m.micro : Nat) -
    m.offset.getD 0

/-- A fraction of a second, if it is not zero. -/
def fraction (micro : Nat) : List Char := if micro = 0 then [] else '.' :: Date.padded 6 micro

/-- The text of a distance from universal time. -/
def offsetChars (o : Int) : List Char :=
  let n := o.natAbs
  let seconds := n / microsPerSecond
  let tail := if seconds % 60 = 0 && n % microsPerSecond = 0 then []
    else ':' :: Date.padded 2 (seconds % 60) ++ fraction (n % microsPerSecond)
  (if o < 0 then '-' else '+') :: Date.padded 2 (seconds / 3600) ++
    ':' :: Date.padded 2 (seconds / 60 % 60) ++ tail

/-- The text of a moment, with `separator` between the day and the time. -/
def toChars (separator : Char) (m : Moment) : List Char :=
  m.date.toChars ++ separator :: Date.padded 2 m.hour ++ ':' :: Date.padded 2 m.minute ++
    ':' :: Date.padded 2 m.second ++ fraction m.micro ++ (m.offset.map offsetChars).getD []

/-- The text of a moment, with `separator` between the day and the time. -/
def toText (separator : Char) (m : Moment) : String := String.ofList (m.toChars separator)

/-- The moment without its distance from universal time. -/
def withoutOffset (m : Moment) : Moment := { m with offset := none }

end Moment

end Listing
