import Listing.Calendar.Moment

/-!
# Reading dates and moments

`Date.ofText?` reads a day written as year, month and day or as year, week and day of the week, with
hyphens or without. `Moment.ofText?` reads such a day, any one character, and a time of day: hours,
then minutes and seconds as far as they are given, with colons or without, a fraction of a second
after a point or a comma (even where no seconds are given), and a distance from universal time or a
`Z`. Where the day alone is given the time is midnight.
-/

namespace Listing.Calendar

/-- A number of exactly `n` digits, and the rest. -/
def digits? (n : Nat) (cs : List Char) : Option (Nat × List Char) :=
  let ds := cs.take n
  if ds.length = n && ds.all Text.isAsciiDigit then
    some (Text.ofDigits (ds.map fun c => c.toNat - 48), cs.drop n)
  else none

/-- The rest after a hyphen, if one is due. -/
def hyphen? (due : Bool) (cs : List Char) : Option (List Char) :=
  if !due then some cs
  else match cs with
    | '-' :: rest => some rest
    | _ => none

/-- A day at the beginning of the characters. Where the week of the year is given without a day of
the week, the day is a Monday. -/
def day? (cs : List Char) : Option Date := do
  let (year, rest) ← digits? 4 cs
  let hyphens := rest.head? == some '-'
  let rest := if hyphens then rest.drop 1 else rest
  match rest with
  | 'W' :: rest =>
    let (week, rest) ← digits? 2 rest
    if rest.isEmpty then Date.ofWeek? year week 1
    else
      let rest ← hyphen? hyphens rest
      let (day, _) ← digits? 1 rest
      Date.ofWeek? year week day
  | rest =>
    let (month, rest) ← digits? 2 rest
    let rest ← hyphen? hyphens rest
    let (day, _) ← digits? 2 rest
    Date.ofNumbers? year month day

/-- Hours, minutes, seconds and microseconds as they were read, and whether nothing is left. -/
structure Clock where
  hour : Nat
  minute : Nat
  second : Nat
  micro : Nat
  complete : Bool

/-- Is the text over here? A null character ends it. -/
def isOver (cs : List Char) : Bool := cs.isEmpty || cs.head? == some '\x00'

/-- A fraction of a second, in microseconds: at most six digits count, further ones are passed
over. The second part tells whether nothing is left. -/
def fraction? (cs : List Char) : Option (Nat × Bool) := do
  let n := min cs.length 6
  let (value, rest) ← digits? n cs
  some (value * Nat.pow 10 (6 - n), isOver (rest.dropWhile Text.isAsciiDigit))

/-- How a time of day goes on after one of its numbers. -/
inductive Continuation
  /-- Nothing follows, or a single character that belongs to nothing. -/
  | over (complete : Bool)
  /-- A fraction of a second follows. -/
  | fraction (rest : List Char)
  /-- The next number follows. -/
  | number (rest : List Char)

/-- What follows a number decides how the time goes on: nothing, a colon where the first number was
followed by one, a point or a comma, or, without colons, the next number. -/
def continuation? (colons : Bool) : List Char → Option Continuation
  | [] => some (.over true)
  | c :: more =>
    if more.isEmpty && c.toNat < 128 then some (.over (isOver [c]))
    else if colons && c == ':' then some (.number more)
    else if c == '.' || c == ',' then some (.fraction more)
    else if colons then none
    else some (.number (c :: more))

/-- Read a time of day. A fraction of a second may follow any of its numbers. A single character
that is left over is not an error here. -/
def clock? (cs : List Char) : Option Clock := do
  let (hour, rest) ← digits? 2 cs
  let colons := rest.head? == some ':'
  match ← continuation? colons rest with
  | .over complete => some ⟨hour, 0, 0, 0, complete⟩
  | .fraction rest =>
    let (micro, complete) ← fraction? rest
    some ⟨hour, 0, 0, micro, complete⟩
  | .number rest =>
    let (minute, rest) ← digits? 2 rest
    match ← continuation? colons rest with
    | .over complete => some ⟨hour, minute, 0, 0, complete⟩
    | .fraction rest =>
      let (micro, complete) ← fraction? rest
      some ⟨hour, minute, 0, micro, complete⟩
    | .number rest =>
      let (second, rest) ← digits? 2 rest
      match ← continuation? colons rest with
      | .over complete => some ⟨hour, minute, second, 0, complete⟩
      | .fraction rest | .number rest =>
        let (micro, complete) ← fraction? rest
        some ⟨hour, minute, second, micro, complete⟩

/-- Does the character begin a distance from universal time? -/
def opensOffset (c : Char) : Bool := c == '+' || c == '-' || c == 'Z'

/-- The distance from universal time after its first character `c`, in microseconds. -/
def offset? (c : Char) (cs : List Char) : Option Int :=
  if c = 'Z' then (if isOver cs then some 0 else none)
  else do
    let t ← clock? cs
    if !t.complete then none
    else
      let seconds := (t.hour * 60 + t.minute) * 60 + t.second
      -- without whole seconds a fraction of one does not count
      let n : Int := if seconds = 0 then 0 else (seconds * Moment.microsPerSecond + t.micro : Nat)
      some (if c = '-' then -n else n)

/-- How many characters the day takes up. Only week dates leave a choice: with hyphens, a digit
after `YYYY-Www-` and one more character belongs to the time; without, an odd run of digits after
the week ends with the day of the week. -/
def dayLength (cs : List Char) : Nat :=
  if cs.length = 7 then 7
  else if cs[4]? == some '-' then
    if cs[5]? == some 'W' then
      if cs[8]? == some '-' then
        if ((cs[10]?).map Text.isAsciiDigit).getD false then 8 else 10
      else 8
    else 10
  else if cs[4]? == some 'W' then
    let pos := 7 + ((cs.drop 7).takeWhile Text.isAsciiDigit).length
    if pos < 9 then pos else if pos % 2 == 0 then 7 else 8
  else 8

end Listing.Calendar

namespace Listing

/-- Read a date. The text has the length in octets of one of the forms; what follows the day within
that length is passed over. -/
def Date.ofText? (s : String) : Option Date :=
  let n := s.utf8ByteSize
  if n = 7 || n = 8 || n = 10 then Calendar.day? s.toList else none

/-- Read a moment. -/
def Moment.ofText? (s : String) : Option Moment := do
  let cs := s.toList
  if s.utf8ByteSize < 7 then none
  else
    let n := Calendar.dayLength cs
    let date ← Calendar.day? (cs.take n)
    let time := cs.drop (n + 1)
    if cs.length ≤ n then Moment.ofNumbers? date 0 0 0 0 none
    else
      let zone := time.dropWhile fun c => !Calendar.opensOffset c
      let t ← Calendar.clock? (time.takeWhile fun c => !Calendar.opensOffset c)
      match zone with
      | [] =>
        if t.complete then Moment.ofNumbers? date t.hour t.minute t.second t.micro none else none
      | c :: rest =>
        let o ← Calendar.offset? c rest
        Moment.ofNumbers? date t.hour t.minute t.second t.micro (some o)

end Listing
