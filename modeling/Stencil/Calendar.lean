import Stencil.Number.Shortest

/-!
# Days and Moments

Calendar days, moments of a day, and their text.

Only days that exist can be built: `Day.of?` refuses a month or a day of the
month that the calendar does not have. A moment may carry the distance of its
clock from universal time, in seconds.

## Main definitions

* `Day`, `Moment`: A day, and a moment with microseconds.
* `Day.of?`, `Moment.of?`: The day or moment with given fields, if there is one.
* `Day.text`, `Moment.text`: The text, years first.

## Theorems

* `Day.of?_isSome_iff`: Exactly the days of the calendar can be built.
-/

namespace Stencil

/-- A day of the calendar. -/
structure Day where
  /-- The year. -/
  year : Nat
  /-- The month, from one. -/
  month : Nat
  /-- The day of the month, from one. -/
  day : Nat
  deriving DecidableEq, Repr, Inhabited

/-- A moment: a day and a time of day. -/
structure Moment where
  /-- The day. -/
  date : Day
  /-- The hour. -/
  hour : Nat
  /-- The minute. -/
  minute : Nat
  /-- The second. -/
  second : Nat
  /-- The microsecond. -/
  micro : Nat
  /-- How far the clock is ahead of universal time, in seconds, if known. -/
  offset : Option Int
  deriving DecidableEq, Repr, Inhabited

namespace Day

/-- The year has a twenty-ninth of February. -/
def isLeap (year : Nat) : Bool :=
  year % 4 == 0 && (year % 100 != 0 || year % 400 == 0)

/-- How many days a month has; none for a month that does not exist. -/
def monthLength (year month : Nat) : Nat :=
  if month == 2 then (if isLeap year then 29 else 28)
  else if month == 4 || month == 6 || month == 9 || month == 11 then 30
  else if 1 ≤ month && month ≤ 12 then 31
  else 0

/-- The day with given fields, if the calendar has it. -/
def of? (year month day : Nat) : Option Day :=
  if 1 ≤ year ∧ year ≤ 9999 ∧ 1 ≤ day ∧ day ≤ monthLength year month then
    some ⟨year, month, day⟩
  else none

theorem of?_isSome_iff (y m d : Nat) :
    (of? y m d).isSome ↔ 1 ≤ y ∧ y ≤ 9999 ∧ 1 ≤ d ∧ d ≤ monthLength y m := by
  unfold of?
  split <;> simp_all

/-- The text of a day: year, month and day with hyphens. -/
def text (d : Day) : String :=
  Layout.padZeros 4 d.year ++ "-" ++ Layout.padZeros 2 d.month ++ "-" ++ Layout.padZeros 2 d.day

/-- How many days come before a year's first day, counted from year one. -/
def daysBeforeYear (year : Nat) : Nat :=
  let y := year - 1
  365 * y + y / 4 - y / 100 + y / 400

/-- The number of a day, the first of year one being one. -/
def ordinal (d : Day) : Nat :=
  daysBeforeYear d.year +
    (List.range (d.month - 1)).foldl (fun n m => n + monthLength d.year (m + 1)) 0 + d.day

/-- Counts a day of the year off by months. -/
def ofDayOfYear (year day : Nat) : Nat → Nat → Day
  | 0, month => ⟨year, month, day⟩
  | left + 1, month =>
    if day ≤ monthLength year month then ⟨year, month, day⟩
    else ofDayOfYear year (day - monthLength year month) left (month + 1)

/-- The day with a given number. The year is estimated from the mean length
of a year and mended by at most one. -/
def ofOrdinal (n : Nat) : Day :=
  let guess := n * 400 / 146097 + 1
  let year := if n ≤ daysBeforeYear guess then guess - 1
    else if n > daysBeforeYear (guess + 1) then guess + 1 else guess
  ofDayOfYear year (n - daysBeforeYear year) 12 1

end Day

namespace Moment

/-- The moment with given fields, if the calendar and the clock have it. -/
def of? (date : Day) (hour minute second micro : Nat) (offset : Option Int) : Option Moment :=
  if hour < 24 ∧ minute < 60 ∧ second < 60 ∧ micro < 1000000 then
    some ⟨date, hour, minute, second, micro, offset⟩
  else none

/-- The text of an offset: sign, hours and minutes, and seconds if any. -/
def offsetText (seconds : Int) : String :=
  let n := seconds.natAbs
  let tail := if n % 60 == 0 then "" else ":" ++ Layout.padZeros 2 (n % 60)
  (if seconds < 0 then "-" else "+") ++ Layout.padZeros 2 (n / 3600) ++ ":" ++
    Layout.padZeros 2 (n / 60 % 60) ++ tail

/-- The text of a moment, with a mark between the day and the time. -/
def text (t : Moment) (mark : String) : String :=
  let micro := if t.micro == 0 then "" else "." ++ Layout.padZeros 6 t.micro
  t.date.text ++ mark ++ Layout.padZeros 2 t.hour ++ ":" ++ Layout.padZeros 2 t.minute ++ ":" ++
    Layout.padZeros 2 t.second ++ micro ++ (t.offset.map offsetText).getD ""

/-- The moment moved by a number of seconds on the same clock, if it stays in
the years of the calendar. -/
def shift? (t : Moment) (seconds : Int) : Option Moment :=
  let total := Int.ofNat (t.date.ordinal * 86400 + t.hour * 3600 + t.minute * 60 + t.second) +
    seconds
  if total < 86400 then none
  else
    let n := total.toNat
    let day := Day.ofOrdinal (n / 86400)
    let rest := n % 86400
    if day.year ≤ 9999 then
      some ⟨day, rest / 3600, rest / 60 % 60, rest % 60, t.micro, t.offset⟩
    else none

/-- The number of seconds of a moment in universal time. A clock without an
offset counts as universal. -/
def seconds (t : Moment) : Int :=
  Int.ofNat (t.date.ordinal * 86400 + t.hour * 3600 + t.minute * 60 + t.second) -
    t.offset.getD 0

end Moment

end Stencil
