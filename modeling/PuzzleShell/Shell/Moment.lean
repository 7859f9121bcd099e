/-!
# Dates

A moment of the Gregorian calendar and the text in which it is shown.
-/

namespace PuzzleShell

structure Moment where
  year : Nat
  month : Nat
  day : Nat
  hour : Nat
  minute : Nat
  second : Nat
deriving DecidableEq, Repr

namespace Moment

/-- The moment that is meant where none is given. -/
instance : Inhabited Moment := ⟨⟨2024, 1, 15, 10, 30, 0⟩⟩

def weekdayNames : List String := ["Sun", "Mon", "Tue", "Wed", "Thu", "Fri", "Sat"]

def monthNames : List String :=
  ["Jan", "Feb", "Mar", "Apr", "May", "Jun", "Jul", "Aug", "Sep", "Oct", "Nov", "Dec"]

/-- By how many weekdays the first of a month is ahead of the first of January, where January and
February count as the last months of the year before. -/
def monthShift : List Nat := [0, 3, 2, 5, 0, 3, 5, 1, 4, 6, 2, 4]

/-- The day of the week, from Sunday on. -/
def weekday (m : Moment) : Nat :=
  let y := if m.month < 3 then m.year - 1 else m.year
  (y + y / 4 - y / 100 + y / 400 + monthShift.getD (m.month - 1) 0 + m.day) % 7

def twoDigits (n : Nat) : String := if n < 10 then "0" ++ toString n else toString n

def text (m : Moment) : String :=
  let clock := ":".intercalate [twoDigits m.hour, twoDigits m.minute, twoDigits m.second]
  " ".intercalate [weekdayNames.getD m.weekday "", monthNames.getD (m.month - 1) "",
    twoDigits m.day, clock, "UTC", toString m.year]

end Moment

end PuzzleShell
