/-!
# The calendar

## Contents

- **`isLeapYear`**, **`daysIn`**: the lengths of years and months.
- **`dateExists`**, **`timeExists`**, **`offsetExists`**: the numbers of a date, of a time of day and of the
  offset of a time zone are in range.
-/

namespace LetterGrammar

/-- The year has a leap day. -/
def isLeapYear (year : Nat) : Bool :=
  year % 4 = 0 && (year % 100 ≠ 0 || year % 400 = 0)

/-- The number of days of a month. -/
def daysIn (year month : Nat) : Nat :=
  if month = 2 then (if isLeapYear year then 29 else 28)
  else if [4, 6, 9, 11].contains month then 30
  else 31

/-- The date exists. -/
def dateExists (year month day : Nat) : Bool :=
  1 ≤ month && month ≤ 12 && 1 ≤ day && day ≤ daysIn year month

/-- The time of day exists. -/
def timeExists (hour minute second : Nat) : Bool :=
  hour < 24 && minute < 60 && second < 60

/-- The offset exists; a full day and a full hour are taken for one. -/
def offsetExists (hours minutes : Nat) : Bool :=
  hours ≤ 24 && minutes ≤ 60

end LetterGrammar
