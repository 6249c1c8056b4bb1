import TypedSql.Text.Numeral

/-!
# Dates and times of day

Dates of the proleptic Gregorian calendar with years from -262143 to 262142, and moments with a
precision of one nanosecond. The text of a moment shows its second only. A minute may have a leap
second, numbered 60, which is counted as the nanoseconds from 1000000000 on of the second before.
-/

namespace TypedSql

/-- Whether a year has a 29th of February. -/
def isLeapYear (year : Int) : Bool := year % 4 = 0 && (year % 100 ≠ 0 || year % 400 = 0)

/-- The number of days of a month; 0 if there is no such month. -/
def daysInMonth (year : Int) (month : Nat) : Nat :=
  if month = 2 then
    if isLeapYear year then 29 else 28
  else if month ∈ [4, 6, 9, 11] then 30
  else if 1 ≤ month ∧ month ≤ 12 then 31
  else 0

/-- Whether the calendar has a day of that year, month and day. -/
def DayExists (year : Int) (month day : Nat) : Prop :=
  -262143 ≤ year ∧ year ≤ 262142 ∧ 1 ≤ day ∧ day ≤ daysInMonth year month

instance (year : Int) (month day : Nat) : Decidable (DayExists year month day) := by
  unfold DayExists; infer_instance

/-- A day of the calendar. -/
structure Date where
  /-- The year; year 0 precedes year 1. -/
  year : Int
  /-- The month, from 1 to 12. -/
  month : Nat
  /-- The day of the month, from 1 on. -/
  day : Nat
  /-- The day is one of the calendar. -/
  dayExists : DayExists year month day
  deriving DecidableEq

/-- A moment of a day. -/
structure DateTime where
  /-- The day. -/
  date : Date
  /-- The hour, from 0 to 23. -/
  hour : Nat
  /-- The minute, from 0 to 59. -/
  minute : Nat
  /-- The second, from 0 to 59. -/
  second : Nat
  /-- The nanoseconds since the second began; from 1000000000 on they are those of a leap second. -/
  nanosecond : Nat
  hour_lt : hour < 24
  minute_lt : minute < 60
  second_lt : second < 60
  nanosecond_lt : nanosecond < 2000000000
  deriving DecidableEq

open Text (padded)

/-- A year in four digits; outside 0 to 9999 with its sign and at least four digits. -/
def yearChars (year : Int) : List Char :=
  if 0 ≤ year ∧ year ≤ 9999 then padded 4 year.toNat
  else if 0 ≤ year then '+' :: padded 4 year.toNat
  else '-' :: padded 4 (-year).toNat

namespace Date

/-- A date as `YYYY-MM-DD`. -/
def chars (d : Date) : List Char :=
  yearChars d.year ++ '-' :: padded 2 d.month ++ '-' :: padded 2 d.day

/-- A date as `YYYY-MM-DD`. -/
def text (d : Date) : String := String.ofList d.chars

end Date

namespace DateTime

/-- The moment at which a second of a day begins, where the second 60 is a leap second. -/
def atSecond (date : Date) (hour minute second : Nat)
    (h : hour < 24 ∧ minute < 60 ∧ second ≤ 60) : DateTime where
  date
  hour
  minute
  second := min second 59
  nanosecond := if second = 60 then 1000000000 else 0
  hour_lt := h.1
  minute_lt := h.2.1
  second_lt := by omega
  nanosecond_lt := by split <;> omega

/-- The number of the second that a moment is in, from 0 to 60. -/
def shownSecond (t : DateTime) : Nat := t.second + t.nanosecond / 1000000000

/-- The time of day as `HH:MM:SS`. -/
def timeChars (t : DateTime) : List Char :=
  padded 2 t.hour ++ ':' :: padded 2 t.minute ++ ':' :: padded 2 t.shownSecond

/-- A moment as date and time with a character in between. -/
def chars (separator : Char) (t : DateTime) : List Char := t.date.chars ++ separator :: t.timeChars

/-- A moment as `YYYY-MM-DDTHH:MM:SS`, the form of expressions. -/
def text (t : DateTime) : String := String.ofList (t.chars 'T')

/-- A moment as `YYYY-MM-DD HH:MM:SS`, the form of SQL literals. -/
def sqlText (t : DateTime) : String := String.ofList (t.chars ' ')

end DateTime

end TypedSql
