import TypedSql.Calendar.Basic
import TypedSql.Power
import TypedSql.Text.Blank

/-!
# Reading dates and moments

A text is read item by item from the left, and the first problem counts. Before a number white space
is skipped; numbers other than the year have at most two digits. Whether the day exists is asked
last.
-/

namespace TypedSql.Calendar

/-- Why a text is no date. -/
inductive ReadFault where
  | tooShort
  | invalid
  | outOfRange
  | trailing
  deriving DecidableEq

/-- The wording of a fault. -/
def ReadFault.message : ReadFault → String
  | tooShort => "premature end of input"
  | invalid => "input contains invalid characters"
  | outOfRange => "input is out of range"
  | trailing => "trailing input"

open Text (splitDigits trimStart valueOfDigits)

/-- Reads a number of one to `limit` digits. -/
def readDigits (limit : Nat) : List Char → Except ReadFault (Nat × List Char)
  | [] => .error .tooShort
  | c :: cs =>
    if c.isDigit then
      let (digits, rest) := splitDigits limit (c :: cs)
      .ok (valueOfDigits digits, rest)
    else
      .error .invalid

/-- Reads a number of at most two digits in the range from `low` to `high`. -/
def readItem (low high : Nat) (cs : List Char) : Except ReadFault (Nat × List Char) := do
  let (n, rest) ← readDigits 2 (trimStart cs)
  if low ≤ n ∧ n ≤ high then .ok (n, rest) else .error .outOfRange

/-- A year that fits into 32 bits. -/
def boundedYear (year : Int) (rest : List Char) : Except ReadFault (Int × List Char) :=
  if -(twoTo 31 : Int) ≤ year ∧ year < (twoTo 31 : Int) then .ok (year, rest)
  else .error .outOfRange

/-- Reads a year: up to four digits, or any number of digits behind a sign. -/
def readYear (cs : List Char) : Except ReadFault (Int × List Char) :=
  match trimStart cs with
  | '-' :: rest => do
    let (n, rest) ← readDigits rest.length rest
    boundedYear (-(n : Int)) rest
  | '+' :: rest => do
    let (n, rest) ← readDigits rest.length rest
    boundedYear n rest
  | cs => do
    let (n, rest) ← readDigits 4 cs
    boundedYear n rest

/-- Reads one given character. -/
def readMark (mark : Char) : List Char → Except ReadFault (List Char)
  | [] => .error .tooShort
  | c :: cs => if c = mark then .ok cs else .error .invalid

/-- Year, month and day as written. -/
def readDay (cs : List Char) : Except ReadFault ((Int × Nat × Nat) × List Char) := do
  let (year, cs) ← readYear cs
  let cs ← readMark '-' cs
  let (month, cs) ← readItem 1 12 cs
  let cs ← readMark '-' cs
  let (day, cs) ← readItem 1 31 cs
  .ok ((year, month, day), cs)

/-- Nothing may be left of the text. -/
def readEnd : List Char → Except ReadFault Unit
  | [] => .ok ()
  | _ :: _ => .error .trailing

/-- The date of a year, month and day. -/
def dateOf (year : Int) (month day : Nat) : Except ReadFault Date :=
  if h : DayExists year month day then .ok ⟨year, month, day, h⟩ else .error .outOfRange

/-- Reads a date in the form `YYYY-MM-DD`. -/
def readDate (text : String) : Except ReadFault Date := do
  let ((year, month, day), rest) ← readDay text.toList
  readEnd rest
  dateOf year month day

/-- Reads a moment in the form `YYYY-MM-DDTHH:MM:SS`. -/
def readDateTime (text : String) : Except ReadFault DateTime := do
  let ((year, month, day), cs) ← readDay text.toList
  let cs ← readMark 'T' cs
  let (hour, cs) ← readItem 0 23 cs
  let cs ← readMark ':' cs
  let (minute, cs) ← readItem 0 59 cs
  let cs ← readMark ':' cs
  let (second, cs) ← readItem 0 60 cs
  readEnd cs
  let date ← dateOf year month day
  if h : hour < 24 ∧ minute < 60 ∧ second ≤ 60 then
    .ok (.atSecond date hour minute second h)
  else
    .error .outOfRange

end TypedSql.Calendar
