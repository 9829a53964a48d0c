import LumenCopilot.Construction.Python.Text
import Mathlib

namespace LumenCopilot.Python

/-- This is `text.strip()`. -/
def strip (text : Text) : Text := lstrip (rstrip text)

/-- This is `text.split()`. -/
def splitBlank (text : Text) : List Text := (text.splitOnP isSpace).filter fun part => part ≠ []

/-- This is `text.partition(separator)` for a text that has the separator. -/
def partition (separator : Char) (text : Text) : Text × Text :=
  (text.takeWhile (· ≠ separator), (text.dropWhile (· ≠ separator)).drop 1)

/-- This is the value of a decimal digit; the table has the digits above ASCII. -/
def decimalValue (table : Char → Option Nat) (c : Char) : Option Nat :=
  if isAscii c then if c.isDigit then some (c.toNat - '0'.toNat) else none else table c

/-- The digits of a numeral; one underscore may stand between two digits. -/
def decimalDigits (table : Char → Option Nat) (text : Text) : Option (List Nat) :=
  let groups := text.splitOn '_'
  if groups.any List.isEmpty then none else groups.flatten.mapM (decimalValue table)

/-- This is the default of `sys.get_int_max_str_digits()`. -/
def maxStrDigits : Nat := 4300

/-- This is the value of a numeral without a sign. -/
def naturalValue (table : Char → Option Nat) (text : Text) : Option Nat :=
  (decimalDigits table text).bind fun digits =>
    if maxStrDigits < digits.length then none
    else some (digits.foldl (fun value digit => 10 * value + digit) 0)

/-- This is `int(text)`. -/
def pyInt (table : Char → Option Nat) (text : Text) : Option Int :=
  match strip text with
  | '+' :: rest => (naturalValue table rest).map Int.ofNat
  | '-' :: rest => (naturalValue table rest).map fun value => -Int.ofNat value
  | rest => (naturalValue table rest).map Int.ofNat

/-- This is `str(value)` of a number that is not negative. -/
def natText (value : Nat) : Text := Nat.toDigits 10 value

/-- This is `set(range(start, stop, step))` for a positive step. -/
def rangeSet (start stop step : Int) : Finset Int :=
  (((List.range (stop - start).toNat).map fun place : Nat => start + (place : Int)).filter
    fun value => (value - start) % step = 0).toFinset

/-- This is `calendar.isleap`. -/
def isLeap (year : Nat) : Bool := year % 4 = 0 && (year % 100 ≠ 0 || year % 400 = 0)

/-- This is `_days_in_month`. -/
def daysInMonth (year month : Nat) : Nat :=
  if month = 2 then if isLeap year then 29 else 28
  else if month ∈ [4, 6, 9, 11] then 30 else 31

/-- This is `_days_before_year`. -/
def daysBeforeYear (year : Nat) : Nat :=
  let before := year - 1
  before * 365 + before / 4 - before / 100 + before / 400

/-- This is `_days_before_month`. -/
def daysBeforeMonth (year month : Nat) : Nat :=
  ((List.range (month - 1)).map fun before => daysInMonth year (before + 1)).sum

/-- This is a `datetime` to the minute. -/
structure DateTime where
  year : Nat
  month : Nat
  day : Nat
  hour : Nat
  minute : Nat
  yearBounds : 1 ≤ year ∧ year ≤ 9999
  monthBounds : 1 ≤ month ∧ month ≤ 12
  dayBounds : 1 ≤ day ∧ day ≤ daysInMonth year month
  hourBound : hour < 24
  minuteBound : minute < 60
  deriving DecidableEq

/-- This is `toordinal` of a date. -/
def ymdToOrdinal (year month day : Nat) : Nat :=
  daysBeforeYear year + daysBeforeMonth year month + day

/-- This is `weekday` of a date: Monday is 0. -/
def weekdayOf (year month day : Nat) : Nat := (ymdToOrdinal year month day + 6) % 7

def DateTime.weekday (time : DateTime) : Nat := weekdayOf time.year time.month time.day

/-- This is the datetime with these fields, if there is one. -/
def DateTime.make (year month day hour minute : Nat) : Option DateTime :=
  if bounds : ((1 ≤ year ∧ year ≤ 9999) ∧ (1 ≤ month ∧ month ≤ 12) ∧
      (1 ≤ day ∧ day ≤ daysInMonth year month) ∧ hour < 24 ∧ minute < 60) then
    some ⟨year, month, day, hour, minute, bounds.1, bounds.2.1, bounds.2.2.1, bounds.2.2.2.1,
      bounds.2.2.2.2⟩
  else none

/-- One minute later; there is none after the year 9999. -/
def DateTime.nextMinute (time : DateTime) : Option DateTime :=
  if time.minute < 59 then
    DateTime.make time.year time.month time.day time.hour (time.minute + 1)
  else if time.hour < 23 then DateTime.make time.year time.month time.day (time.hour + 1) 0
  else if time.day < daysInMonth time.year time.month then
    DateTime.make time.year time.month (time.day + 1) 0 0
  else if time.month < 12 then DateTime.make time.year (time.month + 1) 1 0 0
  else DateTime.make (time.year + 1) 1 1 0 0

end LumenCopilot.Python
