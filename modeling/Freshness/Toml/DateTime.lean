import Freshness.Text.Numeral
import Freshness.Toml.Text

/-!
# Dates and times

A date of the calendar, a time of day, or both; a date and a time together may carry the offset
from universal time.
-/

namespace Freshness.Toml

open Text

structure Date where
  year : Nat
  month : Nat
  day : Nat
  deriving DecidableEq, Repr

/-- A time of day, with the digits of the fraction of its second. -/
structure Time where
  hour : Nat
  minute : Nat
  second : Nat
  fraction : List Char
  deriving DecidableEq, Repr

/-- How far a clock is ahead of universal time, in minutes. -/
structure Offset where
  minutes : Int
  deriving DecidableEq, Repr

/-- A point in time, as far as it is known. -/
inductive DateTime
  | dateOnly (date : Date)
  | timeOnly (time : Time)
  | floating (date : Date) (time : Time)
  | anchored (date : Date) (time : Time) (offset : Offset)
  deriving DecidableEq, Repr

def isLeapYear (year : Nat) : Bool :=
  year % 4 = 0 && (year % 100 ≠ 0 || year % 400 = 0)

def daysInMonth (year month : Nat) : Nat :=
  if month = 2 then if isLeapYear year then 29 else 28
  else if month ∈ [4, 6, 9, 11] then 30
  else 31

/-- Reads a number of exactly `count` digits between two bounds. -/
def readFixedNumber (count low high : Nat) (text : List Char) : Option (Nat × List Char) :=
  let digits := text.take count
  let value := Numeral.value digits
  if digits.length = count ∧ digits.all Char.isDigit ∧ low ≤ value ∧ value ≤ high then
    some (value, text.drop count)
  else none

def Date.read (text : List Char) : Option (Date × List Char) := do
  let (year, text) ← readFixedNumber 4 0 9999 text
  let (month, text) ← readFixedNumber 2 1 12 (← expect '-' text)
  let (day, text) ← readFixedNumber 2 1 (daysInMonth year month) (← expect '-' text)
  return ({ year, month, day }, text)

/-- Reads the fraction of a second, which may be missing. -/
def readFraction : List Char → Option (List Char × List Char)
  | '.' :: text =>
    let (digits, text) := text.span Char.isDigit
    if digits.isEmpty then none else some (digits, text)
  | text => some ([], text)

/-- Reads a time of day; a minute may have a leap second. -/
def Time.read (text : List Char) : Option (Time × List Char) := do
  let (hour, text) ← readFixedNumber 2 0 23 text
  let (minute, text) ← readFixedNumber 2 0 59 (← expect ':' text)
  let (second, text) ← readFixedNumber 2 0 60 (← expect ':' text)
  let (fraction, text) ← readFraction text
  return ({ hour, minute, second, fraction }, text)

/-- Reads hours and minutes, in minutes. -/
def readHours (text : List Char) : Option (Int × List Char) := do
  let (hours, text) ← readFixedNumber 2 0 23 text
  let (minutes, text) ← readFixedNumber 2 0 59 (← expect ':' text)
  return (60 * (hours : Int) + minutes, text)

def Offset.read : List Char → Option (Offset × List Char)
  | 'Z' :: text | 'z' :: text => some (⟨0⟩, text)
  | '+' :: text => (readHours text).map (Prod.map (⟨·⟩) id)
  | '-' :: text => (readHours text).map (Prod.map (⟨-·⟩) id)
  | _ => none

/-- A result that leaves nothing to read. -/
def complete {α : Type} : α × List Char → Option α
  | (result, []) => some result
  | _ => none

/-- The date and the time that a text spells with a separator between them. -/
def dateAndTime? (date : Date) (text : List Char) : Option DateTime := do
  let (time, text) ← Time.read text
  if text.isEmpty then return .floating date time
  return .anchored date time (← Offset.read text >>= complete)

/-- The date, the time or both that a text spells. -/
def DateTime.ofText? (text : List Char) : Option DateTime :=
  match Date.read text with
  | none => (Time.read text >>= complete).map .timeOnly
  | some (date, []) => some (.dateOnly date)
  | some (date, c :: rest) =>
    if c = 'T' ∨ c = 't' ∨ c = ' ' then dateAndTime? date rest else none

def isDate (text : List Char) : Bool :=
  (Date.read text >>= complete).isSome

end Freshness.Toml
