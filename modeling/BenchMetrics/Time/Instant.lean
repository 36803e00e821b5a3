import BenchMetrics.Decimal.Fixed
import BenchMetrics.Text.Blank
import BenchMetrics.Time.Calendar
/-! Moments of the calendar and their text: date, time of day with an optional fraction, and
the offset from universal time. Reading allows white space between the parts and parts of one
digit; writing is in universal time. -/
namespace BenchMetrics

/-- A moment in universal time. A leap second counts to the minute before it. -/
structure Instant where
  seconds : Int
  nanos : Nat
  leap : Bool
  deriving DecidableEq, Repr

namespace Instant

/-- A number of at least one digit and at most `most`, and the rest. -/
def number (most : Nat) (cs : List Char) : Option (Nat × List Char) :=
  let run := (cs.take most).takeWhile Char.isDigit
  if run.isEmpty then none
  else some (run.foldl (fun n c => 10 * n + (c.toNat - '0'.toNat)) 0, cs.drop run.length)

/-- A number of at most two digits after white space. -/
def twoDigits (cs : List Char) : Option (Nat × List Char) := number 2 (Text.trimStart cs)

/-- A year has four digits at most, or a sign and any number of them. -/
def year (cs : List Char) : Option (Int × List Char) :=
  match Text.trimStart cs with
  | '-' :: r => (number r.length r).map fun (n, r) => (-(n : Int), r)
  | '+' :: r => (number r.length r).map fun (n, r) => ((n : Int), r)
  | r => (number 4 r).map fun (n, r) => ((n : Int), r)

/-- A certain character after white space. -/
def mark (c : Char) (cs : List Char) : Option (List Char) :=
  match Text.trimStart cs with
  | d :: r => if d = c then some r else none
  | [] => none

/-- The years of the calendar. -/
def inCalendar (year : Int) : Bool := -262143 ≤ year && year ≤ 262142

def date (cs : List Char) : Option (Date × List Char) := do
  let (year, cs) ← year cs
  let cs ← mark '-' cs
  let (month, cs) ← twoDigits cs
  let cs ← mark '-' cs
  let (day, cs) ← twoDigits cs
  let d : Date := ⟨year, month, day⟩
  if d.isValid && inCalendar year then some (d, cs) else none

/-- Billionths of a second; digits past the ninth are left out. -/
def fraction (cs : List Char) : Option (Nat × List Char) :=
  match cs with
  | '.' :: r => do
    let (n, rest) ← number 9 r
    some (n * Nat.pow 10 (9 - (r.length - rest.length)), rest.dropWhile Char.isDigit)
  | r => some (0, r)

/-- Seconds of a day, whether the second is a leap second, and billionths. -/
def timeOfDay (cs : List Char) : Option ((Nat × Bool × Nat) × List Char) := do
  let (hour, cs) ← twoDigits cs
  let cs ← mark ':' cs
  let (minute, cs) ← twoDigits cs
  let cs ← mark ':' cs
  let (second, cs) ← twoDigits cs
  let (nanos, cs) ← fraction cs
  if hour < 24 && minute < 60 && second ≤ 60 then
    some ((hour * 3600 + minute * 60 + min second 59, second = 60, nanos), cs)
  else none

def digitPair : List Char → Option (Nat × List Char)
  | a :: b :: r =>
    if a.isDigit && b.isDigit then
      some ((a.toNat - '0'.toNat) * 10 + (b.toNat - '0'.toNat), r)
    else none
  | _ => none

/-- Hours and minutes, with colons and white space between them or none, less than a day. -/
def offsetDigits (cs : List Char) : Option (Nat × List Char) := do
  let (hours, cs) ← digitPair cs
  let (minutes, cs) ← digitPair (cs.dropWhile fun c => c = ':' || Text.isBlank c)
  if minutes < 60 && hours < 24 then some (hours * 3600 + minutes * 60, cs) else none

/-- The offset from universal time in seconds. -/
def offset (cs : List Char) : Option (Int × List Char) :=
  match Text.trimStart cs with
  | [] => none
  | c :: r =>
    if String.ofList ((c :: r).take 3 |>.map Char.toUpper) = "UTC" then some (0, r.drop 2)
    else if c = 'Z' || c = 'z' then some (0, r)
    else if c = '+' then (offsetDigits r).map fun (n, r) => ((n : Int), r)
    else if c = '-' || c = '\u2212' then (offsetDigits r).map fun (n, r) => (-(n : Int), r)
    else none

/-- Date and time stand apart by a letter or one space. -/
def separator : List Char → Option (List Char)
  | c :: r => if c = 't' || c = 'T' || c = ' ' then some r else none
  | [] => none

/-- The date in universal time. -/
def day (i : Instant) : Date := Date.ofDayNumber (i.seconds / 86400)

/-- The date has to lie in the calendar both as it is written and in universal time. -/
def parse? (s : String) : Option Instant := do
  let (d, cs) ← date s.toList
  let cs ← separator cs
  let ((seconds, leap, nanos), cs) ← timeOfDay cs
  let (ahead, cs) ← offset cs
  let i : Instant := ⟨d.dayNumber * 86400 + seconds - ahead, nanos, leap⟩
  if Text.allBlank cs && inCalendar i.day.year then some i else none

def yearText (year : Int) : String :=
  if 0 ≤ year ∧ year ≤ 9999 then Decimal.padZeros 4 year.toNat
  else (if year < 0 then "-" else "+") ++ Decimal.padZeros 4 year.natAbs

/-- No digits, or three, six or nine of them, as few as are exact. -/
def fractionText (nanos : Nat) : String :=
  if nanos = 0 then ""
  else if nanos % 1000000 = 0 then "." ++ Decimal.padZeros 3 (nanos / 1000000)
  else if nanos % 1000 = 0 then "." ++ Decimal.padZeros 6 (nanos / 1000)
  else "." ++ Decimal.padZeros 9 nanos

def text (i : Instant) : String :=
  let d := i.day
  let s := (i.seconds % 86400).toNat
  let two := Decimal.padZeros 2
  yearText d.year ++ "-" ++ two d.month ++ "-" ++ two d.day ++ "T" ++ two (s / 3600) ++ ":" ++
    two (s / 60 % 60) ++ ":" ++ two (s % 60 + if i.leap then 1 else 0) ++
    fractionText i.nanos ++ "Z"

end Instant
end BenchMetrics
