import PipelineEditor.Text.Digits

/-!
# Dates and times

A date, a time of day, or a date with a time and perhaps its distance from universal time.  Two
spellings of one moment in one place count as the same, so a date and time is kept in one
spelling: a `T` between date and time, no zeros at the end of a fraction, at most nine places.

* `daysIn` — the number of days of a month;
* `DateTime.scan?` — **the date or time at the beginning of a text, in its one spelling**.
-/

namespace PipelineEditor.Toml

/-- Whether a year has a leap day. -/
def isLeap (year : Nat) : Bool := year % 4 == 0 && (year % 100 != 0 || year % 400 == 0)

/-- The number of days of a month. -/
def daysIn (year month : Nat) : Nat :=
  if month = 2 then (if isLeap year then 29 else 28)
  else if month ∈ [4, 6, 9, 11] then 30
  else 31

namespace DateTime

/-- Reads `n` digits as a number between two bounds, the lower one included. -/
def field? (n low high : Nat) (cs : List Char) : Option (List Char × List Char) :=
  let digits := cs.take n
  if digits.length = n ∧ digits.all Char.isDigit then
    match Text.numberOf? 10 digits with
    | some v => if low ≤ v ∧ v ≤ high then some (digits, cs.drop n) else none
    | none => none
  else none

/-- Reads a character. -/
def mark? (mark : Char) : List Char → Option (List Char)
  | c :: rest => if c = mark then some rest else none
  | [] => none

/-- Reads a date. -/
def date? (cs : List Char) : Option (List Char × List Char) := do
  let (year, cs) ← field? 4 0 9999 cs
  let cs ← mark? '-' cs
  let (month, cs) ← field? 2 1 12 cs
  let cs ← mark? '-' cs
  let (day, cs) ← field? 2 1 31 cs
  let number (digits : List Char) : Nat := (Text.numberOf? 10 digits).getD 0
  if number day ≤ daysIn (number year) (number month) then
    some (year ++ '-' :: month ++ '-' :: day, cs)
  else none

/-- Reads the fraction of a second, if there is one. -/
def fraction? (cs : List Char) : Option (List Char × List Char) :=
  match cs with
  | '.' :: rest =>
    let digits := rest.takeWhile Char.isDigit
    if digits.isEmpty then none
    else
      let kept := ((digits.take 9).reverse.dropWhile (· == '0')).reverse
      some (if kept.isEmpty then [] else '.' :: kept, rest.dropWhile Char.isDigit)
  | _ => some ([], cs)

/-- Reads a time of day; the last second may be a leap second. -/
def time? (cs : List Char) : Option (List Char × List Char) := do
  let (hour, cs) ← field? 2 0 23 cs
  let cs ← mark? ':' cs
  let (minute, cs) ← field? 2 0 59 cs
  let cs ← mark? ':' cs
  let (second, cs) ← field? 2 0 60 cs
  let (fraction, cs) ← fraction? cs
  some (hour ++ ':' :: minute ++ ':' :: second ++ fraction, cs)

/-- Reads the distance from universal time, if there is one. -/
def offset? (cs : List Char) : Option (List Char × List Char) :=
  match cs with
  | [] => some ([], [])
  | c :: rest =>
    if c = 'Z' ∨ c = 'z' then some (['Z'], rest)
    else if c = '+' ∨ c = '-' then do
      let (hour, rest) ← field? 2 0 23 rest
      let rest ← mark? ':' rest
      let (minute, rest) ← field? 2 0 59 rest
      let zero := (hour ++ minute).all (· == '0')
      some ((if zero then '+' else c) :: hour ++ ':' :: minute, rest)
    else some ([], cs)

/-- Whether a time follows a date: after a `T`, or after a space before a digit. -/
def timeFollows : List Char → Bool
  | c :: d :: _ => c == 'T' || c == 't' || (c == ' ' && d.isDigit)
  | _ => false

/-- Reads a date or a time, if one begins here. -/
def scan? (cs : List Char) : Option (List Char × List Char) :=
  match date? cs with
  | some (date, rest) =>
    if timeFollows rest then do
      let (time, rest) ← time? (rest.drop 1)
      let (offset, rest) ← offset? rest
      some (date ++ 'T' :: time ++ offset, rest)
    else some (date, rest)
  | none => time? cs

end DateTime

end PipelineEditor.Toml
