import LeaseElection.Toml.Numbers

/-!
# TOML dates and times

A date, a time of day, or both, and after both an offset.  Dates are those of
the calendar; a minute may have a second 60.
-/

namespace LeaseElection

namespace Toml

/-- A number of exactly `n` digits between two bounds. -/
def fixedDigits (n low high : Nat) (cs : List Char) : Option (Nat × List Char) :=
  let ds := cs.take n
  let v := digitsValue 10 ds
  if ds.length = n ∧ ds.all Char.isDigit ∧ low ≤ v ∧ v ≤ high then some (v, cs.drop n)
  else none

def expect (c : Char) : Reader Unit
  | d :: cs => if d = c then some ((), cs) else none
  | [] => none

def isLeapYear (year : Nat) : Bool := year % 4 == 0 && (year % 100 != 0 || year % 400 == 0)

def daysIn (year month : Nat) : Nat :=
  if month = 2 then if isLeapYear year then 29 else 28
  else if month = 4 ∨ month = 6 ∨ month = 9 ∨ month = 11 then 30
  else 31

/-- The text after a date. -/
def skipDate (cs : List Char) : Option (List Char) := do
  let (year, cs) ← fixedDigits 4 0 9999 cs
  let (_, cs) ← expect '-' cs
  let (month, cs) ← fixedDigits 2 1 12 cs
  let (_, cs) ← expect '-' cs
  let (_, cs) ← fixedDigits 2 1 (daysIn year month) cs
  some cs

/-- The text after the digits of a fraction, if a point has some after it. -/
def skipSecondFraction : List Char → List Char
  | '.' :: cs => if cs.head?.any Char.isDigit then cs.dropWhile Char.isDigit else '.' :: cs
  | cs => cs

/-- The text after a time of day. -/
def skipTime (cs : List Char) : Option (List Char) := do
  let (_, cs) ← fixedDigits 2 0 23 cs
  let (_, cs) ← expect ':' cs
  let (_, cs) ← fixedDigits 2 0 59 cs
  let (_, cs) ← expect ':' cs
  let (_, cs) ← fixedDigits 2 0 60 cs
  some (skipSecondFraction cs)

/-- The text after an offset, if there is one. -/
def skipOffset (cs : List Char) : Option (List Char) :=
  match cs with
  | 'Z' :: cs | 'z' :: cs => some cs
  | '+' :: cs | '-' :: cs => do
      let (_, cs) ← fixedDigits 2 0 23 cs
      let (_, cs) ← expect ':' cs
      let (_, cs) ← fixedDigits 2 0 59 cs
      some cs
  | cs => some cs

/-- The text after a time and its offset, if they follow a date. -/
def skipTimeOfDate (cs : List Char) : Option (List Char) :=
  match cs with
  | c :: rest =>
      if c = 'T' ∨ c = 't' ∨ c = ' ' then
        match skipTime rest with
        | some rest => skipOffset rest
        | none => some cs
      else some cs
  | [] => some []

/-- A date or time, as it was written. -/
def readMoment (cs : List Char) : Option (String × List Char) := do
  let rest ← (do skipTimeOfDate (← skipDate cs)) <|> skipTime cs
  some (String.ofList (cs.take (cs.length - rest.length)), rest)

end Toml

end LeaseElection
