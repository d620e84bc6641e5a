import LeaseElection.Span.Basic
import LeaseElection.Text.Blank

/-!
# Spans as people write them

A span is written as numbers with units, the largest unit first: `1h 30m`.  It
is read from any such sums, in any order, with fractions where they are exact:
`1.5s`, `1h30m`, `90 m`.
-/

namespace LeaseElection

namespace Span

def secondsPerYear : Nat := 31557600
def secondsPerMonth : Nat := 2630016
def secondsPerDay : Nat := 86400

/-- The parts of a span: how many, the unit, and whether the unit takes a plural. -/
def parts (s : Span) : List (Nat × String × Bool) :=
  let seconds := s.nanos / 1000000000
  let nanos := s.nanos % 1000000000
  let inYear := seconds % secondsPerYear
  let inMonth := inYear % secondsPerMonth
  let inDay := inMonth % secondsPerDay
  [(seconds / secondsPerYear, "year", true),
    (inYear / secondsPerMonth, "month", true),
    (inMonth / secondsPerDay, "day", true),
    (inDay / 3600, "h", false),
    (inDay % 3600 / 60, "m", false),
    (inDay % 60, "s", false),
    (nanos / 1000000, "ms", false),
    (nanos / 1000 % 1000, "us", false),
    (nanos % 1000, "ns", false)]

/-- One part of a written span. -/
def partText : Nat × String × Bool → String
  | (n, unit, plural) => toString n ++ unit ++ (if plural && 1 < n then "s" else "")

/-- The parts that are not zero, with a blank between them. -/
def text (s : Span) : String :=
  if s.isZero then "0s"
  else " ".intercalate ((s.parts.filter fun p => p.1 != 0).map partText)

/-- Why a text gives no span. -/
inductive ReadError where
  | malformed
  /-- The seconds were full when the nanoseconds made up one more. -/
  | overflow
deriving DecidableEq

/-- What a unit counts. -/
inductive Measure where
  | nanos (k : Nat)
  | seconds (k : Nat)
deriving DecidableEq

/-- A unit: its names, its length, and the length its fractions are taken of. -/
structure TimeUnit where
  names : List String
  whole : Measure
  fraction : Option Measure
deriving DecidableEq

def units : List TimeUnit :=
  [⟨["nanos", "nsec", "ns"], .nanos 1, none⟩,
    ⟨["usec", "us", "µs"], .nanos 1000, some (.nanos 1000)⟩,
    ⟨["millis", "msec", "ms"], .nanos 1000000, some (.nanos 1000000)⟩,
    ⟨["seconds", "second", "secs", "sec", "s"], .seconds 1, some (.nanos 1000000000)⟩,
    ⟨["minutes", "minute", "min", "mins", "m"], .seconds 60, some (.nanos 60000000000)⟩,
    ⟨["hours", "hour", "hr", "hrs", "h"], .seconds 3600, some (.seconds 3600)⟩,
    ⟨["days", "day", "d"], .seconds secondsPerDay, some (.seconds secondsPerDay)⟩,
    ⟨["weeks", "week", "wk", "wks", "w"], .seconds 604800, some (.seconds 604800)⟩,
    ⟨["months", "month", "M"], .seconds secondsPerMonth, some (.seconds secondsPerMonth)⟩,
    ⟨["years", "year", "yr", "yrs", "y"], .seconds secondsPerYear,
      some (.seconds secondsPerYear)⟩]

/-- The unit of a given name; capitals count. -/
def unit? (name : String) : Option TimeUnit := units.find? (·.names.contains name)

/-- What a 64-bit counter holds. -/
def fits (n : Nat) : Bool := decide (n < UInt64.size)

/-- Adds seconds and nanoseconds to a span.  The nanoseconds are added to those
below a second first, which a 64-bit counter must hold. -/
def add (total : Span) (seconds nanos : Nat) : Except ReadError Span :=
  let below := total.nanos % 1000000000 + nanos
  if !fits below then .error .malformed
  else
    match ofNanos? (total.nanos + seconds * 1000000000 + nanos) with
    | some sum => .ok sum
    | none =>
        if below = 1000000000 ∧ total.nanos / 1000000000 + seconds + 1 = UInt64.size then
          .error .overflow
        else .error .malformed

/-- Adds `n` times what a unit measures. -/
def addMeasure (total : Span) (n : Nat) : Measure → Except ReadError Span
  | .nanos k => if fits (n * k) then total.add 0 (n * k) else .error .malformed
  | .seconds k => if fits (n * k) then total.add (n * k) 0 else .error .malformed

/-- Adds the fraction `num / 10 ^ places` of what a unit measures; it has to
come out even. -/
def addFraction (total : Span) (num places : Nat) (m : Measure) : Except ReadError Span :=
  let part (k : Nat) : Except ReadError Nat :=
    if fits (num * k) && num * k % Nat.pow 10 places == 0 then .ok (num * k / Nat.pow 10 places)
    else .error .malformed
  match m with
  | .nanos k => do total.add 0 (← part k)
  | .seconds k => do total.add (← part k) 0

/-- A number as far as it was read: a whole part, and the digits of a fraction
with their count. -/
structure Numeral where
  whole : Nat
  fraction : Option (Nat × Nat) := none
deriving DecidableEq

def addNumeral (total : Span) (n : Numeral) (name : String) : Except ReadError Span :=
  match unit? name with
  | none => .error .malformed
  | some u => do
      let total ← total.addMeasure n.whole u.whole
      match n.fraction, u.fraction with
      | none, _ => .ok total
      | some _, none => .error .malformed
      | some (num, places), some m => total.addFraction num places m

/-- Where in a written span the reader is. -/
inductive Cursor where
  /-- Before a number; `first` tells that there was none yet. -/
  | before (first : Bool)
  | inWhole (n : Nat)
  | inFraction (whole num places : Nat)
  /-- In a unit, with its letters in reverse. -/
  | inUnit (n : Numeral) (letters : List Char)
deriving DecidableEq

def isUnitLetter (c : Char) : Bool := c.isAlpha || c == 'µ'

/-- One more digit at the end of `n`. -/
def digitAfter (n : Nat) (c : Char) : Nat := n * 10 + (c.toNat - '0'.toNat)

/-- One character further.  Blanks do not end a number, but they end a unit; so
does a digit, which begins the next number. -/
def advance (place : Span × Cursor) (c : Char) : Except ReadError (Span × Cursor) :=
  let (total, cursor) := place
  match cursor with
  | .before first =>
      if c.isDigit then .ok (total, .inWhole (digitAfter 0 c))
      else if isBlank c then .ok (total, .before first)
      else .error .malformed
  | .inWhole n =>
      if c.isDigit then
        if fits (digitAfter n c) then .ok (total, .inWhole (digitAfter n c))
        else .error .malformed
      else if isBlank c then .ok (total, cursor)
      else if isUnitLetter c then .ok (total, .inUnit { whole := n } [c])
      else if c == '.' then .ok (total, .inFraction n 0 0)
      else .error .malformed
  | .inFraction whole num places =>
      if c.isDigit then
        if fits (Nat.pow 10 (places + 1)) then
          .ok (total, .inFraction whole (digitAfter num c) (places + 1))
        else .error .malformed
      else if isBlank c then .ok (total, cursor)
      else if isUnitLetter c && places != 0 then
        .ok (total, .inUnit ⟨whole, some (num, places)⟩ [c])
      else .error .malformed
  | .inUnit n letters =>
      if c.isDigit then do
        let total ← total.addNumeral n (String.ofList letters.reverse)
        .ok (total, .inWhole (digitAfter 0 c))
      else if isBlank c then do
        let total ← total.addNumeral n (String.ofList letters.reverse)
        .ok (total, .before false)
      else if isUnitLetter c then .ok (total, .inUnit n (c :: letters))
      else .error .malformed

/-- What was read when the text is at its end. -/
def finish : Span × Cursor → Except ReadError Span
  | (total, .before false) => .ok total
  | (total, .inUnit n letters) => total.addNumeral n (String.ofList letters.reverse)
  | _ => .error .malformed

/-- Reads a span; a lone `0` needs no unit. -/
def read (s : String) : Except ReadError Span :=
  if s = "0" then .ok zero
  else do finish (← s.toList.foldlM advance (zero, .before true))

def ReadError.overflowMessage : String := "overflow in Duration::new"

end Span

end LeaseElection
