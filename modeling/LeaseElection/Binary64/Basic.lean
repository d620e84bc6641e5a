/-!
# Binary floating point numbers of 64 bits

The finite numbers are counted off by their magnitude: zero has rank `0`, the
smallest positive number rank `1`, and so on without a gap.  A magnitude is
measured in units of `2 ^ -1074`, the distance between the smallest numbers.
Two numbers that compare equal need not be the same: there are two zeros.
-/

namespace LeaseElection

/-- A number, infinity, or what is no number.  There are `2047` times `2 ^ 52`
ranks. -/
inductive Binary64 where
  | nan (negative : Bool)
  | infinite (negative : Bool)
  | finite (negative : Bool) (rank : Fin (9218868437227405312))
deriving DecidableEq

namespace Binary64

/-- How many units of `2 ^ -1074` make one. -/
def unitsPerOne : Nat := Nat.pow 2 1074

/-- The first rank beyond the finite numbers. -/
abbrev ranks : Nat := 9218868437227405312

/-- How many ranks in a row lie equally far apart: `2 ^ 52`. -/
abbrev stretch : Nat := 4503599627370496

/-- The magnitude, in units, of the number of rank `r`.  The distance between
neighbours doubles from stretch to stretch, but for the first two. -/
def units (r : Nat) : Nat :=
  if r < 2 * stretch then r else (stretch + r % stretch) * Nat.pow 2 (r / stretch - 1)

/-- The number of rank `r`, infinite from `ranks` on. -/
def ofRank (negative : Bool) (r : Nat) : Binary64 :=
  if h : r < ranks then .finite negative ⟨r, h⟩ else .infinite negative

def isNan : Binary64 → Bool
  | .nan _ => true
  | _ => false

def isPosInfinite : Binary64 → Bool
  | .infinite false => true
  | _ => false

def neg : Binary64 → Binary64
  | .nan n => .nan !n
  | .infinite n => .infinite !n
  | .finite n r => .finite (!n) r

/-- The place of a number in the order; the two zeros share theirs, and what is
not a number has none. -/
def place? : Binary64 → Option Int
  | .nan _ => none
  | .infinite negative => some (if negative then -ranks else ranks)
  | .finite negative r => some (if negative then -r.val else r.val)

/-- Whether two numbers compare equal. -/
def same (a b : Binary64) : Bool :=
  match a.place?, b.place? with
  | some x, some y => x == y
  | _, _ => false

def le (a b : Binary64) : Bool :=
  match a.place?, b.place? with
  | some x, some y => decide (x ≤ y)
  | _, _ => false

theorem units_of_lt {r : Nat} (h : r < 2 * stretch) : units r = r := if_pos h

end Binary64

end LeaseElection
