import LeaseElection.Binary64.Rounding

/-!
# The fewest digits that read back

The decimals that round to a number form an interval, whose ends lie halfway to
its neighbours and belong to it when its rank is even.  For 1, 2, … digits the
two points of that decimal grid next to the number are tried; the first grid
with a point in the interval wins, of two points the nearer, and of two equally
near ones the larger.
-/

namespace LeaseElection

/-- The number `digits * 10 ^ exponent`. -/
structure Decimal where
  digits : Nat
  exponent : Int
deriving DecidableEq

namespace Decimal

/-- How many decimal digits `n` has. -/
def width (n : Nat) : Nat := (Nat.toDigits 10 n).length

/-- The exponent `e` with `10 ^ (e - 1) ≤ num / den < 10 ^ e`. -/
def decade (num den : Nat) : Int :=
  if den ≤ num then width (num / den) else 1 - width ((den - 1) / num)

/-- The same number without zeros at the end of its digits. -/
def trim : Nat → Decimal → Decimal
  | 0, d => d
  | fuel + 1, d =>
      if d.digits ≠ 0 ∧ d.digits % 10 = 0 then trim fuel ⟨d.digits / 10, d.exponent + 1⟩
      else d

end Decimal

namespace Binary64

/-- The point of the grid of multiples of `10 ^ p` that stands for the number of
rank `r`, if the interval of that number holds one.  Everything is measured in
half units, brought to a common denominator. -/
def gridPoint? (r : Nat) (p : Int) : Option Nat :=
  let grid := if 0 ≤ p then Nat.pow 10 p.toNat * (2 * unitsPerOne) else 2 * unitsPerOne
  let scale := if 0 ≤ p then 1 else Nat.pow 10 (-p).toNat
  let low := (units (r - 1) + units r) * scale
  let high := (units r + units (r + 1)) * scale
  let value := 2 * units r * scale
  let inside (c : Nat) : Bool :=
    if r % 2 = 0 then decide (low ≤ c * grid ∧ c * grid ≤ high)
    else decide (low < c * grid ∧ c * grid < high)
  let below := value / grid
  if value % grid = 0 then some below
  else
    match inside below, inside (below + 1) with
    | true, true => if 2 * (value % grid) < grid then some below else some (below + 1)
    | true, false => some below
    | false, true => some (below + 1)
    | false, false => none

/-- The decimal of fewest digits, `n` or more, that stands for rank `r`.  Where
no grid is left to try, the number itself is one: a unit is `5 ^ 1074` times
`10 ^ -1074`. -/
def shortestFrom (r : Nat) (top : Int) : (n fuel : Nat) → Decimal
  | _, 0 => ⟨units r * Nat.pow 5 1074, -1074⟩
  | n, fuel + 1 =>
      match gridPoint? r (top - n) with
      | some c => Decimal.trim n ⟨c, top - n⟩
      | none => shortestFrom r top (n + 1) fuel

/-- The shortest decimal that reads back to the number of rank `r`; seventeen
digits always do. -/
def shortest (r : Nat) : Decimal :=
  if r = 0 then ⟨0, 0⟩
  else shortestFrom r (Decimal.decade (units r) unitsPerOne) 1 17

end Binary64

end LeaseElection
