/-!
# Unbiased draws from a stream of words

A draw below `m` multiplies a word with `m` and takes the high half of the
product.  Where the low half is so large that this would favour some results, a
second word decides whether to take one more.
-/

namespace LeaseElection

/-- A source of 64-bit words. -/
abbrev WordStream := Nat → UInt64

/-- The words of a list, and zeros after them. -/
def WordStream.ofList (ws : List UInt64) : WordStream := fun i => ws.getD i 0

/-- A draw below `m` from two words, and how many of them it took.  Below zero
there is nothing to draw: the result is zero and no word is used. -/
def drawBelow (m : Nat) (w w' : UInt64) : Nat × Nat :=
  if m = 0 then (0, 0)
  else
    let product := w.toNat * m
    let high := product / UInt64.size
    let low := product % UInt64.size
    if UInt64.size - m < low then
      let carry := if UInt64.size ≤ low + w'.toNat * m / UInt64.size then 1 else 0
      (high + carry, 2)
    else (high, 1)

theorem drawBelow_zero (w w' : UInt64) : drawBelow 0 w w' = (0, 0) := if_pos rfl

end LeaseElection
