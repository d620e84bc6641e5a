import LeaseElection.Binary64.Basic

/-!
# Rounding

Exact results become the nearest number, and of two equally near ones the one
of even rank.  Everything is computed exactly, in natural numbers, and rounded
once.
-/

namespace LeaseElection

namespace Binary64

/-- The whole number nearest to `num / den`; a half goes to the even one. -/
def roundHalfEven (num den : Nat) : Nat :=
  let q := num / den
  let r := num % den
  if 2 * r < den then q else if den < 2 * r then q + 1 else q + q % 2

/-- The rank nearest to a magnitude of `num / den` units.  Where ranks lie
`2 ^ k` units apart, the magnitude is counted in steps of that length. -/
def nearestRank (num den : Nat) : Nat :=
  let q := num / den
  let k := if q < 2 * stretch then 0 else q.log2 - 52
  roundHalfEven num (den * Nat.pow 2 k) + k * stretch

/-- The number nearest to a magnitude of `num / den` units. -/
def nearest (negative : Bool) (num den : Nat) : Binary64 :=
  ofRank negative (nearestRank num den)

def ofNat (n : Nat) : Binary64 := nearest false (n * unitsPerOne) 1

def ofInt : Int → Binary64
  | .ofNat n => ofNat n
  | .negSucc n => nearest true ((n + 1) * unitsPerOne) 1

def zero : Binary64 := ofNat 0
def one : Binary64 := ofNat 1

/-- The number nearest to `mantissa * 10 ^ exponent`.  Beyond `10 ^ 310` all is
infinite and below `10 ^ -330` all is zero, so no longer power is formed. -/
def ofDecimal (negative : Bool) (mantissa : Nat) (exponent : Int) : Binary64 :=
  let length : Int := (Nat.toDigits 10 mantissa).length
  if mantissa = 0 ∨ length + exponent < -330 then ofRank negative 0
  else if 311 < length + exponent then .infinite negative
  else if 0 ≤ exponent then
    nearest negative (mantissa * Nat.pow 10 exponent.toNat * unitsPerOne) 1
  else nearest negative (mantissa * unitsPerOne) (Nat.pow 10 (-exponent).toNat)

/-- The product, rounded once. -/
def mul : Binary64 → Binary64 → Binary64
  | .nan _, _ | _, .nan _ => .nan false
  | .infinite m, .infinite n => .infinite (m != n)
  | .infinite m, .finite n r | .finite n r, .infinite m =>
      if r.val = 0 then .nan false else .infinite (m != n)
  | .finite m r, .finite n s => nearest (m != n) (units r * units s) unitsPerOne

/-- The nearest whole number, a half going away from zero, held between `0` and
the largest word; what is not a number gives `0`. -/
def toWord : Binary64 → Nat
  | .nan _ => 0
  | .infinite negative => if negative then 0 else UInt64.size - 1
  | .finite negative r =>
      if negative then 0
      else min ((2 * units r + unitsPerOne) / (2 * unitsPerOne)) (UInt64.size - 1)

theorem toWord_lt (x : Binary64) : x.toWord < UInt64.size := by
  unfold toWord
  split
  · decide
  · split <;> decide
  · split
    · decide
    · exact Nat.lt_of_le_of_lt (Nat.min_le_right _ _) (by decide)

end Binary64

end LeaseElection
