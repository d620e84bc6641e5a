import LeaseElection.Binary64.Rounding
import LeaseElection.Toml.Lexical

/-!
# TOML numbers and truth values

Digits may be set apart by single underscores.  Integers have to fit in 64 bits;
a floating point number must not be so large that it turns positive infinite.
-/

namespace LeaseElection

namespace Toml

/-- Digits that go on from others: an underscore has a digit after it. -/
def moreDigits (isDigit : Char → Bool) : Reader (List Char)
  | [] => some ([], [])
  | c :: cs =>
      if isDigit c then (moreDigits isDigit cs).map fun p => (c :: p.1, p.2)
      else if c = '_' then if cs.head?.any isDigit then moreDigits isDigit cs else none
      else some ([], c :: cs)

/-- One digit or more. -/
def digits (isDigit : Char → Bool) (cs : List Char) : Option (List Char × List Char) :=
  if cs.head?.any isDigit then moreDigits isDigit cs else none

/-- The digits of a whole number, which begin with a zero only if that is all. -/
def wholeDigits : Reader (List Char)
  | '0' :: cs => some (['0'], cs)
  | cs => digits Char.isDigit cs

/-- The value of digits in some base; letters stand for ten and more. -/
def digitsValue (base : Nat) (ds : List Char) : Nat :=
  ds.foldl (fun n c =>
    let d := if c.isDigit then c.toNat - '0'.toNat else c.toLower.toNat - 'a'.toNat + 10
    n * base + d) 0

/-- A sign, if there is one: whether it is a minus. -/
def readSign : List Char → Option Bool × List Char
  | '+' :: cs => (some false, cs)
  | '-' :: cs => (some true, cs)
  | cs => (none, cs)

/-- An integer that fits in 64 bits. -/
def boundedInteger (negative : Bool) (n : Nat) : Option Int :=
  let i : Int := if negative then -n else n
  if -(9223372036854775808) ≤ i ∧ i < 9223372036854775808 then some i else none

def isHexDigit (c : Char) : Bool :=
  c.isDigit || ('a' ≤ c && c ≤ 'f') || ('A' ≤ c && c ≤ 'F')
def isOctalDigit (c : Char) : Bool := '0' ≤ c && c ≤ '7'
def isBinaryDigit (c : Char) : Bool := c == '0' || c == '1'

/-- An unsigned integer in another base, after its mark. -/
def readBased (base : Nat) (isDigit : Char → Bool) (cs : List Char) :
    Option (Int × List Char) := do
  let (ds, cs) ← digits isDigit cs
  let i ← boundedInteger false (digitsValue base ds)
  some (i, cs)

def readInteger : Reader Int
  | '0' :: 'x' :: cs => readBased 16 isHexDigit cs
  | '0' :: 'o' :: cs => readBased 8 isOctalDigit cs
  | '0' :: 'b' :: cs => readBased 2 isBinaryDigit cs
  | cs => do
      let (sign, cs) := readSign cs
      let (ds, cs) ← wholeDigits cs
      let i ← boundedInteger (sign.getD false) (digitsValue 10 ds)
      some (i, cs)

/-- The digits after a point, if there is a point. -/
def readFraction : Reader (List Char)
  | '.' :: cs => digits Char.isDigit cs
  | cs => some ([], cs)

/-- An exponent, if there is one. -/
def readExponent : Reader (Option Int)
  | c :: cs =>
      if c = 'e' ∨ c = 'E' then do
        let (sign, cs) := readSign cs
        let (ds, cs) ← digits Char.isDigit cs
        let n := digitsValue 10 ds
        some (some (if sign.getD false then -n else n), cs)
      else some (none, c :: cs)
  | [] => some (none, [])

/-- A number with a fraction or an exponent. -/
def readDecimal (cs : List Char) : Option (Binary64 × List Char) := do
  let (sign, cs) := readSign cs
  let (whole, cs) ← wholeDigits cs
  let (fraction, cs) ← readFraction cs
  let (exponent, cs) ← readExponent cs
  if fraction.isEmpty ∧ exponent.isNone then none
  else
    let x := Binary64.ofDecimal (sign.getD false) (digitsValue 10 (whole ++ fraction))
      (exponent.getD 0 - fraction.length)
    if x.isPosInfinite then none else some (x, cs)

/-- One of the numbers that have no digits. -/
def readSpecial (cs : List Char) : Option (Binary64 × List Char) :=
  let (sign, cs) := readSign cs
  match cs with
  | 'i' :: 'n' :: 'f' :: cs => some (.infinite (sign.getD false), cs)
  | 'n' :: 'a' :: 'n' :: cs => some (.nan (sign.getD false), cs)
  | _ => none

def readFloat (cs : List Char) : Option (Binary64 × List Char) :=
  readDecimal cs <|> readSpecial cs

def readBoolean : Reader Bool
  | 't' :: 'r' :: 'u' :: 'e' :: cs => some (true, cs)
  | 'f' :: 'a' :: 'l' :: 's' :: 'e' :: cs => some (false, cs)
  | _ => none

end Toml

end LeaseElection
