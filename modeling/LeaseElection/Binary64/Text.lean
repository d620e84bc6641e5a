import LeaseElection.Binary64.Shortest

/-!
# Floating point numbers as text

A number is written with the fewest digits that read back, in positional
notation however large or small it is.
-/

namespace LeaseElection

/-- Positional notation, without an exponent. -/
def Decimal.positional (d : Decimal) : List Char :=
  let digits := Nat.toDigits 10 d.digits
  if 0 ≤ d.exponent then
    if d.digits = 0 then digits else digits ++ List.replicate d.exponent.toNat '0'
  else
    let places := (-d.exponent).toNat
    if places < digits.length then
      digits.take (digits.length - places) ++ '.' :: digits.drop (digits.length - places)
    else '0' :: '.' :: (List.replicate (places - digits.length) '0' ++ digits)

namespace Binary64

def signed (negative : Bool) (cs : List Char) : List Char := if negative then '-' :: cs else cs

/-- The plain form: whole numbers have no point. -/
def text (x : Binary64) : String :=
  match x with
  | .nan _ => "NaN"
  | .infinite negative => String.ofList (signed negative "inf".toList)
  | .finite negative r => String.ofList (signed negative (shortest r).positional)

/-- The form that shows it is no integer: a whole number ends in `.0`. -/
def pointedDigits (r : Nat) : List Char :=
  let cs := (shortest r).positional
  if cs.contains '.' then cs else cs ++ ['.', '0']

/-- The form used in messages about values of the wrong kind. -/
def pointedText (x : Binary64) : String :=
  match x with
  | .finite negative r => String.ofList (signed negative (pointedDigits r))
  | x => x.text

end Binary64

end LeaseElection
