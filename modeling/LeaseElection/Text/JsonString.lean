/-!
# Text as a JSON string

Double quotes, backslashes and the controls below the space are escaped; all
else stands for itself.
-/

namespace LeaseElection

namespace JsonString

/-- The letter that stands for a control character after a backslash. -/
def shortEscape? : Char → Option Char
  | '"' => some '"'
  | '\\' => some '\\'
  | '\x08' => some 'b'
  | '\x0c' => some 'f'
  | '\n' => some 'n'
  | '\r' => some 'r'
  | '\t' => some 't'
  | _ => none

/-- The control character that a letter stands for after a backslash. -/
def ofShortEscape? : Char → Option Char
  | '"' => some '"'
  | '\\' => some '\\'
  | 'b' => some '\x08'
  | 'f' => some '\x0c'
  | 'n' => some '\n'
  | 'r' => some '\r'
  | 't' => some '\t'
  | _ => none

def hexDigit (n : Nat) : Char := Nat.digitChar (n % 16)

/-- The value of a lower-case hexadecimal digit. -/
def hexValue? (c : Char) : Option Nat :=
  if c.isDigit then some (c.toNat - '0'.toNat)
  else if 'a' ≤ c ∧ c ≤ 'f' then some (c.toNat - 'a'.toNat + 10)
  else none

def escape (c : Char) : List Char :=
  match shortEscape? c with
  | some e => ['\\', e]
  | none =>
      if c.toNat < 0x20 then
        ['\\', 'u', '0', '0', hexDigit (c.toNat / 16), hexDigit c.toNat]
      else [c]

def encode (s : String) : String := String.ofList ('"' :: s.toList.flatMap escape ++ ['"'])

/-- Reads the characters up to the closing quote, which has to come last. -/
def decodeBody : List Char → Option (List Char)
  | ['"'] => some []
  | '\\' :: 'u' :: '0' :: '0' :: a :: b :: cs => do
      let c := Char.ofNat ((← hexValue? a) * 16 + (← hexValue? b))
      (c :: ·) <$> decodeBody cs
  | '\\' :: e :: cs => do
      let c ← ofShortEscape? e
      (c :: ·) <$> decodeBody cs
  | c :: cs => if c = '"' ∨ c = '\\' ∨ c.toNat < 0x20 then none else (c :: ·) <$> decodeBody cs
  | [] => none

/-- Reads back what `encode` writes. -/
def decode (s : String) : Option String :=
  match s.toList with
  | '"' :: cs => (decodeBody cs).map String.ofList
  | _ => none

end JsonString

end LeaseElection
