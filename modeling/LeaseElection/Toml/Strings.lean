import LeaseElection.Toml.Lexical

/-!
# TOML strings

Four forms: between double quotes, with escapes, or between single quotes,
without; and each of them in one line or, with three quotes, over several.
Line ends within a string count as one line feed.
-/

namespace LeaseElection

namespace Toml

/-- The character that a letter stands for after a backslash. -/
def escaped? : Char → Option Char
  | 'b' => some '\x08'
  | 't' => some '\t'
  | 'n' => some '\n'
  | 'f' => some '\x0c'
  | 'r' => some '\r'
  | '"' => some '"'
  | '\\' => some '\\'
  | _ => none

/-- The value of a hexadecimal digit. -/
def hexDigit? (c : Char) : Option Nat :=
  if c.isDigit then some (c.toNat - '0'.toNat)
  else if 'a' ≤ c ∧ c ≤ 'f' then some (c.toNat - 'a'.toNat + 10)
  else if 'A' ≤ c ∧ c ≤ 'F' then some (c.toNat - 'A'.toNat + 10)
  else none

/-- The character with a given code point; surrogates are none. -/
def scalar? (n : Nat) : Option Char :=
  if n < 0xD800 ∨ (0xDFFF < n ∧ n < 0x110000) then some (Char.ofNat n) else none

/-- Where in an escaped string the reader is. -/
inductive StringCursor where
  | plain
  | afterBackslash
  /-- In a code point: the digits still to come, and its value so far. -/
  | inCode (left : Nat) (value : Nat)
  /-- In blanks that a backslash at the end of a line hides; `closed` tells that
  the line has ended. -/
  | inGap (closed : Bool)
deriving DecidableEq

/-- Puts a character before a string that was read. -/
def push (c : Char) (r : Option (List Char × List Char)) : Option (List Char × List Char) :=
  r.map fun p => (c :: p.1, p.2)

/-- Between double quotes, in one line; begins after the first quote. -/
def basicBody : StringCursor → Reader (List Char)
  | _, [] => none
  | .plain, c :: cs =>
      if c = '"' then some ([], cs)
      else if c = '\\' then basicBody .afterBackslash cs
      else if isPlain c then push c (basicBody .plain cs)
      else none
  | .afterBackslash, c :: cs =>
      if c = 'u' then basicBody (.inCode 4 0) cs
      else if c = 'U' then basicBody (.inCode 8 0) cs
      else
        match escaped? c with
        | some x => push x (basicBody .plain cs)
        | none => none
  | .inCode left value, c :: cs =>
      match hexDigit? c with
      | none => none
      | some d =>
          if left ≤ 1 then
            match scalar? (value * 16 + d) with
            | some x => push x (basicBody .plain cs)
            | none => none
          else basicBody (.inCode (left - 1) (value * 16 + d)) cs
  | .inGap _, _ => none

/-- The end of a string that closes with three quotes: up to two more quotes
that come before belong to the string. -/
def closing? (quote : Char) (cs : List Char) : Option (List Char × List Char) :=
  let run := min (cs.takeWhile (· = quote)).length 5
  if 3 ≤ run then some (List.replicate (run - 3) quote, cs.drop run) else none

/-- Between three double quotes; begins after the first line end, if one
follows the quotes. -/
def longBasicBody : StringCursor → Reader (List Char)
  | _, [] => none
  | cursor, c :: cs =>
      match cursor with
      | .inGap closed =>
          if isSpace c then longBasicBody (.inGap closed) cs
          else if c = '\n' then longBasicBody (.inGap true) cs
          else if c = '\r' then
            if cs.head? = some '\n' then longBasicBody (.inGap closed) cs else none
          else if !closed then none
          else if c = '"' then
            match closing? '"' (c :: cs) with
            | some p => some p
            | none => push c (longBasicBody .plain cs)
          else if c = '\\' then longBasicBody .afterBackslash cs
          else if isPlain c then push c (longBasicBody .plain cs)
          else none
      | .plain =>
          if c = '"' then
            match closing? '"' (c :: cs) with
            | some p => some p
            | none => push c (longBasicBody .plain cs)
          else if c = '\\' then longBasicBody .afterBackslash cs
          else if c = '\n' || isPlain c then push c (longBasicBody .plain cs)
          else if c = '\r' ∧ cs.head? = some '\n' then longBasicBody .plain cs
          else none
      | .afterBackslash =>
          if c = 'u' then longBasicBody (.inCode 4 0) cs
          else if c = 'U' then longBasicBody (.inCode 8 0) cs
          else if isSpace c then longBasicBody (.inGap false) cs
          else if c = '\n' then longBasicBody (.inGap true) cs
          else if c = '\r' then
            if cs.head? = some '\n' then longBasicBody (.inGap false) cs else none
          else
            match escaped? c with
            | some x => push x (longBasicBody .plain cs)
            | none => none
      | .inCode left value =>
          match hexDigit? c with
          | none => none
          | some d =>
              if left ≤ 1 then
                match scalar? (value * 16 + d) with
                | some x => push x (longBasicBody .plain cs)
                | none => none
              else longBasicBody (.inCode (left - 1) (value * 16 + d)) cs

/-- Between single quotes, in one line; begins after the first quote. -/
def literalBody : Reader (List Char)
  | [] => none
  | c :: cs =>
      if c = '\'' then some ([], cs)
      else if isPlain c then push c (literalBody cs)
      else none

/-- Between three single quotes. -/
def longLiteralBody : Reader (List Char)
  | [] => none
  | c :: cs =>
      if c = '\'' then
        match closing? '\'' (c :: cs) with
        | some p => some p
        | none => push c (longLiteralBody cs)
      else if c = '\n' || isPlain c then push c (longLiteralBody cs)
      else if c = '\r' ∧ cs.head? = some '\n' then longLiteralBody cs
      else none

/-- A string of any form. -/
def readString : Reader (List Char)
  | '"' :: '"' :: '"' :: cs => longBasicBody .plain ((lineEnd? cs).getD cs)
  | '"' :: cs => basicBody .plain cs
  | '\'' :: '\'' :: '\'' :: cs => longLiteralBody ((lineEnd? cs).getD cs)
  | '\'' :: cs => literalBody cs
  | _ => none

/-- One part of a key: letters without quotes, or a string in one line. -/
def readKeyPart : Reader String
  | '"' :: cs => (basicBody .plain cs).map fun p => (String.ofList p.1, p.2)
  | '\'' :: cs => (literalBody cs).map fun p => (String.ofList p.1, p.2)
  | cs =>
      let letters := cs.takeWhile isBareKeyLetter
      if letters.isEmpty then none else some (String.ofList letters, cs.dropWhile isBareKeyLetter)

/-- The parts of a dotted key, with blanks around them. -/
def readKeyParts : (fuel : Nat) → Reader (List String)
  | 0, _ => none
  | fuel + 1, cs => do
      let (part, cs) ← readKeyPart (skipSpaces cs)
      match skipSpaces cs with
      | '.' :: cs => do
          let (parts, cs) ← readKeyParts fuel cs
          some (part :: parts, cs)
      | cs => some ([part], cs)

/-- How many parts a key may have at most. -/
def keyLimit : Nat := 79

/-- A dotted key: the path of tables it goes through, and the last part. -/
def readKey (cs : List Char) : Option ((List String × String) × List Char) := do
  let (parts, cs) ← readKeyParts keyLimit cs
  let last ← parts.getLast?
  some ((parts.dropLast, last), cs)

end Toml

end LeaseElection
