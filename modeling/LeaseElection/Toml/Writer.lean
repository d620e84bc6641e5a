import LeaseElection.Binary64.Text
import LeaseElection.Toml.Lexical

/-!
# Writing TOML

A string is written in the plainest form that can hold it: between double
quotes, between single quotes, over several lines without and with escapes.
-/

namespace LeaseElection

namespace Toml

/-- A control that no form can hold as it is. -/
def isControl (c : Char) : Bool := (c.toNat ≤ 0x1F && c != '\t' && c != '\n') || c.toNat == 0x7F

/-- The length of the longest run of `c`. -/
def longestRun (c : Char) (cs : List Char) : Nat :=
  (cs.foldl (fun (best, run) d =>
    if d = c then (max best (run + 1), run + 1) else (best, 0)) (0, 0)).1

/-- How a string is written. -/
inductive StringForm where
  | basic
  | literal
  | longBasic
  | longLiteral
deriving DecidableEq

def formOf (cs : List Char) : StringForm :=
  let multiline := cs.contains '\n'
  if cs.any isControl then if multiline then .longBasic else .basic
  else if !cs.contains '\\' && !cs.contains '"' && !multiline then .basic
  else if !cs.contains '\'' && !multiline then .literal
  else if !cs.contains '\\' && longestRun '"' cs ≤ 2 then .longBasic
  else if longestRun '\'' cs ≤ 2 then .longLiteral
  else if multiline then .longBasic
  else .basic

def upperHexDigit (n : Nat) : Char := (Nat.digitChar (n % 16)).toUpper

/-- A character between double quotes, other than a quote or line feed. -/
def escapeControl (c : Char) : List Char :=
  if c = '\x08' then ['\\', 'b']
  else if c = '\t' then ['\\', 't']
  else if c = '\x0c' then ['\\', 'f']
  else if c = '\r' then ['\\', 'r']
  else if c = '\\' then ['\\', '\\']
  else if c.toNat ≤ 0x1F || c.toNat == 0x7F then
    ['\\', 'u', '0', '0', upperHexDigit (c.toNat / 16), upperHexDigit c.toNat]
  else [c]

def escapeBasic (c : Char) : List Char :=
  if c = '"' then ['\\', '"']
  else if c = '\n' then ['\\', 'n']
  else escapeControl c

/-- Over several lines every third quote in a row is escaped; `run` counts the
quotes just before. -/
def escapeLong (run : Nat) : List Char → List Char
  | [] => []
  | c :: cs =>
      if c = '"' then
        if run = 2 then '\\' :: '"' :: escapeLong 0 cs else '"' :: escapeLong (run + 1) cs
      else if c = '\n' then '\n' :: escapeLong 0 cs
      else escapeControl c ++ escapeLong 0 cs

/-- A long form begins with a line of its own if the string has several. -/
def opening (cs : List Char) : List Char := if cs.contains '\n' then ['\n'] else []

def writeString (cs : List Char) : List Char :=
  match formOf cs with
  | .basic => '"' :: (cs.flatMap escapeBasic ++ ['"'])
  | .literal => '\'' :: (cs ++ ['\''])
  | .longBasic => ['"', '"', '"'] ++ opening cs ++ escapeLong 0 cs ++ ['"', '"', '"']
  | .longLiteral => ['\'', '\'', '\''] ++ opening cs ++ cs ++ ['\'', '\'', '\'']

/-- A floating point number always shows its point. -/
def writeFloat : Binary64 → List Char
  | .nan negative => Binary64.signed negative ['n', 'a', 'n']
  | .infinite negative => Binary64.signed negative ['i', 'n', 'f']
  | .finite negative r => Binary64.signed negative (Binary64.pointedDigits r)

def writeNat (n : Nat) : List Char := Nat.toDigits 10 n

/-- A line with a key and its value. -/
def writePair (key : String) (value : List Char) : List Char :=
  key.toList ++ [' ', '=', ' '] ++ value ++ ['\n']

end Toml

end LeaseElection
