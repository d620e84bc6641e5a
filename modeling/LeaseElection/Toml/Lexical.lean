/-!
# TOML: blanks, line ends, comments and key letters

The smallest parts of a document.  A reader takes what it can from the front of
the text and hands back the rest; where it finds no sense there is no answer,
for the place of a mistake is of no interest here.
-/

namespace LeaseElection

namespace Toml

abbrev Reader (α : Type) := List Char → Option (α × List Char)

/-- A blank within a line. -/
def isSpace (c : Char) : Bool := c == ' ' || c == '\t'

def skipSpaces (cs : List Char) : List Char := cs.dropWhile isSpace

/-- A character that may stand in text as it is: a tab, or none of the controls. -/
def isPlain (c : Char) : Bool := c == '\t' || (0x20 ≤ c.toNat && c.toNat != 0x7F)

/-- The text after one line end. -/
def lineEnd? : List Char → Option (List Char)
  | '\n' :: cs => some cs
  | '\r' :: '\n' :: cs => some cs
  | _ => none

/-- The text after a comment, if one begins here. -/
def skipComment : List Char → List Char
  | '#' :: cs => cs.dropWhile isPlain
  | cs => cs

/-- The text after what may follow at the end of a line: blanks, a comment, and
the end of the line or of the document. -/
def finishLine? (cs : List Char) : Option (List Char) :=
  match skipComment (skipSpaces cs) with
  | [] => some []
  | rest => lineEnd? rest

/-- The text after blanks, line ends and comments that are closed by a line end. -/
def skipLines : (fuel : Nat) → List Char → List Char
  | 0, cs => cs
  | fuel + 1, cs =>
      let cs := skipSpaces cs
      match lineEnd? (skipComment cs) with
      | some rest => skipLines fuel rest
      | none => cs

/-- A letter of a key without quotes. -/
def isBareKeyLetter (c : Char) : Bool := c.isAlphanum || c == '_' || c == '-'

end Toml

end LeaseElection
