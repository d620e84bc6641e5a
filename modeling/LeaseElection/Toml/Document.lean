import LeaseElection.Toml.Moments
import LeaseElection.Toml.Strings
import LeaseElection.Toml.Value

/-!
# TOML documents

A document is a list of statements: pairs of a key and a value, and headers that
open tables.  Reading one means to find its statements and to carry them out, in
order, on a table that is empty at first.
-/

namespace LeaseElection

namespace Toml

/-- A value that holds no others. -/
def readScalar (cs : List Char) : Option (Value × List Char) :=
  let mapped {α : Type} (f : α → Value) (r : Option (α × List Char)) :=
    r.map fun p => (f p.1, p.2)
  mapped (.string ∘ String.ofList) (readString cs) <|>
    mapped .boolean (readBoolean cs) <|>
    mapped .moment (readMoment cs) <|>
    mapped .float (readFloat cs) <|>
    mapped .integer (readInteger cs)

/-- The values of an array and its bracket, after the first bracket. -/
def readItems (item : Reader Value) : (fuel : Nat) → Reader (List Value)
  | 0, _ => none
  | fuel + 1, cs =>
      match skipLines cs.length cs with
      | ']' :: cs => some ([], cs)
      | cs => do
          let (v, cs) ← item cs
          match skipLines cs.length cs with
          | ',' :: cs => do
              let (vs, cs) ← readItems item fuel cs
              some (v :: vs, cs)
          | ']' :: cs => some ([v], cs)
          | _ => none

/-- A key and its value, with blanks around them. -/
def readPair (item : Reader Value) (cs : List Char) :
    Option ((List String × String × Value) × List Char) := do
  let ((path, key), cs) ← readKey cs
  match cs with
  | '=' :: cs => do
      let (v, cs) ← item (skipSpaces cs)
      some ((path, key, v), skipSpaces cs)
  | _ => none

/-- The pairs between braces and the second brace, added to what came before. -/
def readPairs (item : Reader Value) (es : Entries) : (fuel : Nat) → Reader Entries
  | 0, _ => none
  | fuel + 1, cs => do
      let ((path, key, v), cs) ← readPair item cs
      let es ← Entries.addPair path key v .inline es
      match cs with
      | ',' :: cs => readPairs item es fuel cs
      | '\x7d' :: cs => some (es, cs)
      | _ => none

/-- A value; arrays and tables between braces hold values of one depth less. -/
def readValue : (depth : Nat) → Reader Value
  | 0, cs => readScalar cs
  | depth + 1, cs =>
      match cs with
      | '[' :: cs => do
          let (vs, cs) ← readItems (readValue depth) cs.length cs
          some (.array vs, cs)
      | '\x7b' :: cs =>
          match skipSpaces cs with
          | '\x7d' :: cs => some (.table .inline [], cs)
          | _ => do
              let (es, cs) ← readPairs (readValue depth) [] cs.length cs
              some (.table .inline es, cs)
      | cs => readScalar cs

/-- How deep arrays and tables between braces may be nested. -/
def nestingLimit : Nat := 79

inductive Statement where
  | pair (path : List String) (key : String) (v : Value)
  | header (path : List String) (key : String)
  | elementHeader (path : List String) (key : String)

/-- One statement that begins here, up to the end of its line. -/
def readStatement (cs : List Char) : Option (Statement × List Char) :=
  match cs with
  | '[' :: '[' :: cs => do
      let ((path, key), cs) ← readKey cs
      match cs with
      | ']' :: ']' :: cs => do some (.elementHeader path key, ← finishLine? cs)
      | _ => none
  | '[' :: cs => do
      let ((path, key), cs) ← readKey cs
      match cs with
      | ']' :: cs => do some (.header path key, ← finishLine? cs)
      | _ => none
  | cs => do
      let ((path, key, v), cs) ← readPair (readValue nestingLimit) cs
      some (.pair path key v, ← finishLine? cs)

/-- The statements of a document. -/
def readStatements : (fuel : Nat) → List Char → Option (List Statement)
  | 0, _ => none
  | fuel + 1, cs =>
      match skipLines cs.length cs with
      | [] => some []
      | '#' :: cs => if (cs.dropWhile isPlain).isEmpty then some [] else none
      | cs => do
          let (s, cs) ← readStatement cs
          let ss ← readStatements fuel cs
          some (s :: ss)

/-- A document as far as it was carried out: its entries, and the path of the
table that was opened last. -/
structure Draft where
  entries : Entries := []
  current : List String := []

def Draft.apply (d : Draft) : Statement → Option Draft
  | .pair path key v => do
      let es ← Entries.edit false (Entries.addPair path key v) d.current .header d.entries
      some { d with entries := es }
  | .header path key => do
      let es ← Entries.edit false (Entries.openTable key) path .header d.entries
      some ⟨es, path ++ [key]⟩
  | .elementHeader path key => do
      let es ← Entries.edit false (Entries.openElement key) path .header d.entries
      some ⟨es, path ++ [key]⟩

/-- The entries of a document; a mark of byte order in front is ignored. -/
def readDocument (s : String) : Option Entries := do
  let cs := match s.toList with
    | '\uFEFF' :: cs => cs
    | cs => cs
  let ss ← readStatements (cs.length + 1) cs
  let d ← ss.foldlM Draft.apply {}
  some d.entries

end Toml

end LeaseElection
