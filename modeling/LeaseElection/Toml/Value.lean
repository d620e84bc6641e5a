import LeaseElection.Binary64.Basic

/-!
# TOML values

A document is a table.  Tables keep the order in which their keys were written
and remember how they came to be, because that decides how they may grow.
-/

namespace LeaseElection

namespace Toml

/-- How a table came to be. -/
inductive Origin where
  /-- The document, or under a header of its own. -/
  | header
  /-- As a step in the header of a table below it. -/
  | implied
  /-- As a step in a dotted key. -/
  | dotted
  /-- Between braces. -/
  | inline
deriving DecidableEq

inductive Value where
  | string (s : String)
  | integer (n : Int)
  | float (x : Binary64)
  | boolean (b : Bool)
  /-- A date, a time or both, as it was written. -/
  | moment (text : String)
  | array (items : List Value)
  | table (origin : Origin) (entries : List (String × Value))
  /-- Tables under a header in double brackets. -/
  | tables (elements : List (List (String × Value)))

abbrev Entries := List (String × Value)

namespace Entries

/-- The entries with the value of `key` replaced, in its place. -/
def replace (es : Entries) (key : String) (v : Value) : Entries :=
  es.map fun e => if e.1 = key then (key, v) else e

/-- The entries without `key`. -/
def erase (es : Entries) (key : String) : Entries := es.filter fun e => e.1 ≠ key

/-- What may be done to the table at the end of a path. -/
abbrev Edit := Origin → Entries → Option Entries

/-- Goes down a path from a table and edits the table at its end.  Tables that
are missing on the way are made.  A dotted key does not enter a table that has a
header; no path enters a table between braces; an array of tables is entered at
its last element. -/
def edit (dottedKey : Bool) (f : Edit) : List String → Edit
  | [], origin, es => f origin es
  | key :: path, _, es =>
      match es.lookup key with
      | none => do
          let origin := if dottedKey then Origin.dotted else .implied
          let sub ← edit dottedKey f path origin []
          some (es ++ [(key, .table origin sub)])
      | some (.table .inline _) => none
      | some (.table origin sub) => do
          if dottedKey && origin == .header then none
          else
            let sub ← edit dottedKey f path origin sub
            some (es.replace key (.table origin sub))
      | some (.tables elements) => do
          let last ← elements.getLast?
          let last ← edit dottedKey f path .header last
          some (es.replace key (.tables (elements.dropLast ++ [last])))
      | some _ => none

/-- Adds a value under a new key.  A dotted key ends in a table that dotted keys
made, a plain one in a table that they did not make. -/
def addPair (dottedPath : List String) (key : String) (v : Value) : Edit :=
  edit true (fun origin es =>
    if (origin == .dotted) == dottedPath.isEmpty then none
    else if (es.lookup key).isSome then none
    else some (es ++ [(key, v)])) dottedPath

/-- Opens a table under a header.  One that was only implied so far moves to the
end of its parent. -/
def openTable (key : String) : Edit := fun _ es =>
  match es.lookup key with
  | none => some (es ++ [(key, .table .header [])])
  | some (.table .implied sub) => some (es.erase key ++ [(key, .table .header sub)])
  | some _ => none

/-- Opens one more element of an array of tables. -/
def openElement (key : String) : Edit := fun _ es =>
  match es.lookup key with
  | none => some (es ++ [(key, .tables [[]])])
  | some (.tables elements) => some (es.replace key (.tables (elements ++ [[]])))
  | some _ => none

end Entries

end Toml

end LeaseElection
