import LeaseElection.Instant
import LeaseElection.Lock.Basic

/-!
# Journal entries

What the parts of the system report while they work.  An entry has a level, the
scopes it was written in (outermost first), a message and named fields.
-/

namespace LeaseElection

inductive Level where
  | trace
  | debug
  | info
  | warn
  | error
deriving DecidableEq

/-- The value of a field: a text, or a count. -/
inductive FieldValue where
  | text (s : String)
  | count (n : Nat)
deriving DecidableEq

abbrev Fields := List (String × FieldValue)

/-- A stretch of work that entries belong to. -/
structure Scope where
  name : String
  fields : Fields := []
deriving DecidableEq

structure Entry where
  level : Level
  message : String
  fields : Fields := []
  scopes : List Scope := []
deriving DecidableEq

namespace Entry

/-- The same entry, written inside `scope`. -/
def within (e : Entry) (scope : Scope) : Entry := { e with scopes := scope :: e.scopes }

end Entry

def LockError.field (e : LockError) : FieldValue := .text e.message
def ControllerId.field (id : ControllerId) : FieldValue := .text id.text
def LockToken.field (t : LockToken) : FieldValue := .text t.text

/-- The scope in which the controller named `id` works. -/
def Scope.election (id : ControllerId) : Scope := ⟨"ha_mode", [("id", id.field)]⟩

/-- An entry together with the instant it was written. -/
structure Stamped where
  time : Nat
  entry : Entry
deriving DecidableEq

/-- The controller in whose scope an entry was written. -/
def Entry.controller? (e : Entry) : Option String :=
  e.scopes.findSome? fun s =>
    if s.name = "ha_mode" then
      s.fields.findSome? fun
        | ("id", .text id) => some id
        | _ => none
    else none

end LeaseElection
