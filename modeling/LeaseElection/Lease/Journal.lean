import LeaseElection.Journal
import LeaseElection.Lease.Basic

/-!
# What a lease table writes to the journal

Every event of the lease becomes one entry that carries the name of the lease.
-/

namespace LeaseElection

namespace Lease.Event

def level : Lease.Event → Level
  | .acquired .. | .released .. | .reclaimed .. => .info
  | .denied .. | .renewRejected .. | .releaseRejected .. => .debug
  | .renewed .. => .trace
  | .expired .. => .warn

def message : Lease.Event → String
  | .acquired .. => "lease granted"
  | .denied .. => "lease denied"
  | .renewed .. => "lease renewed"
  | .renewRejected .. => "renewal rejected"
  | .released .. => "lease released"
  | .releaseRejected .. => "release rejected"
  | .expired .. => "lease expired"
  | .reclaimed .. => "expired lease reclaimed"

def fields : Lease.Event → Fields
  | .acquired holder token => [("holder", holder.field), ("token", token.field)]
  | .denied holder current => [("holder", holder.field), ("current_holder", current.field)]
  | .renewed holder | .released holder | .expired holder => [("holder", holder.field)]
  | .renewRejected holder reason | .releaseRejected holder reason =>
      [("holder", holder.field), ("reason", reason.field)]
  | .reclaimed previous next =>
      [("previous_holder", previous.field), ("new_holder", next.field)]

/-- The entry for an event of the lease called `name`. -/
def entry (name : String) (e : Lease.Event) : Entry where
  level := e.level
  message := e.message
  fields := ("lease", .text name) :: e.fields

end Lease.Event

end LeaseElection
