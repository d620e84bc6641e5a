import LeaseElection.Lease.Basic

/-!
# A lease shared by many clients

A table holds one lease.  Every client remembers the grant it was issued last,
and its renewals and releases act on that memory, which may have gone stale.
-/

namespace LeaseElection

/-- What a client remembers of a grant. -/
structure Grant where
  holder : ControllerId
  token : LockToken
deriving DecidableEq

/-- One lease and the memories of its clients, which are told apart by `κ`. -/
structure LeaseTable (κ : Type) where
  lease : Lease
  grants : κ → Option Grant := fun _ => none

namespace LeaseTable

open Lease (Input Event)

variable {κ : Type}

/-- A table whose lease was never granted. -/
def new (name : String) (ttl : Span) : LeaseTable κ := { lease := { name, ttl } }

/-- Who holds the lease; a lease past its time has no holder. -/
def holder (t : LeaseTable κ) (now : Nat) : Option ControllerId :=
  if t.lease.isExpired now then none else t.lease.holder

def apply (t : LeaseTable κ) (now : Nat) (i : Input) : LeaseTable κ × List Event :=
  let (lease, events) := t.lease.step now i
  ({ t with lease }, events)

def tick (t : LeaseTable κ) (now : Nat) : LeaseTable κ × List Event := t.apply now .tick

variable [DecidableEq κ]

/-- The table once `client` remembers `grant`. -/
def remember (t : LeaseTable κ) (client : κ) (grant : Option Grant) : LeaseTable κ :=
  { t with grants := fun k => if k = client then grant else t.grants k }

/-- The token of the grant that a step made, if it made one. -/
def grantedToken? (events : List Event) : Option LockToken :=
  events.findSome? fun
    | .acquired _ token => some token
    | _ => none

/-- Why a step refused a renewal, if it did. -/
def rejection? (events : List Event) : Option LockError :=
  events.findSome? fun
    | .renewRejected _ reason => some reason
    | _ => none

/-- Asks for the lease; a client that gets it remembers the grant. -/
def acquire (t : LeaseTable κ) (now : Nat) (client : κ) (caller : ControllerId) :
    Option LockToken × LeaseTable κ × List Event :=
  let (t, events) := t.apply now (.acquire caller)
  match grantedToken? events with
  | none => (none, t, events)
  | some token => (some token, t.remember client (some ⟨caller, token⟩), events)

/-- Renews the grant that the client remembers; it forgets a grant that is refused. -/
def renew (t : LeaseTable κ) (now : Nat) (client : κ) :
    Except LockError Unit × LeaseTable κ × List Event :=
  match t.grants client with
  | none => (.error .notHeld, t, [])
  | some g =>
      let (t, events) := t.apply now (.renew g.holder g.token)
      match rejection? events with
      | none => (.ok (), t, events)
      | some reason => (.error reason, t.remember client none, events)

/-- Gives back the grant that the client remembers, and forgets it. -/
def release (t : LeaseTable κ) (now : Nat) (client : κ) :
    Except LockError Unit × LeaseTable κ × List Event :=
  match t.grants client with
  | none => (.error .notHeld, t, [])
  | some g =>
      let (t, events) := t.apply now (.release g.holder g.token)
      let result := match events with
        | [.released _] => .ok ()
        | [.releaseRejected _ reason] => .error reason
        | _ => .error (.backend "unexpected release outcome")
      (result, t.remember client none, events)

@[simp]
theorem lease_remember (t : LeaseTable κ) (client : κ) (grant : Option Grant) :
    (t.remember client grant).lease = t.lease := rfl

@[simp]
theorem grants_remember_self (t : LeaseTable κ) (client : κ) (grant : Option Grant) :
    (t.remember client grant).grants client = grant := by
  simp [remember]

theorem grants_remember_of_ne (t : LeaseTable κ) {client k : κ} (grant : Option Grant)
    (h : k ≠ client) : (t.remember client grant).grants k = t.grants k := by
  simp [remember, h]

end LeaseTable

end LeaseElection
