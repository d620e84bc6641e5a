import LeaseElection.Lease.Journal
import LeaseElection.Lease.Table
import LeaseElection.Lock.Double
import LeaseElection.Lock.Tracing

/-!
# Lock services

A lock service takes calls and answers each of them after some time, or never.
Two services answer at once: a lease table, in which every participant is a
client of its own, and the lock double, which all participants share.  A third
plays back a script.
-/

namespace LeaseElection

/-- Who calls a service: a controller, by order of launch, or someone else. -/
inductive Party where
  | member (n : Nat)
  | outsider (name : String)
deriving DecidableEq

/-- What becomes of a call. -/
inductive Reply where
  | answer (latency : Span) (a : Answer)
  | silence
deriving DecidableEq

/-- A service with states `σ`: what becomes of a call at an instant, the next
state, and what the service writes to the journal. -/
class LockService (σ : Type) where
  call : Nat → Party → Request → σ → Reply × σ × List Entry

namespace LeaseTable

variable {κ : Type} [DecidableEq κ]

/-- One call of a client, with the events of the lease as journal entries. -/
def call (now : Nat) (client : κ) (r : Request) (t : LeaseTable κ) :
    Answer × LeaseTable κ × List Entry :=
  let written (events : List Lease.Event) := events.map (Lease.Event.entry t.lease.name)
  match r with
  | .acquire caller =>
      let (token, t, events) := t.acquire now client caller
      (.ofGrant token, t, written events)
  | .renew =>
      let (result, t, events) := t.renew now client
      (.ofResult result, t, written events)
  | .release =>
      let (result, t, events) := t.release now client
      (.ofResult result, t, written events)

instance : LockService (LeaseTable Party) where
  call now party r t :=
    let (a, t, entries) := t.call now party r
    (.answer .zero a, t, entries)

end LeaseTable

namespace LockDouble

/-- One call, by whomever. -/
def call (now : Nat) (r : Request) (l : LockDouble) : Answer × LockDouble :=
  match r with
  | .acquire caller =>
      let (result, l) := l.acquire now caller
      (match result with
        | .ok token => .ofGrant token
        | .error reason => .refused reason, l)
  | .renew => (l.renew now).map Answer.ofResult id
  | .release => l.release.map Answer.ofResult id

instance : LockService LockDouble where
  call now _ r l :=
    let (a, l) := l.call now r
    (.answer .zero a, l, [])

end LockDouble

/-- A service that plays back two lists of replies, one for calls to acquire
and one for renewals.  When a list is used up there is nothing to grant and
nothing to refuse. -/
structure Script where
  acquires : List Reply
  renewals : List Reply
deriving DecidableEq

namespace Script

/-- The reply of a list that is used up. -/
def exhausted : Reply := .answer .zero .denied

def call (r : Request) (s : Script) : Reply × Script :=
  match r with
  | .acquire _ => (s.acquires.headD exhausted, { s with acquires := s.acquires.tail })
  | .renew => (s.renewals.headD exhausted, { s with renewals := s.renewals.tail })
  | .release => (.answer .zero .done, s)

instance : LockService Script where
  call _ _ r s :=
    let (reply, s) := s.call r
    (reply, s, [])

end Script

end LeaseElection
