import LeaseElection.Cluster.Basic

/-!
# Commanding a cluster

What can be done to a cluster from outside.  After every command all controllers
and tasks go on until they wait.
-/

namespace LeaseElection

namespace Cluster

variable {σ : Type}

/-- Takes in a controller, which is yet to take its first turn. -/
def enroll (c : Cluster σ) (m : Member) : Cluster σ :=
  let runner := Runner.member c.members.length
  { c with members := c.members ++ [m], ready := c.ready ++ [runner] }

/-- Fires the shutdown of controller `i`: its tasks are cancelled, and it is woken. -/
def dismiss (c : Cluster σ) (i : Nat) : Cluster σ :=
  let tasks := c.crew.activeIn i
  let c := c.modify i fun m => { m with shutdown := true }
  (tasks.foldl cancelTask c).wake (.member i)

variable [LockService σ]

/-- Launches a controller. -/
def launch (c : Cluster σ) (m : Member) : Cluster σ := (c.enroll m).settle

/-- Lets time pass. -/
def sleep (c : Cluster σ) (millis : Nat) : Cluster σ :=
  c.settle.advanceTo (c.now + millis * 1000000)

/-- The number of the controller that goes by `name`. -/
def find? (c : Cluster σ) (name : String) : Option Nat :=
  c.members.findIdx? (·.name == name)

/-- Shuts controller `i` down. -/
def shutdown (c : Cluster σ) (i : Nat) : Cluster σ := (c.dismiss i).settle

/-- Fires the shutdown of the first controller that shows it is leading; tells
its name. -/
def shutdownLeader (c : Cluster σ) : Option String × Cluster σ :=
  match c.members.findIdx? (·.state.isLeading) with
  | none => (none, c)
  | some i => (c.members[i]?.map Member.name, c.shutdown i)

/-- How a controller came to its end. -/
inductive Ending where
  | returned
  | failed
deriving DecidableEq

def Ending.message : Ending → String
  | .returned => "returned"
  | .failed => Instant.overflowMessage

/-- How controller `i` came to its end, if it did. -/
def ending? (c : Cluster σ) (i : Nat) : Option Ending :=
  match c.members[i]?.map Member.phase with
  | some .stopped => some .returned
  | some .failed => some .failed
  | _ => none

/-- A call from outside.  The caller waits for the answer; there is none to a
call that is never answered. -/
def callFrom (c : Cluster σ) (name : String) (r : Request) : Option Answer × Cluster σ :=
  let (reply, service, es) := LockService.call c.now (.outsider name) r c.service
  let c := ({ c with service }.exchange (.asked r)).write es
  match reply with
  | .silence => (none, c.settle)
  | .answer latency a =>
      let c := c.settle.advanceTo (latency.dueFrom c.now)
      (some a, (c.exchange (.answered r a)).settle)

/-- Does something to the service itself. -/
def alter (c : Cluster σ) (f : σ → σ) : Cluster σ := { c with service := f c.service }.settle

/-- What went to and fro, in order. -/
def history (c : Cluster σ) : List (Nat × Exchange) := c.exchanges.reverse

/-- What was written, in order. -/
def journal (c : Cluster σ) : List Stamped := c.entries.reverse

/-- The journal sorted by the controller in whose scope an entry was written,
empty for none; controllers come in the order of their first entry. -/
def journalByController (c : Cluster σ) : List (String × List Stamped) :=
  let owner (s : Stamped) := (s.entry.controller?).getD ""
  let owners := (c.journal.map owner).foldl
    (fun seen o => if o ∈ seen then seen else seen ++ [o]) []
  owners.map fun o => (o, c.journal.filter fun s => owner s = o)

end Cluster

namespace Cluster

variable {κ : Type} [DecidableEq κ] [LockService (LeaseTable κ)]

/-- Frees the lease of a table if it has expired; tells what happened. -/
def tick (c : Cluster (LeaseTable κ)) : List Lease.Event × Cluster (LeaseTable κ) :=
  let (service, events) := c.service.tick c.now
  (events, ({ c with service }.write
    (events.map (Lease.Event.entry service.lease.name))).settle)

end Cluster

end LeaseElection
