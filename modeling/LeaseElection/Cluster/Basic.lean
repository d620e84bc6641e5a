import LeaseElection.Controller.Journal
import LeaseElection.Episode
import LeaseElection.Lock.Service

/-!
# A cluster of controllers

Any number of controllers share one lock service and one clock.  Time stands
still while somebody can go on; then it moves to the next alarm.  Those who can
go on take their turns in the order in which they were woken, and each of them
goes on until it has to wait.
-/

namespace LeaseElection

open Controller (Phase Signal Action)

/-- Who takes turns: controllers and task instances, by number. -/
inductive Runner where
  | member (i : Nat)
  | task (i : Nat)
deriving DecidableEq

/-- A call whose answer is on its way. -/
structure PendingCall where
  request : Request
  askedAt : Nat
  due : Nat
  answer : Answer
deriving DecidableEq

/-- When an answer is there that takes so long; one that takes no time is there
at once. -/
def Span.dueFrom (latency : Span) (now : Nat) : Nat :=
  if latency.isZero then now else Instant.wake now latency

/-- What a call made at `now` waits for; nothing, if it is never answered. -/
def PendingCall.of? (now : Nat) (r : Request) : Reply → Option PendingCall
  | .answer latency a =>
      some { request := r, askedAt := now, due := latency.dueFrom now, answer := a }
  | .silence => none

/-- A controller in a cluster. -/
structure Member where
  name : String
  id : ControllerId
  policy : Policy
  conduct : Conduct
  phase : Phase := .idle
  /-- Whether its shutdown fired. -/
  shutdown : Bool := false
  /-- The episode that it began last. -/
  episode : Option Episode := none
  /-- The call that it is in, unless that is never answered. -/
  call : Option PendingCall := none
deriving DecidableEq

namespace Member

def state (m : Member) : Controller.State := m.phase.state

/-- What has come back by `now` from the call that the controller is in. -/
def answer? (m : Member) (now : Nat) : Option Answer :=
  (m.call.filter fun k => k.due ≤ now).map PendingCall.answer

def signal? (m : Member) (now : Nat) : Option Signal :=
  Controller.signal? now m.shutdown (m.answer? now) m.phase

/-- The instant at which the controller can go on by itself. -/
def wake? (m : Member) : Option Nat :=
  match m.phase with
  | .acquiring | .renewing .. => m.call.map PendingCall.due
  | phase => phase.wake?

end Member

/-- A call, or the answer to one. -/
inductive Exchange where
  | asked (r : Request)
  | answered (r : Request) (a : Answer)
deriving DecidableEq

structure Cluster (σ : Type) where
  now : Nat := 0
  service : σ
  /-- Whether the calls of controllers are traced. -/
  traced : Bool := false
  members : List Member := []
  crew : Crew := {}
  /-- Who can go on, in order. -/
  ready : List Runner := []
  /-- Which controllers let the others run first. -/
  yielded : List Nat := []
  alarms : Alarms Runner := {}
  /-- What went to and fro between controllers and service, latest first. -/
  exchanges : List (Nat × Exchange) := []
  /-- What was written, latest first. -/
  entries : List Stamped := []

namespace Cluster

variable {σ : Type}

def modify (c : Cluster σ) (i : Nat) (f : Member → Member) : Cluster σ :=
  { c with members := c.members.modify i f }

def write (c : Cluster σ) (es : List Entry) : Cluster σ :=
  { c with entries := (es.map (Stamped.mk c.now)).reverse ++ c.entries }

/-- Writes to the journal in the scope of the controller `id`. -/
def writeFor (c : Cluster σ) (id : ControllerId) (es : List Entry) : Cluster σ :=
  c.write (es.map (Entry.within · (.election id)))

def exchange (c : Cluster σ) (e : Exchange) : Cluster σ :=
  { c with exchanges := (c.now, e) :: c.exchanges }

def wake (c : Cluster σ) (r : Runner) : Cluster σ :=
  if r ∈ c.ready then c else { c with ready := c.ready ++ [r] }

def cancelTask (c : Cluster σ) (j : Nat) : Cluster σ :=
  { c with crew := c.crew.cancel j }.wake (.task j)

/-- Puts a call of controller `i` to the service. -/
def call [LockService σ] (c : Cluster σ) (i : Nat) (m : Member) (r : Request) : Cluster σ :=
  let (reply, service, es) := LockService.call c.now (.member i) r c.service
  let es := if c.traced then es.map (Entry.within · r.scope) else es
  ({ c with service }.exchange (.asked r)).writeFor m.id es
    |>.modify i fun m => { m with call := PendingCall.of? c.now r reply }

/-- Does what is to be done for controller `i`. -/
def perform [LockService σ] (i : Nat) (m : Member) (c : Cluster σ) : Action → Cluster σ
  | .note n => c.write [n.entry m.id]
  | .call r => c.call i m r
  | .startTask token =>
      let task : Task :=
        { group := i, runner := m.id, conduct := m.conduct, cancelled := m.shutdown }
      let (e, crew) := Episode.begin c.crew c.now token task
      ({ c with crew }.modify i fun m => { m with episode := some e }).wake (.task e.task)
  | .cancelTask =>
      match c.members[i]?.bind Member.episode with
      | none => c
      | some e => c.cancelTask e.task

/-- Takes note of the answer that controller `i` is about to hear. -/
def hear (c : Cluster σ) (m : Member) : Cluster σ :=
  match m.call with
  | none => c
  | some k =>
      let c := c.exchange (.answered k.request k.answer)
      if c.traced then
        let verdict := k.request.verdict ((c.now - k.askedAt) / 1000000) k.answer
        c.writeFor m.id [verdict.within k.request.scope]
      else c

/-- Resumes controller `i` with a signal. -/
def resume [LockService σ] (c : Cluster σ) (i : Nat) (m : Member) (s : Signal) : Cluster σ :=
  let c := match s with
    | .answered _ => c.hear m
    | _ => c
  let (phase, actions) := Controller.resume m.id m.policy c.now m.phase s
  actions.foldl (perform i m) (c.modify i fun m => { m with phase, call := none })

/-- Lets controller `i` wait. -/
def park (c : Cluster σ) (i : Nat) : Cluster σ :=
  match c.members[i]? with
  | none => c
  | some m =>
      let c := { c with alarms := c.alarms.set (.member i) m.wake? }
      match m.phase with
      | .yielding _ => if i ∈ c.yielded then c else { c with yielded := c.yielded ++ [i] }
      | _ => c

/-- Whether the task of the last episode of a controller is over. -/
def isTaskOver (c : Cluster σ) (m : Member) : Bool :=
  m.episode.all fun e => c.crew.isOver e.task

/-- The first who can go on takes one step.  A controller that let the others
run goes on when nobody else can. -/
def step? [LockService σ] (c : Cluster σ) : Option (Cluster σ) :=
  match c.ready, c.yielded with
  | .member i :: rest, _ =>
      some <| match c.members[i]? with
        | none => { c with ready := rest }
        | some m =>
            match m.signal? c.now with
            | some s => c.resume i m s
            | none => { c with ready := rest }.park i
  | .task j :: rest, _ =>
      let crew := c.crew.poll c.now j
      some { c with ready := rest, crew, alarms := c.alarms.set (.task j) (crew.alarm? j) }
  | [], i :: rest =>
      let c := { c with yielded := rest, ready := [.member i] }
      some <| match c.members[i]? with
        | none => c
        | some m => c.resume i m (.resumed (c.isTaskOver m))
  | [], [] => none

def run [LockService σ] : (fuel : Nat) → Cluster σ → Cluster σ
  | 0, c => c
  | fuel + 1, c =>
      match c.step? with
      | none => c
      | some c => run fuel c

/-- More steps than can be taken at one instant: a controller that has a wait
between its attempts takes fewer than thirty, and wakes no more than two tasks. -/
def patience (c : Cluster σ) : Nat :=
  64 * (c.ready.length + c.yielded.length + c.members.length + 1)

/-- Everybody goes on who can, until all wait. -/
def settle [LockService σ] (c : Cluster σ) : Cluster σ := c.run c.patience

/-- The cluster with the clock at `now`, where everybody went on whose time has
come. -/
def moveTo [LockService σ] (c : Cluster σ) (now : Nat) : Cluster σ :=
  ((c.alarms.due now).foldl wake { c with now }).settle

/-- Goes from alarm to alarm up to `target`, from `now` on. -/
def advanceFrom [LockService σ] (now target : Nat) (c : Cluster σ) : Cluster σ :=
  match c.alarms.next? now target with
  | some w => advanceFrom w.val target (c.moveTo w.val)
  | none => c.moveTo target
termination_by target - now
decreasing_by have := w.property; omega

/-- Lets an instant come, with all that is due before it in its turn. -/
def advanceTo [LockService σ] (c : Cluster σ) (target : Nat) : Cluster σ :=
  if c.now < target then c.advanceFrom c.now target else c

end Cluster

end LeaseElection
