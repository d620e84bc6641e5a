import LeaseElection.Alarms
import LeaseElection.Task.Crew

/-!
# Leadership episodes

An episode is the time during which a controller holds the lease.  It owns one
instance of the protected task; when the episode ends or is dropped that
instance is cancelled, and nobody waits for it.
-/

namespace LeaseElection

structure Episode where
  token : LockToken
  startedAt : Nat
  /-- The number of the task instance in its crew. -/
  task : Nat
deriving DecidableEq

namespace Episode

/-- Begins an episode: an instance of the task is added to the crew. -/
def begin (crew : Crew) (now : Nat) (token : LockToken) (t : Task) : Episode × Crew :=
  let (task, crew) := crew.spawn t
  (⟨token, now, task⟩, crew)

def heldFor (e : Episode) (now : Nat) : Nat := now - e.startedAt

end Episode

/-- Episodes by name under one parent, on a clock of their own. -/
structure EpisodeBoard where
  now : Nat := 0
  parentCancelled : Bool := false
  crew : Crew := {}
  /-- Task instances that were woken, in order. -/
  woken : List Nat := []
  alarms : Alarms Nat := {}
  /-- The episodes that go on. -/
  current : List (String × Episode) := []
  /-- The task instances of the episodes that were ended. -/
  ended : List (String × Nat) := []

namespace EpisodeBoard

def put {α : Type} (l : List (String × α)) (name : String) (x : α) : List (String × α) :=
  (name, x) :: l.filter fun p => p.1 ≠ name

def drop {α : Type} (l : List (String × α)) (name : String) : List (String × α) :=
  l.filter fun p => p.1 ≠ name

def wake (b : EpisodeBoard) (i : Nat) : EpisodeBoard :=
  if i ∈ b.woken then b else { b with woken := b.woken ++ [i] }

def cancelTask (b : EpisodeBoard) (i : Nat) : EpisodeBoard :=
  { b with crew := b.crew.cancel i }.wake i

/-- One task instance runs until it has to wait. -/
def poll (b : EpisodeBoard) (i : Nat) : EpisodeBoard :=
  let crew := b.crew.poll b.now i
  { b with crew, alarms := b.alarms.set i (crew.alarm? i) }

/-- All that were woken run until they have to wait. -/
def settle (b : EpisodeBoard) : EpisodeBoard := b.woken.foldl poll { b with woken := [] }

/-- The board with the clock at `now`, where everybody ran whose time has come. -/
def moveTo (b : EpisodeBoard) (now : Nat) : EpisodeBoard :=
  ((b.alarms.due now).foldl wake { b with now }).settle

/-- Goes from alarm to alarm up to `target`, from `now` on. -/
def advanceFrom (now target : Nat) (b : EpisodeBoard) : EpisodeBoard :=
  match b.alarms.next? now target with
  | some w => advanceFrom w.val target (b.moveTo w.val)
  | none => b.moveTo target
termination_by target - now
decreasing_by have := w.property; omega

/-- Lets an instant come, with all that is due before it in its turn. -/
def advanceTo (b : EpisodeBoard) (target : Nat) : EpisodeBoard :=
  if b.now < target then b.advanceFrom b.now target else b

/-- Moves the clock on by `d` at one go, unless that is more than it can show. -/
def leap? (b : EpisodeBoard) (d : Span) : Option EpisodeBoard :=
  (Instant.after? b.now d).map b.settle.moveTo

/-- Begins an episode under a name, and then drops the one that went on under it;
tells whether there was one. -/
def begin (b : EpisodeBoard) (name : String) (token : LockToken) (runner : ControllerId)
    (conduct : Conduct) : Bool × EpisodeBoard :=
  let former := b.current.lookup name
  let task : Task := { group := 0, runner, conduct, cancelled := b.parentCancelled }
  let (e, crew) := Episode.begin b.crew b.now token task
  let b := { b with crew, current := put b.current name e }.wake e.task
  match former with
  | none => (false, b)
  | some former => (true, b.cancelTask former.task)

/-- Ends an episode and keeps hold of its task instance, whose number it tells. -/
def finish (b : EpisodeBoard) (name : String) : Option (Nat × EpisodeBoard) :=
  (b.current.lookup name).map fun e =>
    (e.task, { b with
      current := drop b.current name
      ended := put b.ended name e.task }.cancelTask e.task)

/-- Drops an episode; tells whether there was one. -/
def abandon (b : EpisodeBoard) (name : String) : Bool × EpisodeBoard :=
  match b.current.lookup name with
  | none => (false, b)
  | some e => (true, { b with current := drop b.current name }.cancelTask e.task)

/-- Cancels the parent of all episodes. -/
def cancelParent (b : EpisodeBoard) : EpisodeBoard :=
  (b.crew.activeIn 0).foldl cancelTask { b with parentCancelled := true }

/-- Waits for the task instance of an ended episode and lets go of it.  Nobody
waits for one that will not return. -/
def join (b : EpisodeBoard) (name : String) : Option (Nat × EpisodeBoard) :=
  (b.ended.lookup name).map fun i =>
    let b := { b with ended := drop b.ended name }.settle
    if b.crew.isOver i then (i, b)
    else
      match b.crew.alarm? i with
      | none => (i, b)
      | some w => (i, b.advanceTo w)

end EpisodeBoard

end LeaseElection
