import LeaseElection.Instant
import LeaseElection.Task.Record

/-!
# Protected tasks at work

An instance of a protected task is started, runs, and returns.  It is told to
stop by cancelling it, and how it takes that is its conduct.  A crew is all
instances ever started, in order, with the record that they share.
-/

namespace LeaseElection

/-- How a task behaves. -/
inductive Conduct where
  /-- It returns as soon as it is cancelled. -/
  | prompt
  /-- It never returns. -/
  | stubborn
  /-- It stops when cancelled, and returns some time later. -/
  | lingering (rest : Span)
  /-- It returns some time after its start, cancelled or not. -/
  | shortLived (life : Span)
  /-- It crashes at once. -/
  | crashing
deriving DecidableEq

inductive Stage where
  | fresh
  /-- Running, and if it is short-lived, until when. -/
  | running (stop : Option Nat)
  | lingering (wake : Nat)
  | returned
  | crashed
deriving DecidableEq

structure Task where
  /-- The controller whose end cancels the task. -/
  group : Nat
  runner : ControllerId
  conduct : Conduct
  stage : Stage := .fresh
  cancelled : Bool := false
deriving DecidableEq

namespace Task

def crashMessage : String := "task panicked"

/-- Whether the task is done with, in one way or the other. -/
def isOver (t : Task) : Bool := t.stage == .returned || t.stage == .crashed

/-- The instant at which the task goes on by itself. -/
def alarm? (t : Task) : Option Nat :=
  match t.stage with
  | .running stop => stop
  | .lingering wake => some wake
  | _ => none

/-- The first step of a task. -/
def start (now : Nat) (t : Task) (r : TaskRecord) : Task × TaskRecord :=
  match t.stage, t.conduct with
  | .fresh, .crashing => ({ t with stage := .crashed }, r)
  | .fresh, .shortLived life =>
      ({ t with stage := .running (some (Instant.wake now life)) }, r.begin t.runner)
  | .fresh, _ => ({ t with stage := .running none }, r.begin t.runner)
  | _, _ => (t, r)

/-- Whether a running task has reason to stop. -/
def hasToStop (now : Nat) (t : Task) : Bool :=
  match t.stage, t.conduct with
  | .running (some stop), .shortLived _ => decide (stop ≤ now)
  | .running _, .prompt | .running _, .lingering _ => t.cancelled
  | _, _ => false

/-- A running task stops if it has reason to. -/
def stop (now : Nat) (t : Task) (r : TaskRecord) : Task × TaskRecord :=
  if t.hasToStop now then
    let stage := match t.conduct with
      | .lingering rest => Stage.lingering (Instant.wake now rest)
      | _ => .returned
    ({ t with stage }, r.finish t.runner)
  else (t, r)

/-- A lingering task returns when its time has come. -/
def leave (now : Nat) (t : Task) : Task :=
  match t.stage with
  | .lingering wake => if wake ≤ now then { t with stage := .returned } else t
  | _ => t

/-- The task runs until it has to wait. -/
def poll (now : Nat) (t : Task) (r : TaskRecord) : Task × TaskRecord :=
  let (t, r) := t.start now r
  let (t, r) := t.stop now r
  (t.leave now, r)

end Task

structure Crew where
  record : TaskRecord := {}
  tasks : List Task := []
deriving DecidableEq

namespace Crew

/-- Adds an instance, which is yet to take its first step; tells its number. -/
def spawn (c : Crew) (t : Task) : Nat × Crew :=
  (c.tasks.length, { c with tasks := c.tasks ++ [t] })

/-- The instance with this number runs until it has to wait. -/
def poll (c : Crew) (now : Nat) (i : Nat) : Crew :=
  match c.tasks[i]? with
  | none => c
  | some t =>
      let (t, record) := t.poll now c.record
      { record, tasks := c.tasks.set i t }

def cancel (c : Crew) (i : Nat) : Crew :=
  { c with tasks := c.tasks.modify i fun t => { t with cancelled := true } }

/-- The instances of a group that were not cancelled yet, latest first. -/
def activeIn (c : Crew) (group : Nat) : List Nat :=
  ((List.range c.tasks.length).filter fun i =>
    c.tasks[i]?.any fun t => t.group == group && !t.cancelled).reverse

def isOver (c : Crew) (i : Nat) : Bool := c.tasks[i]?.all Task.isOver

def alarm? (c : Crew) (i : Nat) : Option Nat := c.tasks[i]?.bind Task.alarm?

end Crew

end LeaseElection
