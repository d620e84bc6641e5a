import LeaseElection.Instant
import LeaseElection.Lock.Basic
import LeaseElection.Policy

/-!
# The controller

A controller waits for its delay, then tries to acquire the lock, again and
again, with its wait in between.  While it leads it renews the lock and keeps a
protected task running.  A renewal that is refused ends that: the task is
cancelled, and after the delay and the wait the controller tries again.  It
stops only when its shutdown fires.

A controller is a machine that is resumed with a signal and tells what is to be
done.  It knows nothing of the lock service but its answers.
-/

namespace LeaseElection

namespace Controller

/-- What a controller shows to others. -/
inductive State where
  | idle
  | waiting
  | attempting
  | leading
  | stopped
deriving DecidableEq

def State.name : State → String
  | .idle => "idle"
  | .waiting => "waiting"
  | .attempting => "attempting"
  | .leading => "leading"
  | .stopped => "stopped"

def State.isLeading (s : State) : Bool := s == .leading

def State.all : List State := [.idle, .waiting, .attempting, .leading, .stopped]

/-- The deadlines of renewals, one period apart. -/
structure Ticker where
  deadline : Nat
  period : Nat
deriving DecidableEq

namespace Ticker

/-- The time between renewals is at least one millisecond. -/
def periodOf (renewal : Span) : Nat := max renewal.nanos 1000000

theorem le_periodOf (renewal : Span) : 1000000 ≤ periodOf renewal := Nat.le_max_right _ _

/-- The ticker of a reign that begins at `now`; its first deadline may be later
than any clock can show. -/
def start? (now : Nat) (renewal : Span) : Option Ticker :=
  let period := periodOf renewal
  if now + period < Instant.horizon then some ⟨now + period, period⟩ else none

/-- The ticker once its deadline is met.  The next one is a period later, unless
this one was missed by more than five milliseconds; then it is a period from now.
All deadlines but the first are taken to be such as a clock can show.  Otherwise
a timer would set one thirty years off where this one was met in time, and fail
where it was missed. -/
def advance (t : Ticker) (now : Nat) : Ticker :=
  if t.deadline + 5000000 < now then { t with deadline := now + t.period }
  else { t with deadline := t.deadline + t.period }

/-- When the ticker goes off. -/
def wake (t : Ticker) : Nat := Instant.ceilMillis t.deadline

end Ticker

/-- A time of leading: under which token, and since when. -/
structure Reign where
  token : LockToken
  since : Nat
deriving DecidableEq

/-- How long the reign has lasted, in whole milliseconds that a word can count. -/
def Reign.heldMillis (r : Reign) (now : Nat) : Nat :=
  min ((now - r.since) / 1000000) (UInt64.size - 1)

/-- Where a controller is.  Waits carry the instant at which they are over. -/
inductive Phase where
  /-- Made, and not resumed yet. -/
  | idle
  /-- In the delay before the first attempt. -/
  | starting (wake : Nat)
  /-- In a call to acquire. -/
  | acquiring
  /-- Leading, between two renewals. -/
  | leading (reign : Reign) (ticker : Ticker)
  /-- Leading, in a call to renew. -/
  | renewing (reign : Reign) (ticker : Ticker)
  /-- In the delay after a loss. -/
  | cooling (wake : Nat)
  /-- After that delay, which may have been cut short, letting others run. -/
  | yielding (completed : Bool)
  /-- In the wait before the next attempt. -/
  | retrying (wake : Nat)
  | stopped
  /-- Come to an end out of order. -/
  | failed
deriving DecidableEq

/-- What a controller shows in a phase.  One that failed still shows that it
leads. -/
def Phase.state : Phase → State
  | .idle => .idle
  | .starting _ | .cooling _ | .yielding _ | .retrying _ => .waiting
  | .acquiring => .attempting
  | .leading .. | .renewing .. | .failed => .leading
  | .stopped => .stopped

/-- Whether a controller is done with. -/
def Phase.isOver : Phase → Bool
  | .stopped | .failed => true
  | _ => false

/-- The instant at which a controller goes on by itself. -/
def Phase.wake? : Phase → Option Nat
  | .starting wake | .cooling wake | .retrying wake => some wake
  | .leading _ ticker => some ticker.wake
  | _ => none

/-- Why a controller goes on. -/
inductive Signal where
  /-- It is run for the first time. -/
  | begun
  /-- Its shutdown fired. -/
  | cancelled
  /-- The time it waited for has come. -/
  | elapsed
  /-- Its call was answered. -/
  | answered (a : Answer)
  /-- The others have run; whether the last task is over. -/
  | resumed (taskOver : Bool)
deriving DecidableEq

/-- What a controller writes to the journal. -/
inductive Note where
  | starting (policy : Policy)
  | moved (previous next : State)
  | cancelledInDelay
  | attempting
  | cancelledInAttempt
  | acquired (token : LockToken)
  | heldElsewhere
  | attemptFailed (reason : LockError)
  | renewing
  | lost (reason : LockError) (token : LockToken) (heldMillis : Nat)
  | taskStillRunning
  | cancelledWhileLeading
  | cancelledInWait
deriving DecidableEq

/-- What is to be done for a controller. -/
inductive Action where
  | note (n : Note)
  | call (r : Request)
  | startTask (token : LockToken)
  | cancelTask
deriving DecidableEq

abbrev Step := Phase × List Action

/-- Stops, after some notes. -/
def stop (previous : State) (notes : List Note) : Step :=
  (.stopped, (notes ++ [Note.moved previous .stopped]).map Action.note)

/-- Tries to acquire the lock. -/
def attempt (id : ControllerId) : Step :=
  (.acquiring,
    [.note (.moved .waiting .attempting), .note .attempting, .call (.acquire id)])

/-- Begins to lead.  If the first renewal is later than any clock can show, the
controller fails, and drops the task it has just started. -/
def lead (p : Policy) (now : Nat) (token : LockToken) : Step :=
  let actions : List Action :=
    [.note (.acquired token), .note (.moved .attempting .leading), .startTask token]
  match Ticker.start? now p.renewal with
  | some ticker => (.leading ⟨token, now⟩ ticker, actions)
  | none => (.failed, actions ++ [.cancelTask])

/-- Waits for the next attempt. -/
def retry (p : Policy) (now : Nat) : Phase := .retrying (Instant.wake now p.wait)

/-- The next phase of a controller, and what is to be done, when it goes on for
a reason.  A signal that a phase does not wait for changes nothing. -/
def resume (id : ControllerId) (p : Policy) (now : Nat) : Phase → Signal → Step
  | .idle, .begun =>
      (.starting (Instant.wake now p.delay),
        [.note (.starting p), .note (.moved .idle .waiting)])
  | .starting _, .cancelled => stop .waiting [.cancelledInDelay]
  | .starting _, .elapsed => attempt id
  | .acquiring, .cancelled => stop .attempting [.cancelledInAttempt]
  | .acquiring, .answered a =>
      match a.grant?, a.refusal? with
      | some token, _ => lead p now token
      | none, some reason =>
          (retry p now, [.note (.attemptFailed reason), .note (.moved .attempting .waiting)])
      | none, none =>
          (retry p now, [.note .heldElsewhere, .note (.moved .attempting .waiting)])
  | .leading .., .cancelled | .renewing .., .cancelled => stop .leading [.cancelledWhileLeading]
  | .leading reign ticker, .elapsed =>
      (.renewing reign (ticker.advance now), [.note .renewing, .call .renew])
  | .renewing reign ticker, .answered a =>
      match a.refusal? with
      | none => (.leading reign ticker, [])
      | some reason =>
          (.cooling (Instant.wake now p.delay),
            [.note (.lost reason reign.token (reign.heldMillis now)), .cancelTask,
              .note (.moved .leading .waiting)])
  | .cooling _, .cancelled => (.yielding false, [])
  | .cooling _, .elapsed => (.yielding true, [])
  | .yielding completed, .resumed taskOver =>
      let notes := if taskOver then [] else [Note.taskStillRunning]
      if completed then (retry p now, notes.map Action.note) else stop .waiting notes
  | .retrying _, .cancelled => stop .waiting [.cancelledInWait]
  | .retrying _, .elapsed => attempt id
  | phase, _ => (phase, [])

/-- The signal on which a controller goes on at `now`, if there is one.  Shutdown
comes before all else; only where the controller lets others run it is not
looked at.  `answer` is what has come back from the call it is in. -/
def signal? (now : Nat) (shutdown : Bool) (answer : Option Answer) : Phase → Option Signal
  | .idle => some .begun
  | .starting wake | .cooling wake | .retrying wake =>
      if shutdown then some .cancelled else if wake ≤ now then some .elapsed else none
  | .leading _ ticker =>
      if shutdown then some .cancelled else if ticker.wake ≤ now then some .elapsed else none
  | .acquiring | .renewing .. => if shutdown then some .cancelled else answer.map .answered
  | .yielding _ | .stopped | .failed => none

end Controller

end LeaseElection
