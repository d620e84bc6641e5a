import LeaseElection.Controller.Basic
import LeaseElection.Journal
import LeaseElection.Span.Text

/-!
# What a controller writes to the journal

A controller writes within a scope that carries its identity.  Only the last
word, that it has stopped, stands outside.
-/

namespace LeaseElection

namespace Controller

namespace Note

def level : Note → Level
  | .moved .. => .trace
  | .starting _ | .acquired _ => .info
  | .attemptFailed _ | .lost .. | .taskStillRunning => .warn
  | _ => .debug

def message : Note → String
  | .starting _ => "starting election"
  | .moved .. => "state transition"
  | .cancelledInDelay => "cancelled during startup delay"
  | .attempting => "attempting to acquire lock"
  | .cancelledInAttempt => "cancelled during acquire, returning"
  | .acquired _ => "lock acquired, starting protected task"
  | .heldElsewhere => "lock held by another instance"
  | .attemptFailed _ => "unable to get lock"
  | .renewing => "renewing lease"
  | .lost .. => "lease lost, stopping protected task"
  | .taskStillRunning => "protected task still running after lease loss"
  | .cancelledWhileLeading => "cancelled while leading, returning"
  | .cancelledInWait => "cancelled, returning"

def fields : Note → Fields
  | .starting p =>
      [("renewal_period", .text p.renewal.text), ("wait_period", .text p.wait.text),
        ("random_delay", .text p.delay.text)]
  | .moved previous next => [("from", .text previous.name), ("to", .text next.name)]
  | .acquired token => [("lock_token", token.field)]
  | .attemptFailed reason => [("error", reason.field)]
  | .lost reason token heldMillis =>
      [("error", reason.field), ("lock_token", token.field), ("held_ms", .count heldMillis)]
  | _ => []

def entry (id : ControllerId) (n : Note) : Entry :=
  let scopes := match n with
    | .moved _ .stopped => []
    | _ => [Scope.election id]
  { level := n.level, message := n.message, fields := n.fields, scopes }

end Note

end Controller

end LeaseElection
