import LeaseElection.Instant
import LeaseElection.Lock.Basic

/-!
# A lock for rehearsals

A stand-in for a lock service that every caller shares.  It trusts its callers:
a renewal or release is not asked whose it is.  A grant does not lapse by
itself; a renewal that comes more than `ttl` after the last one loses it.  The
next calls can be made to fail, and every call to acquire is counted.
-/

namespace LeaseElection

structure LockDouble where
  ttl : Span
  /-- Who was granted the lock, and the instant of the grant or last renewal. -/
  holding : Option (ControllerId × Nat) := none
  renewals : Nat := 0
  /-- Who called acquire, latest first. -/
  callers : List ControllerId := []
  failingAcquires : Nat := 0
  failingRenewals : Nat := 0
deriving DecidableEq

namespace LockDouble

def isLocked (l : LockDouble) : Bool := l.holding.isSome

def holder (l : LockDouble) : Option ControllerId := l.holding.map Prod.fst

/-- How often `caller` called acquire. -/
def acquireCalls (l : LockDouble) (caller : ControllerId) : Nat := l.callers.count caller

/-- Makes the next `n` calls to acquire fail. -/
def failAcquires (l : LockDouble) (n : Nat) : LockDouble := { l with failingAcquires := n }

/-- Makes the next `n` renewals fail. -/
def failRenewals (l : LockDouble) (n : Nat) : LockDouble := { l with failingRenewals := n }

/-- Takes the lock away from whoever holds it. -/
def forceRelease (l : LockDouble) : LockDouble := { l with holding := none, renewals := 0 }

def acquire (l : LockDouble) (now : Nat) (caller : ControllerId) :
    Except LockError (Option LockToken) × LockDouble :=
  let l := { l with callers := caller :: l.callers }
  match l.failingAcquires with
  | n + 1 => (.error (.backend "injected acquire failure"), { l with failingAcquires := n })
  | 0 =>
      if l.isLocked then (.ok none, l)
      else (.ok (some ⟨"fake-lock"⟩), { l with holding := some (caller, now) })

def renew (l : LockDouble) (now : Nat) : Except LockError Unit × LockDouble :=
  match l.failingRenewals with
  | n + 1 => (.error (.backend "injected renew failure"), { l with failingRenewals := n })
  | 0 =>
      match l.holding with
      | none => (.error .notHeld, l)
      | some (holder, renewedAt) =>
          if l.ttl.nanos < now - renewedAt then
            (.error .expired, { l with holding := none })
          else
            (.ok (), { l with holding := some (holder, now), renewals := l.renewals + 1 })

def release (l : LockDouble) : Except LockError Unit × LockDouble :=
  if l.isLocked then (.ok (), l.forceRelease) else (.error .notHeld, l)

end LockDouble

end LeaseElection
