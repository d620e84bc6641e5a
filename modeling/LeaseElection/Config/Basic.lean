import LeaseElection.Binary64.Rounding
import LeaseElection.Span.Basic

/-!
# Configuration of a controller

Everything follows from the length of the lease.  Renewals come after a fraction
of it, attempts to acquire after a multiple; a jitter keeps controllers apart.
-/

namespace LeaseElection

structure Config where
  /-- How long the lock service lets a grant live. -/
  lease : Span
  renewalFactor : Binary64 := Binary64.ofDecimal false 7 (-1)
  waitFactor : Binary64 := Binary64.ofDecimal false 11 (-1)
  /-- The jitter stays below this. -/
  maxJitter : Span := .ofMillis 100
  /-- The seed of the jitter, which is random without one. -/
  seed : Option UInt64 := none
  /-- The identity of the controller, which is drawn without one. -/
  id : Option String := none
deriving DecidableEq

namespace Config

/-- Why a configuration cannot be used. -/
inductive Flaw where
  | zeroLease
  | renewalFactor (x : Binary64)
  | waitFactor (x : Binary64)
deriving DecidableEq

/-- Checks that renewals come within the lease and attempts after it. -/
def validate (c : Config) : Except Flaw Unit :=
  let r := c.renewalFactor
  let w := c.waitFactor
  if c.lease.isZero then .error .zeroLease
  else if r.isNan || r.le .zero || Binary64.one.le r then .error (.renewalFactor r)
  else if w.isNan || w.le .one then .error (.waitFactor w)
  else .ok ()

/-- Whether two configurations are equal, factors compared as numbers. -/
def same (a b : Config) : Bool :=
  a.lease == b.lease && a.renewalFactor.same b.renewalFactor &&
    a.waitFactor.same b.waitFactor && a.maxJitter == b.maxJitter &&
    a.seed == b.seed && a.id == b.id

end Config

/-- A lease by name, and how long a grant of it lives. -/
structure LeaseConfig where
  name : String
  ttl : Span
deriving DecidableEq

end LeaseElection
