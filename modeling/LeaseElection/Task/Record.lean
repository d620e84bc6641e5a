import LeaseElection.Lock.Basic

/-!
# A record of protected tasks

A protected task must run for at most one controller at a time.  The record
counts how often it began, how many instances run, and for whom.
-/

namespace LeaseElection

structure TaskRecord where
  starts : Nat := 0
  /-- For whom the task was begun last, unless it finished for the same since. -/
  runner : Option ControllerId := none
  live : Nat := 0
  /-- The most instances that ever ran at one time. -/
  maxLive : Nat := 0
deriving DecidableEq

namespace TaskRecord

def begin (r : TaskRecord) (id : ControllerId) : TaskRecord where
  starts := r.starts + 1
  runner := some id
  live := r.live + 1
  maxLive := max r.maxLive (r.live + 1)

def finish (r : TaskRecord) (id : ControllerId) : TaskRecord :=
  { r with
    live := r.live - 1
    runner := if r.runner = some id then none else r.runner }

end TaskRecord

end LeaseElection
