import LeaseElection.Instant
import LeaseElection.Lock.Basic

/-!
# One exclusive lease

A lease is held until it is released or goes more than `ttl` without a renewal.
An expired lease refuses renewal and is taken over by the next who asks.  Every
step reports what happened as a list of events.
-/

namespace LeaseElection

/-- A number can be read back from its digits. -/
theorem toString_nat_injective : Function.Injective (toString : Nat → String) := by
  intro left right hnumeral
  rw [Nat.toString_eq_ofList_toDigits, Nat.toString_eq_ofList_toDigits,
    String.ofList_inj] at hnumeral
  rw [← Nat.ofDigitChars_ten_toDigits (n := left), hnumeral, Nat.ofDigitChars_ten_toDigits]

/-- A grant that was neither released nor taken back. -/
structure Holding where
  holder : ControllerId
  token : LockToken
  /-- The grant or its last renewal. -/
  renewedAt : Nat
deriving DecidableEq

/-- Whether a grant has outlived `ttl`; at exactly `ttl` it is still good. -/
def Holding.isExpired (h : Holding) (ttl : Span) (now : Nat) : Bool :=
  decide (ttl.nanos < now - h.renewedAt)

structure Lease where
  name : String
  ttl : Span
  holding : Option Holding := none
  /-- How many grants were made so far; the next token carries the next number.
  There are taken to be fewer than `2 ^ 64`, as many as a word can count. -/
  grants : Nat := 0
deriving DecidableEq

namespace Lease

inductive Input where
  | acquire (holder : ControllerId)
  | release (holder : ControllerId) (token : LockToken)
  | renew (holder : ControllerId) (token : LockToken)
  /-- A look from outside that frees an expired lease. -/
  | tick
deriving DecidableEq

inductive Event where
  | acquired (holder : ControllerId) (token : LockToken)
  | denied (holder current : ControllerId)
  | renewed (holder : ControllerId)
  | renewRejected (holder : ControllerId) (reason : LockError)
  | released (holder : ControllerId)
  | releaseRejected (holder : ControllerId) (reason : LockError)
  | expired (holder : ControllerId)
  | reclaimed (previous next : ControllerId)
deriving DecidableEq

def isFree (l : Lease) : Bool := l.holding.isNone

def holder (l : Lease) : Option ControllerId := l.holding.map Holding.holder

def isHeldBy (l : Lease) (id : ControllerId) : Bool := l.holder == some id

def isExpired (l : Lease) (now : Nat) : Bool :=
  l.holding.any (Holding.isExpired · l.ttl now)

/-- The token of the `k`-th grant. -/
def tokenOf (l : Lease) (k : Nat) : LockToken := ⟨l.name ++ "-" ++ toString k⟩

/-- No two grants of a lease share a token. -/
theorem tokenOf_injective (l : Lease) : Function.Injective l.tokenOf := by
  intro left right htoken
  have htext : l.name ++ "-" ++ toString left = l.name ++ "-" ++ toString right :=
    congrArg LockToken.text htoken
  exact toString_nat_injective ((String.append_right_inj _).mp htext)

/-- The lease once it is granted to `holder`. -/
def grant (l : Lease) (now : Nat) (holder : ControllerId) : Lease :=
  { l with
    grants := l.grants + 1
    holding := some ⟨holder, l.tokenOf (l.grants + 1), now⟩ }

/-- The lease with nobody holding it. -/
def free (l : Lease) : Lease := { l with holding := none }

def acquire (l : Lease) (now : Nat) (caller : ControllerId) : Lease × List Event :=
  let token := l.tokenOf (l.grants + 1)
  match l.holding with
  | none => (l.grant now caller, [.acquired caller token])
  | some h =>
      if h.isExpired l.ttl now then
        (l.grant now caller,
          [.expired h.holder, .reclaimed h.holder caller, .acquired caller token])
      else (l, [.denied caller h.holder])

/-- A claim to the current grant, which `holder` and `token` must both match. -/
def claimed (l : Lease) (holder : ControllerId) (token : LockToken) : Option Holding :=
  l.holding.filter fun h => h.holder == holder && h.token == token

def renew (l : Lease) (now : Nat) (holder : ControllerId) (token : LockToken) :
    Lease × List Event :=
  match l.claimed holder token with
  | none => (l, [.renewRejected holder .notHeld])
  | some h =>
      if h.isExpired l.ttl now then
        (l.free, [.expired holder, .renewRejected holder .expired])
      else ({ l with holding := some { h with renewedAt := now } }, [.renewed holder])

/-- Gives a grant back, be it expired or not. -/
def release (l : Lease) (holder : ControllerId) (token : LockToken) : Lease × List Event :=
  match l.claimed holder token with
  | none => (l, [.releaseRejected holder .notHeld])
  | some _ => (l.free, [.released holder])

def tick (l : Lease) (now : Nat) : Lease × List Event :=
  match l.holding with
  | none => (l, [])
  | some h => if h.isExpired l.ttl now then (l.free, [.expired h.holder]) else (l, [])

/-- The lease after one input, and what happened. -/
def step (l : Lease) (now : Nat) : Input → Lease × List Event
  | .acquire caller => l.acquire now caller
  | .release holder token => l.release holder token
  | .renew holder token => l.renew now holder token
  | .tick => l.tick now

/-- A grant can only be claimed by the one it was made to, under its token. -/
theorem claimed_eq_some_iff {l : Lease} {holder : ControllerId} {token : LockToken}
    {h : Holding} :
    l.claimed holder token = some h ↔
      l.holding = some h ∧ h.holder = holder ∧ h.token = token := by
  simp [claimed, Option.filter_eq_some_iff]

end Lease

end LeaseElection
