import LeaseElection.Span.Basic

/-!
# Locks with bounded leases

The words of the conversation between a participant and a lock service: who
asks, what is asked, and what may come back.
-/

namespace LeaseElection

/-- The name under which a participant asks for the lock. -/
structure ControllerId where
  text : String
deriving DecidableEq

/-- The name of one grant.  Only whether it is empty matters to its owner. -/
structure LockToken where
  text : String
deriving DecidableEq

def LockToken.isEmpty (t : LockToken) : Bool := t.text.isEmpty

/-- Why a call on a lock was refused. -/
inductive LockError where
  | held (holder : String)
  | notHeld
  | expired
  | backend (detail : String)
deriving DecidableEq

def LockError.message : LockError → String
  | .held holder => "lock is held by " ++ holder
  | .notHeld => "lock is not held by this client"
  | .expired => "lease expired"
  | .backend detail => "backend error: " ++ detail

/-- What a participant asks of a lock service. -/
inductive Request where
  | acquire (caller : ControllerId)
  | renew
  | release
deriving DecidableEq

/-- What comes back from a call: a grant, nothing to grant, a plain success,
or a refusal. -/
inductive Answer where
  | granted (token : LockToken)
  | denied
  | done
  | refused (reason : LockError)
deriving DecidableEq

namespace Answer

/-- The token of a usable grant; an empty token grants nothing. -/
def grant? : Answer → Option LockToken
  | .granted token => if token.isEmpty then none else some token
  | _ => none

def refusal? : Answer → Option LockError
  | .refused reason => some reason
  | _ => none

theorem grant?_eq_some_iff {a : Answer} {token : LockToken} :
    a.grant? = some token ↔ a = .granted token ∧ token.isEmpty = false := by
  cases a with
  | granted other =>
      simp only [grant?, Answer.granted.injEq]
      constructor
      · intro hgrant
        rw [Option.ite_none_left_eq_some, Option.some.injEq, Bool.not_eq_true] at hgrant
        exact ⟨hgrant.2, hgrant.2 ▸ hgrant.1⟩
      · rintro ⟨rfl, htoken⟩
        simp [htoken]
  | denied | done | refused => simp [grant?]

theorem refusal?_eq_some_iff {a : Answer} {reason : LockError} :
    a.refusal? = some reason ↔ a = .refused reason := by
  cases a <;> simp [refusal?]

def ofGrant : Option LockToken → Answer
  | some token => .granted token
  | none => .denied

def ofResult : Except LockError Unit → Answer
  | .ok () => .done
  | .error reason => .refused reason

end Answer

end LeaseElection
