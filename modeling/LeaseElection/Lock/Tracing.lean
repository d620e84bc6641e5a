import LeaseElection.Journal

/-!
# Traced calls

A traced call has a scope of its own, and closes with an entry that says how it
went.  What the call wrote on its way is kept, inside that scope.
-/

namespace LeaseElection

namespace Request

def scope : Request → Scope
  | .acquire caller => { name := "lock.acquire", fields := [("caller", caller.field)] }
  | .renew => { name := "lock.renew" }
  | .release => { name := "lock.release" }

/-- The closing entry of a call that was answered after `millis` milliseconds.
A release does not tell how long it took. -/
def verdict (r : Request) (millis : Nat) (a : Answer) : Entry :=
  let elapsed := ("elapsed_ms", FieldValue.count millis)
  let failure (reason : LockError) := ("error", reason.field)
  match r, a with
  | .acquire _, .granted token =>
      { level := .info, message := "granted", fields := [("token", token.field), elapsed] }
  | .acquire _, .refused reason =>
      { level := .error, message := "acquire failed", fields := [elapsed, failure reason] }
  | .acquire _, _ => { level := .debug, message := "held elsewhere", fields := [elapsed] }
  | .renew, .refused reason =>
      { level := .warn, message := "renew failed", fields := [elapsed, failure reason] }
  | .renew, _ => { level := .trace, message := "renewed", fields := [elapsed] }
  | .release, .refused reason =>
      { level := .warn, message := "release failed", fields := [failure reason] }
  | .release, _ => { level := .info, message := "released" }

/-- All that a traced call writes when it is answered at once. -/
def traced (r : Request) (inner : List Entry) (a : Answer) : List Entry :=
  (inner ++ [r.verdict 0 a]).map (Entry.within · r.scope)

end Request

end LeaseElection
