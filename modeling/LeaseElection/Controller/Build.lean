import LeaseElection.Identity
import LeaseElection.Policy

/-!
# Building a controller from its configuration

A configuration that cannot be used builds nothing, and an identity is drawn
only where a usable configuration has none.
-/

namespace LeaseElection

namespace Controller

/-- The identity and pace of a controller, and the sequence that its identity may
have been drawn from. -/
def build (c : Config) (entropy : WordStream) (ids : IdSequence) :
    Except Config.Flaw (ControllerId × Policy) × IdSequence :=
  match Policy.ofConfig c entropy with
  | .error f => (.error f, ids)
  | .ok p =>
      match c.id with
      | some id => (.ok (⟨id⟩, p), ids)
      | none => (.ok (⟨ids.next.1⟩, p), ids.next.2)

/-- The same, with an identity made of random bits where there is none. -/
def buildUnique (c : Config) (entropy : WordStream) (high low : UInt64) :
    Except Config.Flaw (ControllerId × Policy) :=
  (Policy.ofConfig c entropy).map fun p =>
    (⟨c.id.getD (Uuid.ofEntropy high low).text⟩, p)

end Controller

end LeaseElection
