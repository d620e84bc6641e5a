import LeaseElection.Config.Basic
import LeaseElection.Random.ChaCha

/-!
# The pace of a controller

Three spans set the pace: the time between renewals, the time between attempts
to acquire, and a delay before the first attempt and after every loss.  They do
not change while a controller lives.
-/

namespace LeaseElection

structure Policy where
  renewal : Span
  wait : Span
  delay : Span
deriving DecidableEq

/-- The whole milliseconds below `max`, one of them at random, from two words;
and how many words it took. -/
def drawJitter (max : Span) (w w' : UInt64) : Span × Nat :=
  let (ms, used) := drawBelow max.millis w w'
  (.ofMillis ms.toUInt64, used)

namespace Policy

/-- A span times a factor, to the nanosecond. -/
def scale (s : Span) (factor : Binary64) : Span :=
  .ofNanos ((Binary64.ofNat s.nanos).mul factor).toWord.toUInt64

/-- The pace that follows from a configuration, be it usable or not, with the
jitter drawn from `words`; and how many words it took. -/
def derive (c : Config) (words : WordStream) : Policy × Nat :=
  let (delay, used) := drawJitter c.maxJitter (words 0) (words 1)
  (⟨scale c.lease c.renewalFactor, scale c.lease c.waitFactor, delay⟩, used)

/-- The pace of a usable configuration.  Without a seed the jitter comes from
`entropy`. -/
def ofConfig (c : Config) (entropy : WordStream) : Except Config.Flaw Policy := do
  c.validate
  let words := match c.seed with
    | some seed => WordStream.ofSeed seed
    | none => entropy
  .ok (derive c words).1

/-- Whether renewals come within `lease` and attempts after it. -/
def brackets (p : Policy) (lease : Span) : Bool := p.renewal < lease && lease < p.wait

def withDelay (p : Policy) (delay : Span) : Policy := { p with delay }

end Policy

/-- Draws `n` jitters one after another, where some words were used before, and
tells how many words are used after. -/
def drawJitters (max : Span) (words : WordStream) : (n used : Nat) → List Span × Nat
  | 0, used => ([], used)
  | n + 1, used =>
      let (d, k) := drawJitter max (words used) (words (used + 1))
      let (ds, used) := drawJitters max words n (used + k)
      (d :: ds, used)

end LeaseElection
