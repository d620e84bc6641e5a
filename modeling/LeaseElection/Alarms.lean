/-!
# Alarms

Sleepers are woken at the instant they asked for; those who asked for the same
instant, in the order in which they asked.
-/

namespace LeaseElection

/-- Who sleeps until when, in the order of asking. -/
structure Alarms (κ : Type) where
  pending : List (κ × Nat) := []

namespace Alarms

variable {κ : Type} [DecidableEq κ]

def clear (a : Alarms κ) (k : κ) : Alarms κ := ⟨a.pending.filter fun p => p.1 ≠ k⟩

/-- Sets the alarm of a sleeper, or none.  One that is set for the same instant
already keeps its turn. -/
def set (a : Alarms κ) (k : κ) : Option Nat → Alarms κ
  | none => a.clear k
  | some w => if (k, w) ∈ a.pending then a else ⟨(a.clear k).pending ++ [(k, w)]⟩

/-- Whose alarm has gone off by `now`. -/
def due (a : Alarms κ) (now : Nat) : List κ :=
  (a.pending.filter fun p => p.2 ≤ now).map Prod.fst

/-- The earlier of two alarms, if there are any. -/
def earlier? {p : Nat → Prop} (best : Option { w : Nat // p w }) (w : { w : Nat // p w }) :
    Option { w : Nat // p w } :=
  match best with
  | none => some w
  | some b => if w.val < b.val then some w else some b

/-- The next alarm after `now`, if it comes by `limit`. -/
def next? (a : Alarms κ) (now limit : Nat) : Option { w : Nat // now < w ∧ w ≤ limit } :=
  (a.pending.filterMap fun p =>
    if h : now < p.2 ∧ p.2 ≤ limit then some ⟨p.2, h⟩ else none).foldl earlier? none

end Alarms

end LeaseElection
