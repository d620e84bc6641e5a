import LeaseElection.Span.Basic

/-!
# Instants

A clock is read as the number of nanoseconds since it was started, a plain
`Nat`.  Readings stay below `2^63` seconds.  Timers have a resolution of one
millisecond: one that is set for some deadline goes off at the first whole
millisecond that is not before it.
-/

namespace LeaseElection

namespace Instant

/-- The first reading that no clock reaches. -/
def horizon : Nat := 9223372036854775808000000000

/-- The instant `d` after `t`, if a clock can show it. -/
def after? (t : Nat) (d : Span) : Option Nat :=
  if t + d.nanos < horizon then some (t + d.nanos) else none

/-- The first whole millisecond not before `t`. -/
def ceilMillis (t : Nat) : Nat := (t + 999999) / 1000000 * 1000000

/-- Whole milliseconds since the start. -/
def millis (t : Nat) : Nat := t / 1000000

/-- How long a sleep lasts whose end no clock can show: thirty years. -/
def ages : Nat := 30 * 365 * 86400 * 1000000000

/-- The deadline of a sleep of `d` that starts at `t`. -/
def deadline (t : Nat) (d : Span) : Nat := (after? t d).getD (t + ages)

/-- When a sleep of `d` that starts at `t` is over. -/
def wake (t : Nat) (d : Span) : Nat := ceilMillis (deadline t d)

/-- A wait of `d` from `now` that is cut short by a cancellation: whether it was
completed, and when it was over.  Nothing is waited for once `cancelled`; a
cancellation at the very end comes too late. -/
def waitOrCancel (now : Nat) (d : Span) (cancelled : Bool) (cancelAt : Option Nat) :
    Bool × Nat :=
  if cancelled then (false, now)
  else
    match cancelAt.filter (· < wake now d) with
    | some c => (false, c)
    | none => (true, wake now d)

theorem le_ceilMillis (t : Nat) : t ≤ ceilMillis t := by
  unfold ceilMillis; omega

theorem ceilMillis_lt (t : Nat) : ceilMillis t < t + 1000000 := by
  unfold ceilMillis; omega

theorem ceilMillis_mono {s t : Nat} (hst : s ≤ t) : ceilMillis s ≤ ceilMillis t := by
  unfold ceilMillis; omega

theorem ceilMillis_dvd (t : Nat) : 1000000 ∣ ceilMillis t := by
  unfold ceilMillis; omega

/-- From a whole millisecond on, whole milliseconds are counted as from the start. -/
theorem ceilMillis_le_add {t s d : Nat} (hs : 1000000 ∣ s) (ht : t ≤ s + d) :
    ceilMillis t ≤ s + ceilMillis d := by
  obtain ⟨n, rfl⟩ := hs
  unfold ceilMillis
  omega

theorem ceilMillis_add {s : Nat} (hs : 1000000 ∣ s) (d : Nat) :
    ceilMillis (s + d) = s + ceilMillis d := by
  obtain ⟨n, rfl⟩ := hs
  unfold ceilMillis
  omega

theorem wake_eq {t : Nat} {d : Span} (hclock : t + d.nanos < horizon) :
    wake t d = ceilMillis (t + d.nanos) := by
  rw [wake, deadline, after?, if_pos hclock, Option.getD_some]

theorem le_wake (t : Nat) (d : Span) : t ≤ wake t d := by
  refine Nat.le_trans ?_ (le_ceilMillis _)
  unfold deadline after?
  split <;> simp

theorem wake_dvd (t : Nat) (d : Span) : 1000000 ∣ wake t d := ceilMillis_dvd _

/-- To wait takes time. -/
theorem lt_wake (t : Nat) {d : Span} (hd : 0 < d.nanos) : t < wake t d := by
  refine Nat.lt_of_lt_of_le ?_ (le_ceilMillis _)
  unfold deadline after?
  split
  · exact Nat.lt_add_of_pos_right hd
  · exact Nat.lt_add_of_pos_right (by decide)

end Instant

/-- The message of a failure to go past the last instant a clock can show. -/
def Instant.overflowMessage : String := "overflow when adding duration to instant"

/-- A clock that moves only when told to. -/
structure ManualClock where
  now : Nat := 0
deriving DecidableEq

/-- Moves a clock on by `d`; it refuses to go past what it can show. -/
def ManualClock.advance? (c : ManualClock) (d : Span) : Option ManualClock :=
  (Instant.after? c.now d).map ManualClock.mk

end LeaseElection
