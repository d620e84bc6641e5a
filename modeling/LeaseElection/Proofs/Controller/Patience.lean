import LeaseElection.Proofs.Controller.Turn
import Mathlib.Data.List.Count

/-!
# How many turns there are at one instant

A controller that has a wait between its attempts takes only so many turns before it has
to wait.  A ticker that is late catches up, but not by more than a few rounds; and every
attempt that brings no grant, and every loss, ends in a wait.
-/

namespace LeaseElection

namespace Controller

/-- How many times in a row a ticker can go off at `now`. -/
def Ticker.rounds (now : Nat) (t : Ticker) : Nat :=
  if now < t.deadline then 0 else min ((now - t.deadline) / 1000000) 5 + 1

theorem Ticker.rounds_le (now : Nat) (t : Ticker) : t.rounds now ≤ 6 := by
  rw [rounds]
  split <;> omega

/-- A ticker that is late by more than it catches up with is on time again at once. -/
theorem Ticker.rounds_advance_lt {now : Nat} {t : Ticker} (hdue : t.wake ≤ now)
    (hperiod : 1000000 ≤ t.period) : (t.advance now).rounds now < t.rounds now := by
  have hdeadline : t.deadline ≤ now := Nat.le_trans (Instant.le_ceilMillis _) hdue
  have hnext : (t.advance now).deadline =
      if t.deadline + 5000000 < now then now + t.period else t.deadline + t.period := by
    rw [advance]
    split <;> rfl
  unfold rounds
  rw [hnext, if_neg (Nat.not_lt_of_le hdeadline)]
  split <;> split <;> omega

/-- A ticker that goes off in time goes on from its deadline, and does not go off again at once. -/
theorem Ticker.advance_of_wake {t : Ticker} (hperiod : 1000000 ≤ t.period) :
    t.advance t.wake = ⟨t.deadline + t.period, t.period⟩ ∧
      t.wake < (t.advance t.wake).wake := by
  have hafter : t.wake < t.deadline + 1000000 := Instant.ceilMillis_lt _
  have hintime : t.advance t.wake = ⟨t.deadline + t.period, t.period⟩ := if_neg (by omega)
  refine ⟨hintime, ?_⟩
  calc
    t.wake < t.deadline + 1000000 := hafter
    _ ≤ t.deadline + t.period := Nat.add_le_add_left hperiod _
    _ ≤ (t.advance t.wake).wake := hintime ▸ Instant.le_ceilMillis _

/-- How many turns a controller in some phase takes at `now` at most. -/
def Phase.turnsLeft (now : Nat) : Phase → Nat
  | .idle => 7
  | .starting _ => 6
  | .acquiring => 5
  | .leading _ ticker => 4 + 2 * ticker.rounds now
  | .renewing _ ticker => 5 + 2 * ticker.rounds now
  | .cooling _ => 3
  | .yielding _ => 2
  | .retrying wake => if wake ≤ now then 6 else 1
  | .stopped | .failed => 0

theorem Phase.turnsLeft_le (now : Nat) (phase : Phase) : phase.turnsLeft now ≤ 17 := by
  cases phase with
  | leading _ ticker | renewing _ ticker =>
      have hrounds := ticker.rounds_le now
      simp only [turnsLeft]
      omega
  | retrying =>
      simp only [turnsLeft]
      split <;> omega
  | _ => simp [turnsLeft]

/-- That waits are over at whole milliseconds, and tickers have a period of one at least. -/
def Phase.IsTimed : Phase → Prop
  | .starting wake | .cooling wake | .retrying wake => 1000000 ∣ wake
  | .leading _ ticker | .renewing _ ticker => 1000000 ≤ ticker.period
  | _ => True

theorem Phase.IsTimed.wake_dvd {phase : Phase} (htimed : phase.IsTimed) {wake : Nat}
    (hwake : phase.wake? = some wake) : 1000000 ∣ wake := by
  cases phase with
  | leading =>
      cases hwake
      exact Instant.ceilMillis_dvd _
  | starting | cooling | retrying =>
      cases hwake
      exact htimed
  | _ => cases hwake

/-- How many task instances are woken by actions at most. -/
def wakings (actions : List Action) : Nat :=
  actions.countP fun
    | .startTask _ | .cancelTask => true
    | _ => false

@[simp]
theorem wakings_map_note (notes : List Note) : wakings (notes.map Action.note) = 0 := by
  simp [wakings, List.countP_map, Function.comp_def]

section Courses

variable {id : ControllerId} {p : Policy} {now : Nat} {shutdown : Bool} {phase : Phase}
variable {s : Signal} {step : Step}

theorem Course.isTimed (hcourse : Course id p now shutdown phase s step)
    (htimed : phase.IsTimed) : step.1.IsTimed := by
  cases hcourse with
  | begin | lose | miss | rest => exact Instant.wake_dvd _ _
  | win hgrant hticker =>
      rw [Ticker.start?] at hticker
      split at hticker <;> cases hticker
      exact Ticker.le_periodOf _
  | renew hdue =>
      change 1000000 ≤ (Ticker.advance _ now).period
      rw [Ticker.advance]
      split <;> exact htimed
  | keep => exact htimed
  | _ => trivial

/-- The wait before the next attempt is still to come. -/
theorem turnsLeft_retry (now : Nat) (hwait : 0 < p.wait.nanos) :
    (retry p now).turnsLeft now = 1 :=
  if_neg (Nat.not_le_of_lt (Instant.lt_wake now hwait))

/-- Every turn leaves fewer turns to take, and wakes no more task instances than that. -/
theorem Course.turnsLeft_lt (hcourse : Course id p now shutdown phase s step)
    (hwait : 0 < p.wait.nanos) (htimed : phase.IsTimed) :
    2 * step.1.turnsLeft now + wakings step.2 < 2 * phase.turnsLeft now := by
  have hretry := turnsLeft_retry now hwait
  cases hcourse with
  | begin | first | cool | interrupt => simp [Phase.turnsLeft, wakings, attempt]
  | again hdue => simp [Phase.turnsLeft, wakings, attempt, hdue]
  | win hgrant hticker =>
      rw [Ticker.start?] at hticker
      split at hticker <;> cases hticker
      have hperiod := Ticker.le_periodOf p.renewal
      have hlater : now < now + Ticker.periodOf p.renewal := by omega
      simp [Phase.turnsLeft, wakings, Ticker.rounds, hlater]
  | fail => simp [Phase.turnsLeft, wakings]
  | lose =>
      simp [Phase.turnsLeft, wakings]
      omega
  | miss =>
      rw [hretry]
      simp [Phase.turnsLeft, wakings]
  | rest =>
      rw [hretry, wakings_map_note]
      simp [Phase.turnsLeft]
  | leave =>
      simp only [stop, wakings_map_note, Phase.turnsLeft]
      decide
  | @renew reign ticker hdue =>
      have hfewer : (ticker.advance now).rounds now < ticker.rounds now :=
        Ticker.rounds_advance_lt hdue htimed
      change 2 * (5 + 2 * (ticker.advance now).rounds now) + 0 < 2 * (4 + 2 * ticker.rounds now)
      omega
  | keep => simp [Phase.turnsLeft, wakings]
  | @quit phase note hnote =>
      have hleft : 0 < phase.turnsLeft now := by
        cases phase <;> cases hnote <;> simp only [Phase.turnsLeft] <;> (try split) <;> omega
      rw [stop, wakings_map_note, Phase.turnsLeft]
      omega

end Courses

end Controller

end LeaseElection
