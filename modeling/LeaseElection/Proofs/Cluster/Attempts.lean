import LeaseElection.Proofs.Cluster.Lives

/-!
# When attempts are made

Until its shutdown fires a controller asks for the lock at instants that what happened to it
determines: its delay after its start, its wait after an answer that granted nothing, and both
one after the other when a renewal was refused.  It asks at each of these instants, and at no
other.
-/

namespace LeaseElection

open Controller (Phase Signal Turn Course Life Idles callTimes)

namespace Controller

/-- When an attempt is due that a turn brings about: the delay after the start, the wait after
an attempt that brought no grant, and both after a loss.  Each is rounded up to a whole
millisecond. -/
def Turn.nextAttempt? (p : Policy) (t : Turn) : Option Nat :=
  match t.before, t.signal with
  | .idle, .begun => some (Instant.ceilMillis (t.time + p.delay.nanos))
  | .acquiring, .answered a =>
      if a.grant?.isSome then none else some (Instant.ceilMillis (t.time + p.wait.nanos))
  | .renewing .., .answered a =>
      if a.refusal?.isSome then
        some (Instant.ceilMillis (t.time + p.delay.nanos) + Instant.ceilMillis p.wait.nanos)
      else none
  | _, _ => none

/-- When attempts were due, latest first; the last one may be still to come. -/
def attemptsDue (p : Policy) (ts : List Turn) : List Nat := ts.filterMap (Turn.nextAttempt? p)

section Due

variable {p : Policy} {t : Turn}

theorem attemptsDue_of_some {w : Nat} (hnext : t.nextAttempt? p = some w) (ts : List Turn) :
    attemptsDue p (t :: ts) = w :: attemptsDue p ts :=
  List.filterMap_cons_some hnext

theorem attemptsDue_of_none (hnext : t.nextAttempt? p = none) (ts : List Turn) :
    attemptsDue p (t :: ts) = attemptsDue p ts :=
  List.filterMap_cons_none hnext

end Due

/-- That one more attempt is due than was made. -/
def NextDue (id : ControllerId) (p : Policy) (ts : List Turn) (next : Nat) : Prop :=
  attemptsDue p ts = next :: callTimes (.acquire id) ts

/-- How a controller in some phase stands to its attempts at `now`, before its shutdown fires:
all that were due are made, or all but one, which it waits for. -/
def OnSchedule (id : ControllerId) (p : Policy) (now : Nat) (ts : List Turn) : Phase → Prop
  | .starting wake | .retrying wake => NextDue id p ts wake ∧ now ≤ wake
  | .cooling wake =>
      NextDue id p ts (wake + Instant.ceilMillis p.wait.nanos) ∧ now ≤ wake ∧ 1000000 ∣ wake
  | .yielding completed =>
      NextDue id p ts (now + Instant.ceilMillis p.wait.nanos) ∧ completed = true ∧ 1000000 ∣ now
  | _ => attemptsDue p ts = callTimes (.acquire id) ts

namespace OnSchedule

variable {id : ControllerId} {p : Policy} {now now' : Nat} {phase : Phase} {s : Signal}
variable {step : Step} {ts : List Turn}

/-- A controller that does not wait has made all its attempts. -/
theorem made (hsched : OnSchedule id p now ts phase) (hstate : phase.state ≠ .waiting) :
    attemptsDue p ts = callTimes (.acquire id) ts := by
  cases phase with
  | starting | cooling | yielding | retrying => exact absurd rfl hstate
  | _ => exact hsched

/-- The attempt that is due now is made. -/
theorem attempt {wake : Nat} {t : Turn} (hnext : NextDue id p ts wake) (hnow : now ≤ wake)
    (hdue : wake ≤ now) (htime : t.time = now) (hnone : t.nextAttempt? p = none)
    (hcalls : .acquire id ∈ t.requests) : OnSchedule id p now (t :: ts) .acquiring := by
  change attemptsDue p (t :: ts) = callTimes (.acquire id) (t :: ts)
  rw [attemptsDue_of_none hnone, callTimes_of_mem hcalls, hnext, htime,
    Nat.le_antisymm hdue hnow]

/-- Every turn keeps the schedule. -/
theorem of_course (hcourse : Course id p now false phase s step)
    (hsched : OnSchedule id p now ts phase) (hdelay : now + p.delay.nanos < Instant.horizon)
    (hwait : now + p.wait.nanos < Instant.horizon) :
    OnSchedule id p now (⟨now, false, phase, s, step⟩ :: ts) step.1 := by
  -- Who does not wait has made all its attempts, and makes none in its turn.
  have hmade (hstate : phase.state ≠ .waiting) :
      callTimes (.acquire id) (⟨now, false, phase, s, step⟩ :: ts) = attemptsDue p ts := by
    have hturn : Turn.IsOf ⟨now, false, phase, s, step⟩ id p := hcourse
    rw [callTimes_of_notMem (hturn.acquire_notMem_requests hstate), hsched.made hstate]
  cases hcourse with
  | begin =>
      refine ⟨?_, Instant.le_wake now p.delay⟩
      rw [NextDue, hmade (by rintro ⟨⟩), Instant.wake_eq hdelay, attemptsDue_of_some rfl]
  | first hdue | again hdue =>
      exact .attempt hsched.1 hsched.2 hdue rfl rfl (List.mem_singleton.mpr rfl)
  | win hgrant | fail hgrant =>
      change attemptsDue p _ = callTimes (.acquire id) _
      rw [attemptsDue_of_none (by simp [Turn.nextAttempt?, hgrant]), hmade (by rintro ⟨⟩)]
  | miss hgrant =>
      refine ⟨?_, Instant.le_wake now p.wait⟩
      rw [NextDue, hmade (by rintro ⟨⟩), Instant.wake_eq hwait,
        attemptsDue_of_some (by simp [Turn.nextAttempt?, hgrant]; rfl)]
  | renew =>
      change attemptsDue p _ = callTimes (.acquire id) _
      rw [attemptsDue_of_none rfl, hmade (by rintro ⟨⟩)]
  | keep hanswer =>
      change attemptsDue p _ = callTimes (.acquire id) _
      rw [attemptsDue_of_none (by simp [Turn.nextAttempt?, hanswer]), hmade (by rintro ⟨⟩)]
  | lose hanswer =>
      refine ⟨?_, Instant.le_wake now p.delay, Instant.wake_dvd now p.delay⟩
      rw [NextDue, hmade (by rintro ⟨⟩), Instant.wake_eq hdelay,
        attemptsDue_of_some (by simp [Turn.nextAttempt?, hanswer]; rfl)]
  | cool hdue =>
      obtain ⟨hnext, hnow, hmillis⟩ := hsched
      obtain rfl := Nat.le_antisymm hdue hnow
      refine ⟨?_, rfl, hmillis⟩
      rw [NextDue, attemptsDue_of_none rfl, callTimes_of_notMem List.not_mem_nil, hnext]
  | rest _ taskOver =>
      obtain ⟨hnext, -, hmillis⟩ := hsched
      -- The delay ended at a whole millisecond, so the wait is rounded up by itself.
      refine ⟨?_, Instant.le_wake now p.wait⟩
      rw [NextDue, attemptsDue_of_none rfl,
        callTimes_of_notMem (Turn.notMem_requests_of_notes rfl _), hnext, Instant.wake_eq hwait,
        Instant.ceilMillis_add hmillis]
  | leave => cases hsched.2.1

/-- So does time, as long as no alarm is missed. -/
theorem pass {Lasts : Phase → Prop} (hsched : OnSchedule id p now ts phase)
    (hidles : Idles Lasts now now' phase) : OnSchedule id p now' ts phase := by
  cases phase with
  | starting wake | retrying wake => exact ⟨hsched.1, hidles.wakes wake rfl⟩
  | cooling wake => exact ⟨hsched.1, hidles.wakes wake rfl, hsched.2.2⟩
  | yielding completed => exact absurd rfl (hidles.stays completed)
  | _ => exact hsched

end OnSchedule

/-- In every life attempts are on schedule until the shutdown fires. -/
theorem Life.onSchedule {Lasts : Phase → Prop} {id : ControllerId} {p : Policy} {now : Nat}
    {shutdown : Bool} {ts : List Turn} {phase : Phase}
    (life : Life Lasts id p now shutdown ts phase) (hgoesOn : shutdown = false)
    (hdelay : now + p.delay.nanos < Instant.horizon)
    (hwait : now + p.wait.nanos < Instant.horizon) : OnSchedule id p now ts phase := by
  induction life with
  | begin => rfl
  | turn past hdue hall =>
      have hcourse := course_of_due hdue id p
      rw [hgoesOn] at hcourse
      have hkept := (hall hgoesOn hdelay hwait).of_course hcourse hdelay hwait
      rwa [← hgoesOn] at hkept
  | told => cases hgoesOn
  | pass past hidles hall =>
      have hlater := hidles.later
      exact (hall hgoesOn (by omega) (by omega)).pass hidles

end Controller

open Controller (attemptsDue)

namespace Cluster

variable {σ : Type} [LockService σ] {service : σ} {traced : Bool} {c : Cluster σ}
variable {h : Chronicle} {i : Nat} {m : Member}

/-- Whatever the service answers and however long it takes: until its shutdown fires a controller
makes its attempts when they are due, and no others.  One is due after its delay from its start
on, one after its wait from every answer that granted nothing on, and one after the delay and
the wait from every loss on.  While it waits one more is due: now or later, and later if nothing
but time makes it go on. -/
theorem attempts_as_due (run : Run (Steady fun _ => True) (empty service traced) h c)
    (hm : c.members[i]? = some m) (hgoesOn : m.shutdown = false)
    (hdelay : c.now + m.policy.delay.nanos < Instant.horizon)
    (hwait : c.now + m.policy.wait.nanos < Instant.horizon) :
    (m.state ≠ .waiting →
      callTimes (.acquire m.id) (h.turnsOf i) = attemptsDue m.policy (h.turnsOf i)) ∧
    (m.state = .waiting → ∃ next,
      next :: callTimes (.acquire m.id) (h.turnsOf i) = attemptsDue m.policy (h.turnsOf i) ∧
        c.now ≤ next ∧
        (m.signal? c.now = none → (∀ completed, m.phase ≠ .yielding completed) →
          c.now < next)) := by
  have hsched := (run.life hm).onSchedule hgoesOn hdelay hwait
  refine ⟨fun hstate => (hsched.made hstate).symm, fun hstate => ?_⟩
  rw [Member.state] at hstate
  rw [Member.signal?]
  generalize m.phase = phase at hsched hstate ⊢
  cases phase with
  | starting wake | retrying wake =>
      exact ⟨wake, hsched.1.symm, hsched.2, fun hrests _ =>
        (Controller.wait_eq_none_iff.mp hrests).2⟩
  | cooling wake =>
      obtain ⟨hnext, hnow, -⟩ := hsched
      refine ⟨_, hnext.symm, Nat.le_add_right_of_le hnow, fun hrests _ => ?_⟩
      exact Nat.lt_add_right _ (Controller.wait_eq_none_iff.mp hrests).2
  | yielding completed =>
      exact ⟨_, hsched.1.symm, Nat.le_add_right _ _, fun _ hstays => absurd rfl (hstays completed)⟩
  | _ => cases hstate

/-- A controller is denied the lock, then granted it, and loses it at once; its delay and its
wait are no whole milliseconds. -/
theorem attempts_as_due_of_loss :
    ∃ (h : Chronicle) (c : Cluster Script) (m : Member),
      Run (Steady fun _ => True) (empty ⟨[.answer .zero .denied,
        .answer .zero (.granted ⟨"lock-1"⟩)], [.answer .zero (.refused .expired)]⟩ false) h c ∧
      c.members = [m] ∧ m.policy.delay.nanos = 1500000 ∧ m.policy.wait.nanos = 2500000 ∧
      m.state = .attempting ∧ m.shutdown = false ∧ c.now = 11000000 ∧
      callTimes (.acquire m.id) (h.turnsOf 0) = [11000000, 5000000, 2000000] := by
  let script : Script := ⟨[.answer .zero .denied, .answer .zero (.granted ⟨"lock-1"⟩)],
    [.answer .zero (.refused .expired)]⟩
  let m : Member :=
    { name := "first", id := ⟨"first"⟩,
      policy := ⟨.ofMillis 1, .ofNanos 2500000, .ofNanos 1500000⟩, conduct := .prompt }
  let former (phase : Phase) : Member :=
    { m with phase, episode := some ⟨⟨"lock-1"⟩, 5000000, 0⟩ }
  have enrolled : Run Virtual (empty script false) [] ((empty script false).enroll m) :=
    .step .start (.enroll _ rfl rfl rfl)
  have begun := enrolled.step (.turn (i := 0) (m := m) (s := .begun)
    (by decide) (.signalled (by decide)))
  have delayed := begun.wait 2000000 (by decide)
  have asked := delayed.step (.turn (i := 0) (m := { m with phase := .starting 2000000 })
    (s := .elapsed) (by decide) (.signalled (by decide)))
  have denied := asked.step (.turn (i := 0)
    (m := { m with
      phase := .acquiring
      call := some ⟨.acquire m.id, 2000000, 2000000, .denied⟩ })
    (s := .answered .denied) (by decide) (.signalled (by decide)))
  have waited := denied.wait 5000000 (by decide)
  have askedAgain := waited.step (.turn (i := 0) (m := { m with phase := .retrying 5000000 })
    (s := .elapsed) (by decide) (.signalled (by decide)))
  have granted := askedAgain.step (.turn (i := 0)
    (m := { m with
      phase := .acquiring
      call := some ⟨.acquire m.id, 5000000, 5000000, .granted ⟨"lock-1"⟩⟩ })
    (s := .answered (.granted ⟨"lock-1"⟩)) (by decide) (.signalled (by decide)))
  have due := granted.wait 6000000 (by decide)
  have renewing := due.step (.turn (i := 0)
    (m := former (.leading ⟨⟨"lock-1"⟩, 5000000⟩ ⟨6000000, 1000000⟩))
    (s := .elapsed) (by decide) (.signalled (by decide)))
  have lost := renewing.step (.turn (i := 0)
    (m := { former (.renewing ⟨⟨"lock-1"⟩, 5000000⟩ ⟨7000000, 1000000⟩) with
      call := some ⟨.renew, 6000000, 6000000, .refused .expired⟩ })
    (s := .answered (.refused .expired)) (by decide) (.signalled (by decide)))
  have cooling := lost.wait 8000000 (by decide)
  have cooled := cooling.step (.turn (i := 0) (m := former (.cooling 8000000))
    (s := .elapsed) (by decide) (.signalled (by decide)))
  have resumed := cooled.step (.turn (i := 0) (m := former (.yielding true))
    (by decide) (.resumed rfl))
  have waiting := resumed.wait 11000000 (by decide)
  have last := waiting.step (.turn (i := 0) (m := former (.retrying 11000000))
    (s := .elapsed) (by decide) (.signalled (by decide)))
  have run : Run (Steady fun _ => True) _ _ _ :=
    last.mono fun hvirtual => hvirtual.steady fun _ _ _ => trivial
  have hall := attempts_as_due (i := 0)
    (m := { former .acquiring with
      call := some ⟨.acquire m.id, 11000000, 11000000, .denied⟩ })
    run (by decide) rfl (by decide) (by decide)
  exact ⟨_, _, _, run, by decide, rfl, rfl, rfl, rfl, by decide,
    (hall.1 (by decide)).trans (by decide)⟩

end Cluster

end LeaseElection
