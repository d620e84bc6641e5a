import LeaseElection.Proofs.Cluster.Frame
import LeaseElection.Proofs.Controller.Patience

/-!
# What controllers and tasks wait for

All waits are over at whole milliseconds, if they began at one.  A controller that rests
now goes on resting until the instant that it waits for, and so does a task.
-/

namespace LeaseElection

open Controller (Phase Signal Action)

theorem Span.dueFrom_dvd (latency : Span) {now : Nat} (hnow : 1000000 ∣ now) :
    1000000 ∣ latency.dueFrom now := by
  rw [dueFrom]
  split
  · exact hnow
  · exact Instant.wake_dvd _ _

/-- That a task goes on by itself at whole milliseconds only. -/
def Task.IsTimed (t : Task) : Prop := ∀ wake, t.alarm? = some wake → 1000000 ∣ wake

namespace Task

variable {t : Task}

theorem IsTimed.poll (htimed : t.IsTimed) (now : Nat) (r : TaskRecord) :
    (t.poll now r).1.IsTimed := by
  have hstart : (t.start now r).1.IsTimed := by
    rw [start]
    split
    · rintro wake ⟨⟩
    · rintro wake ⟨⟩
      exact Instant.wake_dvd _ _
    · rintro wake ⟨⟩
    · exact htimed
  have hstop (t : Task) (r : TaskRecord) (htimed : t.IsTimed) : (t.stop now r).1.IsTimed := by
    rw [stop]
    split
    · intro wake hwake
      obtain ⟨group, runner, conduct, stage, cancelled⟩ := t
      cases conduct <;> cases hwake
      exact Instant.wake_dvd _ _
    · exact htimed
  have hleave (t : Task) (htimed : t.IsTimed) : (t.leave now).IsTimed := by
    rw [leave]
    split
    · split
      · rintro wake ⟨⟩
      · exact htimed
    · exact htimed
  exact hleave _ (hstop _ _ hstart)

/-- That a task waits: it took its first step, and has no reason to take another. -/
structure Waits (now : Nat) (t : Task) : Prop where
  started : t.stage ≠ .fresh
  goes : t.hasToStop now = false
  lingers : ∀ wake, t.stage = .lingering wake → now < wake

theorem Waits.poll_eq {now : Nat} (hwaits : t.Waits now) (r : TaskRecord) :
    t.poll now r = (t, r) := by
  have hstart : t.start now r = (t, r) := by
    rw [start]
    split
    · exact absurd ‹_› hwaits.started
    · exact absurd ‹_› hwaits.started
    · exact absurd ‹_› hwaits.started
    · rfl
  have hstop : t.stop now r = (t, r) := by simp [stop, hwaits.goes]
  have hleave : t.leave now = t := by
    rw [leave]
    split
    · rename_i wake hstage
      exact if_neg (Nat.not_le_of_lt (hwaits.lingers wake hstage))
    · rfl
  rw [poll, hstart]
  dsimp only
  rw [hstop]
  dsimp only
  rw [hleave]

/-- A task that was polled waits, whatever its conduct. -/
theorem waits_poll (now : Nat) (t : Task) (r : TaskRecord) : (t.poll now r).1.Waits now := by
  have hstart : (t.start now r).1.stage ≠ .fresh := by
    obtain ⟨group, runner, conduct, stage, cancelled⟩ := t
    cases stage with
    | fresh => cases conduct <;> nofun
    | running | lingering | returned | crashed => nofun
  have hstop (t : Task) (r : TaskRecord) (hstarted : t.stage ≠ .fresh) :
      (t.stop now r).1.stage ≠ .fresh ∧ (t.stop now r).1.hasToStop now = false := by
    rw [stop]
    split
    · obtain ⟨group, runner, conduct, stage, cancelled⟩ := t
      cases conduct <;> exact ⟨nofun, rfl⟩
    · rename_i hgoes
      exact ⟨hstarted, Bool.not_eq_true _ ▸ hgoes⟩
  have hleave (t : Task) (hstarted : t.stage ≠ .fresh) (hgoes : t.hasToStop now = false) :
      (t.leave now).Waits now := by
    rw [leave]
    split
    · rename_i wake hstage
      split
      · exact ⟨nofun, rfl, nofun⟩
      · rename_i hlater
        refine ⟨hstarted, hgoes, fun wake' hstage' => ?_⟩
        rw [hstage] at hstage'
        cases hstage'
        exact Nat.lt_of_not_le hlater
    · rename_i hother
      exact ⟨hstarted, hgoes, fun wake hstage => absurd hstage (hother wake)⟩
  obtain ⟨hstarted, hgoes⟩ := hstop _ (t.start now r).2 hstart
  exact hleave _ hstarted hgoes

/-- A task that waits now waits until its alarm. -/
theorem Waits.of_lt {now now' : Nat} (hwaits : t.Waits now)
    (hwake : ∀ wake, t.alarm? = some wake → now' < wake) : t.Waits now' := by
  refine ⟨hwaits.started, ?_, fun wake hstage => hwake wake (by rw [alarm?, hstage])⟩
  have hgoes := hwaits.goes
  obtain ⟨group, runner, conduct, stage, cancelled⟩ := t
  cases stage with
  | running stop =>
      -- Only a short-lived task asks what time it is.
      cases conduct with
      | shortLived life =>
          cases stop with
          | none => rfl
          | some stop => exact decide_eq_false (Nat.not_le_of_lt (hwake stop rfl))
      | prompt | stubborn | lingering | crashing => cases stop <;> exact hgoes
  | fresh | lingering | returned | crashed => rfl

end Task

/-- A crew is left as it is when a task is polled that waits. -/
theorem Crew.poll_of_waits {crew : Crew} {t : Task} {now j : Nat} (hj : crew.tasks[j]? = some t)
    (hwaits : t.Waits now) : crew.poll now j = crew := by
  obtain ⟨hlt, rfl⟩ := List.getElem?_eq_some_iff.mp hj
  rw [poll, hj]
  dsimp only
  rw [hwaits.poll_eq, List.set_getElem_self]

/-- Whoever was polled waits. -/
theorem Crew.waits_poll {crew : Crew} {t : Task} {now j : Nat}
    (hj : (crew.poll now j).tasks[j]? = some t) : t.Waits now := by
  rw [poll] at hj
  cases hbefore : crew.tasks[j]? with
  | none =>
      rw [hbefore] at hj
      dsimp only at hj
      rw [hbefore] at hj
      cases hj
  | some t₀ =>
      have hlt := (List.getElem?_eq_some_iff.mp hbefore).1
      rw [hbefore] at hj
      dsimp only at hj
      rw [List.getElem?_set_self hlt] at hj
      cases hj
      exact t₀.waits_poll now _

theorem Crew.getElem?_poll_of_ne {j k : Nat} (hjk : j ≠ k) (crew : Crew) (now : Nat) :
    (crew.poll now j).tasks[k]? = crew.tasks[k]? := by
  rw [poll]
  split
  · rfl
  · exact List.getElem?_set_ne hjk

/-- That a controller has a wait between its attempts, and that all it waits for comes at
whole milliseconds. -/
structure Member.IsTimed (m : Member) : Prop where
  wait : 0 < m.policy.wait.nanos
  phase : m.phase.IsTimed
  call : ∀ k, m.call = some k → 1000000 ∣ k.due

theorem Member.IsTimed.wake_dvd {m : Member} (htimed : m.IsTimed) {wake : Nat}
    (hwake : m.wake? = some wake) : 1000000 ∣ wake := by
  have hcall (hcall : m.call.map PendingCall.due = some wake) : 1000000 ∣ wake := by
    obtain ⟨k, hk, rfl⟩ := Option.map_eq_some_iff.mp hcall
    exact htimed.call k hk
  rw [Member.wake?] at hwake
  split at hwake
  · exact hcall hwake
  · exact hcall hwake
  · exact htimed.phase.wake_dvd hwake

theorem Member.answer?_eq_none_iff {m : Member} {now : Nat} :
    m.answer? now = none ↔ ∀ k, m.call = some k → now < k.due := by
  rw [answer?, Option.map_eq_none_iff, Option.filter_eq_none_iff]
  simp

/-- What a controller that rests waits for is still to come. -/
theorem Member.lt_of_rests {m : Member} {now wake : Nat} (hrest : m.signal? now = none)
    (hwake : m.wake? = some wake) : now < wake := by
  rw [Member.signal?] at hrest
  unfold Member.wake? at hwake
  cases hphase : m.phase with
  | starting | cooling | retrying | leading =>
      rw [hphase] at hrest hwake
      cases hwake
      exact (Controller.wait_eq_none_iff.mp hrest).2
  | acquiring | renewing =>
      rw [hphase] at hrest hwake
      obtain ⟨k, hk, rfl⟩ := Option.map_eq_some_iff.mp hwake
      obtain ⟨-, hnone⟩ := Controller.call_eq_none_iff.mp hrest
      exact Member.answer?_eq_none_iff.mp hnone k hk
  | idle | yielding | stopped | failed =>
      rw [hphase] at hwake
      cases hwake

/-- A controller that rests now rests until what it waits for. -/
theorem Member.signal?_of_lt {m : Member} {now now' : Nat} (hrest : m.signal? now = none)
    (hwake : ∀ wake, m.wake? = some wake → now' < wake) : m.signal? now' = none := by
  unfold Member.signal? at hrest ⊢
  rw [Member.wake?] at hwake
  cases hphase : m.phase with
  | idle =>
      rw [hphase] at hrest
      cases hrest
  | starting | cooling | retrying | leading =>
      rw [hphase] at hrest hwake
      obtain ⟨hshutdown, -⟩ := Controller.wait_eq_none_iff.mp hrest
      exact Controller.wait_eq_none_iff.mpr ⟨hshutdown, hwake _ rfl⟩
  | acquiring | renewing =>
      rw [hphase] at hrest hwake
      obtain ⟨hshutdown, -⟩ := Controller.call_eq_none_iff.mp hrest
      refine Controller.call_eq_none_iff.mpr ⟨hshutdown, ?_⟩
      apply Member.answer?_eq_none_iff.mpr
      intro k hk
      exact hwake k.due (by rw [hk]; rfl)
  | yielding | stopped | failed => rfl

/-- That all that a controller has in reach goes on at whole milliseconds. -/
structure Reach.IsTimed {σ : Type} (x : Reach σ) : Prop where
  tasks : ∀ t ∈ x.crew.tasks, t.IsTimed
  call : ∀ k, x.call = some k → 1000000 ∣ k.due

theorem Crew.isTimed_cancel {crew : Crew} (htimed : ∀ t ∈ crew.tasks, t.IsTimed) (j : Nat) :
    ∀ t ∈ (crew.cancel j).tasks, t.IsTimed := by
  intro t ht
  obtain ⟨k, hk⟩ := List.mem_iff_getElem?.mp ht
  simp only [cancel, List.getElem?_modify] at hk
  obtain ⟨t', ht', rfl⟩ := Option.map_eq_some_iff.mp hk
  have hbefore : t'.IsTimed := htimed t' (List.mem_of_getElem? ht')
  split <;> exact hbefore

theorem Crew.isTimed_poll {crew : Crew} (htimed : ∀ t ∈ crew.tasks, t.IsTimed) (now j : Nat) :
    ∀ t ∈ (crew.poll now j).tasks, t.IsTimed := by
  rw [poll]
  cases hj : crew.tasks[j]? with
  | none => exact htimed
  | some t =>
      intro t' ht'
      rcases List.mem_or_eq_of_mem_set ht' with ht' | rfl
      · exact htimed t' ht'
      · exact (htimed t (List.mem_of_getElem? hj)).poll now _

/-- Whatever a controller does, it and its tasks go on at whole milliseconds. -/
theorem Reach.IsTimed.foldl_act {σ : Type} [LockService σ] {now : Nat} (hnow : 1000000 ∣ now)
    (i : Nat) (m : Member) (actions : List Action) {x : Reach σ} (htimed : x.IsTimed) :
    (actions.foldl (Reach.act now i m) x).IsTimed := by
  induction actions generalizing x with
  | nil => exact htimed
  | cons a actions hall =>
      apply hall
      cases a with
      | note => exact htimed
      | call r =>
          refine ⟨htimed.tasks, ?_⟩
          intro k hk
          cases hreply : (LockService.call now (.member i) r x.service).1 with
          | silence => simp [Reach.act, hreply, PendingCall.of?] at hk
          | answer latency a =>
              simp only [Reach.act, hreply, PendingCall.of?, Option.some.injEq] at hk
              subst hk
              exact latency.dueFrom_dvd hnow
      | startTask token =>
          refine ⟨?_, htimed.call⟩
          intro t ht
          rcases List.mem_append.mp ht with ht | ht
          · exact htimed.tasks t ht
          · rw [List.mem_singleton.mp ht]
            rintro wake ⟨⟩
      | cancelTask =>
          simp only [Reach.act]
          split
          · exact htimed
          · exact ⟨Crew.isTimed_cancel htimed.tasks _, htimed.call⟩

end LeaseElection
