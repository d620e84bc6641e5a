import LeaseElection.Proofs.Cluster.Runs

/-!
# How controllers come to their end

A controller is meant to go on until its shutdown fires.  Of all the instants that it works out
from its pace one can be missing: that of the first renewal of a reign, which may be later than
any clock can show.  A pace of more than that is accepted, and whoever is granted the lock at it
comes to its end there and then, with its lease not given back, and shows that it leads for ever.
While a clock can show the renewals after the first one, nothing else ends a controller but its
shutdown.
-/

namespace LeaseElection

open Controller (Phase Signal Turn History)

namespace Controller

theorem Ticker.start?_eq_none_iff {now : Nat} {renewal : Span} :
    start? now renewal = none ↔ Instant.horizon ≤ now + periodOf renewal := by
  simp [start?]

/-- That a turn hears of a grant so late, or at such a pace, that no clock can show the first
renewal. -/
def Turn.IsFatal (t : Turn) (p : Policy) : Prop :=
  t.grant? ≠ none ∧ Instant.horizon ≤ t.time + Ticker.periodOf p.renewal

/-- A controller fails in these turns and in no others. -/
theorem Turn.after_eq_failed_iff {t : Turn} {id : ControllerId} {p : Policy}
    (hturn : t.IsOf id p) : t.after = .failed ↔ t.IsFatal p := by
  obtain ⟨now, shutdown, before, signal, outcome⟩ := t
  change Course id p now shutdown before signal outcome at hturn
  cases hturn with
  | fail hgrant hticker =>
      refine iff_of_true rfl ⟨?_, Ticker.start?_eq_none_iff.mp hticker⟩
      exact fun hnone => Option.some_ne_none _ (hgrant.symm.trans hnone)
  | win hgrant hticker =>
      refine iff_of_false (by rintro ⟨⟩) fun hfatal => ?_
      rw [Ticker.start?_eq_none_iff.mpr hfatal.2] at hticker
      cases hticker
  | miss hgrant => exact iff_of_false (by rintro ⟨⟩) fun hfatal => hfatal.1 hgrant
  | quit =>
      refine iff_of_false (by rintro ⟨⟩) fun hfatal => ?_
      obtain ⟨a, -, hsignal, -⟩ := exists_answer_of_grant hfatal.1
      cases hsignal
  | begin | first | again | renew | keep | lose | cool | interrupt | rest | leave =>
      refine iff_of_false (by rintro ⟨⟩) fun hfatal => ?_
      obtain ⟨a, hbefore, hsignal, -⟩ := exists_answer_of_grant hfatal.1
      cases hbefore

/-- Whoever is done with does not go on. -/
theorem Due.isOver_eq_false {now : Nat} {shutdown : Bool} {phase : Phase} {s : Signal}
    (hdue : Due now shutdown phase s) : phase.isOver = false := by
  cases hdue with
  | resumed => rfl
  | signalled answer hsignal =>
      cases phase with
      | stopped | failed => cases hsignal
      | _ => rfl

namespace History

variable {id : ControllerId} {p : Policy} {ts : List Turn} {phase : Phase}

/-- A controller fails in its last turn, if it ever does. -/
theorem failed_iff (past : History id p ts phase) :
    phase = .failed ↔ ∃ t ∈ ts, t.IsFatal p := by
  induction past with
  | begin => exact iff_of_false (by rintro ⟨⟩) fun ⟨t, ht, _⟩ => List.not_mem_nil ht
  | @turn ts phase past now shutdown s hdue hlater ih =>
      have hearlier : ¬ ∃ t ∈ ts, t.IsFatal p := by
        rw [← ih]
        rintro rfl
        cases hdue.isOver_eq_false
      rw [List.exists_mem_cons_iff, or_iff_left hearlier]
      exact Turn.after_eq_failed_iff (Turn.isOf_take hdue)

/-- A controller stops in its last turn, and its shutdown has fired by then. -/
theorem exists_shutdown_of_stopped (past : History id p ts phase) (hstopped : phase = .stopped) :
    ∃ t ∈ ts, t.shutdown = true := by
  cases past with
  | begin => cases hstopped
  | turn past hdue hlater =>
      refine ⟨_, List.mem_cons_self, ?_⟩
      apply (past.turn hdue hlater).shutdown_of_stopped _ List.mem_cons_self
      rw [Turn.after, Turn.take, hstopped, Phase.state]

end History

end Controller

namespace Cluster

variable {σ : Type} [LockService σ] {c : Cluster σ} {h : Chronicle} {i : Nat} {m : Member}
variable {service : σ} {traced : Bool}

/-- Whatever the service does and whenever a shutdown fires: a controller comes to its end on its
shutdown, or because it was granted the lock when no clock could show the first renewal.  Then
it shows that it leads, it never gave the lock back, and it does not go on any more.  This is so
at all readings at which a clock can show the later renewals too; see
`Controller.Ticker.advance`. -/
theorem member_ends (run : Run Open (empty service traced) h c) (hm : c.members[i]? = some m) :
    (m.phase.isOver →
      m.state = .stopped ∧ m.shutdown = true ∨ m.state = .leading ∧ m.phase = .failed) ∧
    (m.phase = .failed ↔ ∃ t ∈ h.turnsOf i, t.IsFatal m.policy) ∧
    (m.phase = .failed →
      (∀ t ∈ h.turnsOf i, Request.release ∉ t.requests) ∧ ∀ s, ¬ c.GoesOn m s) := by
  have past := run.chronicled.past i m hm
  refine ⟨fun hover => ?_, past.failed_iff,
    fun hfailed => ⟨past.converses.keeps, fun s hgoes => ?_⟩⟩
  · cases hphase : m.phase with
    | stopped =>
        refine Or.inl ⟨by rw [Member.state, hphase, Phase.state], ?_⟩
        obtain ⟨t, ht, hfired⟩ := past.exists_shutdown_of_stopped hphase
        exact (run.chronicled.earlier i m hm t ht).2 hfired
    | failed => exact Or.inr ⟨by rw [Member.state, hphase, Phase.state], rfl⟩
    | _ => simp [hphase, Phase.isOver] at hover
  · have hgoing := hgoes.due.isOver_eq_false
    rw [hfailed] at hgoing
    cases hgoing

/-- At the longest pace there is, a controller is granted the lock at once and fails. -/
theorem member_ends_of_longest :
    ∃ (h : Chronicle) (c : Cluster LockDouble) (m : Member),
      Run Open (empty { ttl := .ofMillis 10 } false) h c ∧ c.members = [m] ∧
        m.policy.renewal.nanos + 1 = 2 ^ 64 * 1000000000 ∧ c.service.holder = some m.id ∧
        (m.phase = .failed ↔ ∃ t ∈ h.turnsOf 0, t.IsFatal m.policy) ∧
        (m.phase = .failed →
          (∀ t ∈ h.turnsOf 0, Request.release ∉ t.requests) ∧ ∀ s, ¬ c.GoesOn m s) ∧
        (m.state = .stopped ∧ m.shutdown = true ∨ m.state = .leading ∧ m.phase = .failed) := by
  let m : Member :=
    { name := "a", id := ⟨"a"⟩, conduct := .prompt,
      policy := ⟨⟨18446744073709551615999999999, by decide⟩, .ofMillis 11, .zero⟩ }
  let failed : Member := { m with phase := .failed, episode := some ⟨⟨"fake-lock"⟩, 0, 0⟩ }
  have enrolled : Run Open (empty { ttl := .ofMillis 10 } false) []
      ((empty ({ ttl := .ofMillis 10 } : LockDouble) false).enroll m) :=
    .step .start (.enroll _ rfl rfl rfl)
  have begun := enrolled.step (.turn (i := 0) (s := .begun) rfl (.signalled rfl))
  have asked := begun.step (.turn (i := 0) (s := .elapsed) rfl (.signalled (by decide)))
  have granted := asked.step (.turn (i := 0) (s := .answered (.granted ⟨"fake-lock"⟩)) rfl
    (.signalled (by decide)))
  have hall := member_ends granted (i := 0) (m := failed) (by decide)
  exact ⟨_, _, failed, granted, by decide, by decide, by decide, hall.2.1, hall.2.2, hall.1 rfl⟩

/-- A controller is launched at that pace.  It is over at once without its shutdown, shows that
it leads, and still holds the lock. -/
theorem exists_failed_leader :
    let p : Policy := ⟨⟨18446744073709551615999999999, by decide⟩, .ofMillis 11, .zero⟩
    let m : Member := { name := "a", id := ⟨"a"⟩, policy := p, conduct := .prompt }
    let c := (empty ({ ttl := .ofMillis 10 } : LockDouble) false).launch m
    c.ending? 0 = some .failed ∧ c.service.holder = some ⟨"a"⟩ ∧
      c.members.map (fun m => (m.state, m.shutdown)) = [(.leading, false)] ∧
      (c.shutdown 0).ending? 0 = some .failed := by
  decide

end Cluster

end LeaseElection
