import LeaseElection.Proofs.Cluster.Retention

/-!
# Slow calls

A lock service may take any time to answer, or never do so.  A controller sets no limit to
its calls: while one is in flight it goes on as it was.  Its ticker runs from the answer to a
grant and from the start of a renewal, so between its calls it does not lead for longer than
the lease, and that is all: the time its calls take comes on top.
-/

namespace LeaseElection

open Controller (Phase Signal Action Turn Course Ticker)

namespace Controller

/-- When a controller made its last call, and what it asked for. -/
def lastCall? (ts : List Turn) : Option (Nat × Request) :=
  ts.findSome? fun t => t.requests.head?.map fun r => (t.time, r)

/-- A call to acquire or to renew that went through. -/
structure Success where
  request : Request
  askedAt : Nat
  answeredAt : Nat
deriving DecidableEq

/-- The last call to acquire or to renew that went through. -/
def lastSuccess? : List Turn → Option Success
  | [] => none
  | t :: ts =>
      if t.grant?.isSome || t.isRenewal then
        (lastCall? ts).map fun (askedAt, request) => ⟨request, askedAt, t.time⟩
      else lastSuccess? ts

/-- That a success accounts for a controller that is without a call until `idle`: for no longer
than a period since the answer, and after a renewal for no longer than a period since its start,
unless the answer came so late that the controller goes on in the same instant. -/
structure Success.Covers (k : Success) (period idle : Nat) : Prop where
  asked : k.askedAt ≤ k.answeredAt
  answered : k.answeredAt ≤ idle
  since : idle ≤ Instant.ceilMillis (k.answeredAt + period)
  renewed : k.request = .renew →
    idle ≤ Instant.ceilMillis (k.askedAt + period) ∨ idle = k.answeredAt

theorem Success.Covers.mono {k : Success} {period period' idle : Nat}
    (hcovers : k.Covers period idle) (hle : period ≤ period') : k.Covers period' idle where
  asked := hcovers.asked
  answered := hcovers.answered
  since := hcovers.since.trans (Instant.ceilMillis_mono (Nat.add_le_add_left hle _))
  renewed hrequest := (hcovers.renewed hrequest).imp_left fun hidle =>
    hidle.trans (Instant.ceilMillis_mono (Nat.add_le_add_left hle _))

/-- What a controller in some phase knows at `now` of its last calls, where its ticker goes off
once in a period. -/
inductive Paced (period now : Nat) (ts : List Turn) : Phase → Prop where
  | acquires {askedAt : Nat} {caller : ControllerId}
      (hcall : lastCall? ts = some (askedAt, .acquire caller)) (hasked : askedAt ≤ now) :
      Paced period now ts .acquiring
  | leads {k : Success} {reign : Reign} {ticker : Ticker} (hlast : lastSuccess? ts = some k)
      (hcovers : k.Covers period now) (hperiod : ticker.period = period)
      (hdeadline : ticker.deadline ≤ k.answeredAt + period)
      (hrenewed : k.request = .renew → ticker.deadline ≤ k.askedAt + period) :
      Paced period now ts (.leading reign ticker)
  | renews {k : Success} {askedAt : Nat} {reign : Reign} {ticker : Ticker}
      (hlast : lastSuccess? ts = some k) (hcovers : k.Covers period askedAt)
      (hcall : lastCall? ts = some (askedAt, .renew)) (hasked : askedAt ≤ now)
      (hperiod : ticker.period = period) (hdeadline : ticker.deadline ≤ askedAt + period) :
      Paced period now ts (.renewing reign ticker)
  | fails {k : Success} (hlast : lastSuccess? ts = some k) (hasked : k.askedAt ≤ k.answeredAt)
      (hanswered : k.answeredAt ≤ now) (hgrant : k.request ≠ .renew)
      (hclock : Instant.horizon ≤ k.answeredAt + period) : Paced period now ts .failed
  | rests {phase : Phase} (hstate : phase.state ≠ .leading) (hphase : phase ≠ .acquiring) :
      Paced period now ts phase

section Calls

variable {t : Turn} {r : Request}

theorem lastCall?_of_request (hcall : t.requests = [r]) (ts : List Turn) :
    lastCall? (t :: ts) = some (t.time, r) := by
  simp [lastCall?, hcall]

theorem lastSuccess?_of_hold (hhold : t.grant?.isSome = true ∨ t.isRenewal = true)
    {ts : List Turn} {askedAt : Nat} (hcall : lastCall? ts = some (askedAt, r)) :
    lastSuccess? (t :: ts) = some ⟨r, askedAt, t.time⟩ := by
  rw [lastSuccess?, if_pos (Bool.or_eq_true _ _ ▸ hhold), hcall]
  rfl

theorem lastSuccess?_of_none (hgrant : t.grant? = none) (hrenewal : t.isRenewal = false)
    (ts : List Turn) : lastSuccess? (t :: ts) = lastSuccess? ts := by
  simp [lastSuccess?, hgrant, hrenewal]

end Calls

namespace Ticker

variable {t : Ticker} {now : Nat}

theorem period_advance (t : Ticker) (now : Nat) : (t.advance now).period = t.period := by
  rw [advance]
  split <;> rfl

/-- However late it went off, the ticker next does so within a period. -/
theorem deadline_advance_le (hdue : t.wake ≤ now) : (t.advance now).deadline ≤ now + t.period := by
  have hpast : t.deadline ≤ now := (Instant.le_ceilMillis _).trans hdue
  rw [advance]
  split
  · exact Nat.le_refl _
  · exact Nat.add_le_add_right hpast _

end Ticker

namespace Paced

variable {id : ControllerId} {p : Policy} {now now' period : Nat} {shutdown : Bool}
variable {phase : Phase} {s : Signal} {step : Step} {ts : List Turn}

theorem covers_answer {r : Request} {askedAt : Nat} (hasked : askedAt ≤ now) (period : Nat) :
    Success.Covers ⟨r, askedAt, now⟩ period now where
  asked := hasked
  answered := Nat.le_refl now
  since := (Nat.le_add_right now period).trans (Instant.le_ceilMillis _)
  renewed _ := Or.inr rfl

/-- Every turn keeps the pace. -/
theorem of_course (hcourse : Course id p now shutdown phase s step)
    (hpaced : Paced (Ticker.periodOf p.renewal) now ts phase) :
    Paced (Ticker.periodOf p.renewal) now (⟨now, shutdown, phase, s, step⟩ :: ts) step.1 := by
  cases hcourse with
  | first | again => exact .acquires (lastCall?_of_request rfl ts) (Nat.le_refl now)
  | @win a token ticker hgrant hticker =>
      cases hpaced with
      | rests _ hphase => exact absurd rfl hphase
      | acquires hcall hasked =>
          have hgranted : a.grant?.isSome = true := by rw [hgrant]; rfl
          simp only [Ticker.start?, Option.ite_none_right_eq_some, Option.some.injEq] at hticker
          obtain ⟨-, rfl⟩ := hticker
          exact .leads
            (lastSuccess?_of_hold (t := ⟨_, _, .acquiring, .answered a, _⟩) (Or.inl hgranted) hcall)
            (covers_answer hasked _) rfl (Nat.le_refl _) (by rintro ⟨⟩)
  | @fail a token hgrant hticker =>
      cases hpaced with
      | rests _ hphase => exact absurd rfl hphase
      | acquires hcall hasked =>
          have hgranted : a.grant?.isSome = true := by rw [hgrant]; rfl
          refine .fails
            (lastSuccess?_of_hold (t := ⟨_, _, .acquiring, .answered a, _⟩) (Or.inl hgranted) hcall)
            hasked (Nat.le_refl now) (by rintro ⟨⟩) (Nat.le_of_not_lt fun hclock => ?_)
          rw [Ticker.start?, if_pos hclock] at hticker
          cases hticker
  | renew hdue =>
      cases hpaced with
      | rests hstate => exact absurd rfl hstate
      | leads hlast hcovers hperiod =>
          refine .renews ((lastSuccess?_of_none rfl rfl ts).trans hlast) hcovers
            (lastCall?_of_request rfl ts) (Nat.le_refl now) ?_ ?_
          · rw [Ticker.period_advance, hperiod]
          · rw [← hperiod]
            exact Ticker.deadline_advance_le hdue
  | @keep reign ticker a hanswer =>
      cases hpaced with
      | rests hstate => exact absurd rfl hstate
      | renews hlast hcovers hcall hasked hperiod hdeadline =>
          have hrenewal : a.refusal?.isNone = true := by rw [hanswer]; rfl
          exact .leads
            (lastSuccess?_of_hold (t := ⟨_, _, .renewing .., .answered a, _⟩) (Or.inr hrenewal)
              hcall)
            (covers_answer hasked _) hperiod (hdeadline.trans (Nat.add_le_add_right hasked _))
            (fun _ => hdeadline)
  | begin | miss | lose | cool | interrupt | rest | leave | quit =>
      exact .rests (by rintro ⟨⟩) (by rintro ⟨⟩)

/-- So does time, as long as no alarm is missed. -/
theorem pass (hpaced : Paced period now ts phase) (hnow : now ≤ now')
    (hwakes : now < now' → ∀ wake, phase.wake? = some wake → now' ≤ wake) :
    Paced period now' ts phase := by
  rcases Nat.eq_or_lt_of_le hnow with rfl | hlater
  · exact hpaced
  cases hpaced with
  | acquires hcall hasked => exact .acquires hcall (hasked.trans hnow)
  | renews hlast hcovers hcall hasked hperiod hdeadline =>
      exact .renews hlast hcovers hcall (hasked.trans hnow) hperiod hdeadline
  | fails hlast hasked hanswered hgrant hclock =>
      exact .fails hlast hasked (hanswered.trans hnow) hgrant hclock
  | rests hstate hphase => exact .rests hstate hphase
  | leads hlast hcovers hperiod hdeadline hrenewed =>
      have hwake := hwakes hlater _ rfl
      refine .leads hlast ⟨hcovers.asked, hcovers.answered.trans hnow, ?_, fun hrequest => ?_⟩
        hperiod hdeadline hrenewed
      · exact hwake.trans (Instant.ceilMillis_mono hdeadline)
      · exact Or.inl (hwake.trans (Instant.ceilMillis_mono (hrenewed hrequest)))

end Paced

end Controller

open Controller (Success Paced lastCall? lastSuccess?)

/-- Who waits for an alarm is in no call. -/
theorem Member.wake?_of_phase {m : Member} {wake : Nat} (hwake : m.phase.wake? = some wake) :
    m.wake? = some wake := by
  rw [Member.wake?]
  cases hphase : m.phase with
  | acquiring | renewing =>
      rw [hphase] at hwake
      cases hwake
  | _ =>
      rw [hphase] at hwake
      exact hwake

namespace Cluster

variable {σ : Type} {c c' : Cluster σ} {h : Chronicle} {i : Nat} {m : Member}

/-- What a world may do in which no alarm is missed: anything to the service and to the calls
that it answers, at any instant or never. -/
structure Punctual (c c' : Cluster σ) : Prop extends Open c c' where
  wakes : c.now < c'.now → ∀ m ∈ c.members, ∀ wake, m.phase.wake? = some wake → c'.now ≤ wake

theorem Virtual.punctual (hvirtual : Virtual c c') : Punctual c c' where
  toOpen := hvirtual.isOpen
  wakes hlater := by
    cases hvirtual with
    | work | queue => exact absurd hlater (Nat.lt_irrefl _)
    | pass now _ _ _ hsleep =>
        exact fun m hm wake hwake => hsleep m hm wake (Member.wake?_of_phase hwake)

/-- All wait until the next alarm, or for a shorter time. -/
theorem Run.wait [LockService σ] {start : Cluster σ} (run : Run Virtual start h c) (now : Nat)
    (hwait : c.now < now ∧ 1000000 ∣ now ∧ ∀ m ∈ c.members,
      (m.signal? c.now = none ∧ ∀ completed, m.phase ≠ .yielding completed) ∧
        ∀ wake, m.wake? = some wake → now ≤ wake) : Run Virtual start h { c with now } :=
  run.step (.world (.pass c now hwait.1 hwait.2.1 (fun m hm => (hwait.2.2 m hm).1)
    fun m hm => (hwait.2.2 m hm).2))

/-- An answer may come at any instant before the next alarm. -/
theorem punctual_answer (c : Cluster σ) (now : Nat) (members : List Member) (hlater : c.now ≤ now)
    (hmembers : members.map Member.sansCall = c.members.map Member.sansCall)
    (hsleep : ∀ m ∈ c.members, ∀ wake, m.phase.wake? = some wake → now ≤ wake) :
    Punctual c { c with now, members } where
  now_le := hlater
  members_eq := hmembers
  marks := .refl _
  wakes _ := hsleep

variable [LockService σ] {service : σ} {traced : Bool}

/-- Whatever the service does, every controller keeps its pace. -/
theorem Run.paced (run : Run Punctual (empty service traced) h c) (hm : c.members[i]? = some m) :
    Paced (Ticker.periodOf m.policy.renewal) c.now (h.turnsOf i) m.phase := by
  induction run generalizing m with
  | start => simp [empty] at hm
  | @step h e c c' run hstep hall =>
      cases hstep with
      | @turn j m₀ s hm₀ hgoes =>
          rw [(resume_frame hm₀ s).1]
          by_cases hij : j = i
          · subst hij
            rw [member_resume hm₀ s] at hm
            cases hm
            rw [List.singleton_append, Chronicle.turnsOf_cons_self]
            exact (hall hm₀).of_course (Controller.course_of_due hgoes.due m₀.id m₀.policy)
          · rw [member_resume_of_ne hm₀ s hij] at hm
            rw [List.singleton_append, Chronicle.turnsOf_cons_of_ne hij]
            exact hall hm
      | enroll hphase =>
          rcases member_enroll hm with hm | ⟨rfl, rfl⟩
          · exact hall hm
          · rw [hphase]
            exact .rests (by rintro ⟨⟩) (by rintro ⟨⟩)
      | dismiss j =>
          obtain ⟨m₀, hm₀, rfl⟩ := member_dismiss hm
          have hearlier := hall hm₀
          rw [(dismiss_frame c j).1]
          split <;> exact hearlier
      | world hworld =>
          obtain ⟨m₀, call, hm₀, rfl⟩ := hworld.member hm
          exact (hall hm₀).pass hworld.now_le fun hlater =>
            hworld.wakes hlater m₀ (List.mem_of_getElem? hm₀)

/-- However long calls take, and whether or not they are ever answered: who leads has had a call
to acquire or to renew go through.  In a lease of whole milliseconds it was without a call since
then for no longer than the lease, counted from the answer, and after a renewal from its start,
unless that was answered too late for it to wait at all.  It still is without a call, or it began
to renew by then and the renewal is in flight.  Timers go off at whole milliseconds. -/
theorem leads_within_lease {cfg : Config} {entropy : WordStream}
    (run : Run Punctual (empty service traced) h c) (hm : c.members[i]? = some m)
    (hpolicy : Policy.ofConfig cfg entropy = .ok m.policy)
    (hmillis : 1000000 ∣ cfg.lease.nanos) (hclock : c.now < Instant.horizon)
    (hleading : m.state = .leading) :
    ∃ (k : Success) (idle : Nat), lastSuccess? (h.turnsOf i) = some k ∧
      k.Covers cfg.lease.nanos idle ∧
      (m.phase.call? m.id = none ∧ idle = c.now ∨
        m.phase.call? m.id = some .renew ∧ lastCall? (h.turnsOf i) = some (idle, .renew) ∧
          idle ≤ c.now) := by
  have hperiod := Policy.period_le_lease hpolicy hmillis
  have hpaced := run.paced hm
  rw [Member.state] at hleading
  generalize m.phase = phase at hpaced hleading ⊢
  cases hpaced with
  | leads hlast hcovers => exact ⟨_, c.now, hlast, hcovers.mono hperiod, Or.inl ⟨rfl, rfl⟩⟩
  | renews hlast hcovers hcall hasked =>
      exact ⟨_, _, hlast, hcovers.mono hperiod, Or.inr ⟨rfl, hcall, hasked⟩⟩
  | @fails k hlast hasked hanswered hgrant hfailed =>
      refine ⟨k, c.now, hlast, ⟨hasked, hanswered, ?_, fun hrequest => absurd hrequest hgrant⟩,
        Or.inl ⟨rfl, rfl⟩⟩
      -- No clock shows the instant at which the lease would be over.
      calc
        c.now ≤ Instant.horizon := hclock.le
        _ ≤ k.answeredAt + cfg.lease.nanos := hfailed.trans (Nat.add_le_add_left hperiod _)
        _ ≤ Instant.ceilMillis (k.answeredAt + cfg.lease.nanos) := Instant.le_ceilMillis _
  | acquires => cases hleading
  | rests hstate => exact absurd hleading hstate

/-- A first renewal takes three milliseconds, a second one never returns. -/
theorem leads_within_lease_of_stall :
    ∃ (h : Chronicle) (c : Cluster Script) (m : Member),
      Run Punctual (empty ⟨[.answer (.ofMillis 2) (.granted ⟨"lock-1"⟩)],
        [.answer (.ofMillis 3) .done, .silence]⟩ false) h c ∧
      c.members = [m] ∧ m.state = .leading ∧ m.shutdown = false ∧ c.now = 50000000 ∧
      lastSuccess? (h.turnsOf 0) = some ⟨.renew, 9000000, 12000000⟩ ∧
      lastCall? (h.turnsOf 0) = some (16000000, .renew) ∧
      Success.Covers ⟨.renew, 9000000, 12000000⟩ 10000000 16000000 := by
  let cfg : Config := { lease := .ofMillis 10, maxJitter := .zero }
  let script : Script := ⟨[.answer (.ofMillis 2) (.granted ⟨"lock-1"⟩)],
    [.answer (.ofMillis 3) .done, .silence]⟩
  let m : Member :=
    { name := "first", id := ⟨"first"⟩, policy := ⟨.ofMillis 7, .ofMillis 11, .zero⟩,
      conduct := .prompt }
  let leader (phase : Phase) : Member :=
    { m with phase, episode := some ⟨⟨"lock-1"⟩, 2000000, 0⟩ }
  have enrolled : Run Virtual (empty script false) [] ((empty script false).enroll m) :=
    .step .start (.enroll _ rfl rfl rfl)
  have begun := enrolled.step (.turn (i := 0) (m := m) (s := .begun)
    (by decide) (.signalled (by decide)))
  have asked := begun.step (.turn (i := 0) (m := { m with phase := .starting 0 })
    (s := .elapsed) (by decide) (.signalled (by decide)))
  have answered := asked.wait 2000000 (by decide)
  have granted := answered.step (.turn (i := 0)
    (m := { m with
      phase := .acquiring
      call := some ⟨.acquire m.id, 0, 2000000, .granted ⟨"lock-1"⟩⟩ })
    (s := .answered (.granted ⟨"lock-1"⟩)) (by decide) (.signalled (by decide)))
  have due := granted.wait 9000000 (by decide)
  have renewing := due.step (.turn (i := 0)
    (m := leader (.leading ⟨⟨"lock-1"⟩, 2000000⟩ ⟨9000000, 7000000⟩))
    (s := .elapsed) (by decide) (.signalled (by decide)))
  have done := renewing.wait 12000000 (by decide)
  have renewed := done.step (.turn (i := 0)
    (m := { leader (.renewing ⟨⟨"lock-1"⟩, 2000000⟩ ⟨16000000, 7000000⟩) with
      call := some ⟨.renew, 9000000, 12000000, .done⟩ })
    (s := .answered .done) (by decide) (.signalled (by decide)))
  have dueAgain := renewed.wait 16000000 (by decide)
  have stalled := dueAgain.step (.turn (i := 0)
    (m := leader (.leading ⟨⟨"lock-1"⟩, 2000000⟩ ⟨16000000, 7000000⟩))
    (s := .elapsed) (by decide) (.signalled (by decide)))
  have later := stalled.wait 50000000 (by decide)
  have run := later.mono Virtual.punctual
  have hpolicy : Policy.ofConfig cfg (fun _ => 0) =
      .ok ⟨.ofMillis 7, .ofMillis 11, .zero⟩ := by decide +kernel
  let last : Member := leader (.renewing ⟨⟨"lock-1"⟩, 2000000⟩ ⟨23000000, 7000000⟩)
  obtain ⟨k, idle, hlast, hcovers, ⟨hcall, -⟩ | ⟨-, hcall, -⟩⟩ :=
    leads_within_lease (i := 0) (m := last) run (by decide) hpolicy (by decide) (by decide) rfl
  · cases hcall
  · have hk : some k = some ⟨.renew, 9000000, 12000000⟩ := hlast.symm.trans (by decide)
    have hidle : some (idle, Request.renew) = some (16000000, .renew) :=
      hcall.symm.trans (by decide)
    cases hk
    cases hidle
    exact ⟨_, _, last, run, by decide, rfl, rfl, by decide, hlast, hcall, hcovers⟩

/-- That a single controller leads that was not told to stop, more than its lease after the
start of the last call that went through. -/
structure Overstays (cfg : Config) (script : Script) (k : Success) (h : Chronicle)
    (c : Cluster Script) (m : Member) : Prop where
  run : Run Punctual (empty script false) h c
  alone : c.members = [m]
  policy : ∃ entropy, Policy.ofConfig cfg entropy = .ok m.policy
  leads : m.state = .leading
  goesOn : m.shutdown = false
  last : lastSuccess? (h.turnsOf 0) = some k
  late : k.askedAt + cfg.lease.nanos < c.now

/-- A lease of one millisecond is granted between two whole milliseconds, and the ticker goes
off at the second of the next two. -/
theorem exists_overstays_of_fraction :
    ∃ h c m, Overstays { lease := .ofMillis 1, maxJitter := .zero }
      ⟨[.answer (.ofMillis 1) (.granted ⟨"lock-1"⟩)], []⟩
      ⟨.acquire ⟨"first"⟩, 0, 300000⟩ h c m ∧ c.now = 2000000 ∧ m.phase.call? m.id = none := by
  let script : Script := ⟨[.answer (.ofMillis 1) (.granted ⟨"lock-1"⟩)], []⟩
  let m : Member :=
    { name := "first", id := ⟨"first"⟩, policy := ⟨.ofNanos 700000, .ofNanos 1100000, .zero⟩,
      conduct := .prompt }
  let caller : Member :=
    { m with
      phase := .acquiring
      call := some ⟨.acquire m.id, 0, 300000, .granted ⟨"lock-1"⟩⟩ }
  let leader : Member :=
    { m with
      phase := .leading ⟨⟨"lock-1"⟩, 300000⟩ ⟨1300000, 1000000⟩
      episode := some ⟨⟨"lock-1"⟩, 300000, 0⟩ }
  have enrolled : Run Punctual (empty script false) [] ((empty script false).enroll m) :=
    .step .start (.enroll _ rfl rfl rfl)
  have begun := enrolled.step (.turn (i := 0) (m := m) (s := .begun)
    (by decide) (.signalled (by decide)))
  have asked := begun.step (.turn (i := 0) (m := { m with phase := .starting 0 })
    (s := .elapsed) (by decide) (.signalled (by decide)))
  have answered := asked.step (.world (punctual_answer _ 300000 [caller]
    (by decide) (by decide) (by decide)))
  have granted := answered.step (.turn (i := 0) (m := caller)
    (s := .answered (.granted ⟨"lock-1"⟩)) (by decide) (.signalled (by decide)))
  have due := granted.step (.world (Virtual.pass _ 2000000
    (by decide) (by decide) (by decide) (by decide)).punctual)
  have hpolicy : Policy.ofConfig { lease := .ofMillis 1, maxJitter := .zero } (fun _ => 0) =
      .ok m.policy := by decide +kernel
  exact ⟨_, _, leader,
    ⟨due, by decide, ⟨_, hpolicy⟩, rfl, rfl, by decide, by decide⟩, by decide, rfl⟩

/-- A leader overstays its lease if the grant takes longer than that to come, and if a renewal
never returns; and where instants are not whole milliseconds, by less than one. -/
theorem exists_overstays :
    (∃ h c m, Overstays { lease := .ofMillis 10, maxJitter := .zero }
      ⟨[.answer (.ofMillis 12) (.granted ⟨"lock-1"⟩)], [.silence]⟩
      ⟨.acquire ⟨"first"⟩, 0, 12000000⟩ h c m ∧ c.now = 12000000 ∧ m.phase.call? m.id = none) ∧
    (∃ h c m, Overstays { lease := .ofMillis 10, maxJitter := .zero }
      ⟨[.answer (.ofMillis 12) (.granted ⟨"lock-1"⟩)], [.silence]⟩
      ⟨.acquire ⟨"first"⟩, 0, 12000000⟩ h c m ∧ c.now = 23000000 ∧
        m.phase.call? m.id = some .renew) ∧
    ∃ h c m, Overstays { lease := .ofMillis 1, maxJitter := .zero }
      ⟨[.answer (.ofMillis 1) (.granted ⟨"lock-1"⟩)], []⟩
      ⟨.acquire ⟨"first"⟩, 0, 300000⟩ h c m ∧ c.now = 2000000 ∧ m.phase.call? m.id = none := by
  let script : Script := ⟨[.answer (.ofMillis 12) (.granted ⟨"lock-1"⟩)], [.silence]⟩
  let m : Member :=
    { name := "first", id := ⟨"first"⟩, policy := ⟨.ofMillis 7, .ofMillis 11, .zero⟩,
      conduct := .prompt }
  let leader (phase : Phase) : Member :=
    { m with phase, episode := some ⟨⟨"lock-1"⟩, 12000000, 0⟩ }
  have enrolled : Run Virtual (empty script false) [] ((empty script false).enroll m) :=
    .step .start (.enroll _ rfl rfl rfl)
  have begun := enrolled.step (.turn (i := 0) (m := m) (s := .begun)
    (by decide) (.signalled (by decide)))
  have asked := begun.step (.turn (i := 0) (m := { m with phase := .starting 0 })
    (s := .elapsed) (by decide) (.signalled (by decide)))
  have answered := asked.wait 12000000 (by decide)
  have granted := answered.step (.turn (i := 0)
    (m := { m with
      phase := .acquiring
      call := some ⟨.acquire m.id, 0, 12000000, .granted ⟨"lock-1"⟩⟩ })
    (s := .answered (.granted ⟨"lock-1"⟩)) (by decide) (.signalled (by decide)))
  have due := granted.wait 19000000 (by decide)
  have renewing := due.step (.turn (i := 0)
    (m := leader (.leading ⟨⟨"lock-1"⟩, 12000000⟩ ⟨19000000, 7000000⟩))
    (s := .elapsed) (by decide) (.signalled (by decide)))
  have stalled := renewing.wait 23000000 (by decide)
  let cfg : Config := { lease := .ofMillis 10, maxJitter := .zero }
  have hpolicy : Policy.ofConfig cfg (fun _ => 0) = .ok m.policy := by decide +kernel
  have late : Overstays cfg script ⟨.acquire ⟨"first"⟩, 0, 12000000⟩ _ _
      (leader (.leading ⟨⟨"lock-1"⟩, 12000000⟩ ⟨19000000, 7000000⟩)) :=
    ⟨granted.mono Virtual.punctual, by decide, ⟨_, hpolicy⟩, rfl, rfl, by decide, by decide⟩
  have stuck : Overstays cfg script ⟨.acquire ⟨"first"⟩, 0, 12000000⟩ _ _
      (leader (.renewing ⟨⟨"lock-1"⟩, 12000000⟩ ⟨26000000, 7000000⟩)) :=
    ⟨stalled.mono Virtual.punctual, by decide, ⟨_, hpolicy⟩, rfl, rfl, by decide, by decide⟩
  exact ⟨⟨_, _, _, late, by decide, rfl⟩, ⟨_, _, _, stuck, by decide, rfl⟩,
    exists_overstays_of_fraction⟩

end Cluster

end LeaseElection
