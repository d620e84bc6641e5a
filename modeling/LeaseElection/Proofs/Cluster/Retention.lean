import LeaseElection.Proofs.Cluster.Exclusion
import LeaseElection.Proofs.Policy

/-!
# Keeping the lease

Controllers take their pace from usable configurations of one lease, and the lock service
grants just this lease.  Timers go off at whole milliseconds and no renewal comes within
less than one, so what counts is the tick and not the time between renewals that was asked
for.  A controller whose tick fits into the lease keeps it until told to stop, one whose
tick does not never renews it once.  In a lease of whole milliseconds every tick fits.
-/

namespace LeaseElection

open Controller (Phase Signal Action Turn Course Ticker lastGrant? lastHold? lastHold?_of_hold)

namespace Policy

variable {p : Policy} {cfg : Config} {entropy : WordStream}

/-- In a lease of whole milliseconds renewals are no more than the lease apart. -/
theorem period_le_lease (h : ofConfig cfg entropy = .ok p)
    (hmillis : 1000000 ∣ cfg.lease.nanos) : Ticker.periodOf p.renewal ≤ cfg.lease.nanos := by
  obtain ⟨hpos, -⟩ := Config.validate_eq_ok_iff.mp (ofConfig_eq_ok h).1
  exact Nat.max_le.mpr ⟨renewal_le_lease h, Nat.le_of_dvd hpos hmillis⟩

theorem millis_le_tick (p : Policy) : 1000000 ≤ p.tick :=
  (Ticker.le_periodOf p.renewal).trans (Instant.le_ceilMillis _)

/-- Such a lease has room for the tick. -/
theorem tick_le_lease (h : ofConfig cfg entropy = .ok p) (hmillis : 1000000 ∣ cfg.lease.nanos) :
    p.tick ≤ cfg.lease.nanos := by
  have hperiod := period_le_lease h hmillis
  obtain ⟨n, hn⟩ := hmillis
  rw [hn] at hperiod ⊢
  rw [tick, Instant.ceilMillis]
  omega

end Policy

/-- Who never renewed last heard of its hold when it was granted it. -/
theorem Controller.lastHold?_of_unrenewed {ts : List Turn}
    (hunrenewed : ∀ t ∈ ts, t.isRenewal = false) : lastHold? ts = lastGrant? ts := by
  induction ts with
  | nil => rfl
  | cons t ts ih =>
      obtain ⟨hrenewal, hearlier⟩ := List.forall_mem_cons.mp hunrenewed
      cases hgrant : t.grant? with
      | none => rw [lastHold?_of_none hgrant hrenewal, lastGrant?_of_none hgrant, ih hearlier]
      | some token =>
          have hgranted : t.grant?.isSome = true := by rw [hgrant]; rfl
          rw [lastHold?_of_hold (Or.inl hgranted), lastGrant?_of_grant hgranted]

/-- Who has lapsed, or does not own the lock at all, cannot renew it. -/
theorem OwnerLock.not_isOwnedBy_renew {κ : Type} [DecidableEq κ] {l : OwnerLock κ} {now : Nat}
    {client : κ} (hlapsed : ∀ o, l.owner = some o → o.client = client → l.isLapsed now o = true) :
    ¬(l.renew now client).2.IsOwnedBy client := by
  rcases l.renew_cases now client with
    ⟨o, ho, hclient, ⟨hfresh, -⟩ | ⟨-, hexpired⟩⟩ | ⟨hlost, hnone⟩
  · rw [hlapsed o ho hclient] at hfresh
    cases hfresh
  · rw [hexpired]
    rintro ⟨o', ho', -⟩
    cases ho'
  · rw [hnone]
    exact hlost

/-- What comes of a controller whose tick does not fit into the lease: no renewal went
through, so its ticker goes off a whole period after the last grant, and if it is in a call
to renew, this is refused. -/
structure Belated (ts : List Turn) (m : Member) : Prop where
  unrenewed : ∀ t ∈ ts, t.isRenewal = false
  leads : ∀ reign ticker, m.phase = .leading reign ticker → ∃ g, lastHold? ts = some g ∧
    ticker = ⟨g + Ticker.periodOf m.policy.renewal, Ticker.periodOf m.policy.renewal⟩
  renews : ∀ reign ticker, m.phase = .renewing reign ticker →
    ∀ k, m.call = some k → k.answer.refusal? ≠ none

namespace Belated

variable {l : OwnerLock Party} {now i : Nat} {ts : List Turn} {m m' : Member} {t : Turn}
variable {reign : Controller.Reign} {ticker : Ticker}

/-- Outside its reigns no more is asked of a controller. -/
theorem of_phase (hunrenewed : ∀ t ∈ ts, t.isRenewal = false)
    (hleads : ∀ reign ticker, m.phase ≠ .leading reign ticker)
    (hrenews : ∀ reign ticker, m.phase ≠ .renewing reign ticker) : Belated ts m where
  unrenewed := hunrenewed
  leads reign ticker hphase := absurd hphase (hleads reign ticker)
  renews reign ticker hphase := absurd hphase (hrenews reign ticker)

theorem congr (hbelated : Belated ts m) (hphase : m'.phase = m.phase)
    (hpolicy : m'.policy = m.policy) (hcall : m'.call = m.call) : Belated ts m' where
  unrenewed := hbelated.unrenewed
  leads := by
    rw [hphase, hpolicy]
    exact hbelated.leads
  renews := by
    rw [hphase, hcall]
    exact hbelated.renews

/-- Its first renewal already comes after the end of the lease. -/
theorem lapsed (hbelated : Belated ts m) (hstanding : Standing l now i ts m)
    (hlate : l.ttl.nanos < m.policy.tick) (hphase : m.phase = .leading reign ticker)
    (hdue : ticker.wake ≤ now) :
    ∀ o, l.owner = some o → o.client = .member i → l.isLapsed now o = true := by
  intro o howner hclient
  obtain ⟨s, hleads⟩ := hstanding.leads hphase
  obtain ⟨g, hg, rfl⟩ := hbelated.leads reign ticker hphase
  obtain rfl : s = g := Option.some.inj (hleads.heard.hold.symm.trans hg)
  rcases hleads.owner with hsince | ⟨-, hlost⟩
  · rw [howner] at hsince
    cases hsince
    rw [OwnerLock.lapsed_iff hleads.heard.le]
    calc
      s + l.ttl.nanos < s + m.policy.tick := Nat.add_lt_add_left hlate s
      _ = Instant.ceilMillis (s + Ticker.periodOf m.policy.renewal) :=
        (Instant.ceilMillis_add hleads.millis _).symm
      _ ≤ now := hdue
  · exact absurd ⟨o, howner, hclient⟩ hlost

/-- After each of its turns it still has not renewed. -/
theorem of_course {s : Signal} {step : Controller.Step} {call : Option PendingCall}
    {episode : Option Episode}
    (hcourse : Course m.id m.policy now m.shutdown m.phase s step)
    (hbelated : Belated ts m) (hstanding : Standing l now i ts m)
    (hlate : l.ttl.nanos < m.policy.tick)
    (hheard : ∀ a, s = .answered a → ∀ k, m.call = some k → k.answer = a)
    (hafter : Standing
      (l.afterCalls now (.member i) (Turn.requests ⟨now, m.shutdown, m.phase, s, step⟩)) now i
      (⟨now, m.shutdown, m.phase, s, step⟩ :: ts) { m with phase := step.1, call, episode }) :
    Belated (⟨now, m.shutdown, m.phase, s, step⟩ :: ts)
      { m with phase := step.1, call, episode } := by
  obtain ⟨name, id, policy, conduct, phase, shutdown, episode', call'⟩ := m
  have hearlier := hbelated.unrenewed
  have hmissed (hrenewal : Turn.isRenewal ⟨now, shutdown, phase, s, step⟩ = false) :
      ∀ t ∈ (⟨now, shutdown, phase, s, step⟩ : Turn) :: ts, t.isRenewal = false :=
    List.forall_mem_cons.mpr ⟨hrenewal, hearlier⟩
  cases hcourse with
  | @win a token ticker hgrant hstart =>
      simp only [Ticker.start?, Option.ite_none_right_eq_some, Option.some.injEq] at hstart
      obtain ⟨-, rfl⟩ := hstart
      have hgranted : a.grant?.isSome = true := by rw [hgrant]; rfl
      refine ⟨hmissed rfl, ?_, by rintro _ _ ⟨⟩⟩
      rintro _ _ ⟨⟩
      exact ⟨now, lastHold?_of_hold (t := ⟨now, _, .acquiring, .answered a, _⟩)
        (Or.inl hgranted) ts, rfl⟩
  | @renew reign ticker hdue =>
      refine ⟨hmissed rfl, by rintro _ _ ⟨⟩, ?_⟩
      rintro _ _ ⟨⟩ k hk
      obtain ⟨s', k', hrenews⟩ := hafter.renews rfl
      obtain rfl : k' = k := Option.some.inj (hrenews.call.symm.trans hk)
      rcases hrenews.owner with ⟨-, howner⟩ | ⟨hrefused, -⟩
      · have hlost := OwnerLock.not_isOwnedBy_renew (hbelated.lapsed hstanding hlate rfl hdue)
        exact absurd ⟨_, howner, rfl⟩ hlost
      · exact hrefused
  | @keep reign ticker a hanswer =>
      obtain ⟨s', k, hrenews⟩ := hstanding.renews rfl
      have hrefused := hbelated.renews reign ticker rfl k hrenews.call
      rw [hheard a rfl k hrenews.call] at hrefused
      exact absurd hanswer hrefused
  | @lose reign ticker a reason hanswer =>
      have hrenewal : a.refusal?.isNone = false := by rw [hanswer]; rfl
      exact of_phase (hmissed hrenewal) (by rintro _ _ ⟨⟩) (by rintro _ _ ⟨⟩)
  | quit => exact of_phase (hmissed (by cases phase <;> rfl)) (by rintro _ _ ⟨⟩) (by rintro _ _ ⟨⟩)
  | _ => exact of_phase (hmissed rfl) (by rintro _ _ ⟨⟩) (by rintro _ _ ⟨⟩)

end Belated

namespace Cluster

variable {c c' : Cluster (LeaseTable Party)} {h e : Chronicle} {l : OwnerLock Party}
variable {name : String} {ttl : Span} {traced : Bool} {i j : Nat} {m m' : Member}

/-- A controller whose tick does not fit into the lease never renews it. -/
theorem Run.belated (run : Run Virtual (empty (LeaseTable.new name ttl) traced) h c)
    (hticker : ∀ m ∈ c.members, c.Representable m) (hm : c.members[i]? = some m)
    (hlate : ttl.nanos < m.policy.tick) : Belated (h.turnsOf i) m := by
  induction run generalizing m with
  | start => simp [empty] at hm
  | @step h e c c' run hstep hall =>
      have hearlier := (hstep.mono Virtual.isOpen).representable hticker
      cases hstep with
      | @turn j m₀ s hm₀ hgoes =>
          by_cases hij : j = i
          · subst hij
            obtain ⟨l, rfl, htenancy⟩ := run.tenancy hearlier
            rw [member_resume hm₀ s] at hm
            cases hm
            have hturned := htenancy.turn hm₀ hgoes (hearlier _ (List.mem_of_getElem? hm₀))
            have hafter := hturned.standing j _ (member_resume hm₀ s)
            rw [(resume_frame hm₀ s).1] at hafter
            rw [List.singleton_append, Chronicle.turnsOf_cons_self] at *
            exact (hall hearlier hm₀ hlate).of_course
              (Controller.course_of_due hgoes.due m₀.id m₀.policy) (htenancy.standing j m₀ hm₀)
              hlate (fun a ha k hcall => GoesOn.answer (ha ▸ hgoes) hcall) hafter
          · rw [member_resume_of_ne hm₀ s hij] at hm
            rw [List.singleton_append, Chronicle.turnsOf_cons_of_ne hij]
            exact hall hearlier hm hlate
      | enroll hphase =>
          rcases member_enroll hm with hm | ⟨rfl, rfl⟩
          · exact hall hearlier hm hlate
          · have hnone := (run.mono Virtual.isOpen).chronicled.absent _ (Nat.le_refl _)
            rw [List.nil_append, hnone]
            exact .of_phase (fun t ht => absurd ht List.not_mem_nil)
              (by simp [hphase]) (by simp [hphase])
      | dismiss j =>
          obtain ⟨m₀, hm₀, rfl⟩ := member_dismiss hm
          have hsame : Belated (h.turnsOf i) m₀ := by
            apply hall hearlier hm₀
            split at hlate <;> exact hlate
          split <;> exact hsame.congr rfl rfl rfl
      | world hvirtual =>
          refine hall hearlier ?_ hlate
          cases hvirtual <;> exact hm

/-- That all controllers took their pace from usable configurations of one lease. -/
def Configured (lease : Span) (c : Cluster (LeaseTable Party)) : Prop :=
  ∀ m ∈ c.members, ∃ (cfg : Config) (entropy : WordStream),
    cfg.lease = lease ∧ Policy.ofConfig cfg entropy = .ok m.policy

theorem Configured.of_forall_eq {cfg : Config} {entropy : WordStream} {p : Policy}
    (hpolicy : Policy.ofConfig cfg entropy = .ok p) (hall : ∀ m ∈ c.members, m.policy = p) :
    c.Configured cfg.lease :=
  fun m hm => ⟨cfg, entropy, rfl, hall m hm ▸ hpolicy⟩

/-- That whoever leads does so until told to stop, and alone. -/
structure Retains (c : Cluster (LeaseTable Party)) : Prop where
  keeps : ∀ (i : Nat) (m : Member) (e : Chronicle) (c' : Cluster (LeaseTable Party)) (t : Turn),
    c.members[i]? = some m → Step Virtual c e c' → (i, t) ∈ e →
      t.before.state = .leading → t.after.state ≠ .leading → m.shutdown = true
  alone : ∀ (i j : Nat) (m m' : Member), c.members[i]? = some m → c.members[j]? = some m' →
    m.state = .leading → m'.state = .leading → i = j

theorem Tenancy.retains (htenancy : Tenancy h c l)
    (hticks : ∀ m ∈ c.members, m.policy.tick ≤ l.ttl.nanos) : c.Retains where
  keeps i m e c' t hm hstep :=
    htenancy.shutdown_of_leaving hm (hticks m (List.mem_of_getElem? hm)) hstep
  alone i j m m' hm hm' hleading hleading' := by
    obtain ⟨s, howner, -⟩ := htenancy.owner_of_leading hm hleading
      (hticks m (List.mem_of_getElem? hm))
    obtain ⟨s', howner', -⟩ := htenancy.owner_of_leading hm' hleading'
      (hticks m' (List.mem_of_getElem? hm'))
    rw [howner] at howner'
    exact Party.member.inj (congrArg Ownership.client (Option.some.inj howner'))

/-- Of two leaders at least one has a tick that does not fit into the lease. -/
theorem Tenancy.late_of_rivals (htenancy : Tenancy h c l) (hij : i ≠ j)
    (hm : c.members[i]? = some m) (hm' : c.members[j]? = some m') (hleading : m.state = .leading)
    (hleading' : m'.state = .leading) :
    l.ttl.nanos < m.policy.tick ∨ l.ttl.nanos < m'.policy.tick := by
  obtain ⟨g, g', s, hg, hg', hs, hlate⟩ :=
    htenancy.late_of_granted_before hij hm hm' hleading hleading'
  obtain ⟨g₂, g₁, s', hg₂, hg₁, hs', hlate'⟩ :=
    htenancy.late_of_granted_before hij.symm hm' hm hleading' hleading
  obtain rfl : g₁ = g := Option.some.inj (hg₁.symm.trans hg)
  obtain rfl : g₂ = g' := Option.some.inj (hg₂.symm.trans hg')
  obtain ⟨u, hu, -, htick⟩ := htenancy.heard_within_tick hm hleading
  obtain ⟨u', hu', -, htick'⟩ := htenancy.heard_within_tick hm' hleading'
  obtain rfl : u = s := Option.some.inj (hu.symm.trans hs)
  obtain rfl : u' = s' := Option.some.inj (hu'.symm.trans hs')
  rcases Nat.le_total g₁ g₂ with hle | hle
  · have hover := hlate hle
    omega
  · have hover := hlate' hle
    omega

/-- Whatever the usable configurations of the lease that the table grants, whenever the
controllers start and are told to stop, and in whatever order they go on at one instant: if
the lease is a whole number of milliseconds, whoever leads does so until told to stop, and
alone.  In any lease, who leaves off leading without being told to has a tick that does not
fit into it, and so has one of any two leaders.  Who has such a tick never renews, and leads
for one tick from its grant at most; in a lease of less than a millisecond all have. -/
theorem retains_of_configured
    (run : Run Virtual (empty (LeaseTable.new name ttl) traced) h c)
    (hconfigured : c.Configured ttl) (hticker : ∀ m ∈ c.members, c.Representable m) :
    (1000000 ∣ ttl.nanos → c.Retains) ∧
    (∀ (i : Nat) (m : Member) (e : Chronicle) (c' : Cluster (LeaseTable Party)) (t : Turn),
      c.members[i]? = some m → Step Virtual c e c' → (i, t) ∈ e →
        t.before.state = .leading → t.after.state ≠ .leading → m.shutdown = false →
          ttl.nanos < m.policy.tick) ∧
    (∀ (i j : Nat) (m m' : Member), i ≠ j → c.members[i]? = some m → c.members[j]? = some m' →
      m.state = .leading → m'.state = .leading →
        ttl.nanos < m.policy.tick ∨ ttl.nanos < m'.policy.tick) ∧
    (∀ (i : Nat) (m : Member), c.members[i]? = some m → ttl.nanos < m.policy.tick →
      (∀ t ∈ h.turnsOf i, t.isRenewal = false) ∧
        (m.state = .leading →
          ∃ g, lastGrant? (h.turnsOf i) = some g ∧ c.now ≤ g + m.policy.tick)) ∧
    (ttl.nanos < 1000000 → ∀ m ∈ c.members, ttl.nanos < m.policy.tick) := by
  have hbelated {i : Nat} {m : Member} (hm : c.members[i]? = some m) :=
    run.belated hticker hm
  obtain ⟨l, rfl, htenancy⟩ := run.tenancy hticker
  refine ⟨fun hmillis => htenancy.retains fun m hm => ?_, ?_, ?_, ?_, ?_⟩
  · obtain ⟨cfg, entropy, hlease, hpolicy⟩ := hconfigured m hm
    rw [← hlease] at hmillis ⊢
    exact Policy.tick_le_lease hpolicy hmillis
  · intro i m e c' t hm hstep ht hbefore hafter hgoes
    by_contra htick
    have hshutdown := htenancy.shutdown_of_leaving hm (Nat.le_of_not_lt htick) hstep ht hbefore
      hafter
    rw [hgoes] at hshutdown
    cases hshutdown
  · exact fun i j m m' => htenancy.late_of_rivals
  · intro i m hm hlate
    have hunrenewed := (hbelated hm hlate).unrenewed
    refine ⟨hunrenewed, fun hleading => ?_⟩
    obtain ⟨g, hg, -, htick⟩ := htenancy.heard_within_tick hm hleading
    exact ⟨g, (Controller.lastHold?_of_unrenewed hunrenewed).symm.trans hg, htick⟩
  · exact fun hshort m _ => hshort.trans_le m.policy.millis_le_tick

/-- In a lease of ten milliseconds a leader renews. -/
theorem retains_of_configured_of_renewal :
    ∃ (h : Chronicle) (c : Cluster (LeaseTable Party)) (m : Member),
      Run Virtual (empty (LeaseTable.new "lock" (.ofMillis 10)) false) h c ∧
        c.members = [m] ∧ m.policy = ⟨.ofMillis 7, .ofMillis 11, .zero⟩ ∧ m.state = .leading ∧
        lastHold? (h.turnsOf 0) = some 7000000 ∧ c.Retains := by
  let cfg : Config := { lease := .ofMillis 10, maxJitter := .zero }
  let table : LeaseTable Party := .new "lock" cfg.lease
  let m : Member :=
    { name := "first", id := ⟨"first"⟩, policy := ⟨.ofMillis 7, .ofMillis 11, .zero⟩,
      conduct := .prompt }
  let leader (phase : Phase) : Member := { m with phase, episode := some ⟨⟨"lock-1"⟩, 0, 0⟩ }
  have enrolled : Run Virtual (empty table false) [] ((empty table false).enroll m) :=
    .step .start (.enroll _ rfl rfl rfl)
  have begun := enrolled.step (.turn (i := 0) (m := m) (s := .begun)
    (by decide) (.signalled (by decide)))
  have asked := begun.step (.turn (i := 0) (m := { m with phase := .starting 0 })
    (s := .elapsed) (by decide) (.signalled (by decide)))
  have granted := asked.step (.turn (i := 0) (s := .answered (.granted ⟨"lock-1"⟩))
    rfl (.signalled (by decide)))
  have later := granted.step (.world (.pass _ 7000000
    (by decide) (by decide) (by decide) (by decide)))
  have renewing := later.step (.turn (i := 0)
    (m := leader (.leading ⟨⟨"lock-1"⟩, 0⟩ ⟨7000000, 7000000⟩))
    (s := .elapsed) (by decide) (.signalled (by decide)))
  have renewed := renewing.step (.turn (i := 0)
    (m := { leader (.renewing ⟨⟨"lock-1"⟩, 0⟩ ⟨14000000, 7000000⟩) with
      call := some ⟨.renew, 7000000, 7000000, .done⟩ })
    (s := .answered .done) (by decide) (.signalled (by decide)))
  have hpolicy : Policy.ofConfig cfg (fun _ => 0) =
      .ok ⟨.ofMillis 7, .ofMillis 11, .zero⟩ := by decide +kernel
  have hall := retains_of_configured renewed (.of_forall_eq hpolicy (by decide))
    (by unfold Representable; decide)
  exact ⟨_, _, leader (.leading ⟨⟨"lock-1"⟩, 0⟩ ⟨14000000, 7000000⟩), renewed, by decide, rfl,
    rfl, by decide, hall.1 (by decide)⟩

/-- A lease of one nanosecond is usable, but its renewals come no sooner than it ends, and
in fact a millisecond after the grant.  By then another controller was granted the lease,
so that there are two leaders, and the first leaves off without being told to. -/
theorem exists_rivals_of_nanosecond :
    ∃ (cfg : Config) (entropy : WordStream) (p : Policy) (h : Chronicle)
      (c c' : Cluster (LeaseTable Party)) (m m' : Member) (t : Turn),
      cfg = { lease := .ofNanos 1, maxJitter := .zero } ∧
        Policy.ofConfig cfg entropy = .ok p ∧ p.brackets cfg.lease = false ∧
        Run Virtual (empty (LeaseTable.new "leader" cfg.lease) false) h c ∧
        c.members = [m, m'] ∧ (∀ k ∈ c.members, k.policy = p ∧ c.Representable k) ∧
        m.state = .leading ∧ m'.state = .leading ∧ m.shutdown = false ∧
        Step Virtual c [(0, t)] c' ∧ t.before.state = .leading ∧ t.after.state = .waiting := by
  let cfg : Config := { lease := .ofNanos 1, maxJitter := .zero }
  let p : Policy := ⟨.ofNanos 1, .ofNanos 1, .zero⟩
  let table : LeaseTable Party := .new "leader" cfg.lease
  let m : Member := { name := "id-1", id := ⟨"id-1"⟩, policy := p, conduct := .prompt }
  let m' : Member := { m with name := "id-2", id := ⟨"id-2"⟩ }
  let leader (phase : Phase) : Member := { m with phase, episode := some ⟨⟨"leader-1"⟩, 0, 0⟩ }
  let rival (phase : Phase) : Member :=
    { m' with phase, episode := some ⟨⟨"leader-2"⟩, 1000000, 1⟩ }
  have enrolled : Run Virtual (empty table false) [] (((empty table false).enroll m).enroll m') :=
    .step (.step .start (.enroll _ rfl rfl rfl)) (.enroll _ rfl rfl rfl)
  have begun := enrolled.step (.turn (i := 0) (m := m) (s := .begun)
    (by decide) (.signalled (by decide)))
  have asked := begun.step (.turn (i := 0) (m := { m with phase := .starting 0 })
    (s := .elapsed) (by decide) (.signalled (by decide)))
  have granted := asked.step (.turn (i := 0) (s := .answered (.granted ⟨"leader-1"⟩))
    rfl (.signalled (by decide)))
  have begun' := granted.step (.turn (i := 1) (m := m') (s := .begun)
    (by decide) (.signalled (by decide)))
  have asked' := begun'.step (.turn (i := 1) (m := { m' with phase := .starting 0 })
    (s := .elapsed) (by decide) (.signalled (by decide)))
  have denied := asked'.step (.turn (i := 1)
    (m := { m' with phase := .acquiring, call := some ⟨.acquire m'.id, 0, 0, .denied⟩ })
    (s := .answered .denied) (by decide) (.signalled (by decide)))
  have later := denied.step (.world (.pass _ 1000000
    (by decide) (by decide) (by decide) (by decide)))
  have asking := later.step (.turn (i := 1) (m := { m' with phase := .retrying 1000000 })
    (s := .elapsed) (by decide) (.signalled (by decide)))
  have granted' := asking.step (.turn (i := 1)
    (m := { m' with
      phase := .acquiring
      call := some ⟨.acquire m'.id, 1000000, 1000000, .granted ⟨"leader-2"⟩⟩ })
    (s := .answered (.granted ⟨"leader-2"⟩)) (by decide) (.signalled (by decide)))
  have renewing := granted'.step (.turn (i := 0)
    (m := leader (.leading ⟨⟨"leader-1"⟩, 0⟩ ⟨1000000, 1000000⟩))
    (s := .elapsed) (by decide) (.signalled (by decide)))
  have hpolicy : Policy.ofConfig cfg (fun _ => 0) = .ok p := by decide +kernel
  let refused : Member :=
    { leader (.renewing ⟨⟨"leader-1"⟩, 0⟩ ⟨2000000, 1000000⟩) with
      call := some ⟨.renew, 1000000, 1000000, .refused .notHeld⟩ }
  exact ⟨cfg, _, p, _, _, _, refused, rival (.leading ⟨⟨"leader-2"⟩, 1000000⟩ ⟨2000000, 1000000⟩),
    _, rfl, hpolicy, by decide, renewing, by decide, by unfold Representable; decide, rfl, rfl, rfl,
    .turn (i := 0) (m := refused) (s := .answered (.refused .notHeld)) (by decide)
      (.signalled (by decide)), rfl, rfl⟩

end Cluster

end LeaseElection
