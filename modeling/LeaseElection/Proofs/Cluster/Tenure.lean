import LeaseElection.Proofs.Cluster.Runs
import LeaseElection.Proofs.Controller.Patience
import LeaseElection.Proofs.Lease.Ownership

/-!
# Controllers of one lease table

Where controllers share one lease table and nobody else calls it, every controller
stands in some relation to the lock that the table behaves as: a leader owns it since
its last renewal, or has gone too long without one.  This module states that relation
and proves that it outlasts every turn, be it one's own or that of another.
-/

namespace LeaseElection

open Controller (Phase Signal Action Turn Course Ticker)

/-- The longest time between renewals: timers go off at whole milliseconds. -/
def Policy.tick (p : Policy) : Nat := Instant.ceilMillis (Ticker.periodOf p.renewal)

namespace Controller

/-- When a controller last heard of a grant. -/
def lastGrant? (ts : List Turn) : Option Nat :=
  (ts.find? fun t => t.grant?.isSome).map Turn.time

/-- When a controller last heard of a grant or of a renewal that went through. -/
def lastHold? (ts : List Turn) : Option Nat :=
  (ts.find? fun t => t.grant?.isSome || t.isRenewal).map Turn.time

theorem lastGrant?_of_grant {t : Turn} (hgrant : t.grant?.isSome = true) (ts : List Turn) :
    lastGrant? (t :: ts) = some t.time := by
  simp [lastGrant?, hgrant]

theorem lastGrant?_of_none {t : Turn} (hgrant : t.grant? = none) (ts : List Turn) :
    lastGrant? (t :: ts) = lastGrant? ts := by
  simp [lastGrant?, hgrant]

theorem lastHold?_of_hold {t : Turn} (hhold : t.grant?.isSome = true ∨ t.isRenewal = true)
    (ts : List Turn) : lastHold? (t :: ts) = some t.time := by
  rcases hhold with hgrant | hrenewal
  · simp [lastHold?, hgrant]
  · simp [lastHold?, hrenewal]

theorem lastHold?_of_none {t : Turn} (hgrant : t.grant? = none) (hrenewal : t.isRenewal = false)
    (ts : List Turn) : lastHold? (t :: ts) = lastHold? ts := by
  simp [lastHold?, hgrant, hrenewal]

end Controller

open Controller (lastGrant? lastHold? lastGrant?_of_grant lastGrant?_of_none
  lastHold?_of_hold lastHold?_of_none)

namespace OwnerLock

variable {κ : Type} {l l' : OwnerLock κ} {now : Nat} {client k : κ}

/-- Whether a client owns the lock. -/
def IsOwnedBy (l : OwnerLock κ) (client : κ) : Prop :=
  ∃ o, l.owner = some o ∧ o.client = client

/-- No token is empty. -/
theorem grant?_token (l : OwnerLock κ) (n : Nat) :
    (Answer.granted (l.token n)).grant? = some (l.token n) := by
  have htoken : (l.token n).isEmpty = false := by
    simp [token, LockToken.isEmpty]
  exact Answer.grant?_eq_some_iff.mpr ⟨rfl, htoken⟩

theorem lapsed_iff {o : Ownership κ} (hsince : o.since ≤ now) :
    l.isLapsed now o = true ↔ o.since + l.ttl.nanos < now := by
  rw [isLapsed, decide_eq_true_iff]
  omega

/-- That another lock is the same to a client, or that it is no longer the client's,
who had lapsed if it was. -/
def SameOrLost (now : Nat) (k : κ) (l l' : OwnerLock κ) : Prop :=
  l' = l ∨ l'.ttl = l.ttl ∧ ¬l'.IsOwnedBy k ∧
    ∀ o, l.owner = some o → o.client = k → l.isLapsed now o = true

/-- What is done to the lock of one client does not matter to another. -/
theorem SameOrLost.of_owner {o : Ownership κ} (howner : l.owner = some o) (hother : o.client ≠ k)
    (httl : l'.ttl = l.ttl) (hlost : ¬l'.IsOwnedBy k) : SameOrLost now k l l' := by
  refine Or.inr ⟨httl, hlost, ?_⟩
  rintro o' ho' hk
  rw [howner] at ho'
  cases ho'
  exact absurd hk hother

/-- To ask for the lock is to be granted it, where no one owns it or the owner has
lapsed, or to be denied it. -/
theorem acquire_cases (l : OwnerLock κ) (now : Nat) (client : κ) (caller : ControllerId) :
    (l.acquire now client caller =
        (.granted (l.token (l.grants + 1)), l.grant now client caller) ∧
      ∀ o, l.owner = some o → l.isLapsed now o = true) ∨
    l.acquire now client caller = (.denied, l) := by
  by_cases hfree : l.owner.all (l.isLapsed now) = true
  · refine Or.inl ⟨if_pos hfree, fun o howner => ?_⟩
    rwa [howner, Option.all_some] at hfree
  · exact Or.inr (if_neg hfree)

theorem sameOrLost_acquire (l : OwnerLock κ) (now : Nat) (caller : ControllerId)
    (hk : client ≠ k) : SameOrLost now k l (l.acquire now client caller).2 := by
  rcases l.acquire_cases now client caller with ⟨hgranted, hlapsed⟩ | hdenied
  · rw [hgranted]
    refine Or.inr ⟨rfl, ?_, fun o ho _ => hlapsed o ho⟩
    rintro ⟨o, ho, hclient⟩
    cases ho
    exact hk hclient
  · rw [hdenied]
    exact Or.inl rfl

variable [DecidableEq κ]

/-- The owner renews unless it has lapsed; nobody else does. -/
theorem renew_cases (l : OwnerLock κ) (now : Nat) (client : κ) :
    (∃ o, l.owner = some o ∧ o.client = client ∧
      (l.isLapsed now o = false ∧ l.renew now client = (.done, l.extend now o) ∨
        l.isLapsed now o = true ∧ l.renew now client = (.refused .expired, l.free))) ∨
    ¬l.IsOwnedBy client ∧ l.renew now client = (.refused .notHeld, l) := by
  cases howner : l.owner.filter (·.client = client) with
  | none =>
      refine Or.inr ⟨?_, by rw [renew, howner]⟩
      rintro ⟨o, ho, hclient⟩
      rw [ho, Option.filter_some_pos (by simp [hclient])] at howner
      cases howner
  | some o =>
      obtain ⟨ho, hclient⟩ := Option.filter_eq_some_iff.mp howner
      refine Or.inl ⟨o, ho, by simpa using hclient, ?_⟩
      cases hlapsed : l.isLapsed now o with
      | true => exact Or.inr ⟨rfl, by simp [renew, howner, hlapsed]⟩
      | false => exact Or.inl ⟨rfl, by simp [renew, howner, hlapsed]⟩

theorem sameOrLost_renew (l : OwnerLock κ) (now : Nat) (hk : client ≠ k) :
    SameOrLost now k l (l.renew now client).2 := by
  rcases l.renew_cases now client with
    ⟨o, ho, rfl, ⟨-, hdone⟩ | ⟨-, hexpired⟩⟩ | ⟨-, hnone⟩
  · rw [hdone]
    refine .of_owner ho hk rfl ?_
    rintro ⟨o', ho', hclient⟩
    cases ho'
    exact hk hclient
  · rw [hexpired]
    refine .of_owner ho hk rfl ?_
    rintro ⟨o', ho', -⟩
    cases ho'
  · rw [hnone]
    exact Or.inl rfl

end OwnerLock

/-- What a controller knows of its hold on the lease: it heard of a grant, and of the
last renewal since at `s`. -/
structure HeardAt (ts : List Turn) (now s : Nat) : Prop where
  hold : lastHold? ts = some s
  le : s ≤ now
  grant : ∃ g ≤ s, lastGrant? ts = some g

/-- A turn in which nothing is heard of the lease. -/
theorem HeardAt.cons {ts : List Turn} {now s : Nat} {t : Turn} (hheard : HeardAt ts now s)
    (hgrant : t.grant? = none) (hrenewal : t.isRenewal = false) :
    HeardAt (t :: ts) now s := by
  obtain ⟨hhold, hle, g, hg, hgranted⟩ := hheard
  exact ⟨(lastHold?_of_none hgrant hrenewal ts).trans hhold, hle, g, hg,
    (lastGrant?_of_none hgrant ts).trans hgranted⟩

/-- A leader between two renewals, which last heard of its hold at `s`: it owns the lock
since then, or it does not and its time is over. -/
structure Leads (l : OwnerLock Party) (now i : Nat) (ts : List Turn) (m : Member)
    (ticker : Ticker) (s : Nat) : Prop where
  heard : HeardAt ts now s
  millis : 1000000 ∣ s
  period : ticker.period = Ticker.periodOf m.policy.renewal
  deadline : ticker.deadline ≤ s + ticker.period
  wake : now ≤ ticker.wake
  owner : l.owner = some ⟨.member i, m.id, s⟩ ∨
    s + l.ttl.nanos < now ∧ ¬l.IsOwnedBy (.member i)

/-- A leader in a call to renew, the answer to which is there already. -/
structure Renews (l : OwnerLock Party) (now i : Nat) (ts : List Turn) (m : Member)
    (ticker : Ticker) (s : Nat) (k : PendingCall) : Prop where
  heard : HeardAt ts now s
  tick : now ≤ s + m.policy.tick
  period : ticker.period = Ticker.periodOf m.policy.renewal
  deadline : ticker.deadline ≤ now + ticker.period
  wake : now ≤ ticker.wake
  call : m.call = some k
  due : k.due = now
  owner : k.answer.refusal? = none ∧ l.owner = some ⟨.member i, m.id, now⟩ ∨
    k.answer.refusal? ≠ none ∧ s + l.ttl.nanos < now ∧ ¬l.IsOwnedBy (.member i)

/-- A controller in a call to acquire, the answer to which is there already. -/
structure Acquires (l : OwnerLock Party) (now i : Nat) (m : Member) (k : PendingCall) :
    Prop where
  call : m.call = some k
  due : k.due = now
  owner : k.answer = .granted (l.token l.grants) ∧ l.owner = some ⟨.member i, m.id, now⟩ ∨
    k.answer.grant? = none ∧ ¬l.IsOwnedBy (.member i)

/-- How controller `i` stands to the lock at `now`.  One that is neither in a call nor
leading does not own it, unless its shutdown fired. -/
def Standing (l : OwnerLock Party) (now i : Nat) (ts : List Turn) (m : Member) : Prop :=
  match m.phase with
  | .leading _ ticker => ∃ s, Leads l now i ts m ticker s
  | .renewing _ ticker => ∃ s k, Renews l now i ts m ticker s k
  | .acquiring => ∃ k, Acquires l now i m k
  | .failed => False
  | _ => m.shutdown = false → ¬l.IsOwnedBy (.member i)

namespace Standing

variable {l l' : OwnerLock Party} {now i : Nat} {ts : List Turn} {m m' : Member}
variable {reign : Controller.Reign} {ticker : Ticker} {k : PendingCall} {t : Turn}

theorem leads (hstanding : Standing l now i ts m) (hphase : m.phase = .leading reign ticker) :
    ∃ s, Leads l now i ts m ticker s := by
  rwa [Standing, hphase] at hstanding

theorem renews (hstanding : Standing l now i ts m) (hphase : m.phase = .renewing reign ticker) :
    ∃ s k, Renews l now i ts m ticker s k := by
  rwa [Standing, hphase] at hstanding

theorem acquires (hstanding : Standing l now i ts m) (hphase : m.phase = .acquiring) :
    ∃ k, Acquires l now i m k := by
  rwa [Standing, hphase] at hstanding

/-- What others do to the lock leaves a controller standing. -/
theorem of_sameOrLost (hstanding : Standing l now i ts m)
    (hother : OwnerLock.SameOrLost now (.member i) l l') : Standing l' now i ts m := by
  rcases hother with rfl | ⟨httl, hlost, hlapsed⟩
  · exact hstanding
  have hlate {s : Nat} (hs : s ≤ now) (howner : l.owner = some ⟨.member i, m.id, s⟩) :
      s + l'.ttl.nanos < now := by
    rw [httl]
    exact (OwnerLock.lapsed_iff hs).mp (hlapsed _ howner rfl)
  unfold Standing at hstanding ⊢
  split at hstanding
  · obtain ⟨s, hleads⟩ := hstanding
    refine ⟨s, { hleads with owner := Or.inr ⟨?_, hlost⟩ }⟩
    rcases hleads.owner with howner | ⟨hlapse, -⟩
    · exact hlate hleads.heard.le howner
    · rwa [httl]
  · obtain ⟨s, k, hrenews⟩ := hstanding
    refine ⟨s, k, { hrenews with owner := ?_ }⟩
    rcases hrenews.owner with ⟨-, howner⟩ | ⟨hrefused, hlapse, -⟩
    · have hnever := hlate (Nat.le_refl _) howner
      omega
    · exact Or.inr ⟨hrefused, httl ▸ hlapse, hlost⟩
  · obtain ⟨k, hacquires⟩ := hstanding
    refine ⟨k, { hacquires with owner := ?_ }⟩
    rcases hacquires.owner with ⟨-, howner⟩ | ⟨hdenied, -⟩
    · have hnever := hlate (Nat.le_refl _) howner
      omega
    · exact Or.inr ⟨hdenied, hlost⟩
  · exact hstanding
  · exact fun _ => hlost

/-- A controller that did not own the lock knows, once it asked, whether it does. -/
theorem of_acquire (hidle : ¬l.IsOwnedBy (.member i)) (hphase : m.phase = .acquiring)
    (hcall : m.call = some k) (hdue : k.due = now)
    (hanswer : k.answer = (l.acquire now (.member i) m.id).1) :
    Standing (l.acquire now (.member i) m.id).2 now i ts m := by
  rw [Standing, hphase]
  refine ⟨k, hcall, hdue, ?_⟩
  rcases l.acquire_cases now (.member i) m.id with ⟨hgranted, -⟩ | hdenied
  · rw [hgranted] at hanswer ⊢
    exact Or.inl ⟨hanswer, rfl⟩
  · rw [hdenied] at hanswer ⊢
    exact Or.inr ⟨by rw [hanswer]; rfl, hidle⟩

/-- A controller that was granted the lock owns it when its reign begins. -/
theorem of_win (howner : l.owner = some ⟨.member i, m.id, now⟩)
    (hphase : m.phase = .leading reign ticker) (hgrant : t.grant?.isSome = true)
    (htime : t.time = now) (hmillis : 1000000 ∣ now)
    (hticker : Ticker.start? now m.policy.renewal = some ticker) :
    Standing l now i (t :: ts) m := by
  simp only [Ticker.start?, Option.ite_none_right_eq_some, Option.some.injEq] at hticker
  obtain ⟨-, rfl⟩ := hticker
  have hheard : HeardAt (t :: ts) now now := by
    refine ⟨?_, Nat.le_refl _, now, Nat.le_refl _, ?_⟩
    · rw [lastHold?_of_hold (Or.inl hgrant), htime]
    · rw [lastGrant?_of_grant hgrant, htime]
  have hwake : now ≤ Instant.ceilMillis (now + Ticker.periodOf m.policy.renewal) := by
    calc
      now ≤ now + Ticker.periodOf m.policy.renewal := Nat.le_add_right _ _
      _ ≤ Instant.ceilMillis (now + Ticker.periodOf m.policy.renewal) := Instant.le_ceilMillis _
  rw [Standing, hphase]
  exact ⟨now, hheard, hmillis, rfl, Nat.le_refl _, hwake, Or.inl howner⟩

/-- A ticker that goes off in time goes on from its deadline, not from the present. -/
theorem advance_frame {renewal : Span} (hperiod : ticker.period = Ticker.periodOf renewal)
    (hwoken : now = ticker.wake) :
    (ticker.advance now).period = ticker.period ∧
      (ticker.advance now).deadline ≤ now + (ticker.advance now).period ∧
      now ≤ (ticker.advance now).wake := by
  have hmin : 1000000 ≤ ticker.period := by
    rw [hperiod]
    exact Ticker.le_periodOf _
  obtain ⟨hintime, hlater⟩ := Ticker.advance_of_wake hmin
  rw [hwoken]
  refine ⟨by rw [hintime], ?_, hlater.le⟩
  rw [hintime]
  exact Nat.add_le_add_right (Instant.le_ceilMillis _) _

/-- A leader whose timer went off owns the lock from now on, or learns that it lost it. -/
theorem of_renew {s : Nat} (hleads : Leads l now i ts m ticker s) (hid : m'.id = m.id)
    (hpolicy : m'.policy = m.policy) (hdue : ticker.wake ≤ now) (hgrant : t.grant? = none)
    (hrenewal : t.isRenewal = false) (hphase : m'.phase = .renewing reign (ticker.advance now))
    (hcall : m'.call = some k) (hnow : k.due = now)
    (hanswer : k.answer = (l.renew now (.member i)).1) :
    Standing (l.renew now (.member i)).2 now i (t :: ts) m' := by
  have hwoken : now = ticker.wake := Nat.le_antisymm hleads.wake hdue
  obtain ⟨hperiod, hdeadline, hwake⟩ := advance_frame hleads.period hwoken
  have htick : now ≤ s + m'.policy.tick := by
    calc
      now = Instant.ceilMillis ticker.deadline := hwoken
      _ ≤ s + Instant.ceilMillis ticker.period :=
        Instant.ceilMillis_le_add hleads.millis hleads.deadline
      _ = s + m'.policy.tick := by rw [hpolicy, Policy.tick, hleads.period]
  have howner : k.answer.refusal? = none ∧
        (l.renew now (.member i)).2.owner = some ⟨.member i, m'.id, now⟩ ∨
      k.answer.refusal? ≠ none ∧ s + (l.renew now (.member i)).2.ttl.nanos < now ∧
        ¬(l.renew now (.member i)).2.IsOwnedBy (.member i) := by
    rw [hanswer, hid]
    rcases hleads.owner with howner | ⟨hlapse, hlost⟩
    · rcases l.renew_cases now (.member i) with
        ⟨o, ho, -, ⟨-, hdone⟩ | ⟨hlapsed, hexpired⟩⟩ | ⟨hlost, -⟩
      · rw [howner] at ho
        cases ho
        rw [hdone]
        exact Or.inl ⟨rfl, rfl⟩
      · rw [howner] at ho
        cases ho
        rw [hexpired]
        refine Or.inr ⟨Option.some_ne_none _, ?_, ?_⟩
        · exact (OwnerLock.lapsed_iff hleads.heard.le).mp hlapsed
        · rintro ⟨o, ho, -⟩
          cases ho
      · exact absurd ⟨_, howner, rfl⟩ hlost
    · rcases l.renew_cases now (.member i) with ⟨o, ho, hclient, -⟩ | ⟨-, hnone⟩
      · exact absurd ⟨o, ho, hclient⟩ hlost
      · rw [hnone]
        exact Or.inr ⟨Option.some_ne_none _, hlapse, hlost⟩
  rw [Standing, hphase]
  exact ⟨s, k, hleads.heard.cons hgrant hrenewal, htick, hperiod.trans (hpolicy ▸ hleads.period),
    hdeadline, hwake, hcall, hnow, howner⟩

/-- A leader that hears of its renewal holds the lock since now. -/
theorem of_keep {s : Nat} (hrenews : Renews l now i ts m ticker s k) (hid : m'.id = m.id)
    (hpolicy : m'.policy = m.policy) (hanswer : k.answer.refusal? = none)
    (hgrant : t.grant? = none) (hrenewal : t.isRenewal = true) (htime : t.time = now)
    (hmillis : 1000000 ∣ now) (hphase : m'.phase = .leading reign ticker) :
    Standing l now i (t :: ts) m' := by
  have howner : l.owner = some ⟨.member i, m'.id, now⟩ := by
    rw [hid]
    rcases hrenews.owner with ⟨-, howner⟩ | ⟨hrefused, -⟩
    · exact howner
    · exact absurd hanswer hrefused
  obtain ⟨-, hle, g, hg, hgranted⟩ := hrenews.heard
  have hheard : HeardAt (t :: ts) now now := by
    refine ⟨?_, Nat.le_refl _, g, hg.trans hle, ?_⟩
    · rw [lastHold?_of_hold (Or.inr hrenewal), htime]
    · rw [lastGrant?_of_none hgrant, hgranted]
  rw [Standing, hphase]
  exact ⟨now, hheard, hmillis, hpolicy ▸ hrenews.period, hrenews.deadline, hrenews.wake,
    Or.inl howner⟩

end Standing

/-- The lock once a client made some calls. -/
def OwnerLock.afterCalls {κ : Type} [DecidableEq κ] (l : OwnerLock κ) (now : Nat) (client : κ)
    (requests : List Request) : OwnerLock κ :=
  requests.foldl (fun l r => (l.call now client r).2) l

section Turns

variable {l : OwnerLock Party} {now i : Nat} {ts : List Turn} {m m' : Member} {t : Turn}
variable {table table' : LeaseTable Party} {call : Option PendingCall}

/-- A call to the table is answered at once. -/
theorem ask_leaseTable (table : LeaseTable Party) (now i : Nat) (r : Request) :
    Reach.ask now i (table, none) r =
      ((table.call now (.member i) r).2.1,
        some ⟨r, now, now, (table.call now (.member i) r).1⟩) :=
  rfl

/-- That controller `i` stands as it should to the lock that its calls leave, and that the
table behaves as this lock does. -/
def StandsAfter (l : OwnerLock Party) (now i : Nat) (ts : List Turn) (m : Member)
    (table : LeaseTable Party) (requests : List Request) : Prop :=
  let l' := l.afterCalls now (.member i) requests
  table.Realizes l' ∧ Standing l' now i ts m

theorem standsAfter_acquire (hreal : table.Realizes l) (hidle : ¬l.IsOwnedBy (.member i))
    (hask : (table', m.call) = [Request.acquire m.id].foldl (Reach.ask now i) (table, none))
    (hphase : m.phase = .acquiring) :
    StandsAfter l now i ts m table' [.acquire m.id] := by
  obtain ⟨hanswer, hafter⟩ := hreal.acquire now (.member i) m.id
  rw [List.foldl_cons, ask_leaseTable] at hask
  obtain ⟨rfl, hcall⟩ := Prod.mk.inj hask
  exact ⟨hafter, .of_acquire hidle hphase hcall rfl hanswer⟩

theorem standsAfter_renew {reign : Controller.Reign} {ticker : Ticker} {s : Nat}
    (hreal : table.Realizes l) (hleads : Leads l now i ts m ticker s) (hid : m'.id = m.id)
    (hpolicy : m'.policy = m.policy) (hdue : ticker.wake ≤ now)
    (hask : (table', m'.call) = [Request.renew].foldl (Reach.ask now i) (table, none))
    (hgrant : t.grant? = none) (hrenewal : t.isRenewal = false)
    (hphase : m'.phase = .renewing reign (ticker.advance now)) :
    StandsAfter l now i (t :: ts) m' table' [.renew] := by
  obtain ⟨hanswer, hafter⟩ := hreal.renew now (.member i)
  rw [List.foldl_cons, ask_leaseTable] at hask
  obtain ⟨rfl, hcall⟩ := Prod.mk.inj hask
  exact ⟨hafter, .of_renew hleads hid hpolicy hdue hgrant hrenewal hphase hcall rfl hanswer⟩

/-- After each of its turns a controller stands to the lock as it should. -/
theorem standsAfter_of_course {s : Signal} {step : Controller.Step}
    (hcourse : Course m.id m.policy now m.shutdown m.phase s step)
    (hstanding : Standing l now i ts m) (hmillis : 1000000 ∣ now)
    (hticker : now + Ticker.periodOf m.policy.renewal < Instant.horizon)
    (hheard : ∀ a, s = .answered a → ∀ k, m.call = some k → k.answer = a)
    (hreal : table.Realizes l)
    (hask : (table', call) =
      (Turn.requests ⟨now, m.shutdown, m.phase, s, step⟩).foldl (Reach.ask now i) (table, none))
    (episode : Option Episode) :
    StandsAfter l now i (⟨now, m.shutdown, m.phase, s, step⟩ :: ts)
      { m with phase := step.1, call, episode } table'
      (Turn.requests ⟨now, m.shutdown, m.phase, s, step⟩) := by
  obtain ⟨name, id, policy, conduct, phase, shutdown, episode', call'⟩ := m
  -- A turn without calls leaves the lock and its table as they are.
  have hquiet (hnone : Turn.requests ⟨now, shutdown, phase, s, step⟩ = []) {ts : List Turn}
      {m : Member} (hstanding : Standing l now i ts m) :
      StandsAfter l now i ts m table' (Turn.requests ⟨now, shutdown, phase, s, step⟩) := by
    rw [show Turn.requests _ = [] from hnone] at hask ⊢
    cases hask
    exact ⟨hreal, hstanding⟩
  cases hcourse with
  | begin | cool | interrupt => exact hquiet rfl hstanding
  | first | again => exact standsAfter_acquire hreal (hstanding rfl) hask rfl
  | @win a token ticker hgrant hstart =>
      obtain ⟨k, hacquires⟩ := hstanding.acquires rfl
      have hanswer : k.answer.grant? = some token := by
        rw [hheard a rfl k hacquires.call, hgrant]
      rcases hacquires.owner with ⟨-, howner⟩ | ⟨hdenied, -⟩
      · have hheard : a.grant?.isSome = true := by rw [hgrant]; rfl
        exact hquiet rfl (.of_win howner rfl hheard rfl hmillis hstart)
      · rw [hanswer] at hdenied
        cases hdenied
  | fail hgrant hstart =>
      rw [Ticker.start?, if_pos hticker] at hstart
      cases hstart
  | @miss a hgrant =>
      obtain ⟨k, hacquires⟩ := hstanding.acquires rfl
      rcases hacquires.owner with ⟨hgranted, -⟩ | ⟨-, hlost⟩
      · rw [← hheard a rfl k hacquires.call, hgranted, OwnerLock.grant?_token] at hgrant
        cases hgrant
      · exact hquiet rfl fun _ => hlost
  | renew hdue =>
      obtain ⟨s, hleads⟩ := hstanding.leads rfl
      exact standsAfter_renew hreal hleads rfl rfl hdue hask rfl rfl rfl
  | @keep reign ticker a hanswer =>
      obtain ⟨s, k, hrenews⟩ := hstanding.renews rfl
      have hdone : k.answer.refusal? = none := by rw [hheard a rfl k hrenews.call, hanswer]
      have hrenewal : a.refusal?.isNone = true := by rw [hanswer]; rfl
      exact hquiet rfl (.of_keep hrenews rfl rfl hdone rfl hrenewal rfl hmillis rfl)
  | @lose reign ticker a reason hanswer =>
      obtain ⟨s, k, hrenews⟩ := hstanding.renews rfl
      rcases hrenews.owner with ⟨hdone, -⟩ | ⟨-, -, hlost⟩
      · rw [hheard a rfl k hrenews.call, hanswer] at hdone
        cases hdone
      · exact hquiet rfl fun _ => hlost
  | rest _ taskOver => exact hquiet (by cases taskOver <;> rfl) hstanding
  | leave _ taskOver => exact hquiet (by cases taskOver <;> rfl) hstanding
  | quit hnote =>
      apply hquiet rfl
      rintro ⟨⟩

end Turns

end LeaseElection
