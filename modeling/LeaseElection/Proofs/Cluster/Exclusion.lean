import LeaseElection.Proofs.Cluster.Tenure
import LeaseElection.Proofs.Cluster.Waits

/-!
# At most one leader

Controllers share one lease table and nobody else calls it.  Time is virtual: it moves
on only while all of them wait, and never past the instant that one of them waits for.
A leader then heard of its grant or of a renewal within its tick, and of several leaders
all but the one granted last are past their time.  If every tick fits into the time of
the lease there is one leader at most, the one that the table knows of.
-/

namespace LeaseElection

open Controller (Phase Signal Action Turn Course Ticker lastGrant? lastHold?)

namespace OwnerLock

variable {l : OwnerLock Party} {now i : Nat} {k : Party} {o : Ownership Party} {t : Turn}
variable {id : ControllerId} {p : Policy}

/-- The lock after the calls of a turn: as it was, or asked for, or renewed. -/
theorem afterCalls_cases (l : OwnerLock Party) (hturn : t.IsOf id p) :
    l.afterCalls now (.member i) t.requests = l ∨
      t.before.state = .waiting ∧
        l.afterCalls now (.member i) t.requests = (l.acquire now (.member i) id).2 ∨
      t.before.state = .leading ∧
        l.afterCalls now (.member i) t.requests = (l.renew now (.member i)).2 := by
  rcases Turn.requests_cases hturn with hnone | ⟨hwaiting, hacquire⟩ | ⟨hleading, hrenew⟩
  · rw [hnone]
    exact Or.inl rfl
  · rw [hacquire]
    exact Or.inr (Or.inl ⟨hwaiting, rfl⟩)
  · rw [hrenew]
    exact Or.inr (Or.inr ⟨hleading, rfl⟩)

theorem sameOrLost_afterCalls (hturn : t.IsOf id p) (hk : .member i ≠ k) :
    SameOrLost now k l (l.afterCalls now (.member i) t.requests) := by
  rcases l.afterCalls_cases hturn with hsame | ⟨-, hacquire⟩ | ⟨-, hrenew⟩
  · exact Or.inl hsame
  · rw [hacquire]
    exact l.sameOrLost_acquire now id hk
  · rw [hrenew]
    exact l.sameOrLost_renew now hk

theorem ttl_afterCalls (hturn : t.IsOf id p) :
    (l.afterCalls now (.member i) t.requests).ttl = l.ttl := by
  rcases l.afterCalls_cases hturn with hsame | ⟨-, hacquire⟩ | ⟨-, hrenew⟩
  · rw [hsame]
  · rw [hacquire]
    rcases l.acquire_cases now (.member i) id with ⟨hgranted, -⟩ | hdenied
    · rw [hgranted]
      rfl
    · rw [hdenied]
  · rw [hrenew]
    rcases l.renew_cases now (.member i) with
      ⟨o, -, -, ⟨-, hdone⟩ | ⟨-, hexpired⟩⟩ | ⟨-, hnone⟩
    · rw [hdone]
      rfl
    · rw [hexpired]
      rfl
    · rw [hnone]

/-- The owner after a turn is who took it, waiting for the lock, or who it was before. -/
theorem owner_afterCalls (hturn : t.IsOf id p)
    (howner : (l.afterCalls now (.member i) t.requests).owner = some o) :
    t.before.state = .waiting ∧ o.client = .member i ∧ o.caller = id ∨
      ∃ o', l.owner = some o' ∧ o.client = o'.client ∧ o.caller = o'.caller := by
  rcases l.afterCalls_cases hturn with hsame | ⟨hwaiting, hacquire⟩ | ⟨-, hrenew⟩
  · rw [hsame] at howner
    exact Or.inr ⟨o, howner, rfl, rfl⟩
  · rw [hacquire] at howner
    rcases l.acquire_cases now (.member i) id with ⟨hgranted, -⟩ | hdenied
    · rw [hgranted] at howner
      cases howner
      exact Or.inl ⟨hwaiting, rfl, rfl⟩
    · rw [hdenied] at howner
      exact Or.inr ⟨o, howner, rfl, rfl⟩
  · rw [hrenew] at howner
    rcases l.renew_cases now (.member i) with
      ⟨o', ho', -, ⟨-, hdone⟩ | ⟨-, hexpired⟩⟩ | ⟨-, hnone⟩
    · rw [hdone] at howner
      cases howner
      exact Or.inr ⟨o', ho', rfl, rfl⟩
    · rw [hexpired] at howner
      cases howner
    · rw [hnone] at howner
      exact Or.inr ⟨o, howner, rfl, rfl⟩

end OwnerLock

namespace Standing

variable {l : OwnerLock Party} {now now' i : Nat} {ts : List Turn} {m m' : Member}

/-- Only its phase, its name, its pace and its call matter, and its shutdown if it has
not fired. -/
theorem congr (hstanding : Standing l now i ts m) (hphase : m'.phase = m.phase)
    (hid : m'.id = m.id) (hpolicy : m'.policy = m.policy) (hcall : m'.call = m.call)
    (hshutdown : m'.shutdown = false → m.shutdown = false) : Standing l now i ts m' := by
  unfold Standing at hstanding ⊢
  rw [hphase]
  split at hstanding
  · obtain ⟨s, hleads⟩ := hstanding
    exact ⟨s, { hleads with
      period := hpolicy ▸ hleads.period
      owner := hid ▸ hleads.owner }⟩
  · obtain ⟨s, k, hrenews⟩ := hstanding
    exact ⟨s, k, { hrenews with
      tick := hpolicy ▸ hrenews.tick
      period := hpolicy ▸ hrenews.period
      call := hcall.trans hrenews.call
      owner := hid ▸ hrenews.owner }⟩
  · obtain ⟨k, hacquires⟩ := hstanding
    exact ⟨k, { hacquires with
      call := hcall.trans hacquires.call
      owner := hid ▸ hacquires.owner }⟩
  · exact hstanding
  · exact fun hfired => hstanding (hshutdown hfired)

/-- There is no rest for a controller whose answer is there. -/
theorem signal_ne_none {k : PendingCall} (hcall : m.call = some k) (hdue : k.due = now)
    (hphase : m.phase = .acquiring ∨ ∃ reign ticker, m.phase = .renewing reign ticker) :
    m.signal? now ≠ none := by
  intro hrest
  have hwake : m.wake? = some k.due := by
    rcases hphase with hphase | ⟨reign, ticker, hphase⟩ <;>
      rw [Member.wake?, hphase, hcall] <;> rfl
  have hlater := Member.lt_of_rests hrest hwake
  omega

/-- While all controllers wait, time can pass up to the next instant that one of them
waits for. -/
theorem pass (hstanding : Standing l now i ts m) (hlater : now ≤ now')
    (hrest : m.signal? now = none) (hsleep : ∀ wake, m.wake? = some wake → now' ≤ wake) :
    Standing l now' i ts m := by
  unfold Standing at hstanding ⊢
  split at hstanding
  · rename_i reign ticker hphase
    obtain ⟨s, hleads⟩ := hstanding
    have hwake : m.wake? = some ticker.wake := by
      rw [Member.wake?, hphase]
      rfl
    refine ⟨s, { hleads with
      heard := { hleads.heard with le := hleads.heard.le.trans hlater }
      wake := hsleep _ hwake
      owner := ?_ }⟩
    rcases hleads.owner with howner | ⟨hlapse, hlost⟩
    · exact Or.inl howner
    · exact Or.inr ⟨hlapse.trans_le hlater, hlost⟩
  · rename_i reign ticker hphase
    obtain ⟨s, k, hrenews⟩ := hstanding
    exact absurd hrest
      (signal_ne_none hrenews.call hrenews.due (Or.inr ⟨reign, ticker, hphase⟩))
  · rename_i hphase
    obtain ⟨k, hacquires⟩ := hstanding
    exact absurd hrest (signal_ne_none hacquires.call hacquires.due (Or.inl hphase))
  · exact hstanding
  · exact hstanding

/-- A leader heard of its hold within its tick, and owns the lock or is past its time. -/
theorem of_leading (hstanding : Standing l now i ts m) (hleading : m.state = .leading) :
    ∃ s, HeardAt ts now s ∧ now ≤ s + m.policy.tick ∧
      ((∃ s', s ≤ s' ∧ l.owner = some ⟨.member i, m.id, s'⟩) ∨
        s + l.ttl.nanos < now ∧ ¬l.IsOwnedBy (.member i)) := by
  cases hphase : m.phase with
  | leading reign ticker =>
      obtain ⟨s, hleads⟩ := hstanding.leads hphase
      have htick : now ≤ s + m.policy.tick := by
        calc
          now ≤ Instant.ceilMillis ticker.deadline := hleads.wake
          _ ≤ s + Instant.ceilMillis ticker.period :=
            Instant.ceilMillis_le_add hleads.millis hleads.deadline
          _ = s + m.policy.tick := by rw [Policy.tick, hleads.period]
      refine ⟨s, hleads.heard, htick, ?_⟩
      rcases hleads.owner with howner | hlost
      · exact Or.inl ⟨s, Nat.le_refl s, howner⟩
      · exact Or.inr hlost
  | renewing reign ticker =>
      obtain ⟨s, k, hrenews⟩ := hstanding.renews hphase
      refine ⟨s, hrenews.heard, hrenews.tick, ?_⟩
      rcases hrenews.owner with ⟨-, howner⟩ | ⟨-, hlost⟩
      · exact Or.inl ⟨now, hrenews.heard.le, howner⟩
      · exact Or.inr hlost
  | failed =>
      rw [Standing, hphase] at hstanding
      exact hstanding.elim
  | _ =>
      rw [Member.state, hphase] at hleading
      cases hleading

end Standing

namespace Cluster

variable {c c' : Cluster (LeaseTable Party)} {h e : Chronicle} {l l' : OwnerLock Party}
variable {name : String} {ttl : Span} {traced : Bool} {i j : Nat} {m m' : Member} {s : Signal}

/-- How all controllers stand to the lock that their table behaves as. -/
structure Tenancy (h : Chronicle) (c : Cluster (LeaseTable Party)) (l : OwnerLock Party) :
    Prop where
  realizes : c.service.Realizes l
  millis : 1000000 ∣ c.now
  standing : ∀ i m, c.members[i]? = some m → Standing l c.now i (h.turnsOf i) m
  owned : ∀ o, l.owner = some o →
    ∃ i m, o.client = .member i ∧ c.members[i]? = some m ∧ o.caller = m.id
  order : ∀ i j m m', i ≠ j → c.members[i]? = some m → c.members[j]? = some m' →
    m.state = .leading → m'.state = .leading → l.IsOwnedBy (.member i) →
      ∃ g g', lastGrant? (h.turnsOf i) = some g ∧ lastGrant? (h.turnsOf j) = some g' ∧ g' < g

/-- A turn in which no grant is heard makes no leader and leaves all grants as they were. -/
theorem leading_before (hm : c.members[i]? = some m) (hgoes : c.GoesOn m s)
    (hgrant : (Turn.take m.id m.policy c.now m.shutdown m.phase s).grant? = none)
    (hm' : (c.resume i m s).members[j]? = some m') (hleading : m'.state = .leading) :
    ∃ m₀, c.members[j]? = some m₀ ∧ m₀.state = .leading ∧
      lastGrant? (Chronicle.turnsOf j
        ((i, Turn.take m.id m.policy c.now m.shutdown m.phase s) :: h)) =
          lastGrant? (h.turnsOf j) := by
  by_cases hij : i = j
  · subst hij
    rw [member_resume hm s] at hm'
    cases hm'
    have hturn : Turn.IsOf _ m.id m.policy := Turn.isOf_take hgoes.due
    refine ⟨m, hm, Turn.before_of_leading hturn hgrant hleading, ?_⟩
    rw [Chronicle.turnsOf_cons_self]
    exact Controller.lastGrant?_of_none hgrant _
  · rw [member_resume_of_ne hm s hij] at hm'
    refine ⟨m', hm', hleading, ?_⟩
    rw [Chronicle.turnsOf_cons_of_ne hij]

/-- The one who hears of a grant owns the lock. -/
theorem Tenancy.owner_of_grant (htenancy : Tenancy h c l) (hm : c.members[i]? = some m)
    (hgoes : c.GoesOn m s)
    (hgrant : (Turn.take m.id m.policy c.now m.shutdown m.phase s).grant? ≠ none) :
    l.owner = some ⟨.member i, m.id, c.now⟩ := by
  obtain ⟨a, hphase, hs, ha⟩ := Turn.exists_answer_of_grant hgrant
  obtain ⟨k, hacquires⟩ := (htenancy.standing i m hm).acquires hphase
  obtain rfl : s = .answered a := hs
  have hanswer : k.answer = a := hgoes.answer hacquires.call
  rcases hacquires.owner with ⟨-, howner⟩ | ⟨hdenied, -⟩
  · exact howner
  · exact absurd (hanswer ▸ hdenied) ha

/-- Nobody calls the table in a turn that hears of a grant. -/
theorem afterCalls_of_grant {t : Turn} (hturn : t.IsOf m.id m.policy) (hgrant : t.grant? ≠ none)
    (now : Nat) : l.afterCalls now (.member i) t.requests = l := by
  obtain ⟨a, hphase, -, -⟩ := Turn.exists_answer_of_grant hgrant
  rcases l.afterCalls_cases hturn with hsame | ⟨hwaiting, -⟩ | ⟨hleading, -⟩
  · exact hsame
  · rw [hphase] at hwaiting
    cases hwaiting
  · rw [hphase] at hleading
    cases hleading

/-- While one controller owns the lock since now, all others that lead were granted it
before. -/
theorem Tenancy.granted_before (htenancy : Tenancy h c l)
    (howner : l.owner = some ⟨.member i, m.id, c.now⟩) (hij : i ≠ j)
    (hm' : c.members[j]? = some m') (hleading : m'.state = .leading) :
    ∃ g, lastGrant? (h.turnsOf j) = some g ∧ g < c.now := by
  obtain ⟨s, hheard, -, hlost⟩ := (htenancy.standing j m' hm').of_leading hleading
  obtain ⟨g, hg, hgranted⟩ := hheard.grant
  refine ⟨g, hgranted, ?_⟩
  rcases hlost with ⟨s', -, howner'⟩ | ⟨hlapse, -⟩
  · rw [howner] at howner'
    have hclient := congrArg Ownership.client (Option.some.inj howner')
    exact absurd (Party.member.inj hclient) hij
  · omega

/-- The owner is still the leader who was granted the lock last. -/
theorem Tenancy.order_turn (htenancy : Tenancy h c l) (hm : c.members[i]? = some m)
    (hgoes : c.GoesOn m s) :
    let t := Turn.take m.id m.policy c.now m.shutdown m.phase s
    ∀ j k m₁ m₂, j ≠ k → (c.resume i m s).members[j]? = some m₁ →
      (c.resume i m s).members[k]? = some m₂ → m₁.state = .leading → m₂.state = .leading →
        (l.afterCalls c.now (.member i) t.requests).IsOwnedBy (.member j) →
          ∃ g g', lastGrant? (Chronicle.turnsOf j ((i, t) :: h)) = some g ∧
            lastGrant? (Chronicle.turnsOf k ((i, t) :: h)) = some g' ∧ g' < g := by
  intro t j k m₁ m₂ hjk hm₁ hm₂ hleading₁ hleading₂ ⟨o, howner, hclient⟩
  have hturn : t.IsOf m.id m.policy := Turn.isOf_take hgoes.due
  by_cases hgrant : t.grant? = none
  · obtain ⟨m₁', hm₁', hbefore₁, hsame₁⟩ := leading_before (h := h) hm hgoes hgrant hm₁ hleading₁
    obtain ⟨m₂', hm₂', hbefore₂, hsame₂⟩ := leading_before (h := h) hm hgoes hgrant hm₂ hleading₂
    rw [hsame₁, hsame₂]
    apply htenancy.order j k m₁' m₂' hjk hm₁' hm₂' hbefore₁ hbefore₂
    rcases OwnerLock.owner_afterCalls hturn howner with
      ⟨hwaiting, hself, -⟩ | ⟨o', ho', hsame, -⟩
    · rw [hclient] at hself
      cases hself
      rw [hm] at hm₁'
      cases hm₁'
      rw [show m.state = .waiting from hwaiting] at hbefore₁
      cases hbefore₁
    · exact ⟨o', ho', hsame ▸ hclient⟩
  · -- The one who hears of its grant now is the owner, so all other leaders are older.
    have hself := htenancy.owner_of_grant hm hgoes hgrant
    rw [afterCalls_of_grant hturn hgrant, hself] at howner
    cases howner
    cases hclient
    rw [member_resume_of_ne hm s hjk] at hm₂
    obtain ⟨g, hgranted, hlt⟩ := htenancy.granted_before hself hjk hm₂ hleading₂
    have hheard : t.grant?.isSome = true := Option.isSome_iff_ne_none.mpr hgrant
    refine ⟨c.now, g, ?_, ?_, hlt⟩
    · rw [Chronicle.turnsOf_cons_self]
      exact Controller.lastGrant?_of_grant hheard _
    · rw [Chronicle.turnsOf_cons_of_ne hjk]
      exact hgranted

/-- The turn of one controller keeps all of them standing. -/
theorem Tenancy.turn (htenancy : Tenancy h c l) (hm : c.members[i]? = some m)
    (hgoes : c.GoesOn m s) (hticker : c.Representable m) :
    let t := Turn.take m.id m.policy c.now m.shutdown m.phase s
    Tenancy ((i, t) :: h) (c.resume i m s) (l.afterCalls c.now (.member i) t.requests) := by
  intro t
  have hturn : t.IsOf m.id m.policy := Turn.isOf_take hgoes.due
  obtain ⟨hnow, hframe⟩ := resume_frame hm s
  have hself := member_resume hm s
  obtain ⟨hreal, hstanding⟩ := standsAfter_of_course hturn (htenancy.standing i m hm)
    htenancy.millis hticker
    (fun a (ha : s = .answered a) k hcall => GoesOn.answer (ha ▸ hgoes) hcall)
    htenancy.realizes (reach_of_requests c i m t) (c.reach i m t).episode
  have hothers {j : Nat} (hij : i ≠ j) {m' : Member}
      (hm' : (c.resume i m s).members[j]? = some m') : c.members[j]? = some m' :=
    (member_resume_of_ne hm s hij) ▸ hm'
  constructor
  · rw [hframe.service]
    exact hreal
  · rw [hnow]
    exact htenancy.millis
  · intro j m' hm'
    rw [hnow]
    by_cases hij : i = j
    · subst hij
      rw [hself] at hm'
      cases hm'
      rw [Chronicle.turnsOf_cons_self]
      exact hstanding
    · rw [Chronicle.turnsOf_cons_of_ne hij]
      exact (htenancy.standing j m' (hothers hij hm')).of_sameOrLost
        (OwnerLock.sameOrLost_afterCalls hturn fun hsame => hij (Party.member.inj hsame))
  · intro o howner
    rcases OwnerLock.owner_afterCalls hturn howner with
      ⟨-, hclient, hcaller⟩ | ⟨o', ho', hclient, hcaller⟩
    · exact ⟨i, _, hclient, hself, hcaller⟩
    · obtain ⟨j, m', hj, hm', hid⟩ := htenancy.owned o' ho'
      rw [hclient, hcaller]
      by_cases hij : i = j
      · subst hij
        rw [hm] at hm'
        cases hm'
        exact ⟨i, _, hj, hself, hid⟩
      · exact ⟨j, m', hj, by rwa [member_resume_of_ne hm s hij], hid⟩
  · exact htenancy.order_turn hm hgoes

theorem Tenancy.enroll (htenancy : Tenancy h c l) (hphase : m.phase = .idle) :
    Tenancy h (c.enroll m) l where
  realizes := htenancy.realizes
  millis := htenancy.millis
  standing j m' hm' := by
    rcases member_enroll hm' with hm' | ⟨rfl, rfl⟩
    · exact htenancy.standing j m' hm'
    · rw [Standing, hphase]
      rintro - ⟨o, ho, hclient⟩
      obtain ⟨i, m₀, hi, hm₀, -⟩ := htenancy.owned o ho
      cases hi.symm.trans hclient
      rw [List.getElem?_eq_none (Nat.le_refl _)] at hm₀
      cases hm₀
  owned o ho := by
    obtain ⟨i, m', hi, hm', hid⟩ := htenancy.owned o ho
    have hlt : i < c.members.length := (List.getElem?_eq_some_iff.mp hm').1
    exact ⟨i, m', hi, (List.getElem?_append_left hlt).trans hm', hid⟩
  order i j m₁ m₂ hij hm₁ hm₂ hleading₁ hleading₂ howned := by
    have hidle : m.state ≠ .leading := by simp [Member.state, hphase, Phase.state]
    rcases member_enroll hm₁ with hm₁ | ⟨-, rfl⟩
    · rcases member_enroll hm₂ with hm₂ | ⟨-, rfl⟩
      · exact htenancy.order i j m₁ m₂ hij hm₁ hm₂ hleading₁ hleading₂ howned
      · exact absurd hleading₂ hidle
    · exact absurd hleading₁ hidle

theorem Tenancy.dismiss (htenancy : Tenancy h c l) (i : Nat) : Tenancy h (c.dismiss i) l := by
  obtain ⟨hnow, hservice, hmembers, -⟩ := dismiss_frame c i
  constructor
  · rw [hservice]
    exact htenancy.realizes
  · rw [hnow]
    exact htenancy.millis
  · intro j m' hm'
    obtain ⟨m, hm, rfl⟩ := member_dismiss hm'
    rw [hnow]
    refine (htenancy.standing j m hm).congr ?_ ?_ ?_ ?_ ?_ <;> split <;> simp
  · intro o ho
    obtain ⟨j, m, hj, hm, hid⟩ := htenancy.owned o ho
    refine ⟨j, if i = j then { m with shutdown := true } else m, hj, ?_, ?_⟩
    · rw [hmembers, List.getElem?_modify, hm]
      rfl
    · rw [hid]
      split <;> rfl
  · intro j k m₁ m₂ hjk hm₁ hm₂ hleading₁ hleading₂
    obtain ⟨m₁', hm₁', rfl⟩ := member_dismiss hm₁
    obtain ⟨m₂', hm₂', rfl⟩ := member_dismiss hm₂
    apply htenancy.order j k m₁' m₂' hjk hm₁' hm₂'
    · split at hleading₁ <;> exact hleading₁
    · split at hleading₂ <;> exact hleading₂

theorem Tenancy.world (htenancy : Tenancy h c l) (hvirtual : Virtual c c') : Tenancy h c' l := by
  cases hvirtual with
  | work => exact { htenancy with }
  | queue => exact { htenancy with }
  | pass now hlater hmillis hrest hsleep =>
      refine { htenancy with millis := hmillis, standing := ?_ }
      intro i m hm
      have hmem : m ∈ c.members := List.mem_of_getElem? hm
      exact (htenancy.standing i m hm).pass (Nat.le_of_lt hlater) (hrest m hmem).1
        (hsleep m hmem)

/-- In every run all controllers stand to the lock as they should. -/
theorem Run.tenancy (run : Run Virtual (empty (LeaseTable.new name ttl) traced) h c)
    (hticker : ∀ m ∈ c.members, c.Representable m) :
    ∃ l, l.ttl = ttl ∧ Tenancy h c l := by
  induction run with
  | start =>
      refine ⟨.new name ttl, rfl, .new name ttl, Nat.dvd_zero _, ?_, ?_, ?_⟩
      · intro i m hm
        simp [empty] at hm
      · rintro o ⟨⟩
      · intro i j m m' _ hm
        simp [empty] at hm
  | @step h e c c' run hstep hall =>
      have hearlier := (hstep.mono Virtual.isOpen).representable hticker
      obtain ⟨l, httl, htenancy⟩ := hall hearlier
      cases hstep with
      | @turn i m s hm hgoes =>
          have hturn : (Turn.take m.id m.policy c.now m.shutdown m.phase s).IsOf m.id m.policy :=
            Turn.isOf_take hgoes.due
          exact ⟨_, (OwnerLock.ttl_afterCalls hturn).trans httl,
            htenancy.turn hm hgoes (hearlier _ (List.mem_of_getElem? hm))⟩
      | enroll hphase => exact ⟨l, httl, htenancy.enroll hphase⟩
      | dismiss i => exact ⟨l, httl, htenancy.dismiss i⟩
      | world hworld => exact ⟨l, httl, htenancy.world hworld⟩

/-- A leader heard of its hold within its tick. -/
theorem Tenancy.heard_within_tick (htenancy : Tenancy h c l) (hm : c.members[i]? = some m)
    (hleading : m.state = .leading) :
    ∃ s, lastHold? (h.turnsOf i) = some s ∧ s ≤ c.now ∧ c.now ≤ s + m.policy.tick := by
  obtain ⟨s, hheard, htick, -⟩ := (htenancy.standing i m hm).of_leading hleading
  exact ⟨s, hheard.hold, hheard.le, htick⟩

/-- Of two leaders the one granted first is past its time. -/
theorem Tenancy.late_of_granted_before (htenancy : Tenancy h c l) (hij : i ≠ j)
    (hm : c.members[i]? = some m) (hm' : c.members[j]? = some m') (hleading : m.state = .leading)
    (hleading' : m'.state = .leading) :
    ∃ g g' s, lastGrant? (h.turnsOf i) = some g ∧ lastGrant? (h.turnsOf j) = some g' ∧
      lastHold? (h.turnsOf i) = some s ∧ (g ≤ g' → l.ttl.nanos < c.now - s) := by
  obtain ⟨s, hheard, -, howner⟩ := (htenancy.standing i m hm).of_leading hleading
  obtain ⟨s', hheard', -, -⟩ := (htenancy.standing j m' hm').of_leading hleading'
  obtain ⟨g, -, hg⟩ := hheard.grant
  obtain ⟨g', -, hg'⟩ := hheard'.grant
  refine ⟨g, g', s, hg, hg', hheard.hold, fun hle => ?_⟩
  rcases howner with ⟨s'', -, howner⟩ | ⟨hlapse, -⟩
  · -- The owner was granted the lock last.
    obtain ⟨g₁, g₂, hg₁, hg₂, hlt⟩ :=
      htenancy.order i j m m' hij hm hm' hleading hleading' ⟨_, howner, rfl⟩
    rw [hg] at hg₁
    rw [hg'] at hg₂
    cases hg₁
    cases hg₂
    omega
  · omega

/-- Who holds the lease leads, or was told to stop, or is about to hear of its grant. -/
theorem Tenancy.holder_of_holding (htenancy : Tenancy h c l) {held : Holding}
    (hheld : c.service.lease.holding = some held) :
    ∃ i m, c.members[i]? = some m ∧ m.id = held.holder ∧
      c.service.grants (.member i) = some ⟨held.holder, held.token⟩ ∧
      (m.state = .leading ∨ m.shutdown = true ∨ m.phase = .acquiring ∧
        ∃ k, m.call = some k ∧ k.due = c.now ∧ k.answer = .granted held.token) := by
  have hreal := htenancy.realizes
  have hholding := hreal.holding
  rw [hheld] at hholding
  obtain ⟨o, ho, rfl⟩ := Option.map_eq_some_iff.mp hholding.symm
  obtain ⟨i, m, hclient, hm, hid⟩ := htenancy.owned o ho
  have howned : l.IsOwnedBy (.member i) := ⟨o, ho, hclient⟩
  refine ⟨i, m, hm, hid.symm, hclient ▸ hreal.remembered o ho, ?_⟩
  have hstanding := htenancy.standing i m hm
  cases hphase : m.phase with
  | leading | renewing | failed => exact Or.inl (by rw [Member.state, hphase]; rfl)
  | acquiring =>
      obtain ⟨k, hacquires⟩ := hstanding.acquires hphase
      rcases hacquires.owner with ⟨hanswer, -⟩ | ⟨-, hlost⟩
      · refine Or.inr (Or.inr ⟨rfl, k, hacquires.call, hacquires.due, ?_⟩)
        rw [hanswer, hreal.tokenOf_eq]
      · exact absurd howned hlost
  | _ =>
      rw [Standing, hphase] at hstanding
      refine Or.inr (Or.inl ?_)
      by_contra hfired
      exact hstanding (Bool.eq_false_iff.mpr hfired) howned

/-- A leader whose tick fits into the time of the lease owns it. -/
theorem Tenancy.owner_of_leading (htenancy : Tenancy h c l) (hm : c.members[i]? = some m)
    (hleading : m.state = .leading) (htick : m.policy.tick ≤ l.ttl.nanos) :
    ∃ s, l.owner = some ⟨.member i, m.id, s⟩ ∧
      l.isLapsed c.now ⟨.member i, m.id, s⟩ = false := by
  obtain ⟨s, hheard, hnow, howner⟩ := (htenancy.standing i m hm).of_leading hleading
  rcases howner with ⟨s', hle, howner⟩ | ⟨hlapse, -⟩
  · refine ⟨s', howner, ?_⟩
    simp only [OwnerLock.isLapsed, decide_eq_false_iff_not, Nat.not_lt]
    omega
  · omega

/-- Such a leader leaves off leading only if it is told to stop. -/
theorem Tenancy.shutdown_of_leaving (htenancy : Tenancy h c l) (hm : c.members[i]? = some m)
    (htick : m.policy.tick ≤ l.ttl.nanos) (hstep : Step Virtual c e c') {t : Turn}
    (ht : (i, t) ∈ e) (hbefore : t.before.state = .leading) (hafter : t.after.state ≠ .leading) :
    m.shutdown = true := by
  cases hstep with
  | @turn i' m₀ s hm₀ hgoes =>
      obtain ⟨rfl, rfl⟩ := Prod.mk.inj (List.mem_singleton.mp ht)
      rw [hm] at hm₀
      cases hm₀
      have hturn : (Turn.take m.id m.policy c.now m.shutdown m.phase s).IsOf m.id m.policy :=
        Turn.isOf_take hgoes.due
      rcases Turn.reason_to_leave hturn hbefore hafter with
        hshutdown | ⟨reign, ticker, a, hphase, hs, hrefused⟩
      · exact hshutdown
      · obtain rfl : s = .answered a := hs
        obtain ⟨s', k, hrenews⟩ := (htenancy.standing i m hm).renews hphase
        have hanswer : k.answer = a := hgoes.answer hrenews.call
        have hnow := hrenews.tick
        rcases hrenews.owner with ⟨hdone, -⟩ | ⟨-, hlapse, -⟩
        · exact absurd (hanswer ▸ hdone) hrefused
        · omega
  | enroll | dismiss | world => exact absurd ht List.not_mem_nil

/-- Whatever the pace of the controllers, whenever they start and are told to stop, and
in whatever order they go on at one instant: a leader heard of its grant or of a renewal
within its tick; of two leaders the one granted first has not done so for more than the
time of the lease; and the lease is held for a controller that leads, was told to stop,
or is about to hear of its grant.  If all ticks fit into the time of the lease, at most
one controller leads, the table names it as the holder, and it leaves off only when told
to stop. -/
theorem leaders_of_leaseTable
    (run : Run Virtual (empty (LeaseTable.new name ttl) traced) h c)
    (hticker : ∀ m ∈ c.members, c.Representable m) :
    (∀ (i : Nat) (m : Member), c.members[i]? = some m → m.state = .leading →
      ∃ s, lastHold? (h.turnsOf i) = some s ∧ s ≤ c.now ∧ c.now ≤ s + m.policy.tick) ∧
    (∀ (i j : Nat) (m m' : Member), i ≠ j →
      c.members[i]? = some m → c.members[j]? = some m' →
      m.state = .leading → m'.state = .leading →
        ∃ g g' s, lastGrant? (h.turnsOf i) = some g ∧ lastGrant? (h.turnsOf j) = some g' ∧
          lastHold? (h.turnsOf i) = some s ∧ (g ≤ g' → ttl.nanos < c.now - s)) ∧
    (∀ held : Holding, c.service.lease.holding = some held →
      ∃ i m, c.members[i]? = some m ∧ m.id = held.holder ∧
        c.service.grants (.member i) = some ⟨held.holder, held.token⟩ ∧
        (m.state = .leading ∨ m.shutdown = true ∨ m.phase = .acquiring ∧
          ∃ k, m.call = some k ∧ k.due = c.now ∧ k.answer = .granted held.token)) ∧
    ((∀ m ∈ c.members, m.policy.tick ≤ ttl.nanos) →
      (∀ (i j : Nat) (m m' : Member), c.members[i]? = some m → c.members[j]? = some m' →
        m.state = .leading → m'.state = .leading → i = j) ∧
      (∀ (i : Nat) (m : Member), c.members[i]? = some m → m.state = .leading →
        c.service.holder c.now = some m.id) ∧
      ∀ (i : Nat) (m : Member) (e : Chronicle) (c' : Cluster (LeaseTable Party)) (t : Turn),
        c.members[i]? = some m → Step Virtual c e c' → (i, t) ∈ e →
        t.before.state = .leading → t.after.state ≠ .leading → m.shutdown = true) := by
  obtain ⟨l, rfl, htenancy⟩ := run.tenancy hticker
  refine ⟨fun i m => htenancy.heard_within_tick, fun i j m m' => htenancy.late_of_granted_before,
    fun held => htenancy.holder_of_holding, fun hticks => ⟨?_, ?_, ?_⟩⟩
  · intro i j m m' hm hm' hleading hleading'
    obtain ⟨s, howner, -⟩ := htenancy.owner_of_leading hm hleading
      (hticks m (List.mem_of_getElem? hm))
    obtain ⟨s', howner', -⟩ := htenancy.owner_of_leading hm' hleading'
      (hticks m' (List.mem_of_getElem? hm'))
    rw [howner] at howner'
    exact Party.member.inj (congrArg Ownership.client (Option.some.inj howner'))
  · intro i m hm hleading
    obtain ⟨s, howner, hlapsed⟩ := htenancy.owner_of_leading hm hleading
      (hticks m (List.mem_of_getElem? hm))
    rw [htenancy.realizes.holder, OwnerLock.holder, howner,
      Option.filter_some_pos (by simp [hlapsed])]
    rfl
  · intro i m e c' t hm hstep
    exact htenancy.shutdown_of_leaving hm (hticks m (List.mem_of_getElem? hm)) hstep

/-- A leader renews the lease that its rival was denied. -/
theorem leaders_of_leaseTable_of_rivals :
    ∃ (h : Chronicle) (c : Cluster (LeaseTable Party)) (m m' : Member),
      c.now = 5000000 ∧ c.members = [m, m'] ∧ m.state = .leading ∧ m'.state = .waiting ∧
        (∃ s, lastHold? (h.turnsOf 0) = some s ∧ s ≤ c.now ∧ c.now ≤ s + m.policy.tick) ∧
        c.service.holder c.now = some m.id := by
  let table : LeaseTable Party := .new "lock" (.ofMillis 10)
  let m : Member :=
    { name := "first", id := ⟨"first"⟩, policy := ⟨.ofMillis 5, .ofMillis 7, .zero⟩,
      conduct := .prompt }
  let m' : Member := { m with name := "second", id := ⟨"second"⟩ }
  let leader (phase : Phase) : Member := { m with phase, episode := some ⟨⟨"lock-1"⟩, 0, 0⟩ }
  let rival : Member := { m' with phase := .retrying 7000000 }
  have enrolled : Run Virtual (empty table false) [] (((empty table false).enroll m).enroll m') :=
    .step (.step .start (.enroll _ rfl rfl rfl)) (.enroll _ rfl rfl rfl)
  have begun := enrolled.step (.turn (i := 0) (m := m) (s := .begun)
    (by decide) (.signalled (by decide)))
  have asked := begun.step (.turn (i := 0) (m := { m with phase := .starting 0 })
    (s := .elapsed) (by decide) (.signalled (by decide)))
  have granted := asked.step (.turn (i := 0) (s := .answered (.granted ⟨"lock-1"⟩))
    rfl (.signalled (by decide)))
  have begun' := granted.step (.turn (i := 1) (m := m') (s := .begun)
    (by decide) (.signalled (by decide)))
  have asked' := begun'.step (.turn (i := 1) (m := { m' with phase := .starting 0 })
    (s := .elapsed) (by decide) (.signalled (by decide)))
  have denied := asked'.step (.turn (i := 1)
    (m := { m' with phase := .acquiring, call := some ⟨.acquire m'.id, 0, 0, .denied⟩ })
    (s := .answered .denied) (by decide) (.signalled (by decide)))
  have later := denied.step (.world (.pass _ 5000000
    (by decide) (by decide) (by decide) (by decide)))
  have renewing := later.step (.turn (i := 0)
    (m := leader (.leading ⟨⟨"lock-1"⟩, 0⟩ ⟨5000000, 5000000⟩))
    (s := .elapsed) (by decide) (.signalled (by decide)))
  have renewed := renewing.step (.turn (i := 0)
    (m := { leader (.renewing ⟨⟨"lock-1"⟩, 0⟩ ⟨10000000, 5000000⟩) with
      call := some ⟨.renew, 5000000, 5000000, .done⟩ })
    (s := .answered .done) (by decide) (.signalled (by decide)))
  have hall := leaders_of_leaseTable renewed (by unfold Representable; decide)
  have hticks := hall.2.2.2 (by decide)
  exact ⟨_, _, leader (.leading ⟨⟨"lock-1"⟩, 0⟩ ⟨10000000, 5000000⟩), rival, by decide, by decide,
    rfl, rfl, hall.1 0 _ (by decide) rfl, hticks.2.1 0 _ (by decide) rfl⟩

end Cluster

end LeaseElection
