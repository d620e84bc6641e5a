import LeaseElection.Proofs.Cluster.Exclusion
import LeaseElection.Proofs.Cluster.Shutdown
import LeaseElection.Proofs.Task.Crew

/-!
# The protected task runs for the leader alone

Controllers share one lease table, nobody else calls it, and all renewals come within the
time of the lease.  Their tasks return as soon as they are cancelled, and time passes only
while nobody can go on, tasks included.  Every task that is not done with then belongs to
the owner of the lock, whose time is not over, so that there is one such task at most.
-/

namespace LeaseElection

open Controller (Phase Signal Action Turn Course Ticker)

/-- How many grants were heard of. -/
def Chronicle.grants (h : Chronicle) : Nat := h.countP fun e => e.2.grant?.isSome

theorem Chronicle.grants_cons (i : Nat) (t : Turn) (h : Chronicle) :
    Chronicle.grants ((i, t) :: h) = h.grants + if t.grant?.isSome then 1 else 0 := by
  simp [grants, List.countP_cons]

/-- The task that controller `i` starts, being `m`, when it is granted the lock. -/
def Member.freshTask (m : Member) (i : Nat) : Task :=
  { group := i, runner := m.id, conduct := m.conduct }

/-- What a turn does to the crew: it adds the task of a controller that begins to lead, or
cancels some task, or leaves all as it is. -/
theorem Reach.crew_of_course {σ : Type} [LockService σ] {id : ControllerId} {p : Policy}
    {now : Nat} {shutdown : Bool} {phase : Phase} {s : Signal} {step : Controller.Step}
    (hcourse : Course id p now shutdown phase s step)
    (hticker : now + Ticker.periodOf p.renewal < Instant.horizon) (i : Nat) {m : Member}
    (hm : m.shutdown = shutdown) (x : Reach σ) :
    let t : Turn := ⟨now, shutdown, phase, s, step⟩
    let x' := step.2.foldl (Reach.act now i m) x
    t.grant?.isSome = true ∧ shutdown = false ∧ x'.crew = (x.crew.spawn (m.freshTask i)).2 ∨
      t.grant? = none ∧ (x'.crew = x.crew ∨ ∃ k, x'.crew = x.crew.cancel k) := by
  intro t x'
  have hnotes (notes : List Controller.Note) :
      (notes.map Action.note).foldl (Reach.act now i m) x = x :=
    Reach.foldl_act_note now i m x notes
  cases hcourse with
  | win hgrant hstart =>
      refine Or.inl ⟨?_, rfl, ?_⟩
      · simp [t, Turn.grant?, hgrant]
      · change (x.crew.spawn _).2 = _
        rw [hm]
        rfl
  | fail hgrant hstart =>
      rw [Ticker.start?, if_pos hticker] at hstart
      cases hstart
  | lose hanswer =>
      refine Or.inr ⟨rfl, ?_⟩
      simp only [x', act, List.foldl_cons, List.foldl_nil]
      cases x.episode with
      | none => exact Or.inl rfl
      | some e => exact Or.inr ⟨e.task, rfl⟩
  | miss hgrant => exact Or.inr ⟨hgrant, Or.inl rfl⟩
  | @quit phase note hnote =>
      refine Or.inr ⟨?_, Or.inl (congrArg Reach.crew (hnotes [note, .moved phase.state .stopped]))⟩
      cases phase <;> rfl
  | rest _ taskOver =>
      exact Or.inr ⟨rfl, Or.inl (congrArg Reach.crew (hnotes (Controller.overrunNotes taskOver)))⟩
  | leave _ taskOver =>
      have hsame := hnotes (Controller.overrunNotes taskOver ++ [.moved .waiting .stopped])
      exact Or.inr ⟨rfl, Or.inl (congrArg Reach.crew hsame)⟩
  | begin | first | again | renew | keep | cool | interrupt => exact Or.inr ⟨rfl, Or.inl rfl⟩

namespace OwnerLock

variable {l l' : OwnerLock Party} {now now' : Nat} {t t' : Task}

/-- That a task belongs to the owner of the lock, whose time is not over. -/
def Covers (l : OwnerLock Party) (now : Nat) (t : Task) : Prop :=
  ∃ s, l.owner = some ⟨.member t.group, t.runner, s⟩ ∧
    l.isLapsed now ⟨.member t.group, t.runner, s⟩ = false

theorem Covers.congr (hcovers : l.Covers now t) (hgroup : t'.group = t.group)
    (hrunner : t'.runner = t.runner) : l.Covers now t' := by
  rw [Covers, hgroup, hrunner]
  exact hcovers

/-- All tasks that are covered belong to the same controller. -/
theorem Covers.group_eq (hcovers : l.Covers now t) (hcovers' : l.Covers now' t') :
    t.group = t'.group := by
  obtain ⟨s, howner, -⟩ := hcovers
  obtain ⟨s', howner', -⟩ := hcovers'
  rw [howner] at howner'
  exact Party.member.inj (congrArg Ownership.client (Option.some.inj howner'))

/-- What others do to the lock does not matter to who owns it in time. -/
theorem Covers.of_sameOrLost (hcovers : l.Covers now t)
    (hother : SameOrLost now (.member t.group) l l') : l'.Covers now t := by
  rcases hother with rfl | ⟨-, -, hlapsed⟩
  · exact hcovers
  · obtain ⟨s, howner, hintime⟩ := hcovers
    have hlate := hlapsed _ howner rfl
    rw [hintime] at hlate
    cases hlate

end OwnerLock

namespace Cluster

section Worlds

variable {σ : Type} {c c' : Cluster σ} {i j : Nat} {m : Member}

/-- That all controllers wait, and that all tasks ran until they have to wait. -/
structure Rests (c : Cluster σ) : Prop where
  members : ∀ m ∈ c.members, m.signal? c.now = none ∧ ∀ completed, m.phase ≠ .yielding completed
  crew : ∀ j, c.crew.poll c.now j = c.crew

/-- What a world may do in which time is virtual, and passes only when all tasks that were
woken ran. -/
structure Calm (c c' : Cluster σ) : Prop where
  isVirtual : Virtual c c'
  rests : c.now < c'.now → ∀ j, c.crew.poll c.now j = c.crew

/-- Nobody leaves, or changes its pace or its task. -/
theorem Step.setup_mem [LockService σ] {e : Chronicle} (hstep : Step Open c e c')
    (hm : m ∈ c.members) : ∃ m' ∈ c'.members, m'.policy = m.policy ∧ m'.conduct = m.conduct := by
  obtain ⟨i, hi⟩ := List.mem_iff_getElem?.mp hm
  cases hstep with
  | @turn j m₀ s hm₀ hgoes =>
      by_cases hij : j = i
      · subst hij
        rw [hi] at hm₀
        cases hm₀
        exact ⟨_, List.mem_of_getElem? (member_resume hi s), rfl, rfl⟩
      · exact ⟨m, List.mem_of_getElem? ((member_resume_of_ne hm₀ s hij).trans hi), rfl, rfl⟩
  | enroll => exact ⟨m, List.mem_append_left _ hm, rfl, rfl⟩
  | dismiss j =>
      refine ⟨if j = i then { m with shutdown := true } else m, ?_, ?_⟩
      · apply List.mem_of_getElem? (i := i)
        rw [(dismiss_frame c j).2.2.1, List.getElem?_modify, hi]
        rfl
      · split <;> exact ⟨rfl, rfl⟩
  | world hworld =>
      have hlt : i < c'.members.length := by
        rw [hworld.length_members_eq]
        exact (List.getElem?_eq_some_iff.mp hi).1
      obtain ⟨m₀, call, hm₀, hsame⟩ := hworld.member (List.getElem?_eq_getElem hlt)
      rw [hi] at hm₀
      cases hm₀
      refine ⟨c'.members[i], List.getElem_mem hlt, ?_⟩
      rw [hsame]
      exact ⟨rfl, rfl⟩

/-- What a turn makes of the crew. -/
theorem crew_resume [LockService σ] {s : Signal} (hm : c.members[i]? = some m)
    (hgoes : c.GoesOn m s) (hticker : c.Representable m) :
    let t := Turn.take m.id m.policy c.now m.shutdown m.phase s
    t.grant?.isSome = true ∧ m.shutdown = false ∧
        (c.resume i m s).crew = (c.crew.spawn (m.freshTask i)).2 ∨
      t.grant? = none ∧ ((c.resume i m s).crew = c.crew ∨
        ∃ k, (c.resume i m s).crew = c.crew.cancel k) := by
  rw [(resume_frame hm s).2.crew]
  exact Reach.crew_of_course (Controller.course_of_due hgoes.due m.id m.policy) hticker i rfl
    ⟨c.service, none, c.crew, m.episode⟩

/-- Every task belongs to some controller. -/
theorem Bonds.exists_member {resigners : Nat → Prop} {h : Chronicle} {t : Task}
    (hbonds : Bonds resigners h c) (ht : t ∈ c.crew.tasks) :
    ∃ m, c.members[t.group]? = some m := by
  by_contra hnone
  have hlength : c.members.length ≤ t.group := by
    rw [← List.getElem?_eq_none_iff]
    exact Option.eq_none_iff_forall_ne_some.mpr fun m hm => hnone ⟨m, hm⟩
  have hcount := (hbonds.unowned t.group hlength).count_eq
  rw [List.countP_nil, List.countP_eq_zero] at hcount
  exact hcount (t.group, t.cancelled) (List.mem_map_of_mem ht) (by simp)

end Worlds

section Guards

variable {c c' : Cluster (LeaseTable Party)} {h e : Chronicle} {l l' : OwnerLock Party}
variable {i j k : Nat} {m m' : Member} {s : Signal} {t : Task} {resigners : Nat → Prop}

/-- What the tasks of a cluster have to do with grants, controllers and the lock. -/
structure Guarded (h : Chronicle) (c : Cluster (LeaseTable Party)) (l : OwnerLock Party) :
    Prop where
  orderly : c.crew.Orderly
  grants : c.crew.tasks.length = h.grants
  once : ∀ i m, c.members[i]? = some m → grantsHeard h i ≤ 1 ∧
    (m.state ≠ .leading → m.shutdown = false → grantsHeard h i = 0)
  covered : ∀ t ∈ c.crew.tasks, t.isOver = false → l.Covers c.now t

/-- As many tasks belong to a controller as grants that it heard of. -/
theorem Bonds.countP_group (hbonds : Bonds resigners h c) (hm : c.members[i]? = some m)
    (hticker : c.Representable m) :
    c.crew.tasks.countP (fun t => decide (t.group = i)) = grantsHeard h i := by
  rw [← (hbonds.bound i m hm hticker).count, Crew.marks, List.countP_map]
  rfl

theorem Guarded.solo (hguarded : Guarded h c l) (hbonds : Bonds resigners h c)
    (hticker : ∀ m ∈ c.members, c.Representable m) : c.crew.Solo := by
  intro j k t t' hj hk hover hover'
  have ht := List.mem_of_getElem? hj
  have hgroup : t'.group = t.group :=
    (hguarded.covered t' (List.mem_of_getElem? hk) hover').group_eq (hguarded.covered t ht hover)
  obtain ⟨m, hm⟩ := hbonds.exists_member ht
  have hcount := hbonds.countP_group hm (hticker m (List.mem_of_getElem? hm))
  have honce := (hguarded.once t.group m hm).1
  rw [← hcount] at honce
  exact eq_of_countP_le_one honce hj hk (by simp) (by simp [hgroup])

section Worlds

/-- A task that is polled remains whose it is. -/
theorem Guarded.work (hguarded : Guarded h c l) (hbonds : Bonds resigners h c)
    (hticker : ∀ m ∈ c.members, c.Representable m) (j : Nat) :
    Guarded h { c with crew := c.crew.poll c.now j } l := by
  have horderly := hguarded.orderly.poll (hguarded.solo hbonds hticker) c.now j
  cases hj : c.crew.tasks[j]? with
  | none => rwa [Crew.poll_of_none hj]
  | some t =>
      rw [Crew.poll_of_some hj] at horderly ⊢
      refine ⟨horderly, ?_, hguarded.once, fun t' ht' hover' => ?_⟩
      · rw [← hguarded.grants]
        exact List.length_set ..
      · rcases List.mem_or_eq_of_mem_set ht' with ht' | rfl
        · exact hguarded.covered t' ht' hover'
        · have hbefore : t.isOver = false := by
            by_contra hover
            rw [Task.poll_of_isOver (Bool.not_eq_false _ ▸ hover)] at hover'
            exact hover hover'
          obtain ⟨stage, hstage⟩ := (Task.progress_poll c.now t c.crew.record).eq
          rw [hstage]
          exact (hguarded.covered t (List.mem_of_getElem? hj) hbefore).congr rfl rfl

/-- A task that waits and was not cancelled belongs to a leader that was not told to stop. -/
theorem Bonds.leading_of_task (hbonds : Bonds resigners h c) (hk : c.crew.tasks[k]? = some t)
    (hcancelled : t.cancelled = false) (hm : c.members[t.group]? = some m)
    (hticker : c.Representable m) : m.state = .leading ∧ m.shutdown = false := by
  have hmark : c.crew.marks[k]? = some (t.group, false) := by
    rw [Crew.marks, List.getElem?_map, hk, ← hcancelled]
    rfl
  have hlive := (hbonds.bound t.group m hm hticker).live k hmark
  rw [Member.liveTask?] at hlive
  by_contra hidle
  rw [if_neg hidle] at hlive
  cases hlive

/-- Time passes only when the tasks that are not done with run for leaders, and leaders own
the lock in time. -/
theorem Guarded.pass (hguarded : Guarded h c l) (hbonds : Bonds resigners h c)
    (hticker : ∀ m ∈ c.members, c.Representable m)
    (htick : ∀ m ∈ c.members, m.policy.tick ≤ l.ttl.nanos)
    (hrests : ∀ j, c.crew.poll c.now j = c.crew) {now : Nat}
    (htenancy : Tenancy h { c with now } l) : Guarded h { c with now } l := by
  refine ⟨hguarded.orderly, hguarded.grants, hguarded.once, fun t ht hover => ?_⟩
  obtain ⟨k, hk⟩ := List.mem_iff_getElem?.mp ht
  obtain ⟨m, hm⟩ := hbonds.exists_member ht
  have hmem := List.mem_of_getElem? hm
  have hpolled := Crew.task_poll_eq (hrests k) hk
  obtain ⟨-, hcancelled⟩ := ((hguarded.orderly.prompt t ht).rests hpolled).resolve_right
    fun hdone => by simp [hdone.1] at hover
  obtain ⟨hleading, -⟩ := hbonds.leading_of_task hk hcancelled hm (hticker m hmem)
  obtain ⟨s, howner, hintime⟩ := htenancy.owner_of_leading hm hleading (htick m hmem)
  obtain ⟨s', howner', -⟩ := hguarded.covered t ht hover
  have hrunner : m.id = t.runner := by
    rw [howner] at howner'
    exact congrArg Ownership.caller (Option.some.inj howner')
  rw [hrunner] at howner hintime
  exact ⟨s, howner, hintime⟩

end Worlds

section Turns

/-- A controller hears of one grant, and leads until it is told to stop. -/
theorem Guarded.once_turn (hguarded : Guarded h c l) (htenancy : Tenancy h c l)
    (hm : c.members[i]? = some m) (hgoes : c.GoesOn m s) (hticker : c.Representable m)
    (htick : m.policy.tick ≤ l.ttl.nanos) (hm' : (c.resume i m s).members[i]? = some m') :
    let h' := (i, Turn.take m.id m.policy c.now m.shutdown m.phase s) :: h
    grantsHeard h' i ≤ 1 ∧ (m'.state ≠ .leading → m'.shutdown = false → grantsHeard h' i = 0) := by
  intro h'
  obtain ⟨honce, hnone⟩ := hguarded.once i m hm
  have hheard := grantsHeard_cons_self i
    (Turn.take m.id m.policy c.now m.shutdown m.phase s) h
  rw [member_resume hm s] at hm'
  cases hm'
  -- Without a grant only a shutdown can end what the last grant began.
  have hquiet (hgrant : (Turn.take m.id m.policy c.now m.shutdown m.phase s).grant? = none) :
      grantsHeard h' i = grantsHeard h i ∧
        ((Turn.take m.id m.policy c.now m.shutdown m.phase s).after.state ≠ .leading →
          m.shutdown = false → m.state ≠ .leading) := by
    rw [hgrant] at hheard
    refine ⟨hheard, fun hafter hshutdown hbefore => ?_⟩
    have hfired := htenancy.shutdown_of_leaving hm htick (.turn hm hgoes)
      (List.mem_singleton.mpr rfl) hbefore hafter
    rw [hfired] at hshutdown
    cases hshutdown
  cases effect_of_goesOn hgoes hticker i with
  | starts hgrant hshutdown hbefore hafter =>
      rw [hgrant, hshutdown, hnone hbefore hshutdown] at hheard
      exact ⟨hheard.le, fun hidle => absurd hafter hidle⟩
  | cancels hgrant | keeps hgrant =>
      obtain ⟨hsame, hbefore⟩ := hquiet hgrant
      rw [hsame]
      exact ⟨honce, fun hafter hshutdown => hnone (hbefore hafter hshutdown) hshutdown⟩

/-- The owner of the lock asked for it under its own name. -/
theorem Tenancy.runner_eq (htenancy : Tenancy h c l) (hcovers : l.Covers c.now t)
    (hm : c.members[t.group]? = some m) : t.runner = m.id := by
  obtain ⟨s, howner, -⟩ := hcovers
  obtain ⟨i, m', hclient, hm', hcaller⟩ := htenancy.owned _ howner
  obtain rfl := Party.member.inj hclient
  rw [hm] at hm'
  cases hm'
  exact hcaller

/-- The tasks that were covered before a turn are covered after it. -/
theorem Guarded.covers_turn (hguarded : Guarded h c l) (hbonds : Bonds resigners h c)
    (htenancy : Tenancy h c l) (hm : c.members[i]? = some m) (hgoes : c.GoesOn m s)
    (hticker : c.Representable m) (htick : m.policy.tick ≤ l.ttl.nanos)
    (ht : t ∈ c.crew.tasks) (hover : t.isOver = false) :
    (l.afterCalls c.now (.member i)
      (Turn.take m.id m.policy c.now m.shutdown m.phase s).requests).Covers c.now t := by
  have hcovers := hguarded.covered t ht hover
  have hturn : (Turn.take m.id m.policy c.now m.shutdown m.phase s).IsOf m.id m.policy :=
    Turn.isOf_take hgoes.due
  by_cases hgroup : i = t.group
  · subst hgroup
    by_cases hafter : (Turn.take m.id m.policy c.now m.shutdown m.phase s).after.state = .leading
    · obtain ⟨s', howner, hintime⟩ := (htenancy.turn hm hgoes hticker).owner_of_leading
        (member_resume hm s) hafter ((OwnerLock.ttl_afterCalls hturn).symm ▸ htick)
      rw [(resume_frame hm s).1] at hintime
      rw [OwnerLock.Covers, htenancy.runner_eq hcovers hm]
      exact ⟨s', howner, hintime⟩
    · cases hshutdown : m.shutdown with
      | true =>
          rw [hshutdown] at hturn
          obtain ⟨notes, hnotes⟩ := hturn.exists_notes
          rw [(Turn.quiet_of_notes hnotes).1]
          exact hcovers
      | false =>
          -- Who left off leading was told to stop, so this controller had no task at all.
          have hbefore : m.state ≠ .leading := fun hbefore => by
            have hfired := htenancy.shutdown_of_leaving hm htick (.turn hm hgoes)
              (List.mem_singleton.mpr rfl) hbefore hafter
            rw [hfired] at hshutdown
            cases hshutdown
          have hnone := hbonds.countP_group hm hticker
          rw [(hguarded.once _ m hm).2 hbefore hshutdown, List.countP_eq_zero] at hnone
          exact absurd (decide_eq_true rfl) (hnone t ht)
  · exact hcovers.of_sameOrLost
      (OwnerLock.sameOrLost_afterCalls hturn fun hsame => hgroup (Party.member.inj hsame))

/-- A task that is started belongs to the owner of the lock. -/
theorem Tenancy.covers_freshTask (htenancy : Tenancy h c l) (hm : c.members[i]? = some m)
    (hgoes : c.GoesOn m s)
    (hgrant : (Turn.take m.id m.policy c.now m.shutdown m.phase s).grant? ≠ none) :
    (l.afterCalls c.now (.member i)
      (Turn.take m.id m.policy c.now m.shutdown m.phase s).requests).Covers c.now
        (m.freshTask i) := by
  rw [afterCalls_of_grant (Turn.isOf_take hgoes.due) hgrant]
  refine ⟨c.now, htenancy.owner_of_grant hm hgoes hgrant, ?_⟩
  simp [OwnerLock.isLapsed]

theorem Guarded.turn (hguarded : Guarded h c l) (hbonds : Bonds resigners h c)
    (htenancy : Tenancy h c l) (hm : c.members[i]? = some m) (hgoes : c.GoesOn m s)
    (hticker : c.Representable m) (htick : m.policy.tick ≤ l.ttl.nanos)
    (hprompt : m.conduct = .prompt) :
    let t := Turn.take m.id m.policy c.now m.shutdown m.phase s
    Guarded ((i, t) :: h) (c.resume i m s) (l.afterCalls c.now (.member i) t.requests) := by
  intro t
  have hnow := (resume_frame hm s).1
  have hcovers {t' : Task} (ht' : t' ∈ c.crew.tasks) (hover : t'.isOver = false) :=
    hguarded.covers_turn hbonds htenancy hm hgoes hticker htick ht' hover
  have honce : ∀ j m', (c.resume i m s).members[j]? = some m' →
      grantsHeard ((i, t) :: h) j ≤ 1 ∧
        (m'.state ≠ .leading → m'.shutdown = false → grantsHeard ((i, t) :: h) j = 0) := by
    intro j m' hm'
    by_cases hij : i = j
    · subst hij
      exact hguarded.once_turn htenancy hm hgoes hticker htick hm'
    · rw [member_resume_of_ne hm s hij] at hm'
      rw [grantsHeard_cons_of_ne hij]
      exact hguarded.once j m' hm'
  rcases crew_resume hm hgoes hticker with ⟨hgrant, -, hcrew⟩ | ⟨hgrant, hcrew | ⟨k, hcrew⟩⟩
  · have hheard : t.grant? ≠ none := Option.isSome_iff_ne_none.mp hgrant
    refine ⟨?_, ?_, honce, ?_⟩ <;> rw [hcrew]
    · exact hguarded.orderly.spawn ⟨hprompt, Or.inl rfl⟩ rfl
    · rw [Chronicle.grants_cons, if_pos hgrant, ← hguarded.grants]
      exact List.length_append
    · intro t' ht' hover
      rw [hnow]
      rcases List.mem_append.mp ht' with ht' | ht'
      · exact hcovers ht' hover
      · rw [List.mem_singleton.mp ht']
        exact htenancy.covers_freshTask hm hgoes hheard
  · refine ⟨?_, ?_, honce, ?_⟩ <;> rw [hcrew]
    · exact hguarded.orderly
    · rw [Chronicle.grants_cons, hgrant]
      exact hguarded.grants
    · rw [hnow]
      exact fun t' => hcovers
  · refine ⟨?_, ?_, honce, ?_⟩ <;> rw [hcrew]
    · exact hguarded.orderly.cancel k
    · rw [Chronicle.grants_cons, hgrant, Crew.length_cancel]
      exact hguarded.grants
    · intro t' ht' hover
      rw [hnow]
      obtain ⟨t₀, ht₀, cancelled, rfl⟩ := Crew.mem_cancel ht'
      exact (hcovers ht₀ hover).congr rfl rfl

end Turns

theorem Guarded.enroll (hguarded : Guarded h c l) (hc : Chronicled h c) :
    Guarded h (c.enroll m) l := by
  refine ⟨hguarded.orderly, hguarded.grants, fun j m' hm' => ?_, hguarded.covered⟩
  rcases member_enroll hm' with hm' | ⟨rfl, rfl⟩
  · exact hguarded.once j m' hm'
  · rw [grantsHeard, hc.absent _ (Nat.le_refl _)]
    exact ⟨Nat.zero_le 1, fun _ _ => rfl⟩

theorem Guarded.dismiss (hguarded : Guarded h c l) (i : Nat) : Guarded h (c.dismiss i) l := by
  obtain ⟨hnow, -, -, hcrew⟩ := dismiss_frame c i
  refine ⟨?_, ?_, fun j m' hm' => ?_, fun t ht hover => ?_⟩
  · rw [hcrew]
    exact hguarded.orderly.foldl_cancel _
  · rw [hcrew, Crew.length_foldl_cancel]
    exact hguarded.grants
  · obtain ⟨m, hm, rfl⟩ := member_dismiss hm'
    obtain ⟨honce, hnone⟩ := hguarded.once j m hm
    refine ⟨honce, fun hidle hshutdown => ?_⟩
    by_cases hij : i = j
    · rw [if_pos hij] at hshutdown
      cases hshutdown
    · rw [if_neg hij] at hidle hshutdown
      exact hnone hidle hshutdown
  · rw [hcrew] at ht
    rw [hnow]
    obtain ⟨t₀, ht₀, cancelled, rfl⟩ := Crew.mem_foldl_cancel ht
    exact (hguarded.covered t₀ ht₀ hover).congr rfl rfl

theorem Guarded.world (hguarded : Guarded h c l) (hbonds : Bonds resigners h c)
    (htenancy : Tenancy h c l) (hticker : ∀ m ∈ c.members, c.Representable m)
    (htick : ∀ m ∈ c.members, m.policy.tick ≤ l.ttl.nanos) (hcalm : Calm c c') :
    Guarded h c' l := by
  obtain ⟨hvirtual, hrests⟩ := hcalm
  cases hvirtual with
  | work j => exact hguarded.work hbonds hticker j
  | queue => exact { hguarded with }
  | pass now hlater hmillis hmembers hsleep =>
      exact hguarded.pass hbonds hticker htick (hrests hlater)
        (htenancy.world (.pass c now hlater hmillis hmembers hsleep))

/-- That controllers fit a lease with some `ttl`: clocks can show their renewals, these come
within the time of the lease, and their tasks return as soon as they are cancelled. -/
def Fits (ttl : Span) (c : Cluster (LeaseTable Party)) : Prop :=
  ∀ m ∈ c.members, c.Representable m ∧ m.policy.tick ≤ ttl.nanos ∧ m.conduct = .prompt

variable {ttl : Span} {name : String} {traced : Bool}

/-- Who fits later did so before. -/
theorem Fits.before (hfits : Fits ttl c') (hstep : Step Open c e c') : Fits ttl c := by
  intro m hm
  obtain ⟨m', hm', hpolicy, hconduct⟩ := hstep.setup_mem hm
  obtain ⟨hticker, htick, hprompt⟩ := hfits m' hm'
  rw [Representable, hpolicy] at hticker
  exact ⟨(Nat.add_le_add_right hstep.now_le _).trans_lt hticker, hpolicy ▸ htick,
    hconduct ▸ hprompt⟩

theorem Calm.isOpen (hcalm : Calm c c') : Open c c' := hcalm.isVirtual.isOpen

/-- In every run all tasks that are not done with belong to the owner of the lock. -/
theorem Run.guarded (run : Run Calm (empty (LeaseTable.new name ttl) traced) h c)
    (hfits : Fits ttl c) : ∃ l, l.ttl = ttl ∧ Tenancy h c l ∧ Guarded h c l := by
  induction run with
  | start =>
      obtain ⟨l, httl, htenancy⟩ := Run.tenancy
        (.start : Run Virtual (empty (LeaseTable.new name ttl) traced) [] _) (by simp [empty])
      refine ⟨l, httl, htenancy, .empty, rfl, ?_, ?_⟩ <;> simp [empty]
  | @step h e c c' run hstep hall =>
      have hbefore := hfits.before (hstep.mono Calm.isOpen)
      have hticker : ∀ m ∈ c.members, c.Representable m := fun m hm => (hbefore m hm).1
      have hbonds := (run.mono Calm.isOpen).bonds
      obtain ⟨l, rfl, htenancy, hguarded⟩ := hall hbefore
      cases hstep with
      | @turn i m s hm hgoes =>
          obtain ⟨hrepresentable, htick, hprompt⟩ := hbefore m (List.mem_of_getElem? hm)
          exact ⟨_, OwnerLock.ttl_afterCalls (Turn.isOf_take hgoes.due),
            htenancy.turn hm hgoes hrepresentable,
            hguarded.turn hbonds htenancy hm hgoes hrepresentable htick hprompt⟩
      | enroll hphase hepisode hcall =>
          exact ⟨l, rfl, htenancy.enroll hphase,
            hguarded.enroll (run.mono Calm.isOpen).chronicled⟩
      | dismiss i => exact ⟨l, rfl, htenancy.dismiss i, hguarded.dismiss i⟩
      | world hcalm =>
          exact ⟨l, rfl, htenancy.world hcalm.isVirtual, hguarded.world hbonds htenancy hticker
            (fun m hm => (hbefore m hm).2.1) hcalm⟩

section Rest

/-- A controller that leads and waits was not told to stop. -/
theorem shutdown_of_rests (hleading : m.state = .leading) (hsound : m.phase ≠ .failed)
    (hrests : m.signal? c.now = none) : m.shutdown = false := by
  by_contra hshutdown
  rw [Bool.not_eq_false] at hshutdown
  cases hphase : m.phase with
  | leading | renewing =>
      rw [Member.signal?, hphase, hshutdown] at hrests
      cases hrests
  | failed => exact hsound hphase
  | _ =>
      rw [Member.state, hphase] at hleading
      cases hleading

/-- When all wait, a task runs, not cancelled, for a leader, or it has returned. -/
theorem Guarded.running_or_over (hguarded : Guarded h c l) (hbonds : Bonds resigners h c)
    (hticker : ∀ m ∈ c.members, c.Representable m) (hrests : c.Rests)
    (hk : c.crew.tasks[k]? = some t) :
    t.isRunning = true ∧ (∃ m, c.members[t.group]? = some m ∧ m.state = .leading) ∨
      t.isOver = true := by
  have hprompt := hguarded.orderly.prompt t (List.mem_of_getElem? hk)
  rcases hprompt.rests (Crew.task_poll_eq (hrests.crew k) hk) with
    ⟨hrunning, hcancelled⟩ | ⟨hover, -⟩
  · obtain ⟨m, hm⟩ := hbonds.exists_member (List.mem_of_getElem? hk)
    have hleading := hbonds.leading_of_task hk hcancelled hm
      (hticker m (List.mem_of_getElem? hm))
    exact Or.inl ⟨hrunning, m, hm, hleading.1⟩
  · exact Or.inr hover

/-- When all wait, every task that was started has begun. -/
theorem Guarded.starts_eq (hguarded : Guarded h c l) (hbonds : Bonds resigners h c)
    (hticker : ∀ m ∈ c.members, c.Representable m) (hrests : c.Rests) :
    c.crew.record.starts = h.grants := by
  rw [hguarded.orderly.counts.starts, ← hguarded.grants, List.countP_eq_length]
  intro t ht
  obtain ⟨k, hk⟩ := List.mem_iff_getElem?.mp ht
  rcases hguarded.running_or_over hbonds hticker hrests hk with ⟨hrunning, -⟩ | hover
  · exact Task.hasBegun_of_isRunning hrunning
  · exact (hguarded.orderly.prompt t ht).hasBegun_of_isOver hover

/-- When all wait, the task of a leader runs. -/
theorem Guarded.runner_of_leading (hguarded : Guarded h c l)
    (hbonds : Bonds (fun _ => False) h c) (htenancy : Tenancy h c l)
    (hticker : ∀ m ∈ c.members, c.Representable m) (hrests : c.Rests)
    (hm : c.members[i]? = some m) (hleading : m.state = .leading) (hsound : m.phase ≠ .failed) :
    c.crew.record.runner = some m.id ∧ c.crew.record.live = 1 := by
  have hmem := List.mem_of_getElem? hm
  have hbound := hbonds.bound i m hm (hticker m hmem)
  have hshutdown := shutdown_of_rests hleading hsound (hrests.members m hmem).1
  obtain ⟨e, he⟩ := Option.ne_none_iff_exists'.mp (hbound.begun hleading)
  have hlive : m.liveTask? = some e.task := by
    rw [Member.liveTask?, if_pos ⟨hleading, hshutdown⟩, he]
    rfl
  -- The task that the leader began last was not cancelled, so it runs.
  obtain ⟨cancelled, hmark, hresigned⟩ := hbound.kept e.task hlive
  rw [Crew.marks, List.getElem?_map] at hmark
  obtain ⟨t, ht, hmark⟩ := Option.map_eq_some_iff.mp hmark
  obtain ⟨rfl, hsame⟩ := Prod.mk.inj hmark
  have hcancelled : t.cancelled = false := hsame.trans (Bool.eq_false_iff.mpr hresigned)
  have hprompt := hguarded.orderly.prompt t (List.mem_of_getElem? ht)
  have hrunning : t.isRunning = true := by
    rcases hprompt.rests (Crew.task_poll_eq (hrests.crew e.task) ht) with
      ⟨hrunning, -⟩ | ⟨-, hdone⟩
    · exact hrunning
    · rw [hcancelled] at hdone
      cases hdone
  have hover := Task.isOver_of_isRunning hrunning
  have hsolo := hguarded.solo hbonds hticker
  have hrunner := htenancy.runner_eq
    (hguarded.covered t (List.mem_of_getElem? ht) hover) hm
  constructor
  · rw [hguarded.orderly.runner, hsolo.countP_running ht hover]
    exact ⟨hrunning, hrunner⟩
  · rw [hguarded.orderly.counts.live,
      hsolo.countP_eq ht hover fun _ => Task.isOver_of_isRunning, if_pos hrunning]

/-- When all wait and nobody leads, no task runs. -/
theorem Guarded.runner_of_idle (hguarded : Guarded h c l) (hbonds : Bonds resigners h c)
    (hticker : ∀ m ∈ c.members, c.Representable m) (hrests : c.Rests)
    (hidle : ∀ m ∈ c.members, m.state ≠ .leading) :
    c.crew.record.runner = none ∧ c.crew.record.live = 0 := by
  have hnone : ∀ t ∈ c.crew.tasks, ¬t.isRunning = true := by
    intro t ht hrunning
    obtain ⟨k, hk⟩ := List.mem_iff_getElem?.mp ht
    rcases hguarded.running_or_over hbonds hticker hrests hk with ⟨-, m, hm, hleading⟩ | hover
    · exact hidle m (List.mem_of_getElem? hm) hleading
    · rw [Task.isOver_of_isRunning hrunning] at hover
      cases hover
  constructor
  · by_contra hsome
    obtain ⟨id, hid⟩ := Option.ne_none_iff_exists'.mp hsome
    obtain ⟨t, ht, hrunning⟩ := List.countP_pos_iff.mp ((hguarded.orderly.runner id).mp hid)
    exact hnone t ht (Bool.and_eq_true_iff.mp hrunning).1
  · rw [hguarded.orderly.counts.live, List.countP_eq_zero]
    exact hnone

/-- What the record of the task shows when all wait. -/
theorem Guarded.serves {service : LeaseTable Party} {traced : Bool} (hguarded : Guarded h c l)
    (run : Run Calm (empty service traced) h c) (htenancy : Tenancy h c l)
    (hticker : ∀ m ∈ c.members, c.Representable m) (hrests : c.Rests) :
    c.crew.record.starts = h.grants ∧
      (∀ m ∈ c.members, m.state = .leading →
        c.crew.record.runner = some m.id ∧ c.crew.record.live = 1) ∧
      ((∀ m ∈ c.members, m.state ≠ .leading) →
        c.crew.record.runner = none ∧ c.crew.record.live = 0) := by
  -- In a calm world no task cancels its own token.
  have hbonds : Bonds (fun _ => False) h c :=
    (run.mono fun hcalm => hcalm.isVirtual.resigning _).bonds_of_resigning
  refine ⟨hguarded.starts_eq hbonds hticker hrests, fun m hm hleading => ?_, ?_⟩
  · obtain ⟨i, hi⟩ := List.mem_iff_getElem?.mp hm
    exact hguarded.runner_of_leading hbonds htenancy hticker hrests hi hleading
      ((run.mono Calm.isOpen).phase_ne_failed hi (hticker m hm))
  · exact hguarded.runner_of_idle hbonds hticker hrests

end Rest

/-- Whenever controllers start and are told to stop, however often the lease changes hands
and in whatever order they and their tasks go on at one instant: of tasks that return as
soon as they are cancelled never more than one runs.  Whenever all wait, the task was started
once for every grant that was heard of; it runs for the leader, if there is one, and else it
does not run. -/
theorem task_runs_for_leader
    (run : Run Calm (empty (LeaseTable.new name ttl) traced) h c)
    (hticker : ∀ m ∈ c.members, c.Representable m)
    (htick : ∀ m ∈ c.members, m.policy.tick ≤ ttl.nanos)
    (hprompt : ∀ m ∈ c.members, m.conduct = .prompt) :
    c.crew.record.maxLive ≤ 1 ∧
      (c.Rests →
        c.crew.record.starts = h.grants ∧
        (∀ m ∈ c.members, m.state = .leading →
          c.crew.record.runner = some m.id ∧ c.crew.record.live = 1) ∧
        ((∀ m ∈ c.members, m.state ≠ .leading) →
          c.crew.record.runner = none ∧ c.crew.record.live = 0)) := by
  obtain ⟨l, rfl, htenancy, hguarded⟩ :=
    run.guarded fun m hm => ⟨hticker m hm, htick m hm, hprompt m hm⟩
  refine ⟨hguarded.orderly.maxLive, fun hrests => ?_⟩
  exact hguarded.serves run htenancy hticker hrests

/-- The task of a leader that renewed the lease runs, while its rival waits. -/
theorem task_runs_for_leader_of_rivals :
    ∃ (h : Chronicle) (c : Cluster (LeaseTable Party)) (m m' : Member),
      Run Calm (empty (LeaseTable.new "lock" (.ofMillis 10)) false) h c ∧
        c.now = 5000000 ∧ c.members = [m, m'] ∧ m.state = .leading ∧ m'.state = .waiting ∧
        c.Rests ∧ h.grants = 1 ∧ c.crew.record.starts = 1 ∧ c.crew.record.maxLive ≤ 1 ∧
        c.crew.record.runner = some m.id ∧ c.crew.record.live = 1 := by
  let table : LeaseTable Party := .new "lock" (.ofMillis 10)
  let m : Member :=
    { name := "first", id := ⟨"first"⟩, policy := ⟨.ofMillis 5, .ofMillis 7, .zero⟩,
      conduct := .prompt }
  let m' : Member := { m with name := "second", id := ⟨"second"⟩ }
  let leader (phase : Phase) : Member := { m with phase, episode := some ⟨⟨"lock-1"⟩, 0, 0⟩ }
  let rival : Member := { m' with phase := .retrying 7000000 }
  have enrolled : Run Calm (empty table false) [] (((empty table false).enroll m).enroll m') :=
    .step (.step .start (.enroll _ rfl rfl rfl)) (.enroll _ rfl rfl rfl)
  have begun := enrolled.step (.turn (i := 0) (m := m) (s := .begun)
    (by decide) (.signalled (by decide)))
  have asked := begun.step (.turn (i := 0) (m := { m with phase := .starting 0 })
    (s := .elapsed) (by decide) (.signalled (by decide)))
  have granted := asked.step (.turn (i := 0) (s := .answered (.granted ⟨"lock-1"⟩))
    rfl (.signalled (by decide)))
  have worked := granted.step (.world ⟨.work _ 0, fun hlater => absurd hlater (by decide)⟩)
  have begun' := worked.step (.turn (i := 1) (m := m') (s := .begun)
    (by decide) (.signalled (by decide)))
  have asked' := begun'.step (.turn (i := 1) (m := { m' with phase := .starting 0 })
    (s := .elapsed) (by decide) (.signalled (by decide)))
  have denied := asked'.step (.turn (i := 1)
    (m := { m' with phase := .acquiring, call := some ⟨.acquire m'.id, 0, 0, .denied⟩ })
    (s := .answered .denied) (by decide) (.signalled (by decide)))
  have later := denied.step (.world ⟨.pass _ 5000000
    (by decide) (by decide) (by decide) (by decide),
    fun _ => Crew.poll_eq_of_lt (by decide)⟩)
  have renewing := later.step (.turn (i := 0)
    (m := leader (.leading ⟨⟨"lock-1"⟩, 0⟩ ⟨5000000, 5000000⟩))
    (s := .elapsed) (by decide) (.signalled (by decide)))
  have renewed := renewing.step (.turn (i := 0)
    (m := { leader (.renewing ⟨⟨"lock-1"⟩, 0⟩ ⟨10000000, 5000000⟩) with
      call := some ⟨.renew, 5000000, 5000000, .done⟩ })
    (s := .answered .done) (by decide) (.signalled (by decide)))
  obtain ⟨hmax, hall⟩ := task_runs_for_leader renewed (by unfold Representable; decide)
    (by decide) (by decide)
  obtain ⟨hstarts, hleader, -⟩ := hall ⟨by decide, Crew.poll_eq_of_lt (by decide)⟩
  obtain ⟨hrunner, hlive⟩ := hleader (leader (.leading ⟨⟨"lock-1"⟩, 0⟩ ⟨10000000, 5000000⟩))
    (by decide) rfl
  exact ⟨_, _, _, rival, renewed, by decide, by decide, rfl, rfl,
    ⟨by decide, Crew.poll_eq_of_lt (by decide)⟩, by decide, hstarts.trans (by decide), hmax,
    hrunner, hlive⟩

end Guards

end Cluster

end LeaseElection
