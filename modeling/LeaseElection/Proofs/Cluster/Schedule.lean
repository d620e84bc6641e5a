import LeaseElection.Proofs.Alarms
import LeaseElection.Proofs.Cluster.Runs
import LeaseElection.Proofs.Cluster.Waits

/-!
# The schedule of a cluster

A cluster lets those go on who can, in order, and nobody is forgotten: who may go on is
in a queue, and all others have their alarms set.  If all controllers have a wait
between their attempts, only so many steps can be taken at one instant, and the cluster
has the patience for them.
-/

namespace LeaseElection

open Controller (Phase Signal Action Turn)

namespace Cluster

variable {σ : Type} {c c' c'' : Cluster σ} {i j : Nat} {m m' : Member} {s : Signal}

section Queues

/-- That a cluster has the queues of another, but for some who were woken since. -/
structure Wakes (c c' : Cluster σ) (woken : Nat) : Prop where
  yielded : c'.yielded = c.yielded
  alarms : c'.alarms = c.alarms
  ready : ∃ rs, c'.ready = c.ready ++ rs ∧ rs.length ≤ woken

namespace Wakes

variable {n n' : Nat}

theorem refl (c : Cluster σ) : Wakes c c 0 :=
  ⟨rfl, rfl, [], (List.append_nil _).symm, Nat.le_refl _⟩

/-- Only the queues matter. -/
theorem congr (hwakes : Wakes c c' n) (hready : c''.ready = c'.ready)
    (hyielded : c''.yielded = c'.yielded) (halarms : c''.alarms = c'.alarms) :
    Wakes c c'' n where
  yielded := hyielded.trans hwakes.yielded
  alarms := halarms.trans hwakes.alarms
  ready := hready ▸ hwakes.ready

theorem trans (hfirst : Wakes c c' n) (hsecond : Wakes c' c'' n') : Wakes c c'' (n + n') := by
  obtain ⟨rs, hready, hlength⟩ := hfirst.ready
  obtain ⟨rs', hready', hlength'⟩ := hsecond.ready
  refine ⟨hsecond.yielded.trans hfirst.yielded, hsecond.alarms.trans hfirst.alarms,
    rs ++ rs', ?_, ?_⟩
  · rw [hready', hready, List.append_assoc]
  · rw [List.length_append]
    exact Nat.add_le_add hlength hlength'

theorem mem_ready (hwakes : Wakes c c' n) {r : Runner} (hr : r ∈ c.ready) : r ∈ c'.ready := by
  obtain ⟨rs, hready, -⟩ := hwakes.ready
  rw [hready]
  exact List.mem_append_left _ hr

theorem length_ready_le (hwakes : Wakes c c' n) : c'.ready.length ≤ c.ready.length + n := by
  obtain ⟨rs, hready, hlength⟩ := hwakes.ready
  rw [hready, List.length_append]
  exact Nat.add_le_add_left hlength _

theorem wake (hwakes : Wakes c c' n) (r : Runner) : Wakes c (c'.wake r) (n + 1) := by
  apply hwakes.trans
  rw [Cluster.wake]
  split
  · exact ⟨rfl, rfl, [], (List.append_nil _).symm, Nat.zero_le _⟩
  · exact ⟨rfl, rfl, [r], rfl, Nat.le_refl _⟩

theorem foldl_cancelTask (hwakes : Wakes c c' n) (tasks : List Nat) :
    Wakes c (tasks.foldl cancelTask c') (n + tasks.length) := by
  induction tasks generalizing c' n with
  | nil => exact hwakes
  | cons j tasks hall =>
      have hcancelled : Wakes c { c' with crew := c'.crew.cancel j } n :=
        hwakes.congr rfl rfl rfl
      rw [List.length_cons, Nat.add_comm tasks.length, ← Nat.add_assoc]
      exact hall (hcancelled.wake (.task j))

theorem perform [LockService σ] (i : Nat) (m : Member) (c : Cluster σ) (a : Action) :
    Wakes c (perform i m c a) (Controller.wakings [a]) := by
  have hwaken (c' : Cluster σ) (r : Runner) (hsame : Wakes c c' 0) :
      Wakes c (c'.wake r) 1 := hsame.wake r
  cases a with
  | note | call => exact (refl c).congr rfl rfl rfl
  | startTask token => exact hwaken _ _ ((refl c).congr rfl rfl rfl)
  | cancelTask =>
      simp only [Cluster.perform]
      split
      · exact ⟨rfl, rfl, [], (List.append_nil _).symm, Nat.zero_le _⟩
      · exact hwaken _ _ ((refl c).congr rfl rfl rfl)

theorem foldl_perform [LockService σ] (i : Nat) (m : Member) (actions : List Action)
    (c : Cluster σ) :
    Wakes c (actions.foldl (Cluster.perform i m) c) (Controller.wakings actions) := by
  induction actions generalizing c with
  | nil => exact refl c
  | cons a actions hall =>
      have hsum : Controller.wakings (a :: actions) =
          Controller.wakings [a] + Controller.wakings actions := by
        rw [Controller.wakings, ← List.singleton_append, List.countP_append]
        rfl
      rw [hsum]
      exact (perform i m c a).trans (hall _)

theorem hear (c : Cluster σ) (m : Member) : Wakes c (c.hear m) 0 := by
  rw [Cluster.hear]
  cases m.call with
  | none => exact refl c
  | some k =>
      dsimp only
      split <;> exact (refl c).congr rfl rfl rfl

/-- A turn wakes task instances only. -/
theorem resume [LockService σ] (c : Cluster σ) (i : Nat) (m : Member) (s : Signal) :
    Wakes c (c.resume i m s)
      (Controller.wakings (Controller.resume m.id m.policy c.now m.phase s).2) := by
  have hstep (c' : Cluster σ) (hnow : c'.now = c.now) (hsame : Wakes c c' 0) :
      Wakes c ((Controller.resume m.id m.policy c'.now m.phase s).2.foldl (Cluster.perform i m)
        (c'.modify i fun m' => { m' with
          phase := (Controller.resume m.id m.policy c'.now m.phase s).1, call := none }))
        (Controller.wakings (Controller.resume m.id m.policy c.now m.phase s).2) := by
    have hmodified (f : Member → Member) : Wakes c (c'.modify i f) 0 :=
      hsame.congr rfl rfl rfl
    rw [hnow, ← Nat.zero_add (Controller.wakings _)]
    exact (hmodified _).trans (foldl_perform i m _ _)
  cases s with
  | answered a => exact hstep (c.hear m) (hear_frame c m).1 (hear c m)
  | begun | cancelled | elapsed | resumed => exact hstep c rfl (refl c)

end Wakes

theorem mem_ready_wake (c : Cluster σ) (r : Runner) : r ∈ (c.wake r).ready := by
  rw [wake]
  split
  · assumption
  · exact List.mem_append_right _ (List.mem_singleton.mpr rfl)

end Queues

/-- That a controller can only wait, and that its alarm is set. -/
structure Parked (c : Cluster σ) (i : Nat) (m : Member) : Prop where
  rests : m.signal? c.now = none
  stays : ∀ completed, m.phase ≠ .yielding completed
  alarm : ∀ wake, m.wake? = some wake → (.member i, wake) ∈ c.alarms.pending

/-- That a controller has its place: in a queue, or parked. -/
def Placed (c : Cluster σ) (i : Nat) (m : Member) : Prop :=
  .member i ∈ c.ready ∨ i ∈ c.yielded ∨ c.Parked i m

/-- Who stays in its queue, or keeps its alarm, has its place. -/
theorem Placed.mono (hplaced : c.Placed i m) (hnow : c'.now = c.now)
    (hready : .member i ∈ c.ready → .member i ∈ c'.ready)
    (hyielded : i ∈ c.yielded → .member i ∈ c'.ready ∨ i ∈ c'.yielded)
    (halarms : ∀ wake, (.member i, wake) ∈ c.alarms.pending →
      (.member i, wake) ∈ c'.alarms.pending) : c'.Placed i m := by
  rcases hplaced with hqueued | hqueued | hparked
  · exact Or.inl (hready hqueued)
  · exact (hyielded hqueued).imp_right Or.inl
  · exact Or.inr (Or.inr ⟨hnow ▸ hparked.rests, hparked.stays,
      fun wake hwake => halarms wake (hparked.alarm wake hwake)⟩)

theorem Wakes.placed {n : Nat} (hwakes : Wakes c c' n) (hnow : c'.now = c.now)
    (hplaced : c.Placed i m) : c'.Placed i m := by
  apply hplaced.mono hnow hwakes.mem_ready
  · rw [hwakes.yielded]
    exact Or.inr
  · rw [hwakes.alarms]
    exact fun _ => id

/-- That nobody is forgotten: every controller has its place. -/
structure Tidy (c : Cluster σ) : Prop where
  millis : 1000000 ∣ c.now
  alarms : ∀ p ∈ c.alarms.pending, 1000000 ∣ p.2
  tasks : ∀ t ∈ c.crew.tasks, t.IsTimed
  members : ∀ m ∈ c.members, m.IsTimed
  yields : ∀ i ∈ c.yielded, ∃ m completed, c.members[i]? = some m ∧ m.phase = .yielding completed
  nodup : c.yielded.Nodup
  placed : ∀ i m, c.members[i]? = some m → c.Placed i m

/-- How many turns several controllers can take at `now` at most. -/
def turnsLeft (now : Nat) : List Member → Nat
  | [] => 0
  | m :: members => m.phase.turnsLeft now + turnsLeft now members

theorem turnsLeft_le (now : Nat) (members : List Member) :
    turnsLeft now members ≤ 17 * members.length := by
  induction members with
  | nil => exact Nat.le_refl _
  | cons m members hall =>
      have hfirst := m.phase.turnsLeft_le now
      simp only [turnsLeft, List.length_cons]
      omega

theorem turnsLeft_set (now : Nat) {members : List Member} (hm : members[i]? = some m)
    (m' : Member) :
    turnsLeft now (members.set i m') + m.phase.turnsLeft now =
      turnsLeft now members + m'.phase.turnsLeft now := by
  induction members generalizing i with
  | nil => cases hm
  | cons m₀ members hall =>
      cases i with
      | zero =>
          cases hm
          simp only [List.set_cons_zero, turnsLeft]
          omega
      | succ i =>
          have hrest := hall hm
          simp only [List.set_cons_succ, turnsLeft]
          omega

/-- How many steps can be taken at this instant at most. -/
def potential (c : Cluster σ) : Nat := c.ready.length + 2 * turnsLeft c.now c.members

theorem potential_le_patience (c : Cluster σ) : c.potential ≤ c.patience := by
  have hturns := turnsLeft_le c.now c.members
  unfold potential patience
  omega

section Waits

/-- A controller that waits lets others run if its phase says so, and its alarm is set. -/
theorem park_eq (hm : c.members[i]? = some m) :
    ∃ yielded, c.park i = { c with yielded, alarms := c.alarms.set (.member i) m.wake? } ∧
      (∀ j, j ∈ yielded ↔
        j ∈ c.yielded ∨ j = i ∧ ∃ completed, m.phase = .yielding completed) ∧
      (c.yielded.Nodup → yielded.Nodup) := by
  cases hphase : m.phase with
  | yielding completed =>
      by_cases hi : i ∈ c.yielded
      · refine ⟨c.yielded, by simp [park, hm, hphase, hi], fun j => ?_, id⟩
        constructor
        · exact Or.inl
        · rintro (hj | ⟨rfl, -⟩)
          · exact hj
          · exact hi
      · refine ⟨c.yielded ++ [i], by simp [park, hm, hphase, hi], by simp, fun hnodup => ?_⟩
        apply List.nodup_append.mpr ⟨hnodup, List.nodup_singleton i, ?_⟩
        rintro j hj k hk rfl
        exact hi (List.mem_singleton.mp hk ▸ hj)
  | _ => exact ⟨c.yielded, by simp [park, hm, hphase], by simp, id⟩

theorem Tidy.park (htidy : c.Tidy) {rest : List Runner} (hready : c.ready = .member i :: rest)
    (hm : c.members[i]? = some m) (hrest : m.signal? c.now = none) :
    ({ c with ready := rest }.park i).Tidy := by
  obtain ⟨yielded, hpark, hmem, hnodup⟩ := park_eq (c := { c with ready := rest }) hm
  rw [hpark]
  constructor
  · exact htidy.millis
  · intro p hp
    rcases Alarms.of_mem_pending_set hp with hp | ⟨-, hwake⟩
    · exact htidy.alarms p hp
    · exact (htidy.members m (List.mem_of_getElem? hm)).wake_dvd hwake
  · exact htidy.tasks
  · exact htidy.members
  · intro j hj
    rcases (hmem j).mp hj with hj | ⟨rfl, completed, hphase⟩
    · exact htidy.yields j hj
    · exact ⟨m, completed, hm, hphase⟩
  · exact hnodup htidy.nodup
  · intro j m' hm'
    by_cases hij : i = j
    · subst hij
      rw [hm] at hm'
      cases hm'
      by_cases hyields : ∃ completed, m.phase = .yielding completed
      · exact Or.inr (Or.inl ((hmem i).mpr (Or.inr ⟨rfl, hyields⟩)))
      · refine Or.inr (Or.inr ⟨hrest, not_exists.mp hyields, fun wake hwake => ?_⟩)
        rw [hwake]
        exact Alarms.mem_pending_set _ _ _
    · have hrunner : Runner.member j ≠ .member i := fun hsame => hij (Runner.member.inj hsame).symm
      refine (htidy.placed j m' hm').mono rfl ?_ ?_ ?_
      · intro hqueued
        rw [hready] at hqueued
        exact List.mem_of_ne_of_mem hrunner hqueued
      · exact fun hqueued => Or.inr ((hmem j).mpr (Or.inl hqueued))
      · exact fun wake hwake => Alarms.mem_pending_set_of_ne hwake hrunner _

theorem Tidy.poll (htidy : c.Tidy) {rest : List Runner} (hready : c.ready = .task j :: rest) :
    ({ c with
      ready := rest
      crew := c.crew.poll c.now j
      alarms := c.alarms.set (.task j) ((c.crew.poll c.now j).alarm? j) } : Cluster σ).Tidy := by
  have htasks := Crew.isTimed_poll htidy.tasks c.now j
  constructor
  · exact htidy.millis
  · intro p hp
    rcases Alarms.of_mem_pending_set hp with hp | ⟨-, hwake⟩
    · exact htidy.alarms p hp
    · obtain ⟨t, ht, hwake⟩ := Option.bind_eq_some_iff.mp hwake
      exact htasks t (List.mem_of_getElem? ht) _ hwake
  · exact htasks
  · exact htidy.members
  · exact htidy.yields
  · exact htidy.nodup
  · intro i m hm
    have hrunner : Runner.member i ≠ .task j := by rintro ⟨⟩
    refine (htidy.placed i m hm).mono rfl ?_ ?_ ?_
    · intro hqueued
      rw [hready] at hqueued
      exact List.mem_of_ne_of_mem hrunner hqueued
    · exact Or.inr
    · exact fun wake hwake => Alarms.mem_pending_set_of_ne hwake hrunner _

end Waits

section Turns

variable [LockService σ]

theorem Tidy.resume (htidy : c.Tidy) (hm : c.members[i]? = some m) (hgoes : c.GoesOn m s)
    (hready : .member i ∈ c.ready) (hyielded : i ∉ c.yielded) : (c.resume i m s).Tidy := by
  obtain ⟨hnow, hframe⟩ := resume_frame hm s
  have hself := member_resume hm s
  have hwakes := Wakes.resume c i m s
  have hmember : m.IsTimed := htidy.members m (List.mem_of_getElem? hm)
  have hcourse := Controller.course_of_due hgoes.due m.id m.policy
  have htimed : (c.reach i m (Turn.take m.id m.policy c.now m.shutdown m.phase s)).IsTimed :=
    Reach.IsTimed.foldl_act htidy.millis i m _ ⟨htidy.tasks, by rintro k ⟨⟩⟩
  constructor
  · rw [hnow]
    exact htidy.millis
  · rw [hwakes.alarms]
    exact htidy.alarms
  · rw [hframe.crew]
    exact htimed.tasks
  · intro m' hm'
    obtain ⟨j, hj⟩ := List.mem_iff_getElem?.mp hm'
    by_cases hij : i = j
    · subst hij
      rw [hself] at hj
      cases hj
      exact ⟨hmember.wait, hcourse.isTimed hmember.phase, htimed.call⟩
    · rw [member_resume_of_ne hm s hij] at hj
      exact htidy.members m' (List.mem_of_getElem? hj)
  · intro j hj
    rw [hwakes.yielded] at hj
    have hij : i ≠ j := fun hij => hyielded (hij ▸ hj)
    rw [member_resume_of_ne hm s hij]
    exact htidy.yields j hj
  · rw [hwakes.yielded]
    exact htidy.nodup
  · intro j m' hm'
    by_cases hij : i = j
    · subst hij
      exact Or.inl (hwakes.mem_ready hready)
    · rw [member_resume_of_ne hm s hij] at hm'
      exact hwakes.placed hnow (htidy.placed j m' hm')

/-- What a turn adds to the queue and takes from the turns that are left. -/
theorem potential_resume_le (hm : c.members[i]? = some m) (s : Signal) :
    let step := Controller.resume m.id m.policy c.now m.phase s
    (c.resume i m s).potential + 2 * m.phase.turnsLeft c.now ≤
      c.potential + 2 * step.1.turnsLeft c.now + Controller.wakings step.2 := by
  intro step
  obtain ⟨hnow, hframe⟩ := resume_frame hm s
  have hready : (c.resume i m s).ready.length ≤ c.ready.length + Controller.wakings step.2 :=
    (Wakes.resume c i m s).length_ready_le
  obtain ⟨m', hphase, hmembers⟩ : ∃ m' : Member, m'.phase = step.1 ∧
      (c.resume i m s).members = c.members.set i m' := ⟨_, rfl, hframe.members⟩
  have hturns := turnsLeft_set c.now hm m'
  rw [hphase] at hturns
  unfold potential
  rw [hnow, hmembers]
  omega

/-- A turn that was due leaves fewer steps to take. -/
theorem potential_resume_lt (hm : c.members[i]? = some m) (hgoes : c.GoesOn m s)
    (htimed : m.IsTimed) : (c.resume i m s).potential < c.potential := by
  have hcourse := Controller.course_of_due hgoes.due m.id m.policy
  have hfewer := hcourse.turnsLeft_lt htimed.wait htimed.phase
  have hle := potential_resume_le hm s
  dsimp only at hle
  omega

/-- Who goes on after the others wakes nobody. -/
theorem potential_resumed_lt (hm : c.members[i]? = some m) {completed : Bool}
    (hphase : m.phase = .yielding completed) (htimed : m.IsTimed) (taskOver : Bool) :
    (c.resume i m (.resumed taskOver)).potential + 1 < c.potential := by
  have hdue : Controller.Due c.now m.shutdown m.phase (.resumed taskOver) := by
    rw [hphase]
    exact .resumed completed taskOver
  have hcourse := Controller.course_of_due hdue m.id m.policy
  have hfewer := hcourse.turnsLeft_lt htimed.wait htimed.phase
  have hsilent : Controller.wakings
      (Controller.resume m.id m.policy c.now m.phase (.resumed taskOver)).2 = 0 := by
    rw [hphase]
    cases completed with
    | true => exact Controller.wakings_map_note _
    | false => exact Controller.wakings_map_note _
  have hle := potential_resume_le hm (.resumed taskOver)
  dsimp only at hle
  omega

/-- What a step of the schedule comes to: a step of a run that forgets nobody and leaves
fewer steps to take. -/
structure Proceeds (c c' : Cluster σ) : Prop where
  run : ∃ h, Run Virtual c h c'
  tidy : c'.Tidy
  now_eq : c'.now = c.now
  fewer : c'.potential < c.potential

omit [LockService σ] in
/-- A controller that lets others run has no reason of its own to go on. -/
theorem Tidy.notMem_yielded (htidy : c.Tidy) (hm : c.members[i]? = some m)
    (hsignal : m.signal? c.now = some s) : i ∉ c.yielded := by
  intro hi
  obtain ⟨m', completed, hm', hphase⟩ := htidy.yields i hi
  rw [hm] at hm'
  cases hm'
  rw [Member.signal?, hphase] at hsignal
  cases hsignal

theorem Tidy.proceeds_turn (htidy : c.Tidy) {rest : List Runner}
    (hready : c.ready = .member i :: rest) (hm : c.members[i]? = some m)
    (hsignal : m.signal? c.now = some s) : c.Proceeds (c.resume i m s) where
  run := ⟨_, .step .start (.turn hm (.signalled hsignal))⟩
  tidy := htidy.resume hm (.signalled hsignal) (hready ▸ List.mem_cons_self)
    (htidy.notMem_yielded hm hsignal)
  now_eq := (resume_frame hm s).1
  fewer := potential_resume_lt hm (.signalled hsignal)
    (htidy.members m (List.mem_of_getElem? hm))

theorem Tidy.proceeds_park (htidy : c.Tidy) {rest : List Runner}
    (hready : c.ready = .member i :: rest) (hm : c.members[i]? = some m)
    (hsignal : m.signal? c.now = none) : c.Proceeds ({ c with ready := rest }.park i) := by
  have hparked := htidy.park hready hm hsignal
  obtain ⟨yielded, hpark, -⟩ := park_eq (c := { c with ready := rest }) hm
  rw [hpark] at hparked ⊢
  refine ⟨⟨_, .step .start (.world (.queue c rest yielded _))⟩, hparked, rfl, ?_⟩
  simp [potential, hready]

theorem Tidy.proceeds_skip (htidy : c.Tidy) {rest : List Runner}
    (hready : c.ready = .member i :: rest) (hnone : c.members[i]? = none) :
    c.Proceeds { c with ready := rest } := by
  refine ⟨⟨_, .step .start (.world (.queue c rest c.yielded c.alarms))⟩, ?_, rfl, ?_⟩
  · refine { htidy with placed := fun j m' hm' => ?_ }
    have hij : Runner.member j ≠ .member i := by
      rintro ⟨⟩
      rw [hnone] at hm'
      cases hm'
    refine (htidy.placed j m' hm').mono rfl (fun hqueued => ?_) Or.inr fun _ => id
    rw [hready] at hqueued
    exact List.mem_of_ne_of_mem hij hqueued
  · simp [potential, hready]

theorem Tidy.proceeds_poll (htidy : c.Tidy) {rest : List Runner}
    (hready : c.ready = .task j :: rest) :
    c.Proceeds { c with
      ready := rest
      crew := c.crew.poll c.now j
      alarms := c.alarms.set (.task j) ((c.crew.poll c.now j).alarm? j) } := by
  refine ⟨⟨_, .step (.step .start (.world (.work c j))) (.world (.queue _ rest c.yielded _))⟩,
    htidy.poll hready, rfl, ?_⟩
  simp [potential, hready]

/-- Nobody is ready, and the first goes on of those that let others run. -/
theorem Tidy.proceeds_yielded (htidy : c.Tidy) {rest : List Nat} (hready : c.ready = [])
    (hyielded : c.yielded = i :: rest) (hm : c.members[i]? = some m) :
    let c₁ := { c with yielded := rest, ready := [.member i] }
    c.Proceeds (c₁.resume i m (.resumed (c₁.isTaskOver m))) := by
  intro c₁
  obtain ⟨m', completed, hm', hphase⟩ := htidy.yields i (hyielded ▸ List.mem_cons_self)
  rw [hm] at hm'
  cases hm'
  have hgoes : c₁.GoesOn m (.resumed (c₁.isTaskOver m)) := .resumed hphase
  have hnodup := htidy.nodup
  rw [hyielded, List.nodup_cons] at hnodup
  have htidy₁ : c₁.Tidy := by
    refine { htidy with yields := ?_, nodup := hnodup.2, placed := ?_ }
    · exact fun j hj => htidy.yields j (hyielded ▸ List.mem_cons_of_mem i hj)
    · intro j m' hm'
      refine (htidy.placed j m' hm').mono rfl (fun hqueued => ?_) (fun hqueued => ?_) fun _ => id
      · rw [hready] at hqueued
        cases hqueued
      · rw [hyielded] at hqueued
        rcases List.mem_cons.mp hqueued with rfl | hqueued
        · exact Or.inl (List.mem_singleton.mpr rfl)
        · exact Or.inr hqueued
  have hfewer := potential_resumed_lt (c := c₁) hm hphase
    (htidy.members m (List.mem_of_getElem? hm)) (c₁.isTaskOver m)
  have hpotential : c₁.potential = c.potential + 1 := by
    simp [potential, c₁, hready, Nat.add_comm]
  refine ⟨⟨_, .step (.step .start (.world (.queue c [.member i] rest c.alarms)))
    (.turn hm hgoes)⟩, ?_, (resume_frame (c := c₁) hm _).1, by omega⟩
  exact htidy₁.resume hm hgoes (List.mem_singleton.mpr rfl) hnodup.1

/-- How a step is taken: by the first in the queue, or if nobody is in it, by the first of those
that let others run. -/
inductive Moves (c : Cluster σ) : Cluster σ → Prop where
  | skip {i : Nat} {rest : List Runner} (hready : c.ready = .member i :: rest)
      (hnone : c.members[i]? = none) : Moves c { c with ready := rest }
  | park {i : Nat} {rest : List Runner} {m : Member} (hready : c.ready = .member i :: rest)
      (hm : c.members[i]? = some m) (hsignal : m.signal? c.now = none) :
      Moves c ({ c with ready := rest }.park i)
  | turn {i : Nat} {rest : List Runner} {m : Member} {s : Signal}
      (hready : c.ready = .member i :: rest) (hm : c.members[i]? = some m)
      (hsignal : m.signal? c.now = some s) : Moves c (c.resume i m s)
  | poll {j : Nat} {rest : List Runner} (hready : c.ready = .task j :: rest) :
      Moves c { c with
        ready := rest
        crew := c.crew.poll c.now j
        alarms := c.alarms.set (.task j) ((c.crew.poll c.now j).alarm? j) }
  | pass {i : Nat} {rest : List Nat} (hready : c.ready = []) (hyielded : c.yielded = i :: rest)
      (hnone : c.members[i]? = none) : Moves c { c with yielded := rest, ready := [.member i] }
  | goOn {i : Nat} {rest : List Nat} {m : Member} {c₁ : Cluster σ} (hready : c.ready = [])
      (hyielded : c.yielded = i :: rest) (hm : c.members[i]? = some m)
      (htaken : c₁ = { c with yielded := rest, ready := [.member i] }) :
      Moves c (c₁.resume i m (.resumed (c₁.isTaskOver m)))

theorem moves_of_step (hstep : c.step? = some c') : c.Moves c' := by
  rw [step?] at hstep
  split at hstep
  · rename_i i rest hready
    cases hm : c.members[i]? with
    | none =>
        rw [hm] at hstep
        cases hstep
        exact .skip hready hm
    | some m =>
        rw [hm] at hstep
        dsimp only at hstep
        cases hsignal : m.signal? c.now with
        | none =>
            rw [hsignal] at hstep
            cases hstep
            exact .park hready hm hsignal
        | some s =>
            rw [hsignal] at hstep
            cases hstep
            exact .turn hready hm hsignal
  · rename_i j rest hready
    cases hstep
    exact .poll hready
  · rename_i i rest hready hyielded
    dsimp only at hstep
    cases hm : c.members[i]? with
    | none =>
        rw [hm] at hstep
        cases hstep
        exact .pass hready hyielded hm
    | some m =>
        rw [hm] at hstep
        cases hstep
        exact .goOn hready hyielded hm rfl
  · cases hstep

theorem Tidy.step (htidy : c.Tidy) (hstep : c.step? = some c') : c.Proceeds c' := by
  cases moves_of_step hstep with
  | skip hready hnone => exact htidy.proceeds_skip hready hnone
  | park hready hm hsignal => exact htidy.proceeds_park hready hm hsignal
  | turn hready hm hsignal => exact htidy.proceeds_turn hready hm hsignal
  | poll hready => exact htidy.proceeds_poll hready
  | goOn hready hyielded hm htaken =>
      subst htaken
      exact htidy.proceeds_yielded hready hyielded hm
  | pass hready hyielded hnone =>
      obtain ⟨m, completed, hm, -⟩ := htidy.yields _ (hyielded ▸ List.mem_cons_self)
      rw [hnone] at hm
      cases hm

theorem step?_eq_none_iff : c.step? = none ↔ c.ready = [] ∧ c.yielded = [] := by
  rw [step?]
  split <;> simp_all

theorem settle_of_rests (hrests : c.step? = none) : c.settle = c := by
  rw [settle]
  cases c.patience with
  | zero => rfl
  | succ fuel => rw [Cluster.run, hrests]

/-- That a run in some world leads to a cluster in which all wait. -/
structure Settles (World : Cluster σ → Cluster σ → Prop) (c c' : Cluster σ) : Prop where
  run : ∃ h, Run World c h c'
  tidy : c'.Tidy
  rests : c'.step? = none

theorem Settles.after {World : Cluster σ → Cluster σ → Prop} (hsettles : Settles World c' c'')
    (hrun : ∃ h, Run World c h c') : Settles World c c'' := by
  obtain ⟨h, first⟩ := hrun
  obtain ⟨h', second⟩ := hsettles.run
  exact ⟨⟨_, first.trans second⟩, hsettles.tidy, hsettles.rests⟩

theorem Settles.mono {World World' : Cluster σ → Cluster σ → Prop}
    (hworlds : ∀ {c c'}, World c c' → World' c c') (hsettles : Settles World c c') :
    Settles World' c c' := by
  obtain ⟨h, run⟩ := hsettles.run
  exact ⟨⟨h, run.mono hworlds⟩, hsettles.tidy, hsettles.rests⟩

/-- With as much fuel as there are steps to take, a run ends when all wait. -/
theorem Tidy.run (htidy : c.Tidy) {fuel : Nat} (hfuel : c.potential ≤ fuel) :
    Settles Virtual c (c.run fuel) ∧ (c.run fuel).now = c.now := by
  induction fuel generalizing c with
  | zero =>
      -- Without steps to take there is no step.
      have hrests : c.step? = none := by
        by_contra hmoves
        obtain ⟨c', hstep⟩ := Option.ne_none_iff_exists'.mp hmoves
        have hfewer := (htidy.step hstep).fewer
        omega
      exact ⟨⟨⟨_, .start⟩, htidy, hrests⟩, rfl⟩
  | succ fuel hall =>
      rw [Cluster.run]
      cases hstep : c.step? with
      | none => exact ⟨⟨⟨_, .start⟩, htidy, hstep⟩, rfl⟩
      | some c' =>
          have hproceeds := htidy.step hstep
          have hfewer := hproceeds.fewer
          obtain ⟨hsettles, hnow⟩ := hall hproceeds.tidy (by omega)
          exact ⟨hsettles.after hproceeds.run, hnow.trans hproceeds.now_eq⟩

/-- The patience of a cluster lasts until all wait. -/
theorem Tidy.settle (htidy : c.Tidy) : Settles Virtual c c.settle ∧ c.settle.now = c.now :=
  htidy.run c.potential_le_patience

end Turns

end Cluster

end LeaseElection
