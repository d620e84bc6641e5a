import LeaseElection.Proofs.Cluster.Commands
import LeaseElection.Proofs.Cluster.Protection

/-!
# No task is forgotten

Who starts a task or cancels it also wakes it, and a task that was polled waits with its
alarm set.  So tasks wait too when nobody is in a queue, and time passes only then: what
commands make of a cluster is a calm run.
-/

namespace LeaseElection

open Controller (Phase Signal Action)

namespace Cluster

variable {σ : Type} {c c' start : Cluster σ} {i j k : Nat} {m : Member} {s : Signal} {t : Task}

/-- That a task has its place: in the queue, or it waits and its alarm is set. -/
def Attends (c : Cluster σ) (j : Nat) (t : Task) : Prop :=
  .task j ∈ c.ready ∨
    t.Waits c.now ∧ ∀ wake, t.alarm? = some wake → (.task j, wake) ∈ c.alarms.pending

/-- That every task has its place. -/
def Attentive (c : Cluster σ) : Prop := ∀ j t, c.crew.tasks[j]? = some t → c.Attends j t

theorem Attends.mono (hattends : c.Attends j t) (hnow : c'.now = c.now)
    (hready : .task j ∈ c.ready → .task j ∈ c'.ready)
    (halarms : ∀ wake, (.task j, wake) ∈ c.alarms.pending →
      (.task j, wake) ∈ c'.alarms.pending) : c'.Attends j t := by
  rcases hattends with hqueued | ⟨hwaits, halarm⟩
  · exact Or.inl (hready hqueued)
  · exact Or.inr ⟨hnow ▸ hwaits, fun wake hwake => halarms wake (halarm wake hwake)⟩

section Queues

theorem Attends.of_wakes {n : Nat} (hattends : c.Attends j t) (hwakes : Wakes c c' n)
    (hnow : c'.now = c.now) : c'.Attends j t := by
  apply hattends.mono hnow hwakes.mem_ready
  rw [hwakes.alarms]
  exact fun _ => id

/-- To wake somebody forgets nobody. -/
theorem Attentive.of_wakes {n : Nat} (hattentive : c.Attentive) (hwakes : Wakes c c' n)
    (hnow : c'.now = c.now) (hcrew : c'.crew = c.crew) : c'.Attentive := by
  intro j t hj
  rw [hcrew] at hj
  exact (hattentive j t hj).of_wakes hwakes hnow

/-- Who is cancelled is woken. -/
theorem Attentive.cancelTask (hattentive : c.Attentive) (k : Nat) :
    (c.cancelTask k).Attentive := by
  intro j t hj
  by_cases hkj : k = j
  · subst hkj
    exact Or.inl (mem_ready_wake _ _)
  · have hsame : (c.crew.cancel k).tasks[j]? = c.crew.tasks[j]? :=
      List.getElem?_modify_ne _ _ hkj
    rw [Cluster.cancelTask, crew_wake] at hj
    have hbefore : ({ c with crew := c.crew.cancel k } : Cluster σ).Attends j t :=
      hattentive j t (hsame.symm.trans hj)
    exact hbefore.of_wakes ((Wakes.refl _).wake _) (now_wake _ _)

theorem Attentive.foldl_cancelTask (hattentive : c.Attentive) (ks : List Nat) :
    (ks.foldl Cluster.cancelTask c).Attentive := by
  induction ks generalizing c with
  | nil => exact hattentive
  | cons k ks hall => exact hall (hattentive.cancelTask k)

end Queues

section Turns

variable [LockService σ]

/-- Whose task is started, or told to stop, has it woken. -/
theorem Attentive.perform (hattentive : c.Attentive) (i : Nat) (m : Member) (a : Action) :
    (perform i m c a).Attentive := by
  cases a with
  | note | call => exact hattentive
  | startTask token =>
      intro j t hj
      by_cases hlt : j < c.crew.tasks.length
      · rw [Cluster.perform, crew_wake] at hj
        have hbefore := hattentive j t ((List.getElem?_append_left hlt).symm.trans hj)
        exact hbefore.of_wakes (Wakes.perform i m c (.startTask token)) (now_perform i m c _)
      · have hlast : j = c.crew.tasks.length := by
          have hlength := (List.getElem?_eq_some_iff.mp hj).1
          rw [Cluster.perform, crew_wake] at hlength
          change j < (c.crew.tasks ++ [_]).length at hlength
          rw [List.length_append, List.length_singleton] at hlength
          omega
        rw [hlast]
        exact Or.inl (mem_ready_wake _ _)
  | cancelTask =>
      simp only [Cluster.perform]
      split
      · exact hattentive
      · exact hattentive.cancelTask _

/-- A controller that takes a turn forgets no task. -/
theorem Attentive.resume (hattentive : c.Attentive) (i : Nat) (m : Member) (s : Signal) :
    (c.resume i m s).Attentive := by
  obtain ⟨hnow, -, hcrew, -⟩ := hear_frame c m
  exact resume_induction i m hattentive (hattentive.of_wakes (Wakes.hear c m) hnow hcrew)
    (fun _ _ hx => hx) (fun _ a hx => hx.perform i m a) s

omit [LockService σ] in
/-- A controller that leaves the queue is no task. -/
theorem Attentive.unqueue (hattentive : c.Attentive) {rest : List Runner}
    (hready : c.ready = .member i :: rest) :
    ({ c with ready := rest } : Cluster σ).Attentive := by
  intro j t hj
  have hrunner : Runner.task j ≠ .member i := by rintro ⟨⟩
  refine (hattentive j t hj).mono rfl (fun hqueued => ?_) fun _ => id
  rw [hready] at hqueued
  exact List.mem_of_ne_of_mem hrunner hqueued

omit [LockService σ] in
theorem Attentive.park (hattentive : c.Attentive) (i : Nat) : (c.park i).Attentive := by
  cases hm : c.members[i]? with
  | none =>
      rw [Cluster.park, hm]
      exact hattentive
  | some m =>
      obtain ⟨yielded, hpark, -⟩ := park_eq hm
      rw [hpark]
      intro j t hj
      have hrunner : Runner.task j ≠ .member i := by rintro ⟨⟩
      exact (hattentive j t hj).mono rfl id fun wake hwake =>
        Alarms.mem_pending_set_of_ne hwake hrunner _

omit [LockService σ] in
/-- A task that was polled waits, with its alarm set. -/
theorem Attentive.poll (hattentive : c.Attentive) {rest : List Runner}
    (hready : c.ready = .task j :: rest) :
    ({ c with
      ready := rest
      crew := c.crew.poll c.now j
      alarms := c.alarms.set (.task j) ((c.crew.poll c.now j).alarm? j) } :
        Cluster σ).Attentive := by
  intro k t hk
  by_cases hjk : j = k
  · subst hjk
    refine Or.inr ⟨Crew.waits_poll hk, fun wake hwake => ?_⟩
    have halarm : (c.crew.poll c.now j).alarm? j = some wake := by
      rw [Crew.alarm?, hk]
      exact hwake
    rw [halarm]
    exact Alarms.mem_pending_set _ _ _
  · have hother : Runner.task k ≠ .task j := fun hsame => hjk (Runner.task.inj hsame).symm
    have hbefore := hattentive k t ((Crew.getElem?_poll_of_ne hjk _ _).symm.trans hk)
    refine hbefore.mono rfl (fun hqueued => ?_) fun wake hwake =>
      Alarms.mem_pending_set_of_ne hwake hother _
    rw [hready] at hqueued
    exact List.mem_of_ne_of_mem hother hqueued

theorem Attentive.step (hattentive : c.Attentive) (hstep : c.step? = some c') :
    c'.Attentive := by
  -- Whose turn comes since nobody is in the queue takes no task's place.
  have htaken {i : Nat} {rest : List Nat} (hready : c.ready = []) :
      ({ c with yielded := rest, ready := [.member i] } : Cluster σ).Attentive := by
    intro j t hj
    refine (hattentive j t hj).mono rfl (fun hqueued => ?_) fun _ => id
    rw [hready] at hqueued
    cases hqueued
  cases moves_of_step hstep with
  | skip hready => exact hattentive.unqueue hready
  | park hready => exact (hattentive.unqueue hready).park _
  | turn => exact hattentive.resume _ _ _
  | poll hready => exact hattentive.poll hready
  | pass hready => exact htaken hready
  | goOn hready hyielded hm hsame => exact (hsame ▸ htaken hready).resume _ _ _

theorem Attentive.run (hattentive : c.Attentive) (fuel : Nat) : (c.run fuel).Attentive := by
  induction fuel generalizing c with
  | zero => exact hattentive
  | succ fuel hall =>
      rw [Cluster.run]
      cases hstep : c.step? with
      | none => exact hattentive
      | some c' => exact hall (hattentive.step hstep)

theorem Attentive.settle (hattentive : c.Attentive) : c.settle.Attentive :=
  hattentive.run c.patience

omit [LockService σ] in
/-- When nobody is in the queue all tasks wait. -/
theorem Attentive.waits (hattentive : c.Attentive) (hready : c.ready = [])
    (hj : c.crew.tasks[j]? = some t) :
    t.Waits c.now ∧ ∀ wake, t.alarm? = some wake → (.task j, wake) ∈ c.alarms.pending := by
  refine (hattentive j t hj).resolve_left fun hqueued => ?_
  rw [hready] at hqueued
  cases hqueued

omit [LockService σ] in
theorem Attentive.crew_rests (hattentive : c.Attentive) (hready : c.ready = []) (j : Nat) :
    c.crew.poll c.now j = c.crew := by
  cases hj : c.crew.tasks[j]? with
  | none => exact Crew.poll_of_none hj _
  | some t => exact Crew.poll_of_waits hj (hattentive.waits hready hj).1

end Turns

section Commands

theorem Attentive.enroll (hattentive : c.Attentive) (m : Member) : (c.enroll m).Attentive :=
  fun j t hj => (hattentive j t hj).mono rfl (List.mem_append_left _) fun _ => id

theorem Attentive.dismiss (hattentive : c.Attentive) (i : Nat) : (c.dismiss i).Attentive := by
  have hmodified : (c.modify i fun m => { m with shutdown := true }).Attentive := hattentive
  have hcancelled := hmodified.foldl_cancelTask (c.crew.activeIn i)
  exact hcancelled.of_wakes ((Wakes.refl _).wake _) (now_wake _ _) (crew_wake _ _)

/-- Whose alarm has gone off is woken, and all other tasks go on waiting. -/
theorem Attentive.woken (hattentive : c.Attentive) (hqueue : c.ready = []) {now : Nat}
    {ready : List Runner} (hready : ∀ r ∈ c.alarms.due now, r ∈ ready) :
    ({ c with now, ready } : Cluster σ).Attentive := by
  intro j t hj
  obtain ⟨hwaits, halarm⟩ := hattentive.waits hqueue hj
  by_cases hdue : ∃ wake, t.alarm? = some wake ∧ wake ≤ now
  · obtain ⟨wake, hwake, hle⟩ := hdue
    exact Or.inl (hready _ (Alarms.mem_due (halarm wake hwake) hle))
  · refine Or.inr ⟨hwaits.of_lt fun wake hwake => ?_, halarm⟩
    exact Nat.lt_of_not_le fun hle => hdue ⟨wake, hwake, hle⟩

variable [LockService σ] {h : Chronicle}

theorem Run.now_le (run : Run Open start h c) : start.now ≤ c.now := by
  induction run with
  | start => exact Nat.le_refl _
  | step _ hstep hall => exact hall.trans hstep.now_le

/-- A run in which no time passes is calm. -/
theorem Run.calm (run : Run Virtual start h c) (hnow : c.now = start.now) :
    Run Calm start h c := by
  induction run with
  | start => exact .start
  | @step h e c c' run hstep hall =>
      have hfirst := (run.mono Virtual.isOpen).now_le
      have hlast := (hstep.mono Virtual.isOpen).now_le
      refine (hall (by omega)).step ?_
      cases hstep with
      | turn hm hgoes => exact .turn hm hgoes
      | enroll hphase hepisode hcall => exact .enroll _ hphase hepisode hcall
      | dismiss i => exact .dismiss _ i
      | world hvirtual => exact .world ⟨hvirtual, fun hlater => by omega⟩

/-- That a calm run leads to a cluster in which all wait, and no task is forgotten. -/
structure Calms (start c : Cluster σ) : Prop extends Settles Calm start c where
  attentive : c.Attentive

theorem Calms.of_settle (hrun : ∃ h, Run Calm start h c) (htidy : c.Tidy)
    (hattentive : c.Attentive) : Calms start c.settle ∧ c.settle.now = c.now := by
  obtain ⟨h, first⟩ := hrun
  obtain ⟨⟨⟨h', second⟩, hsettled, hrests⟩, hnow⟩ := htidy.settle
  exact ⟨⟨⟨⟨_, first.trans (second.calm hnow)⟩, hsettled, hrests⟩, hattentive.settle⟩, hnow⟩

/-- When all wait, so do their tasks. -/
theorem Calms.atRest (hc : Calms start c) : c.Rests where
  members m hm := by
    obtain ⟨i, hi⟩ := List.mem_iff_getElem?.mp hm
    have hparked := hc.tidy.parked hc.rests hi
    exact ⟨hparked.rests, hparked.stays⟩
  crew := hc.attentive.crew_rests (step?_eq_none_iff.mp hc.rests).1

theorem Calms.moveTo (hc : Calms start c) {now : Nat} (hnow : c.now ≤ now)
    (hmillis : 1000000 ∣ now) (hnext : ∀ p ∈ c.alarms.pending, c.now < p.2 → now ≤ p.2) :
    Calms start (c.moveTo now) ∧ (c.moveTo now).now = now := by
  have hstill := hc.rests
  have hpassed : ∃ h, Run Calm start h { c with now } := by
    obtain ⟨h, run⟩ := hc.run
    rcases Nat.eq_or_lt_of_le hnow with rfl | hlater
    · exact ⟨_, run⟩
    · exact ⟨_, run.step (.world
        ⟨hc.tidy.pass hstill hlater hmillis hnext, fun _ => hc.atRest.crew⟩)⟩
  obtain ⟨h, run⟩ := hpassed
  obtain ⟨ready, hwoken, hmem⟩ := foldl_wake_eq { c with now } (c.alarms.due now)
  have hdue : ∀ r ∈ c.alarms.due now, r ∈ ready :=
    fun r hr => hmem r (List.mem_append_right _ hr)
  rw [Cluster.moveTo, hwoken]
  apply Calms.of_settle
  · exact ⟨_, run.step (.world
      ⟨.queue _ ready c.yielded c.alarms, fun hlater => absurd hlater (Nat.lt_irrefl _)⟩)⟩
  · exact hc.tidy.woken hstill hmillis hdue
  · exact hc.attentive.woken (step?_eq_none_iff.mp hstill).1 hdue

theorem Calms.advanceFrom (hc : Calms start c) {now target : Nat} (hnow : c.now = now)
    (hle : now ≤ target) (hmillis : 1000000 ∣ target) :
    Calms start (c.advanceFrom now target) := by
  fun_induction Cluster.advanceFrom now target c with
  | case1 now c w hnext hall =>
      obtain ⟨⟨k, hk⟩, hfirst⟩ := Alarms.next?_eq_some hnext
      subst hnow
      obtain ⟨hmoved, hclock⟩ := hc.moveTo (Nat.le_of_lt w.property.1)
        (hc.tidy.alarms _ hk) hfirst
      exact hall hmoved hclock w.property.2
  | case2 now c hnone =>
      subst hnow
      exact (hc.moveTo hle hmillis fun p hp hnow =>
        Nat.le_of_lt (Alarms.next?_eq_none hnone p hp hnow)).1

theorem Calms.advanceTo (hc : Calms start c) {target : Nat} (hmillis : 1000000 ∣ target) :
    Calms start (c.advanceTo target) := by
  rw [Cluster.advanceTo]
  split
  · rename_i hlater
    exact hc.advanceFrom rfl (Nat.le_of_lt hlater) hmillis
  · exact hc

omit [LockService σ] in
/-- In a calm world nobody else calls the service. -/
theorem not_meddles_calm (c : Cluster σ) : ¬Meddles (Calm (σ := σ)) := by
  intro hmeddles
  have hquiet {c c' : Cluster σ} (hvirtual : Virtual c c') : c'.exchanges = c.exchanges := by
    cases hvirtual <;> rfl
  have hheard := hquiet (hmeddles c c.service ((0, .asked .renew) :: c.exchanges) []).isVirtual
  exact List.cons_ne_self _ _ hheard

variable {service : σ} {traced : Bool}

/-- Where nobody else calls the service, what commands make of a cluster is a calm run. -/
theorem Commanded.calms (hc : Commanded Calm service traced c) :
    Calms (empty service traced) c := by
  induction hc with
  | new =>
      exact ⟨⟨⟨_, .start⟩, tidy_empty service traced, rfl⟩, by simp [Attentive, empty]⟩
  | @launch c _ m hwait hphase hepisode hcall hc =>
      obtain ⟨h, run⟩ := hc.run
      exact (Calms.of_settle ⟨_, run.step (.enroll c hphase hepisode hcall)⟩
        (hc.tidy.enroll hwait hphase hcall) (hc.attentive.enroll m)).1
  | @shutdown c _ i hc =>
      obtain ⟨h, run⟩ := hc.run
      exact (Calms.of_settle ⟨_, run.step (.dismiss c i)⟩ (hc.tidy.dismiss i)
        (hc.attentive.dismiss i)).1
  | @sleep c _ millis hc =>
      rw [Cluster.sleep, settle_of_rests hc.rests]
      exact hc.advanceTo (Nat.dvd_add hc.tidy.millis (Nat.dvd_mul_left _ _))
  | @callFrom c _ hmeddles => exact absurd hmeddles (not_meddles_calm c)
  | @meddle c _ hmeddles => exact absurd hmeddles (not_meddles_calm c)

end Commands

section Lease

variable {c : Cluster (LeaseTable Party)} {ttl : Span} {name : String} {traced : Bool}

/-- Whatever commands are given: where nobody else calls the lease table and all controllers
fit it, at most one task runs at any time, and after every command the task runs for the
leader, if there is one, and else it does not run. -/
theorem Commanded.serves (hc : Commanded Calm (LeaseTable.new name ttl) traced c)
    (hfits : Fits ttl c) :
    c.crew.record.maxLive ≤ 1 ∧
      (∀ m ∈ c.members, m.state = .leading →
        c.crew.record.runner = some m.id ∧ c.crew.record.live = 1) ∧
      ((∀ m ∈ c.members, m.state ≠ .leading) →
        c.crew.record.runner = none ∧ c.crew.record.live = 0) := by
  have hcalms := hc.calms
  obtain ⟨h, run⟩ := hcalms.run
  have hticker : ∀ m ∈ c.members, c.Representable m := fun m hm => (hfits m hm).1
  obtain ⟨l, -, htenancy, hguarded⟩ := run.guarded hfits
  obtain ⟨-, hserves⟩ := hguarded.serves run htenancy hticker hcalms.atRest
  exact ⟨hguarded.orderly.maxLive, hserves⟩

end Lease

end Cluster

end LeaseElection
