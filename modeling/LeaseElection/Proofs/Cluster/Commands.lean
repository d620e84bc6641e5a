import LeaseElection.Proofs.Cluster.Schedule

/-!
# What commands make of a cluster

When all wait, time moves on to the next alarm, so no wait is ever missed.  Whatever
commands are given to a cluster, what it does is a run in which time is virtual, and all
wait in the end.
-/

namespace LeaseElection

namespace Cluster

variable {σ : Type} {c c' : Cluster σ} {i : Nat} {m : Member}

section Clock

variable [LockService σ]

omit [LockService σ] in
/-- Those who are woken together come to be ready, and nothing else is changed. -/
theorem foldl_wake_eq (c : Cluster σ) (rs : List Runner) :
    ∃ ready, rs.foldl wake c = { c with ready } ∧ ∀ r ∈ c.ready ++ rs, r ∈ ready := by
  induction rs generalizing c with
  | nil => exact ⟨c.ready, rfl, by simp⟩
  | cons r rs hall =>
      obtain ⟨ready, hready, hmem⟩ := hall (c.wake r)
      have hwake : c.wake r = { c with ready := (c.wake r).ready } := by
        rw [wake]
        split <;> rfl
      refine ⟨ready, ?_, fun r' hr' => hmem r' ?_⟩
      · rw [List.foldl_cons, hready, hwake]
      · rw [List.mem_append, List.mem_cons] at hr'
        rw [List.mem_append]
        rcases hr' with hr' | rfl | hr'
        · exact Or.inl (((Wakes.refl c).wake r).mem_ready hr')
        · exact Or.inl (mem_ready_wake c r')
        · exact Or.inr hr'

/-- When nobody is in a queue all are parked. -/
theorem Tidy.parked (htidy : c.Tidy) (hrests : c.step? = none) (hm : c.members[i]? = some m) :
    c.Parked i m := by
  obtain ⟨hready, hyielded⟩ := step?_eq_none_iff.mp hrests
  rcases htidy.placed i m hm with hqueued | hqueued | hparked
  · rw [hready] at hqueued
    cases hqueued
  · rw [hyielded] at hqueued
    cases hqueued
  · exact hparked

section Moves

variable {now : Nat}

/-- Every wait has its alarm, so time may pass if no alarm comes before `now`. -/
theorem Tidy.pass (htidy : c.Tidy) (hrests : c.step? = none) (hlater : c.now < now)
    (hmillis : 1000000 ∣ now) (hnext : ∀ p ∈ c.alarms.pending, c.now < p.2 → now ≤ p.2) :
    Virtual c { c with now } := by
  refine .pass c now hlater hmillis ?_ ?_
  · intro m hm
    obtain ⟨i, hi⟩ := List.mem_iff_getElem?.mp hm
    have hparked := htidy.parked hrests hi
    exact ⟨hparked.rests, hparked.stays⟩
  · intro m hm wake hwake
    obtain ⟨i, hi⟩ := List.mem_iff_getElem?.mp hm
    have hparked := htidy.parked hrests hi
    exact hnext _ (hparked.alarm wake hwake) (Member.lt_of_rests hparked.rests hwake)

/-- Whose time has come is woken, and all others stay parked. -/
theorem Tidy.woken (htidy : c.Tidy) (hrests : c.step? = none) (hmillis : 1000000 ∣ now)
    {ready : List Runner} (hready : ∀ r ∈ c.alarms.due now, r ∈ ready) :
    ({ c with now, ready } : Cluster σ).Tidy := by
  refine { htidy with millis := hmillis, placed := fun i m hm => ?_ }
  have hparked := htidy.parked hrests hm
  by_cases hdue : ∃ wake, m.wake? = some wake ∧ wake ≤ now
  · obtain ⟨wake, hwake, hle⟩ := hdue
    exact Or.inl (hready _ (Alarms.mem_due (hparked.alarm wake hwake) hle))
  · refine Or.inr (Or.inr ⟨?_, hparked.stays, hparked.alarm⟩)
    apply Member.signal?_of_lt hparked.rests
    intro wake hwake
    exact Nat.lt_of_not_le fun hle => hdue ⟨wake, hwake, hle⟩

/-- When all wait, time may pass up to the next alarm. -/
theorem Tidy.moveTo (htidy : c.Tidy) (hrests : c.step? = none) (hnow : c.now ≤ now)
    (hmillis : 1000000 ∣ now) (hnext : ∀ p ∈ c.alarms.pending, c.now < p.2 → now ≤ p.2) :
    Settles Virtual c (c.moveTo now) ∧ (c.moveTo now).now = now := by
  have hpassed : ∃ h, Run Virtual c h { c with now } := by
    rcases Nat.eq_or_lt_of_le hnow with rfl | hlater
    · exact ⟨_, .start⟩
    · exact ⟨_, .step .start (.world (htidy.pass hrests hlater hmillis hnext))⟩
  obtain ⟨h, run⟩ := hpassed
  obtain ⟨ready, hwoken, hmem⟩ := foldl_wake_eq { c with now } (c.alarms.due now)
  have htidy' : ({ c with now, ready } : Cluster σ).Tidy :=
    htidy.woken hrests hmillis fun r hr => hmem r (List.mem_append_right _ hr)
  obtain ⟨hsettles, hclock⟩ := htidy'.settle
  rw [Cluster.moveTo, hwoken]
  exact ⟨hsettles.after ⟨_, run.step (.world (.queue _ ready c.yielded c.alarms))⟩, hclock⟩

end Moves

/-- From alarm to alarm time passes as far as it is let. -/
theorem Tidy.advanceFrom (htidy : c.Tidy) (hrests : c.step? = none) {now target : Nat}
    (hnow : c.now = now) (hle : now ≤ target) (hmillis : 1000000 ∣ target) :
    Settles Virtual c (c.advanceFrom now target) ∧ (c.advanceFrom now target).now = target := by
  fun_induction Cluster.advanceFrom now target c with
  | case1 now c w hnext hall =>
      obtain ⟨⟨k, hk⟩, hfirst⟩ := Alarms.next?_eq_some hnext
      subst hnow
      obtain ⟨hsettles, hclock⟩ := htidy.moveTo hrests (Nat.le_of_lt w.property.1)
        (htidy.alarms _ hk) hfirst
      obtain ⟨hlast, htarget⟩ := hall hsettles.tidy hsettles.rests hclock w.property.2
      exact ⟨hlast.after hsettles.run, htarget⟩
  | case2 now c hnone =>
      subst hnow
      exact htidy.moveTo hrests hle hmillis fun p hp hnow =>
        Nat.le_of_lt (Alarms.next?_eq_none hnone p hp hnow)

theorem Tidy.advanceTo (htidy : c.Tidy) (hrests : c.step? = none) {target : Nat}
    (hmillis : 1000000 ∣ target) : Settles Virtual c (c.advanceTo target) := by
  rw [Cluster.advanceTo]
  split
  · rename_i hlater
    exact (htidy.advanceFrom hrests rfl (Nat.le_of_lt hlater) hmillis).1
  · exact ⟨⟨_, .start⟩, htidy, hrests⟩

end Clock

section Commands

theorem tidy_empty (service : σ) (traced : Bool) : (empty service traced).Tidy := by
  refine ⟨Nat.dvd_zero _, ?_, ?_, ?_, ?_, List.nodup_nil, ?_⟩ <;> simp [empty]

theorem Tidy.enroll (htidy : c.Tidy) (hwait : 0 < m.policy.wait.nanos) (hphase : m.phase = .idle)
    (hcall : m.call = none) : (c.enroll m).Tidy where
  millis := htidy.millis
  alarms := htidy.alarms
  tasks := htidy.tasks
  members m' hm' := by
    rcases List.mem_append.mp hm' with hm' | hm'
    · exact htidy.members m' hm'
    · rw [List.mem_singleton.mp hm']
      refine ⟨hwait, hphase ▸ trivial, fun k hk => ?_⟩
      rw [hcall] at hk
      cases hk
  yields i hi := by
    obtain ⟨m', completed, hm', hyielding⟩ := htidy.yields i hi
    have hlt : i < c.members.length := (List.getElem?_eq_some_iff.mp hm').1
    exact ⟨m', completed, (List.getElem?_append_left hlt).trans hm', hyielding⟩
  nodup := htidy.nodup
  placed i m' hm' := by
    rcases member_enroll hm' with hm' | ⟨rfl, rfl⟩
    · exact (htidy.placed i m' hm').mono rfl (List.mem_append_left _) Or.inr fun _ => id
    · exact Or.inl (List.mem_append_right _ (List.mem_singleton.mpr rfl))

theorem Tidy.dismiss (htidy : c.Tidy) (i : Nat) : (c.dismiss i).Tidy := by
  obtain ⟨hnow, -, hmembers, hcrew⟩ := dismiss_frame c i
  have hwakes : Wakes c (c.dismiss i) ((c.crew.activeIn i).length + 1) := by
    have hsame : Wakes c (c.modify i fun m => { m with shutdown := true }) 0 :=
      (Wakes.refl c).congr rfl rfl rfl
    have hall := (hsame.foldl_cancelTask (c.crew.activeIn i)).wake (.member i)
    rwa [Nat.zero_add] at hall
  constructor
  · rw [hnow]
    exact htidy.millis
  · rw [hwakes.alarms]
    exact htidy.alarms
  · rw [hcrew]
    have hcancel (ks : List Nat) (crew : Crew) (htimed : ∀ t ∈ crew.tasks, t.IsTimed) :
        ∀ t ∈ (ks.foldl Crew.cancel crew).tasks, t.IsTimed := by
      induction ks generalizing crew with
      | nil => exact htimed
      | cons k ks hall => exact hall _ (Crew.isTimed_cancel htimed k)
    exact hcancel _ _ htidy.tasks
  · intro m' hm'
    obtain ⟨j, hj⟩ := List.mem_iff_getElem?.mp hm'
    obtain ⟨m, hm, rfl⟩ := member_dismiss hj
    have htimed := htidy.members m (List.mem_of_getElem? hm)
    split
    · exact ⟨htimed.wait, htimed.phase, htimed.call⟩
    · exact htimed
  · intro j hj
    rw [hwakes.yielded] at hj
    obtain ⟨m, completed, hm, hphase⟩ := htidy.yields j hj
    refine ⟨if i = j then { m with shutdown := true } else m, completed, ?_, ?_⟩
    · rw [hmembers, List.getElem?_modify, hm]
      rfl
    · split <;> exact hphase
  · rw [hwakes.yielded]
    exact htidy.nodup
  · intro j m' hm'
    obtain ⟨m, hm, rfl⟩ := member_dismiss hm'
    by_cases hij : i = j
    · subst hij
      exact Or.inl (mem_ready_wake _ _)
    · rw [if_neg hij]
      exact hwakes.placed hnow (htidy.placed j m hm)

/-- What is done to the service from outside leaves everybody in place. -/
theorem Tidy.altered (htidy : c.Tidy) (service : σ) (exchanges : List (Nat × Exchange))
    (entries : List Stamped) : ({ c with service, exchanges, entries } : Cluster σ).Tidy := by
  refine { htidy with placed := fun i m hm => ?_ }
  exact (htidy.placed i m hm).mono rfl id Or.inr fun _ => id

/-- That in some world others may do to the service what they like. -/
def Meddles (World : Cluster σ → Cluster σ → Prop) : Prop :=
  ∀ c service exchanges entries, World c { c with service, exchanges, entries }

theorem meddles_open : Meddles (Open (σ := σ)) :=
  fun _ _ _ _ => ⟨Nat.le_refl _, rfl, .refl _⟩

variable [LockService σ] {World : Cluster σ → Cluster σ → Prop} {start : Cluster σ}
variable {service : σ} {traced : Bool}

/-- What commands make of an empty cluster.  Every controller has a wait between its
attempts; nobody else calls the service unless the world lets them. -/
inductive Commanded (World : Cluster σ → Cluster σ → Prop) (service : σ) (traced : Bool) :
    Cluster σ → Prop where
  | new : Commanded World service traced (empty service traced)
  | launch {c : Cluster σ} (hc : Commanded World service traced c) {m : Member}
      (hwait : 0 < m.policy.wait.nanos) (hphase : m.phase = .idle) (hepisode : m.episode = none)
      (hcall : m.call = none) : Commanded World service traced (c.launch m)
  | shutdown {c : Cluster σ} (hc : Commanded World service traced c) (i : Nat) :
      Commanded World service traced (c.shutdown i)
  | sleep {c : Cluster σ} (hc : Commanded World service traced c) (millis : Nat) :
      Commanded World service traced (c.sleep millis)
  | callFrom {c : Cluster σ} (hc : Commanded World service traced c) (hmeddles : Meddles World)
      (name : String) (r : Request) : Commanded World service traced (c.callFrom name r).2
  | meddle {c : Cluster σ} (hc : Commanded World service traced c) (hmeddles : Meddles World)
      (altered : σ) (entries : List Stamped) :
      Commanded World service traced { c with service := altered, entries }.settle

theorem Commanded.alter (hc : Commanded World service traced c) (hmeddles : Meddles World)
    (f : σ → σ) : Commanded World service traced (c.alter f) :=
  hc.meddle hmeddles (f c.service) c.entries

theorem Commanded.tick {κ : Type} [DecidableEq κ] [LockService (LeaseTable κ)]
    {World : Cluster (LeaseTable κ) → Cluster (LeaseTable κ) → Prop} {service : LeaseTable κ}
    {c : Cluster (LeaseTable κ)} (hc : Commanded World service traced c)
    (hmeddles : Meddles World) : Commanded World service traced c.tick.2 :=
  hc.meddle hmeddles _ _

section Worlds

variable (hvirtual : ∀ {c c' : Cluster σ}, Virtual c c' → World c c')

include hvirtual

theorem Settles.settle (hc : Settles World start c) {e : Chronicle} (hstep : Step World c e c')
    (htidy : c'.Tidy) : Settles World start c'.settle := by
  obtain ⟨h, run⟩ := hc.run
  exact (htidy.settle.1.mono hvirtual).after ⟨_, run.step hstep⟩

theorem Settles.advanceTo (hc : Settles World start c) {target : Nat} (hmillis : 1000000 ∣ target) :
    Settles World start (c.advanceTo target) :=
  ((hc.tidy.advanceTo hc.rests hmillis).mono hvirtual).after hc.run

theorem Settles.meddle (hc : Settles World start c) (hmeddles : Meddles World) (altered : σ)
    (exchanges : List (Nat × Exchange)) (entries : List Stamped) :
    Settles World start { c with service := altered, exchanges, entries }.settle :=
  hc.settle hvirtual (.world (hmeddles c altered exchanges entries))
    (hc.tidy.altered altered exchanges entries)

theorem Settles.callFrom (hc : Settles World start c) (hmeddles : Meddles World) (name : String)
    (r : Request) : Settles World start (c.callFrom name r).2 := by
  rw [Cluster.callFrom]
  generalize LockService.call c.now (.outsider name) r c.service = response
  obtain ⟨reply, altered, es⟩ := response
  have hcalled := hc.meddle hvirtual hmeddles altered ((c.now, .asked r) :: c.exchanges)
    ((es.map (Stamped.mk c.now)).reverse ++ c.entries)
  cases reply with
  | silence => exact hcalled
  | answer latency a =>
      have hanswered := hcalled.advanceTo hvirtual (latency.dueFrom_dvd hc.tidy.millis)
      exact hanswered.meddle hvirtual hmeddles _ _ _

/-- All that commands make of a cluster comes of a run, and in the end all wait. -/
theorem Commanded.settles (hc : Commanded World service traced c) :
    Settles World (empty service traced) c := by
  induction hc with
  | new => exact ⟨⟨_, .start⟩, tidy_empty service traced, rfl⟩
  | @launch c _ m hwait hphase hepisode hcall hc =>
      exact hc.settle hvirtual (.enroll c hphase hepisode hcall)
        (hc.tidy.enroll hwait hphase hcall)
  | @shutdown c _ i hc => exact hc.settle hvirtual (.dismiss c i) (hc.tidy.dismiss i)
  | @sleep c _ millis hc =>
      rw [Cluster.sleep, settle_of_rests hc.rests]
      exact hc.advanceTo hvirtual (Nat.dvd_add hc.tidy.millis (Nat.dvd_mul_left _ _))
  | callFrom _ hmeddles name r hc => exact hc.callFrom hvirtual hmeddles name r
  | @meddle c _ hmeddles altered entries hc =>
      exact hc.meddle hvirtual hmeddles altered c.exchanges entries

end Worlds

end Commands

end Cluster

end LeaseElection
