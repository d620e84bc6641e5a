import LeaseElection.Proofs.Cluster.Commands
import LeaseElection.Proofs.Cluster.Overruns
import LeaseElection.Proofs.Cluster.Protection

/-!
# Controllers and tasks on one thread

Only tasks that there are come into the queue of a cluster, and who lets the others run goes on
when the queue is empty, so after all of them have been polled.  What commands make of a cluster
is therefore a run on one thread, in which tasks work as they do when they are polled.
-/

namespace LeaseElection

open Controller (Phase Signal Action Turn)

/-- How a task works when it is polled at some time. -/
def Task.Polled (t t' : Task) : Prop := ∃ now record, t' = (t.poll now record).1

/-- That a task is over once it is polled after it was cancelled. -/
def Task.Heeds (t t' : Task) : Prop := t.cancelled = true → t'.isOver = true

namespace Cluster

variable {σ : Type} {c c' start : Cluster σ} {i j k : Nat} {m : Member} {s : Signal}

/-- That the tasks in the queue, those with an alarm and those of episodes are there. -/
structure Known (c : Cluster σ) : Prop where
  ready : ∀ k, .task k ∈ c.ready → k < c.crew.tasks.length
  alarms : ∀ k wake, (.task k, wake) ∈ c.alarms.pending → k < c.crew.tasks.length
  episodes : ∀ m ∈ c.members, ∀ e, m.episode = some e → e.task < c.crew.tasks.length

namespace Known

section Queues

theorem wake (hknown : c.Known) {r : Runner} (hr : ∀ k, r = .task k → k < c.crew.tasks.length) :
    (c.wake r).Known := by
  rw [Cluster.wake]
  split
  · exact hknown
  · refine { hknown with ready := fun k hk => ?_ }
    rcases List.mem_append.mp hk with hk | hk
    · exact hknown.ready k hk
    · exact hr k (List.mem_singleton.mp hk).symm

/-- Tasks may be added, and none goes away. -/
theorem grow (hknown : c.Known) {crew : Crew} (hle : c.crew.tasks.length ≤ crew.tasks.length) :
    ({ c with crew } : Cluster σ).Known where
  ready k hk := (hknown.ready k hk).trans_le hle
  alarms k wake hk := (hknown.alarms k wake hk).trans_le hle
  episodes m hm e he := (hknown.episodes m hm e he).trans_le hle

theorem cancelTask (hknown : c.Known) (hk : k < c.crew.tasks.length) : (c.cancelTask k).Known := by
  have hlength : (c.crew.cancel k).tasks.length = c.crew.tasks.length :=
    Crew.length_cancel c.crew k
  apply (hknown.grow hlength.ge).wake
  rintro _ ⟨⟩
  exact hlength ▸ hk

theorem modify (hknown : c.Known) (i : Nat) {f : Member → Member}
    (hf : ∀ m ∈ c.members, ∀ e, (f m).episode = some e → e.task < c.crew.tasks.length) :
    (c.modify i f).Known := by
  refine { hknown with episodes := fun m' hm' e he => ?_ }
  obtain ⟨j, hj⟩ := List.mem_iff_getElem?.mp hm'
  rw [Cluster.modify, List.getElem?_modify] at hj
  obtain ⟨m, hm, rfl⟩ := Option.map_eq_some_iff.mp hj
  split at he
  · exact hf m (List.mem_of_getElem? hm) e he
  · exact hknown.episodes m (List.mem_of_getElem? hm) e he

end Queues

section Turns

variable [LockService σ]

/-- Only the task that is started is new, and it is there by the time it is woken. -/
theorem perform (hknown : c.Known) (i : Nat) (m : Member) (a : Action) :
    (perform i m c a).Known := by
  cases a with
  | note n => exact ⟨hknown.ready, hknown.alarms, hknown.episodes⟩
  | call r =>
      rw [Cluster.perform, Cluster.call]
      apply modify
      · exact ⟨hknown.ready, hknown.alarms, hknown.episodes⟩
      · exact fun m hm e he => hknown.episodes m hm e he
  | startTask token =>
      simp only [Cluster.perform, Episode.begin, Crew.spawn]
      have hlength (t : Task) : (c.crew.tasks ++ [t]).length = c.crew.tasks.length + 1 :=
        List.length_append
      apply wake
      · apply modify
        · apply hknown.grow
          rw [hlength]
          exact Nat.le_succ _
        · rintro m - e ⟨⟩
          exact (hlength _).symm ▸ Nat.lt_succ_self _
      · rintro k ⟨⟩
        exact (hlength _).symm ▸ Nat.lt_succ_self _
  | cancelTask =>
      simp only [Cluster.perform]
      cases he : c.members[i]?.bind Member.episode with
      | none => exact hknown
      | some e =>
          obtain ⟨m', hm', he⟩ := Option.bind_eq_some_iff.mp he
          exact hknown.cancelTask (hknown.episodes m' (List.mem_of_getElem? hm') e he)

theorem resume (hknown : c.Known) (i : Nat) (m : Member) (s : Signal) :
    (c.resume i m s).Known := by
  have hheard : (c.hear m).Known := by
    rw [Cluster.hear]
    cases m.call with
    | none => exact hknown
    | some k =>
        dsimp only
        split <;> exact ⟨hknown.ready, hknown.alarms, hknown.episodes⟩
  refine resume_induction i m hknown hheard (fun x phase hx => ?_)
    (fun x a hx => hx.perform i m a) s
  apply hx.modify i
  exact fun m hm e he => hx.episodes m hm e he

end Turns

section Schedule

theorem unqueue (hknown : c.Known) {r : Runner} {rest : List Runner}
    (hready : c.ready = r :: rest) : ({ c with ready := rest } : Cluster σ).Known :=
  { hknown with ready := fun k hk => hknown.ready k (hready ▸ List.mem_cons_of_mem r hk) }

theorem park (hknown : c.Known) (i : Nat) : (c.park i).Known := by
  cases hm : c.members[i]? with
  | none =>
      rw [Cluster.park, hm]
      exact hknown
  | some m =>
      obtain ⟨yielded, hpark, -⟩ := park_eq hm
      rw [hpark]
      refine { hknown with alarms := fun k wake hk => ?_ }
      rcases Alarms.of_mem_pending_set hk with hk | ⟨hself, -⟩
      · exact hknown.alarms k wake hk
      · cases hself

theorem poll (hknown : c.Known) {rest : List Runner} (hready : c.ready = .task j :: rest) :
    ({ c with
      ready := rest
      crew := c.crew.poll c.now j
      alarms := c.alarms.set (.task j) ((c.crew.poll c.now j).alarm? j) } : Cluster σ).Known := by
  have hj := hknown.ready j (hready ▸ List.mem_cons_self)
  have hlength : c.crew.tasks.length = (c.crew.poll c.now j).tasks.length := by
    rw [Crew.poll_of_some (List.getElem?_eq_getElem hj), List.length_set]
  have hpolled : ({ c with ready := rest, crew := c.crew.poll c.now j } : Cluster σ).Known :=
    (hknown.unqueue hready).grow hlength.le
  refine { hpolled with alarms := fun k wake hk => ?_ }
  rcases Alarms.of_mem_pending_set hk with hk | ⟨hself, -⟩
  · exact hpolled.alarms k wake hk
  · cases hself
    exact hlength ▸ hj

theorem enroll (hknown : c.Known) (hepisode : m.episode = none) : (c.enroll m).Known where
  ready k hk := by
    rcases List.mem_append.mp hk with hk | hk
    · exact hknown.ready k hk
    · cases List.mem_singleton.mp hk
  alarms := hknown.alarms
  episodes m' hm' e he := by
    rcases List.mem_append.mp hm' with hm' | hm'
    · exact hknown.episodes m' hm' e he
    · rw [List.mem_singleton.mp hm', hepisode] at he
      cases he

theorem dismiss (hknown : c.Known) (i : Nat) : (c.dismiss i).Known := by
  have hcancel (ks : List Nat) (c : Cluster σ) (hknown : c.Known)
      (hks : ∀ k ∈ ks, k < c.crew.tasks.length) : (ks.foldl Cluster.cancelTask c).Known := by
    induction ks generalizing c with
    | nil => exact hknown
    | cons k ks hall =>
        obtain ⟨hk, hks⟩ := List.forall_mem_cons.mp hks
        apply hall _ (hknown.cancelTask hk)
        rw [Cluster.cancelTask, crew_wake, Crew.length_cancel]
        exact hks
  rw [Cluster.dismiss]
  apply wake
  · apply hcancel
    · apply hknown.modify
      exact fun m hm e he => hknown.episodes m hm e he
    · intro k hk
      obtain ⟨hlt, -⟩ := List.getElem?_eq_some_iff.mp (Crew.mem_activeIn_iff.mp hk)
      rwa [Crew.marks, List.length_map] at hlt
  · rintro k ⟨⟩

/-- Those whose alarms have gone off come into the queue. -/
theorem woken (hknown : c.Known) (now : Nat) :
    ((c.alarms.due now).foldl Cluster.wake { c with now }).Known := by
  have hwake (rs : List Runner) (c : Cluster σ) (hknown : c.Known)
      (hrs : ∀ k, .task k ∈ rs → k < c.crew.tasks.length) : (rs.foldl Cluster.wake c).Known := by
    induction rs generalizing c with
    | nil => exact hknown
    | cons r rs hall =>
        apply hall _ (hknown.wake fun k hk => hrs k (hk ▸ List.mem_cons_self))
        rw [crew_wake]
        exact fun k hk => hrs k (List.mem_cons_of_mem r hk)
  refine hwake _ { c with now } ⟨hknown.ready, hknown.alarms, hknown.episodes⟩ fun k hk => ?_
  obtain ⟨⟨r, wake⟩, hp, rfl⟩ := List.mem_map.mp hk
  exact hknown.alarms k wake (List.mem_filter.mp hp).1

end Schedule

end Known

section Threads

variable [LockService σ] {service : σ} {traced : Bool}

omit [LockService σ] in
theorem mem_ready_of_debt {e : Chronicle} {x : Nat × Nat} (hx : x ∈ debts e c) :
    .task x.2 ∈ c.ready := by
  obtain ⟨⟨i, t⟩, -, hx⟩ := List.mem_flatMap.mp hx
  dsimp only at hx
  split at hx
  · obtain ⟨k, hk, rfl⟩ := List.mem_map.mp hx
    exact mem_readyTasks.mp hk
  · cases hx

/-- That a cluster comes of a run on one thread, in which whoever is still owed a poll is in the
queue. -/
structure Threaded (start c : Cluster σ) : Prop where
  known : c.Known
  run : ∃ h owed, Deferred Task.Polled start h owed c ∧ ∀ x ∈ owed, .task x.2 ∈ c.ready

namespace Threaded

/-- What leaves tasks alone owes nothing more. -/
theorem aside (hthreaded : Threaded start c) (hworld : Aside c c') (hknown : c'.Known) :
    Threaded start c' := by
  obtain ⟨h, owed, run, hqueued⟩ := hthreaded.run
  exact ⟨hknown, _, _, run.step (.world hworld) (by simp),
    fun x hx => hworld.ready _ (hqueued x hx)⟩

/-- A controller takes a turn; if it let the others run, no task is in the queue. -/
theorem turn (hthreaded : Threaded start c) (hm : c.members[i]? = some m) (hgoes : c.GoesOn m s)
    (hpolled : ∀ taskOver, s = .resumed taskOver → ∀ k, .task k ∉ c.ready) :
    Threaded start (c.resume i m s) := by
  obtain ⟨h, owed, run, hqueued⟩ := hthreaded.run
  have hrouses := Rouses.resume c i m s
  refine ⟨hthreaded.known.resume i m s, _, _, run.step (.turn hm hgoes) ?_, ?_⟩
  · rintro x hx taskOver hsignal k hk
    obtain rfl := List.mem_singleton.mp hx
    exact hpolled taskOver hsignal k (hqueued _ hk)
  · intro x hx
    rcases List.mem_append.mp hx with hx | hx
    · exact mem_ready_of_debt hx
    · exact hrouses.ready _ (hqueued x hx)

theorem enroll (hthreaded : Threaded start c) (hphase : m.phase = .idle)
    (hepisode : m.episode = none) (hcall : m.call = none) : Threaded start (c.enroll m) := by
  obtain ⟨h, owed, run, hqueued⟩ := hthreaded.run
  exact ⟨hthreaded.known.enroll hepisode, _, _,
    run.step (.enroll c hphase hepisode hcall) (by simp),
    fun x hx => List.mem_append_left _ (hqueued x hx)⟩

theorem dismiss (hthreaded : Threaded start c) (i : Nat) : Threaded start (c.dismiss i) := by
  obtain ⟨h, owed, run, hqueued⟩ := hthreaded.run
  exact ⟨hthreaded.known.dismiss i, _, _, run.step (.dismiss c i) (by simp),
    fun x hx => (Rouses.dismiss c i).ready _ (hqueued x hx)⟩

/-- The task at the head of the queue is polled. -/
theorem poll (hthreaded : Threaded start c) {rest : List Runner}
    (hready : c.ready = .task j :: rest) :
    Threaded start { c with
      ready := rest
      crew := c.crew.poll c.now j
      alarms := c.alarms.set (.task j) ((c.crew.poll c.now j).alarm? j) } := by
  obtain ⟨h, owed, run, hqueued⟩ := hthreaded.run
  obtain ⟨t, hj⟩ : ∃ t, c.crew.tasks[j]? = some t :=
    ⟨_, List.getElem?_eq_getElem (hthreaded.known.ready j (hready ▸ List.mem_cons_self))⟩
  have hstays (k : Nat) (hjk : j ≠ k) (hk : .task k ∈ c.ready) : .task k ∈ rest := by
    rw [hready] at hk
    exact List.mem_of_ne_of_mem (fun hsame => hjk (Runner.task.inj hsame).symm) hk
  obtain ⟨hgroup, hcancelled⟩ := Task.poll_frame c.now t c.crew.record
  have hover (hover : t.isOver = true) : (t.poll c.now c.crew.record).1.isOver = true := by
    rwa [Task.poll_of_isOver hover]
  have polled := run.poll hj ⟨_, _, rfl⟩ hgroup hcancelled hover
    (t.poll c.now c.crew.record).2 hstays
  rw [← Crew.poll_of_some hj c.now] at polled
  have alarmed : Step Aside { c with ready := rest, crew := c.crew.poll c.now j } []
      { c with
        ready := rest
        crew := c.crew.poll c.now j
        alarms := c.alarms.set (.task j) ((c.crew.poll c.now j).alarm? j) } :=
    .world ⟨⟨Nat.le_refl _, rfl, .refl _⟩, rfl, fun _ => id⟩
  refine ⟨hthreaded.known.poll hready, _, _, polled.step alarmed (by simp), fun x hx => ?_⟩
  obtain ⟨hx, hother⟩ := List.mem_filter.mp hx
  exact hstays x.2 (of_decide_eq_true hother).symm (hqueued x hx)

/-- The queue is empty when a controller that let the others run goes on. -/
theorem step (hthreaded : Threaded start c) (htidy : c.Tidy) (hstep : c.step? = some c') :
    Threaded start c' := by
  have hrest {i : Nat} {rest : List Runner} (hready : c.ready = .member i :: rest) :
      Threaded start { c with ready := rest } := by
    refine hthreaded.aside ⟨⟨Nat.le_refl _, rfl, .refl _⟩, rfl, fun k hk => ?_⟩
      (hthreaded.known.unqueue hready)
    rw [hready] at hk
    exact List.mem_of_ne_of_mem (by rintro ⟨⟩) hk
  have htaken {i : Nat} {rest : List Nat} (hready : c.ready = []) :
      Threaded start { c with yielded := rest, ready := [.member i] } := by
    refine hthreaded.aside ⟨⟨Nat.le_refl _, rfl, .refl _⟩, rfl, fun k hk => ?_⟩
      { hthreaded.known with ready := fun k hk => ?_ }
    · rw [hready] at hk
      cases hk
    · cases List.mem_singleton.mp hk
  cases moves_of_step hstep with
  | skip hready => exact hrest hready
  | @park i rest m hready hm =>
      have hknown := (hrest hready).known.park i
      obtain ⟨yielded, hpark, -⟩ := park_eq (c := { c with ready := rest }) hm
      rw [hpark] at hknown ⊢
      exact (hrest hready).aside ⟨⟨Nat.le_refl _, rfl, .refl _⟩, rfl, fun _ => id⟩ hknown
  | turn hready hm hsignal =>
      refine hthreaded.turn hm (.signalled hsignal) ?_
      rintro taskOver rfl
      obtain ⟨⟨completed, hphase⟩, -⟩ := (GoesOn.signalled hsignal).taskOver_eq
      rw [Member.signal?, hphase] at hsignal
      cases hsignal
  | poll hready => exact hthreaded.poll hready
  | pass hready => exact htaken hready
  | goOn hready hyielded hm hsame =>
      subst hsame
      obtain ⟨m, completed, hm', hphase⟩ := htidy.yields _ (hyielded ▸ List.mem_cons_self)
      cases hm.symm.trans hm'
      refine (htaken hready).turn hm (.resumed hphase) fun _ _ k hk => ?_
      cases List.mem_singleton.mp hk

theorem settle (hthreaded : Threaded start c) (htidy : c.Tidy) : Threaded start c.settle := by
  have hrun (fuel : Nat) (c : Cluster σ) (hthreaded : Threaded start c) (htidy : c.Tidy) :
      Threaded start (c.run fuel) := by
    induction fuel generalizing c with
    | zero => exact hthreaded
    | succ fuel hall =>
        rw [Cluster.run]
        cases hstep : c.step? with
        | none => exact hthreaded
        | some c' => exact hall c' (hthreaded.step htidy hstep) (htidy.step hstep).tidy
  exact hrun c.patience c hthreaded htidy

theorem moveTo (hthreaded : Threaded start c) (htidy : c.Tidy) (hrests : c.step? = none)
    {now : Nat} (hnow : c.now ≤ now) (hmillis : 1000000 ∣ now) : Threaded start (c.moveTo now) := by
  obtain ⟨ready, hwoken, hmem⟩ := foldl_wake_eq { c with now } (c.alarms.due now)
  have hdue : ∀ r ∈ c.alarms.due now, r ∈ ready :=
    fun r hr => hmem r (List.mem_append_right _ hr)
  have hknown := hthreaded.known.woken now
  rw [hwoken] at hknown
  have hmoved : Threaded start { c with now, ready } :=
    hthreaded.aside ⟨⟨hnow, rfl, .refl _⟩, rfl, fun k hk => hmem _ (List.mem_append_left _ hk)⟩
      hknown
  rw [Cluster.moveTo, hwoken]
  exact hmoved.settle (htidy.woken hrests hmillis hdue)

theorem advanceFrom (hthreaded : Threaded start c) (htidy : c.Tidy) (hrests : c.step? = none)
    {now target : Nat} (hnow : c.now = now) (hle : now ≤ target) (hmillis : 1000000 ∣ target) :
    Threaded start (c.advanceFrom now target) := by
  fun_induction Cluster.advanceFrom now target c with
  | case1 now c w hnext hall =>
      obtain ⟨⟨k, hk⟩, hfirst⟩ := Alarms.next?_eq_some hnext
      subst hnow
      have hlater := Nat.le_of_lt w.property.1
      obtain ⟨hsettles, hclock⟩ := htidy.moveTo hrests hlater (htidy.alarms _ hk) hfirst
      exact hall (hthreaded.moveTo htidy hrests hlater (htidy.alarms _ hk)) hsettles.tidy
        hsettles.rests hclock w.property.2
  | case2 now c hnone =>
      subst hnow
      exact hthreaded.moveTo htidy hrests hle hmillis

theorem advanceTo (hthreaded : Threaded start c) (htidy : c.Tidy) (hrests : c.step? = none)
    {target : Nat} (hmillis : 1000000 ∣ target) : Threaded start (c.advanceTo target) := by
  rw [Cluster.advanceTo]
  split
  · rename_i hlater
    exact hthreaded.advanceFrom htidy hrests rfl (Nat.le_of_lt hlater) hmillis
  · exact hthreaded

/-- Whatever others do to the service. -/
theorem meddle (hthreaded : Threaded start c) (htidy : c.Tidy) (altered : σ)
    (exchanges : List (Nat × Exchange)) (entries : List Stamped) :
    Threaded start { c with service := altered, exchanges, entries }.settle := by
  have hknown := hthreaded.known
  have hmeddled : Threaded start { c with service := altered, exchanges, entries } :=
    hthreaded.aside ⟨⟨Nat.le_refl _, rfl, .refl _⟩, rfl, fun _ => id⟩
      ⟨hknown.ready, hknown.alarms, hknown.episodes⟩
  exact hmeddled.settle (htidy.altered altered exchanges entries)

theorem callFrom (hthreaded : Threaded start c) (hsettles : Settles Open start c) (name : String)
    (r : Request) : Threaded start (c.callFrom name r).2 := by
  rw [Cluster.callFrom]
  generalize LockService.call c.now (.outsider name) r c.service = response
  obtain ⟨reply, altered, es⟩ := response
  have htidy := hsettles.tidy
  have hcalled := hthreaded.meddle htidy altered ((c.now, .asked r) :: c.exchanges)
    ((es.map (Stamped.mk c.now)).reverse ++ c.entries)
  have hanswers := hsettles.meddle Virtual.isOpen meddles_open altered
    ((c.now, .asked r) :: c.exchanges) ((es.map (Stamped.mk c.now)).reverse ++ c.entries)
  cases reply with
  | silence => exact hcalled
  | answer latency a =>
      have hmillis := latency.dueFrom_dvd htidy.millis
      have hanswered := hcalled.advanceTo hanswers.tidy hanswers.rests hmillis
      exact hanswered.meddle (hanswers.tidy.advanceTo hanswers.rests hmillis).tidy _ _ _

end Threaded

end Threads

section Prompt

variable [LockService σ] {service : σ} {traced : Bool} {h : Chronicle} {owed : List (Nat × Nat)}

/-- Where the tasks of all controllers are prompt, so are all that were started. -/
theorem Deferred.prompt (run : Deferred Task.Polled (empty service traced) h owed c)
    (hprompt : ∀ m ∈ c.members, m.conduct = .prompt)
    (hticker : ∀ m ∈ c.members, c.Representable m) :
    (∀ t ∈ c.crew.tasks, t.IsPrompt) ∧ Deferred Task.Heeds (empty service traced) h owed c := by
  induction run with
  | start => exact ⟨by simp [empty], .start⟩
  | @poll h owed c run j t t' hj hworks hgroup hcancelled hover record ready hready hall =>
      obtain ⟨htasks, hheeds⟩ := hall hprompt hticker
      obtain ⟨now, r, rfl⟩ := hworks
      have ht := htasks t (List.mem_of_getElem? hj)
      refine ⟨fun t₁ ht₁ => ?_, hheeds.poll hj (ht.isOver_poll · now r) hgroup hcancelled hover
        record hready⟩
      rcases List.mem_or_eq_of_mem_set ht₁ with hmem | rfl
      · exact htasks t₁ hmem
      · exact ht.poll now r
  | @resign h owed c run j hall =>
      obtain ⟨hnow, -, hmembers, hcrew⟩ := cancelTask_frame c j
      obtain ⟨htasks, hheeds⟩ := hall (hmembers ▸ hprompt) fun m hm => by
        have hearlier := hticker m (hmembers ▸ hm)
        rwa [Representable, hnow] at hearlier
      refine ⟨?_, hheeds.resign j⟩
      rw [hcrew]
      exact Crew.isPrompt_cancel htasks j
  | @step h e owed c c' run hstep hpolled hall =>
      have hopen := hstep.mono Aside.toOpen
      have hearlier := hopen.representable hticker
      have hconducts : ∀ m ∈ c.members, m.conduct = .prompt := by
        intro m hm
        obtain ⟨m', hm', -, hconduct⟩ := hopen.setup_mem hm
        exact hconduct ▸ hprompt m' hm'
      obtain ⟨htasks, hheeds⟩ := hall hconducts hearlier
      refine ⟨?_, hheeds.step hstep hpolled⟩
      cases hstep with
      | @turn i m s hm hgoes =>
          have hmem := List.mem_of_getElem? hm
          rcases crew_resume hm hgoes (hearlier m hmem) with ⟨-, -, hcrew⟩ | ⟨-, hcrew | ⟨k, hcrew⟩⟩
          · rw [hcrew]
            intro t ht
            rcases List.mem_append.mp ht with ht | ht
            · exact htasks t ht
            · rw [List.mem_singleton.mp ht]
              exact ⟨hconducts m hmem, Or.inl rfl⟩
          · rwa [hcrew]
          · rw [hcrew]
            exact Crew.isPrompt_cancel htasks k
      | enroll => exact htasks
      | dismiss i =>
          rw [(dismiss_frame c i).2.2.2]
          exact Crew.isPrompt_foldl_cancel htasks _
      | world hworld => rwa [hworld.tasks_eq]

end Prompt

end Cluster

end LeaseElection
