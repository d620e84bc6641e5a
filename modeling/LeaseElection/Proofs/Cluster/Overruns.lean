import LeaseElection.Proofs.Cluster.Schedule
import LeaseElection.Proofs.Cluster.Tokens
import LeaseElection.Proofs.Controller.Losses

/-!
# Tasks that outlive their lease

A controller that lost its lease cancels its task, waits, and lets the others run before it looks
whether the task is over.  On one thread it goes on only when the tasks that were woken by then
have been polled.  What it finds is the state of the task of the lease that was lost, whatever
tasks do.  Of tasks that return when they are first polled after they were cancelled none is
found running, and no controller has two that are not over, not even without any delay: who is
cancelled is woken, and so has been polled by the time the controller goes on.
-/

namespace LeaseElection

open Controller (Phase Signal Action Turn Course)

/-- What stands in a list with one more element stood in it before, or is that element. -/
theorem getElem?_concat_cases {α : Type} {l : List α} {x y : α} {k : Nat}
    (hk : (l ++ [x])[k]? = some y) : l[k]? = some y ∨ k = l.length ∧ x = y := by
  rcases Nat.lt_or_ge k l.length with hlt | hge
  · exact Or.inl (List.getElem?_append_left hlt ▸ hk)
  · rw [List.getElem?_append_right hge, List.getElem?_singleton] at hk
    obtain ⟨hzero, hsame⟩ := Option.ite_none_right_eq_some.mp hk
    exact Or.inr ⟨by omega, Option.some.inj hsame⟩

namespace Crew

/-- Whose the task instances are, in order. -/
def groups (crew : Crew) : List Nat := crew.tasks.map Task.group

/-- Whose the task instances are, and whether they are over, in order. -/
def outlines (crew : Crew) : List (Nat × Bool) := crew.tasks.map fun t => (t.group, t.isOver)

variable {crew crew' : Crew} {t : Task} {k : Nat}

theorem groups_of_outlines (crew : Crew) : crew.groups = crew.outlines.map Prod.fst := by
  simp [groups, outlines]

theorem getElem?_groups {i : Nat} :
    crew.groups[k]? = some i ↔ ∃ ended, crew.outlines[k]? = some (i, ended) := by
  simp [groups_of_outlines]

theorem exists_task_of_outline {i : Nat} {ended : Bool}
    (hk : crew.outlines[k]? = some (i, ended)) :
    ∃ t : Task, crew.tasks[k]? = some t ∧ t.group = i ∧ t.isOver = ended := by
  simpa [outlines] using hk

theorem length_outlines (crew : Crew) : crew.outlines.length = crew.tasks.length := by
  simp [outlines]

theorem outlines_spawn (crew : Crew) (t : Task) :
    (crew.spawn t).2.outlines = crew.outlines ++ [(t.group, t.isOver)] := by
  simp [spawn, outlines]

@[simp]
theorem outlines_cancel (crew : Crew) (k : Nat) : (crew.cancel k).outlines = crew.outlines := by
  apply List.ext_getElem?
  intro j
  simp only [outlines, cancel, List.getElem?_map, List.getElem?_modify]
  cases crew.tasks[j]? with
  | none => rfl
  | some t =>
      by_cases hkj : k = j
      · simp [hkj, Task.isOver]
      · simp [hkj]

end Crew

/-- What a turn of controller `i` makes of tasks that may be over: it starts one that is not, or
leaves them as they are. -/
inductive Reach.Adds {σ : Type} (i : Nat) (t : Turn) (x x' : Reach σ) : Prop where
  | starts (hbefore : t.before = .acquiring) (hafter : t.after.state = .leading)
      (houtlines : x'.crew.outlines = x.crew.outlines ++ [(i, false)])
      (hepisode : x'.episode.map Episode.task = some x.crew.outlines.length)
  | keeps (houtlines : x'.crew.outlines = x.crew.outlines) (hepisode : x'.episode = x.episode)
      (hleads : t.after.state = .leading ∨ t.after.isAftermath = true →
        t.before.state = .leading ∨ t.before.isAftermath = true)

theorem Reach.adds_of_course {σ : Type} [LockService σ] {id : ControllerId} {p : Policy}
    {now : Nat} {shutdown : Bool} {phase : Phase} {s : Signal} {step : Controller.Step}
    (hcourse : Course id p now shutdown phase s step) (i : Nat) (m : Member) (x : Reach σ) :
    Adds i ⟨now, shutdown, phase, s, step⟩ x (step.2.foldl (Reach.act now i m) x) := by
  have hnotes (notes : List Controller.Note) :
      (notes.map Action.note).foldl (Reach.act now i m) x = x :=
    Reach.foldl_act_note now i m x notes
  cases hcourse with
  | win =>
      refine .starts rfl rfl (Crew.outlines_spawn _ _) ?_
      rw [Crew.length_outlines]
      rfl
  | fail =>
      refine .starts rfl rfl ((Crew.outlines_cancel _ _).trans (Crew.outlines_spawn _ _)) ?_
      rw [Crew.length_outlines]
      rfl
  | lose =>
      simp only [List.foldl_cons, List.foldl_nil, act]
      cases hepisode : x.episode with
      | none => exact .keeps rfl rfl fun _ => Or.inl rfl
      | some e => exact .keeps (Crew.outlines_cancel _ _) hepisode.symm fun _ => Or.inl rfl
  | rest _ taskOver =>
      rw [hnotes]
      exact .keeps rfl rfl fun _ => Or.inr rfl
  | leave _ taskOver =>
      have hsame : (Controller.stop .waiting (Controller.overrunNotes taskOver)).2.foldl
          (act now i m) x = x := hnotes _
      rw [hsame]
      exact .keeps rfl rfl fun _ => Or.inr rfl
  | @quit phase note hnote =>
      have hsame : (Controller.stop phase.state [note]).2.foldl (act now i m) x = x := hnotes _
      rw [hsame]
      refine .keeps rfl rfl ?_
      rintro (⟨⟨⟩⟩ | ⟨⟨⟩⟩)
  | begin | first | again | miss =>
      refine .keeps rfl rfl ?_
      rintro (⟨⟨⟩⟩ | ⟨⟨⟩⟩)
  | renew | keep => exact .keeps rfl rfl fun _ => Or.inl rfl
  | cool | interrupt => exact .keeps rfl rfl fun _ => Or.inr rfl

/-- Whether a task of its own may be left to a controller in some phase. -/
def Controller.Phase.mayLeaveTask : Phase → Bool
  | .idle | .starting _ | .acquiring | .retrying _ => false
  | _ => true

/-- Only where a controller looked for its task it leaves off being left with one. -/
theorem Controller.Turn.mayLeaveTask_after {t : Turn} {id : ControllerId} {p : Policy}
    (hturn : t.IsOf id p) (hbefore : t.before.mayLeaveTask = true)
    (hstays : ∀ completed, t.before ≠ .yielding completed) : t.after.mayLeaveTask = true := by
  obtain ⟨now, shutdown, before, signal, outcome⟩ := t
  change Course id p now shutdown before signal outcome at hturn
  cases hturn with
  | begin | first | again | win | fail | miss => cases hbefore
  | rest | leave => exact absurd rfl (hstays _)
  | renew | keep | lose | cool | interrupt | quit => rfl

namespace Cluster

variable {σ : Type} {c c' c'' : Cluster σ} {i j k : Nat} {m m' : Member} {s : Signal} {t : Task}

/-- A controller that lets the others run goes on with what has become of its task. -/
theorem GoesOn.taskOver_eq {taskOver : Bool} (hgoes : c.GoesOn m (.resumed taskOver)) :
    (∃ completed, m.phase = .yielding completed) ∧ taskOver = c.isTaskOver m := by
  cases hgoes with
  | resumed hphase => exact ⟨⟨_, hphase⟩, rfl⟩
  | signalled hsignal =>
      rw [Member.signal?] at hsignal
      cases hphase : m.phase with
      | starting | cooling | retrying | leading =>
          rw [hphase] at hsignal
          rcases Controller.signal_of_wait hsignal with ⟨-, hs⟩ | ⟨-, -, hs⟩ <;> cases hs
      | acquiring | renewing =>
          rw [hphase] at hsignal
          rcases Controller.signal_of_call hsignal with ⟨-, hs⟩ | ⟨-, a, -, hs⟩ <;> cases hs
      | idle | yielding | stopped | failed =>
          rw [hphase] at hsignal
          cases hsignal

section Queues

/-- That all tasks that were in the queue still are, and so are those that were changed. -/
structure Rouses (c c' : Cluster σ) : Prop where
  ready : ∀ k, .task k ∈ c.ready → .task k ∈ c'.ready
  tasks : ∀ k, c'.crew.tasks[k]? = c.crew.tasks[k]? ∨ .task k ∈ c'.ready

theorem Rouses.of_eq (hready : ∀ k, .task k ∈ c.ready → .task k ∈ c'.ready)
    (hcrew : c'.crew = c.crew) : Rouses c c' :=
  ⟨hready, fun _ => Or.inl (by rw [hcrew])⟩

theorem Rouses.refl (c : Cluster σ) : Rouses c c := .of_eq (fun _ => id) rfl

theorem Rouses.trans (hfirst : Rouses c c') (hsecond : Rouses c' c'') : Rouses c c'' where
  ready k hk := hsecond.ready k (hfirst.ready k hk)
  tasks k := by
    rcases hsecond.tasks k with hsame | hqueued
    · rw [hsame]
      exact (hfirst.tasks k).imp_right (hsecond.ready k)
    · exact Or.inr hqueued

theorem Rouses.wake (c : Cluster σ) (r : Runner) : Rouses c (c.wake r) :=
  .of_eq (fun _ => ((Wakes.refl c).wake r).mem_ready) (crew_wake c r)

/-- Who is cancelled is woken. -/
theorem Rouses.cancelTask (c : Cluster σ) (k : Nat) : Rouses c (c.cancelTask k) where
  ready _ hk :=
    ((Wakes.refl { c with crew := c.crew.cancel k }).wake (.task k)).mem_ready hk
  tasks j := by
    by_cases hkj : k = j
    · subst hkj
      exact Or.inr (mem_ready_wake _ _)
    · rw [Cluster.cancelTask, crew_wake]
      exact Or.inl (List.getElem?_modify_ne _ _ hkj)

theorem Rouses.dismiss (c : Cluster σ) (i : Nat) : Rouses c (c.dismiss i) := by
  have hcancel (ks : List Nat) (c : Cluster σ) : Rouses c (ks.foldl Cluster.cancelTask c) := by
    induction ks generalizing c with
    | nil => exact .refl c
    | cons k ks hall => exact (Rouses.cancelTask c k).trans (hall _)
  have hmodified : Rouses c (c.modify i fun m => { m with shutdown := true }) :=
    .of_eq (fun _ => id) rfl
  exact (hmodified.trans (hcancel _ _)).trans (.wake _ _)

variable [LockService σ]

/-- Who is started is woken, too. -/
theorem Rouses.perform (i : Nat) (m : Member) (c : Cluster σ) (a : Action) :
    Rouses c (perform i m c a) := by
  refine ⟨fun k => (Wakes.perform i m c a).mem_ready, fun k => ?_⟩
  cases a with
  | note | call => exact Or.inl rfl
  | startTask token =>
      rcases Nat.lt_or_ge k c.crew.tasks.length with hk | hk
      · rw [Cluster.perform, crew_wake]
        exact Or.inl (List.getElem?_append_left hk)
      · rcases Nat.eq_or_lt_of_le hk with rfl | hk
        · exact Or.inr (mem_ready_wake _ _)
        · rw [Cluster.perform, crew_wake, List.getElem?_eq_none hk.le]
          refine Or.inl (List.getElem?_eq_none ?_)
          change (c.crew.tasks ++ [_]).length ≤ k
          rw [List.length_append]
          exact hk
  | cancelTask =>
      simp only [Cluster.perform]
      split
      · exact Or.inl rfl
      · exact (Rouses.cancelTask c _).tasks k

theorem Rouses.resume (c : Cluster σ) (i : Nat) (m : Member) (s : Signal) :
    Rouses c (c.resume i m s) := by
  have hheard : Rouses c (c.hear m) :=
    .of_eq (fun _ => (Wakes.hear c m).mem_ready) (hear_frame c m).2.2.1
  exact resume_induction i m (.refl c) hheard (fun _ _ hx => ⟨hx.ready, hx.tasks⟩)
    (fun x a hx => hx.trans (.perform i m x a)) s

end Queues

section Runs

variable [LockService σ] {h e : Chronicle} {start : Cluster σ} {service : σ} {traced : Bool}
variable {Works : Task → Task → Prop} {owed : List (Nat × Nat)}

/-- The tasks in the queue. -/
def readyTasks (c : Cluster σ) : List Nat :=
  c.ready.filterMap fun
    | .task k => some k
    | .member _ => none

omit [LockService σ] in
theorem mem_readyTasks : k ∈ c.readyTasks ↔ .task k ∈ c.ready := by
  rw [readyTasks, List.mem_filterMap]
  constructor
  · rintro ⟨r, hr, hk⟩
    cases r with
    | member i => cases hk
    | task j =>
        cases hk
        exact hr
  · exact fun hk => ⟨.task k, hk, rfl⟩

/-- Whom a controller lets run that begins to do so in a step: the tasks woken by then, each with
the number of the controller. -/
def debts (e : Chronicle) (c : Cluster σ) : List (Nat × Nat) :=
  e.flatMap fun x =>
    match x.2.after with
    | .yielding _ => c.readyTasks.map (Prod.mk x.1)
    | _ => []

/-- What a world may do that leaves tasks alone: anything to the service and to the calls that it
answers, time passes, and tasks are woken. -/
structure Aside (c c' : Cluster σ) : Prop extends Open c c' where
  tasks_eq : c'.crew.tasks = c.crew.tasks
  ready : ∀ k, .task k ∈ c.ready → .task k ∈ c'.ready

/-- Runs on one thread.  A task that is polled works as `Works` says; it remains whose it is,
cancelled or not, and what is over stays over.  Anyone may cancel a token that it holds a clone
of, a task its own among them, which wakes the task.  A controller that lets the others run goes
on only when all tasks that were woken by then have been polled: `owed` are those that have not. -/
inductive Deferred (Works : Task → Task → Prop) (start : Cluster σ) :
    Chronicle → List (Nat × Nat) → Cluster σ → Prop where
  | start : Deferred Works start [] [] start
  | step {h e : Chronicle} {owed : List (Nat × Nat)} {c c' : Cluster σ}
      (run : Deferred Works start h owed c) (hstep : Step Aside c e c')
      (hpolled : ∀ x ∈ e, ∀ taskOver, x.2.signal = .resumed taskOver →
        ∀ k, (x.1, k) ∉ owed) :
      Deferred Works start (e ++ h) (debts e c' ++ owed) c'
  | poll {h : Chronicle} {owed : List (Nat × Nat)} {c : Cluster σ}
      (run : Deferred Works start h owed c) {j : Nat} {t t' : Task}
      (hj : c.crew.tasks[j]? = some t) (hworks : Works t t') (hgroup : t'.group = t.group)
      (hcancelled : t'.cancelled = t.cancelled) (hover : t.isOver = true → t'.isOver = true)
      (record : TaskRecord) {ready : List Runner}
      (hready : ∀ k, j ≠ k → .task k ∈ c.ready → .task k ∈ ready) :
      Deferred Works start h (owed.filter fun x => x.2 ≠ j)
        { c with crew := { record, tasks := c.crew.tasks.set j t' }, ready }
  | resign {h : Chronicle} {owed : List (Nat × Nat)} {c : Cluster σ}
      (run : Deferred Works start h owed c) (j : Nat) :
      Deferred Works start h owed (c.cancelTask j)

omit [LockService σ] in
/-- A task that is polled remains whose it is, cancelled or not. -/
theorem isOpen_poll {j : Nat} {t t' : Task} (hj : c.crew.tasks[j]? = some t)
    (hgroup : t'.group = t.group) (hcancelled : t'.cancelled = t.cancelled) (record : TaskRecord)
    (ready : List Runner) :
    Open c { c with crew := { record, tasks := c.crew.tasks.set j t' }, ready } where
  now_le := Nat.le_refl _
  members_eq := rfl
  marks := .of_eq (Crew.marks_set hj hgroup hcancelled record)

theorem Deferred.run (run : Deferred Works start h owed c) : Run Open start h c := by
  induction run with
  | start => exact .start
  | step _ hstep _ hall => exact hall.step (hstep.mono Aside.toOpen)
  | poll _ hj _ hgroup hcancelled _ record hready hall =>
      exact hall.step (e := []) (.world (isOpen_poll hj hgroup hcancelled record _))
  | resign _ j hall =>
      exact hall.step (e := []) (.world (isOpen_cancelTask _ j))

end Runs

section Latest

variable [LockService σ] {h e : Chronicle} {service : σ} {traced : Bool}

theorem adds_of_goesOn (hgoes : c.GoesOn m s) (i : Nat) :
    let t := Turn.take m.id m.policy c.now m.shutdown m.phase s
    Reach.Adds i t ⟨c.service, none, c.crew, m.episode⟩ (c.reach i m t) :=
  Reach.adds_of_course (Controller.course_of_due hgoes.due m.id m.policy) i m _

/-- A turn adds no tasks but those of its controller. -/
theorem outlines_resume_of_ne (hm : c.members[i]? = some m) (hgoes : c.GoesOn m s) (hij : i ≠ j)
    {ended : Bool} (hk : (c.resume i m s).crew.outlines[k]? = some (j, ended)) :
    c.crew.outlines[k]? = some (j, ended) := by
  rw [(resume_frame hm s).2.crew] at hk
  cases adds_of_goesOn hgoes i with
  | keeps houtlines => rwa [houtlines] at hk
  | starts _ _ houtlines =>
      rw [houtlines] at hk
      rcases getElem?_concat_cases hk with hbefore | ⟨-, hsame⟩
      · exact hbefore
      · exact absurd (congrArg Prod.fst hsame) hij

/-- That controllers keep to the task that they started last. -/
structure Recalls (c : Cluster σ) : Prop where
  latest : ∀ (i : Nat) (m : Member), c.members[i]? = some m →
    ∀ k, c.crew.groups[k]? = some i → ∃ e : Episode, m.episode = some e ∧ k ≤ e.task
  begun : ∀ (i : Nat) (m : Member), c.members[i]? = some m →
    m.phase.state = .leading ∨ m.phase.isAftermath = true → m.episode ≠ none

theorem Recalls.turn (hrecalls : Recalls c) (hm : c.members[i]? = some m)
    (hgoes : c.GoesOn m s) : Recalls (c.resume i m s) := by
  have hadds := adds_of_goesOn hgoes i
  have hcrew := (resume_frame hm s).2.crew
  have hself := member_resume hm s
  constructor
  · intro j m' hm' k hk
    by_cases hij : i = j
    · subst hij
      rw [hself] at hm'
      cases hm'
      cases hadds with
      | keeps houtlines hepisode =>
          rw [hcrew, Crew.groups_of_outlines, houtlines, ← Crew.groups_of_outlines] at hk
          obtain ⟨e, he, hle⟩ := hrecalls.latest i m hm k hk
          exact ⟨e, hepisode.trans he, hle⟩
      | starts _ _ houtlines hepisode =>
          obtain ⟨e, he, htask⟩ := Option.map_eq_some_iff.mp hepisode
          refine ⟨e, he, ?_⟩
          have hlt := (List.getElem?_eq_some_iff.mp hk).1
          rw [hcrew, Crew.groups_of_outlines, houtlines, List.length_map, List.length_append] at hlt
          exact htask ▸ Nat.le_of_lt_succ hlt
    · rw [member_resume_of_ne hm s hij] at hm'
      obtain ⟨ended, hk⟩ := Crew.getElem?_groups.mp hk
      exact hrecalls.latest j m' hm' k
        (Crew.getElem?_groups.mpr ⟨ended, outlines_resume_of_ne hm hgoes hij hk⟩)
  · intro j m' hm' hleads
    by_cases hij : i = j
    · subst hij
      rw [hself] at hm'
      cases hm'
      cases hadds with
      | keeps houtlines hepisode hbefore =>
          exact fun hnone => hrecalls.begun i m hm (hbefore hleads) (hepisode.symm.trans hnone)
      | starts _ _ houtlines hepisode =>
          obtain ⟨e, he, -⟩ := Option.map_eq_some_iff.mp hepisode
          exact fun hnone => Option.some_ne_none e (he.symm.trans hnone)
    · rw [member_resume_of_ne hm s hij] at hm'
      exact hrecalls.begun j m' hm' hleads

end Latest

section Prompt

variable [LockService σ] {h e : Chronicle} {service : σ} {traced : Bool}
variable {resigners : Nat → Prop} {Works : Task → Task → Prop} {owed : List (Nat × Nat)}

/-- What is known of tasks that return when they are first polled after they were cancelled: those
that have not been polled since are in the queue, and one that may be left to a controller is that
of its last episode.  A controller that lets the others run lets that one run. -/
structure Tended (owed : List (Nat × Nat)) (c : Cluster σ) : Prop where
  woken : ∀ (k : Nat) (t : Task), c.crew.tasks[k]? = some t → t.cancelled = true →
    t.isOver = false → .task k ∈ c.ready
  own : ∀ (i : Nat) (m : Member), c.members[i]? = some m → c.Representable m →
    ∀ k, c.crew.outlines[k]? = some (i, false) →
      m.phase.mayLeaveTask = true ∧ m.episode.map Episode.task = some k ∧
        ∀ completed, m.phase = .yielding completed → (i, k) ∈ owed

omit [LockService σ] in
theorem Tended.woken_of_rouses (htended : Tended owed c) (hrouses : Rouses c c') :
    ∀ (k : Nat) (t : Task), c'.crew.tasks[k]? = some t → t.cancelled = true →
      t.isOver = false → .task k ∈ c'.ready := by
  intro k t ht hcancelled hover
  rcases hrouses.tasks k with hsame | hqueued
  · exact hrouses.ready k (htended.woken k t (hsame ▸ ht) hcancelled hover)
  · exact hqueued

omit [LockService σ] in
/-- All tasks of a controller that does not lead are cancelled. -/
theorem Bonds.cancelled_of_state (hbonds : Bonds resigners h c) (hm : c.members[i]? = some m)
    (hticker : c.Representable m) (hstate : m.state ≠ .leading) (ht : c.crew.tasks[k]? = some t)
    (hgroup : t.group = i) : t.cancelled = true := by
  have hdead : m.liveTask? = none := if_neg fun hlive => hstate hlive.1
  have hmark : (t.group, t.cancelled) ∈ c.crew.marks :=
    List.mem_map_of_mem (List.mem_of_getElem? ht)
  exact (hbonds.bound i m hm hticker).eq_true_of_mem hdead _ hmark hgroup

omit [LockService σ] in
/-- Once all have been polled that were woken before, the last task is over. -/
theorem Tended.none_left (htended : Tended owed c) (hm : c.members[i]? = some m)
    (hticker : c.Representable m) {completed : Bool} (hphase : m.phase = .yielding completed)
    (hpolled : ∀ k, (i, k) ∉ owed) : ∀ k : Nat, c.crew.outlines[k]? ≠ some (i, false) := by
  intro k hk
  obtain ⟨-, -, howed⟩ := htended.own i m hm hticker k hk
  exact hpolled k (howed completed hphase)

theorem Tended.turn (htended : Tended owed c) (hm : c.members[i]? = some m)
    (hgoes : c.GoesOn m s) (hbonds : Bonds resigners h (c.resume i m s))
    (hpolled : ∀ taskOver, s = .resumed taskOver → ∀ k, (i, k) ∉ owed) :
    Tended
      (debts [(i, Turn.take m.id m.policy c.now m.shutdown m.phase s)] (c.resume i m s) ++ owed)
      (c.resume i m s) := by
  have hwoken := htended.woken_of_rouses (Rouses.resume c i m s)
  refine ⟨hwoken, fun j m' hm' hticker k hk => ?_⟩
  have hnow := (resume_frame hm s).1
  by_cases hij : i = j
  · subst hij
    have hself := hm'
    rw [member_resume hm s] at hself
    have hcrew := (resume_frame hm s).2.crew
    have hturn : (Turn.take m.id m.policy c.now m.shutdown m.phase s).IsOf m.id m.policy :=
      Turn.isOf_take hgoes.due
    have hearlier : c.Representable m := by
      cases hself
      rwa [Representable, hnow] at hticker
    rw [hcrew] at hk
    cases adds_of_goesOn hgoes i with
    | starts hbefore hafter houtlines hepisode =>
        -- Nothing was left to a controller that asked for the lock.
        have hnone : c.crew.outlines[k]? ≠ some (i, false) := fun hleft => by
          obtain ⟨hmay, -, -⟩ := htended.own i m hm hearlier k hleft
          rw [show m.phase = .acquiring from hbefore] at hmay
          cases hmay
        rw [houtlines] at hk
        obtain ⟨rfl, -⟩ := (getElem?_concat_cases hk).resolve_left hnone
        cases hself
        generalize Turn.take m.id m.policy c.now m.shutdown m.phase s = t at *
        refine ⟨?_, hepisode, fun completed hyields => ?_⟩
        · change t.after.mayLeaveTask = true
          cases hphase : t.after with
          | idle | starting | acquiring | retrying => rw [hphase] at hafter; cases hafter
          | leading | renewing | cooling | yielding | stopped | failed => rfl
        · rw [show t.after = .yielding completed from hyields] at hafter
          cases hafter
    | keeps houtlines hepisode =>
        rw [houtlines] at hk
        obtain ⟨hmay, hlatest, -⟩ := htended.own i m hm hearlier k hk
        have hstays : ∀ completed, m.phase ≠ .yielding completed := by
          intro completed hphase
          cases hgoes with
          | resumed => exact htended.none_left hm hearlier hphase (hpolled _ rfl) k hk
          | signalled hsignal =>
              rw [Member.signal?, hphase] at hsignal
              cases hsignal
        have hafter := Controller.Turn.mayLeaveTask_after hturn hmay hstays
        cases hself
        refine ⟨hafter, (congrArg _ hepisode).trans hlatest, fun completed hyields => ?_⟩
        -- What is left was cancelled when the lease was lost, so it is in the queue.
        obtain ⟨t, ht, hgroup, hover⟩ : ∃ t : Task,
            (c.resume i m s).crew.tasks[k]? = some t ∧ t.group = i ∧ t.isOver = false := by
          apply Crew.exists_task_of_outline
          rw [hcrew, houtlines]
          exact hk
        have hcancelled := hbonds.cancelled_of_state hm' hticker
          (by rw [Member.state, hyields]; rintro ⟨⟩) ht hgroup
        have hqueued := mem_readyTasks.mpr (hwoken k t ht hcancelled hover)
        apply List.mem_append_left
        change (Turn.take m.id m.policy c.now m.shutdown m.phase s).after = _ at hyields
        rw [debts, List.flatMap_singleton]
        dsimp only
        rw [hyields]
        exact List.mem_map_of_mem hqueued
  · have hother := hm'
    rw [member_resume_of_ne hm s hij] at hother
    rw [Representable, hnow] at hticker
    obtain ⟨hmay, hlatest, howed⟩ := htended.own j m' hother hticker k
      (outlines_resume_of_ne hm hgoes hij hk)
    exact ⟨hmay, hlatest, fun completed hphase => List.mem_append_right _ (howed completed hphase)⟩

omit [LockService σ] in
/-- All that matters of a controller is its phase and its last episode. -/
theorem Tended.frame (htended : Tended owed c) (hrouses : Rouses c c')
    (houtlines : c'.crew.outlines = c.crew.outlines)
    (hmembers : ∀ (i : Nat) (m' : Member), c'.members[i]? = some m' → c'.Representable m' →
      (∀ k : Nat, c.crew.outlines[k]? ≠ some (i, false)) ∨
      ∃ m, c.members[i]? = some m ∧ c.Representable m ∧ m'.phase = m.phase ∧
        m'.episode = m.episode) : Tended owed c' where
  woken := htended.woken_of_rouses hrouses
  own i m' hm' hticker k hk := by
    rw [houtlines] at hk
    rcases hmembers i m' hm' hticker with hnone | ⟨m, hm, hearlier, hphase, hepisode⟩
    · exact absurd hk (hnone k)
    · rw [hphase, hepisode]
      exact htended.own i m hm hearlier k hk

omit [LockService σ] in
theorem Tended.poll (htended : Tended owed c) (hbonds : Bonds resigners h c) {t t' : Task}
    (hj : c.crew.tasks[j]? = some t) (hprompt : t.cancelled = true → t'.isOver = true)
    (hgroup : t'.group = t.group) (hcancelled : t'.cancelled = t.cancelled)
    (hover : t.isOver = true → t'.isOver = true) (record : TaskRecord) {ready : List Runner}
    (hready : ∀ k, j ≠ k → .task k ∈ c.ready → .task k ∈ ready) :
    Tended (owed.filter fun x => x.2 ≠ j)
      { c with crew := { record, tasks := c.crew.tasks.set j t' }, ready } where
  woken k t₁ ht hdone hopen := by
    change (c.crew.tasks.set j t')[k]? = some t₁ at ht
    by_cases hjk : j = k
    · subst hjk
      rw [List.getElem?_set_self (List.getElem?_eq_some_iff.mp hj).1] at ht
      cases ht
      rw [hprompt (hcancelled ▸ hdone)] at hopen
      cases hopen
    · rw [List.getElem?_set_ne hjk] at ht
      exact hready k hjk (htended.woken k t₁ ht hdone hopen)
  own i m hm hticker k hk := by
    obtain ⟨t₁, ht, hown, hopen⟩ := Crew.exists_task_of_outline hk
    change (c.crew.tasks.set j t')[k]? = some t₁ at ht
    -- A task that is left was left before.
    have hbefore : c.crew.outlines[k]? = some (i, false) ∧ (j = k → t.cancelled = false) := by
      by_cases hjk : j = k
      · subst hjk
        rw [List.getElem?_set_self (List.getElem?_eq_some_iff.mp hj).1] at ht
        cases ht
        have hopen' : t.isOver = false := by
          by_contra hdone
          rw [hover (Bool.not_eq_false _ ▸ hdone)] at hopen
          cases hopen
        refine ⟨by simp [Crew.outlines, hj, ← hgroup, hown, hopen'], fun _ => ?_⟩
        by_contra hdone
        rw [hprompt (Bool.not_eq_false _ ▸ hdone)] at hopen
        cases hopen
      · rw [List.getElem?_set_ne hjk] at ht
        exact ⟨by simp [Crew.outlines, ht, hown, hopen], fun hsame => absurd hsame hjk⟩
    obtain ⟨hmay, hlatest, howed⟩ := htended.own i m hm hticker k hbefore.1
    refine ⟨hmay, hlatest, fun completed hphase => List.mem_filter.mpr ⟨howed completed hphase, ?_⟩⟩
    -- All tasks of a controller that lets the others run are cancelled.
    refine decide_eq_true fun hkj => ?_
    obtain ⟨t₂, ht₂, hown₂, -⟩ := Crew.exists_task_of_outline hbefore.1
    have hdone := hbonds.cancelled_of_state hm hticker
      (by rw [Member.state, hphase]; rintro ⟨⟩) ht₂ hown₂
    rw [← show j = k from hkj.symm, hj] at ht₂
    cases ht₂
    rw [hbefore.2 hkj.symm] at hdone
    cases hdone

omit [LockService σ] in
/-- So the task of a controller that goes on then is over. -/
theorem Tended.isTaskOver (htended : Tended owed c) (hbonds : Bonds resigners h c)
    (hm : c.members[i]? = some m) (hticker : c.Representable m) {completed : Bool}
    (hphase : m.phase = .yielding completed) (hpolled : ∀ k, (i, k) ∉ owed) :
    c.isTaskOver m = true := by
  rw [Cluster.isTaskOver]
  cases he : m.episode with
  | none => rfl
  | some e =>
      obtain ⟨cancelled, hmark⟩ := hbonds.owns i m hm e he
      obtain ⟨t, ht, hgroup, -⟩ : ∃ t : Task, c.crew.tasks[e.task]? = some t ∧ t.group = i ∧
          t.cancelled = cancelled := by simpa [Crew.marks] using hmark
      have hleft := htended.none_left hm hticker hphase hpolled e.task
      rw [Crew.outlines, List.getElem?_map, ht, Option.map_some, hgroup] at hleft
      simpa [Crew.isOver, ht] using hleft

end Prompt

section Witnesses

variable {start : Cluster Script} {h : Chronicle} {owed : List (Nat × Nat)} {c : Cluster Script}
variable {i : Nat} {m : Member} {s : Signal} {Works : Task → Task → Prop}

/-- A turn of a controller that does not let others run. -/
theorem Deferred.turn (run : Deferred Works start h owed c) (hm : c.members[i]? = some m)
    (hgoes : c.GoesOn m s) (hs : ∀ taskOver, s ≠ .resumed taskOver) :
    let e := [(i, Turn.take m.id m.policy c.now m.shutdown m.phase s)]
    Deferred Works start (e ++ h) (debts e (c.resume i m s) ++ owed) (c.resume i m s) := by
  refine run.step (.turn hm hgoes) fun x hx taskOver hsignal => ?_
  obtain rfl := List.mem_singleton.mp hx
  exact absurd hsignal (hs taskOver)

/-- A controller that let the others run goes on when all of them have been polled. -/
theorem Deferred.goOn (run : Deferred Works start h owed c) (hm : c.members[i]? = some m)
    {completed : Bool} (hphase : m.phase = .yielding completed) (hpolled : owed = []) :
    let s : Signal := .resumed (c.isTaskOver m)
    let e := [(i, Turn.take m.id m.policy c.now m.shutdown m.phase s)]
    Deferred Works start (e ++ h) (debts e (c.resume i m s) ++ owed) (c.resume i m s) := by
  refine run.step (.turn hm (.resumed hphase)) fun x _ taskOver _ k hk => ?_
  rw [hpolled] at hk
  cases hk

/-- A task is polled and leaves the queue. -/
theorem Deferred.work (run : Deferred Works start h owed c) {j : Nat} (t t' : Task)
    (hj : c.crew.tasks[j]? = some t) (hworks : Works t t') (hgroup : t'.group = t.group)
    (hcancelled : t'.cancelled = t.cancelled) (hover : t.isOver = true → t'.isOver = true) :
    Deferred Works start h (owed.filter fun x => x.2 ≠ j)
      { c with
        crew := { c.crew with tasks := c.crew.tasks.set j t' }
        ready := c.ready.filter (· ≠ .task j) } := by
  refine run.poll hj hworks hgroup hcancelled hover _ fun k hjk hk => ?_
  exact List.mem_filter.mpr ⟨hk, decide_eq_true fun hsame => hjk (Runner.task.inj hsame).symm⟩

/-- Time passes. -/
theorem Deferred.pass (run : Deferred Works start h owed c) (now : Nat) (hlater : c.now ≤ now) :
    Deferred Works start h owed { c with now } :=
  run.step (e := []) (.world ⟨⟨hlater, rfl, .refl _⟩, rfl, fun _ => id⟩) (by simp)

end Witnesses

end Cluster

end LeaseElection
