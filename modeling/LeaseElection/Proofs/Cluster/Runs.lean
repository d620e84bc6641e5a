import LeaseElection.Proofs.Cluster.Frame
import LeaseElection.Proofs.Controller.Path

/-!
# Runs of a cluster

A run takes one step after another: a controller takes a turn, a controller is taken
in, a shutdown fires, or the world around them moves.  Whose turn it is is left open,
and so is what the world may do, which tells runs of one kind from another.  Where
the world may do anything to the lock service, the clock and the calls in flight, every
service that answers anything at any time is covered, and so is all that the commands
of a cluster do.  Tasks may do anything there, even cancel their own tokens, of which
they hold clones.
-/

namespace LeaseElection

open Controller (Phase Signal Action Turn History)

/-- The turns that were taken, latest first, each with the number of its controller. -/
abbrev Chronicle := List (Nat × Turn)

/-- The turns of controller `i`. -/
def Chronicle.turnsOf (i : Nat) (h : Chronicle) : List Turn :=
  h.filterMap fun e => if e.1 = i then some e.2 else none

@[simp]
theorem Chronicle.turnsOf_cons_self (i : Nat) (t : Turn) (h : Chronicle) :
    Chronicle.turnsOf i ((i, t) :: h) = t :: h.turnsOf i := by
  simp [turnsOf]

theorem Chronicle.turnsOf_cons_of_ne {i j : Nat} (hij : i ≠ j) (t : Turn) (h : Chronicle) :
    Chronicle.turnsOf j ((i, t) :: h) = h.turnsOf j := by
  simp [turnsOf, hij]

/-- A controller but for the call that it is in. -/
def Member.sansCall (m : Member) : Member := { m with call := none }

/-- Of every task instance, whose it is and whether it was cancelled. -/
def Crew.marks (crew : Crew) : List (Nat × Bool) :=
  crew.tasks.map fun t => (t.group, t.cancelled)

/-- That task instances remain whose they are, and cancelled if they were. -/
structure MarksEndure (marks marks' : List (Nat × Bool)) : Prop where
  groups_eq : marks'.map Prod.fst = marks.map Prod.fst
  cancelled : ∀ k i : Nat, marks[k]? = some (i, true) → marks'[k]? = some (i, true)

namespace MarksEndure

variable {marks marks' : List (Nat × Bool)} {i k : Nat} {cancelled : Bool}

theorem refl (marks : List (Nat × Bool)) : MarksEndure marks marks := ⟨rfl, fun _ _ => id⟩

theorem of_eq (hsame : marks' = marks) : MarksEndure marks marks' := hsame ▸ .refl marks

theorem group_eq (hendure : MarksEndure marks marks') (k : Nat) :
    marks'[k]?.map Prod.fst = marks[k]?.map Prod.fst := by
  rw [← List.getElem?_map, ← List.getElem?_map, hendure.groups_eq]

theorem before (hendure : MarksEndure marks marks') (hk : marks'[k]? = some (i, cancelled)) :
    ∃ was, marks[k]? = some (i, was) ∧ (was = true → cancelled = true) := by
  have hgroup := hendure.group_eq k
  rw [hk] at hgroup
  obtain ⟨⟨group, was⟩, hwas, rfl⟩ := Option.map_eq_some_iff.mp hgroup.symm
  refine ⟨was, hwas, ?_⟩
  rintro rfl
  rw [hendure.cancelled k group hwas] at hk
  exact (congrArg Prod.snd (Option.some.inj hk)).symm

theorem after (hendure : MarksEndure marks marks') (hk : marks[k]? = some (i, cancelled)) :
    ∃ became, marks'[k]? = some (i, became) := by
  have hgroup := hendure.group_eq k
  rw [hk] at hgroup
  obtain ⟨⟨group, became⟩, hbecame, rfl⟩ := Option.map_eq_some_iff.mp hgroup
  exact ⟨became, hbecame⟩

theorem count_eq (hendure : MarksEndure marks marks') (i : Nat) :
    marks'.countP (fun mark => mark.1 = i) = marks.countP fun mark => mark.1 = i := by
  have hcount := congrArg (List.countP fun group => group = i) hendure.groups_eq
  simpa only [List.countP_map, Function.comp_def] using hcount

/-- To cancel an instance does not change whose it is. -/
theorem modify (marks : List (Nat × Bool)) (k : Nat) :
    MarksEndure marks (marks.modify k fun mark => (mark.1, true)) where
  groups_eq := by
    apply List.ext_getElem?
    intro j
    simp only [List.getElem?_map, List.getElem?_modify]
    cases marks[j]? with
    | none => rfl
    | some mark => by_cases hkj : k = j <;> simp [hkj]
  cancelled j i hj := by
    rw [List.getElem?_modify, hj]
    by_cases hkj : k = j <;> simp [hkj]

end MarksEndure

/-- An instance that remains whose it is, and cancelled or not, is marked as before. -/
theorem Crew.marks_set {crew : Crew} {j : Nat} {t t' : Task} (hj : crew.tasks[j]? = some t)
    (hgroup : t'.group = t.group) (hcancelled : t'.cancelled = t.cancelled)
    (record : TaskRecord) :
    Crew.marks { record, tasks := crew.tasks.set j t' } = crew.marks := by
  obtain ⟨hlt, rfl⟩ := List.getElem?_eq_some_iff.mp hj
  apply List.ext_getElem?
  intro k
  simp only [marks, List.getElem?_map, List.getElem?_set]
  by_cases hjk : j = k
  · subst hjk
    simp [hlt, hgroup, hcancelled]
  · simp [hjk]

theorem Crew.marks_cancel (crew : Crew) (k : Nat) :
    (crew.cancel k).marks = crew.marks.modify k fun mark => (mark.1, true) := by
  apply List.ext_getElem?
  intro j
  simp only [marks, cancel, List.getElem?_map, List.getElem?_modify]
  cases crew.tasks[j]? with
  | none => rfl
  | some t => by_cases hkj : k = j <;> simp [hkj]

theorem Task.poll_frame (now : Nat) (t : Task) (r : TaskRecord) :
    (t.poll now r).1.group = t.group ∧ (t.poll now r).1.cancelled = t.cancelled := by
  have hstart : (t.start now r).1.group = t.group ∧
      (t.start now r).1.cancelled = t.cancelled := by
    rw [start]
    split <;> exact ⟨rfl, rfl⟩
  have hstop (t : Task) (r : TaskRecord) : (t.stop now r).1.group = t.group ∧
      (t.stop now r).1.cancelled = t.cancelled := by
    rw [stop]
    split <;> exact ⟨rfl, rfl⟩
  have hleave (t : Task) : (t.leave now).group = t.group ∧
      (t.leave now).cancelled = t.cancelled := by
    rw [leave]
    split
    · split <;> exact ⟨rfl, rfl⟩
    · exact ⟨rfl, rfl⟩
  have hlast := hleave ((t.start now r).1.stop now (t.start now r).2).1
  have hmiddle := hstop (t.start now r).1 (t.start now r).2
  exact ⟨hlast.1.trans (hmiddle.1.trans hstart.1), hlast.2.trans (hmiddle.2.trans hstart.2)⟩

namespace Cluster

variable {σ : Type}

/-- Whether a controller may go on with a signal: on its own, or since it let the
others run. -/
inductive GoesOn (c : Cluster σ) (m : Member) : Signal → Prop where
  | signalled {s : Signal} (hsignal : m.signal? c.now = some s) : GoesOn c m s
  | resumed {completed : Bool} (hphase : m.phase = .yielding completed) :
      GoesOn c m (.resumed (c.isTaskOver m))

/-- One step, with the turn that was taken in it. -/
inductive Step [LockService σ] (World : Cluster σ → Cluster σ → Prop) :
    Cluster σ → Chronicle → Cluster σ → Prop where
  | turn {c : Cluster σ} {i : Nat} {m : Member} {s : Signal}
      (hm : c.members[i]? = some m) (hgoes : c.GoesOn m s) :
      Step World c [(i, Turn.take m.id m.policy c.now m.shutdown m.phase s)] (c.resume i m s)
  | enroll (c : Cluster σ) {m : Member} (hphase : m.phase = .idle)
      (hepisode : m.episode = none) (hcall : m.call = none) : Step World c [] (c.enroll m)
  | dismiss (c : Cluster σ) (i : Nat) : Step World c [] (c.dismiss i)
  | world {c c' : Cluster σ} (hworld : World c c') : Step World c [] c'

/-- Any number of steps from a cluster on. -/
inductive Run [LockService σ] (World : Cluster σ → Cluster σ → Prop) (start : Cluster σ) :
    Chronicle → Cluster σ → Prop where
  | start : Run World start [] start
  | step {h e : Chronicle} {c c' : Cluster σ} (run : Run World start h c)
      (hstep : Step World c e c') : Run World start (e ++ h) c'

theorem Step.mono [LockService σ] {World World' : Cluster σ → Cluster σ → Prop}
    (hworlds : ∀ {c c'}, World c c' → World' c c') {c c' : Cluster σ} {e : Chronicle}
    (hstep : Step World c e c') : Step World' c e c' := by
  cases hstep with
  | turn hm hgoes => exact .turn hm hgoes
  | enroll hphase hepisode hcall => exact .enroll c hphase hepisode hcall
  | dismiss i => exact .dismiss c i
  | world hworld => exact .world (hworlds hworld)

theorem Run.mono [LockService σ] {World World' : Cluster σ → Cluster σ → Prop}
    (hworlds : ∀ {c c'}, World c c' → World' c c') {start c : Cluster σ} {h : Chronicle}
    (run : Run World start h c) : Run World' start h c := by
  induction run with
  | start => exact .start
  | step _ hstep hall => exact hall.step (hstep.mono hworlds)

theorem Run.trans [LockService σ] {World : Cluster σ → Cluster σ → Prop} {start c c' : Cluster σ}
    {h h' : Chronicle} (first : Run World start h c) (second : Run World c h' c') :
    Run World start (h' ++ h) c' := by
  induction second with
  | start => exact first
  | step _ hstep hall =>
      rw [List.append_assoc]
      exact hall.step hstep

/-- A cluster without controllers and tasks. -/
def empty (service : σ) (traced : Bool) : Cluster σ := { service, traced }

/-- What a world may do that can do anything to the service and to the calls that it
answers, but nothing to controllers: time passes, and tasks run and cancel tokens. -/
structure Open (c c' : Cluster σ) : Prop where
  now_le : c.now ≤ c'.now
  members_eq : c'.members.map Member.sansCall = c.members.map Member.sansCall
  marks : MarksEndure c.crew.marks c'.crew.marks

/-- What a world may do in which, besides, none but `resigners` cancel their own tokens. -/
structure Resigning (resigners : Nat → Prop) (c c' : Cluster σ) : Prop extends Open c c' where
  loyal : ∀ k, ¬resigners k → c'.crew.marks[k]? = c.crew.marks[k]?

/-- What a world may do in which time is virtual and the lock service is left to the
controllers: tasks run, queues change, and time passes while all controllers wait. -/
inductive Virtual : Cluster σ → Cluster σ → Prop where
  | work (c : Cluster σ) (j : Nat) : Virtual c { c with crew := c.crew.poll c.now j }
  | queue (c : Cluster σ) (ready : List Runner) (yielded : List Nat) (alarms : Alarms Runner) :
      Virtual c { c with ready, yielded, alarms }
  | pass (c : Cluster σ) (now : Nat) (hlater : c.now < now) (hmillis : 1000000 ∣ now)
      (hrest : ∀ m ∈ c.members,
        m.signal? c.now = none ∧ ∀ completed, m.phase ≠ .yielding completed)
      (hsleep : ∀ m ∈ c.members, ∀ wake, m.wake? = some wake → now ≤ wake) :
      Virtual c { c with now }

/-- Tasks that run remain whose they are, and cancelled or not. -/
theorem marks_poll (crew : Crew) (now j : Nat) : (crew.poll now j).marks = crew.marks := by
  rw [Crew.poll]
  cases hj : crew.tasks[j]? with
  | none => rfl
  | some t =>
      obtain ⟨hgroup, hcancelled⟩ := Task.poll_frame now t crew.record
      exact Crew.marks_set hj hgroup hcancelled _

theorem Virtual.marks_eq {c c' : Cluster σ} (hvirtual : Virtual c c') :
    c'.crew.marks = c.crew.marks := by
  cases hvirtual with
  | work j => exact marks_poll _ _ _
  | queue | pass => rfl

theorem Virtual.isOpen {c c' : Cluster σ} (hvirtual : Virtual c c') : Open c c' := by
  have hmarks := MarksEndure.of_eq hvirtual.marks_eq
  cases hvirtual with
  | work | queue => exact ⟨Nat.le_refl _, rfl, hmarks⟩
  | pass now hlater => exact ⟨Nat.le_of_lt hlater, rfl, hmarks⟩

theorem Virtual.resigning {c c' : Cluster σ} (hvirtual : Virtual c c') (resigners : Nat → Prop) :
    Resigning resigners c c' where
  toOpen := hvirtual.isOpen
  loyal _ _ := by rw [hvirtual.marks_eq]

/-- A task resigns, and is woken. -/
theorem isOpen_cancelTask (c : Cluster σ) (k : Nat) : Open c (c.cancelTask k) := by
  obtain ⟨hnow, -, hmembers, hcrew⟩ := cancelTask_frame c k
  refine ⟨hnow.ge, by rw [hmembers], ?_⟩
  rw [hcrew, Crew.marks_cancel]
  exact .modify _ k

theorem resigning_cancelTask (c : Cluster σ) {resigners : Nat → Prop} {k : Nat}
    (hk : resigners k) : Resigning resigners c (c.cancelTask k) := by
  refine ⟨isOpen_cancelTask c k, fun j hj => ?_⟩
  have hkj : k ≠ j := fun hsame => hj (hsame ▸ hk)
  rw [(cancelTask_frame c k).2.2.2, Crew.marks_cancel, List.getElem?_modify]
  simp [hkj]

section Members

variable [LockService σ] {World : Cluster σ → Cluster σ → Prop} {c c' start : Cluster σ}
variable {h e : Chronicle} {i j : Nat} {m m' : Member}

omit [LockService σ] in
theorem GoesOn.due {s : Signal} (hgoes : c.GoesOn m s) :
    Controller.Due c.now m.shutdown m.phase s := by
  cases hgoes with
  | signalled hsignal => exact .signalled _ hsignal
  | resumed hphase =>
      rw [hphase]
      exact .resumed _ _

omit [LockService σ] in
theorem Open.member (hopen : Open c c') (hm' : c'.members[j]? = some m') :
    ∃ m call, c.members[j]? = some m ∧ m' = { m with call } := by
  have hmap := congrArg (·[j]?) hopen.members_eq
  simp only [List.getElem?_map, hm', Option.map_some] at hmap
  obtain ⟨m, hm, hcall⟩ := Option.map_eq_some_iff.mp hmap.symm
  refine ⟨m, m'.call, hm, ?_⟩
  have hsame : ({ m.sansCall with call := m'.call } : Member) =
      { m'.sansCall with call := m'.call } := by rw [hcall]
  exact hsame.symm

theorem member_resume (hm : c.members[i]? = some m) (s : Signal) :
    (c.resume i m s).members[i]? = some
      { m with
        phase := (Turn.take m.id m.policy c.now m.shutdown m.phase s).after
        call := (c.reach i m (Turn.take m.id m.policy c.now m.shutdown m.phase s)).call
        episode :=
          (c.reach i m (Turn.take m.id m.policy c.now m.shutdown m.phase s)).episode } := by
  have hi : i < c.members.length := (List.getElem?_eq_some_iff.mp hm).1
  rw [(resume_frame hm s).2.members, List.getElem?_set_self hi]

theorem member_resume_of_ne (hm : c.members[i]? = some m) (s : Signal) (hij : i ≠ j) :
    (c.resume i m s).members[j]? = c.members[j]? := by
  rw [(resume_frame hm s).2.members, List.getElem?_set_ne hij]

theorem length_members_resume (hm : c.members[i]? = some m) (s : Signal) :
    (c.resume i m s).members.length = c.members.length := by
  rw [(resume_frame hm s).2.members, List.length_set]

omit [LockService σ] in
/-- What a controller hears is the answer to its call. -/
theorem GoesOn.answer {a : Answer} (hgoes : c.GoesOn m (.answered a)) {k : PendingCall}
    (hcall : m.call = some k) : k.answer = a := by
  cases hgoes with
  | signalled hsignal =>
      have hanswer : m.answer? c.now = some a := by
        rw [Member.signal?] at hsignal
        cases hphase : m.phase with
        | acquiring | renewing =>
            rw [hphase] at hsignal
            rcases Controller.signal_of_call hsignal with ⟨-, hcancelled⟩ | ⟨-, a', ha, hs⟩
            · cases hcancelled
            · cases hs
              exact ha
        | starting | cooling | retrying | leading =>
            rw [hphase] at hsignal
            rcases Controller.signal_of_wait hsignal with ⟨-, hs⟩ | ⟨-, -, hs⟩ <;> cases hs
        | idle | yielding | stopped | failed =>
            rw [hphase] at hsignal
            cases hsignal
      obtain ⟨k', hk', rfl⟩ := Option.map_eq_some_iff.mp hanswer
      rw [hcall] at hk'
      cases Option.eq_some_of_filter_eq_some hk'
      rfl

/-- What becomes of a controller in a step: it comes in, takes a turn, or goes on
waiting. -/
theorem Step.member (hstep : Step Open c e c') (hm' : c'.members[j]? = some m') :
    (j = c.members.length ∧ m'.phase = .idle ∧ e.turnsOf j = []) ∨
      ∃ m, c.members[j]? = some m ∧ m'.id = m.id ∧ m'.policy = m.policy ∧
        ((∃ s, c.GoesOn m s ∧ m'.shutdown = m.shutdown ∧
            m'.phase = (Controller.resume m.id m.policy c.now m.phase s).1 ∧
            e.turnsOf j = [Turn.take m.id m.policy c.now m.shutdown m.phase s]) ∨
          (m'.phase = m.phase ∧ (m.shutdown = true → m'.shutdown = true) ∧
            e.turnsOf j = [])) := by
  cases hstep with
  | @turn i m s hm hgoes =>
      apply Or.inr
      by_cases hij : i = j
      · subst hij
        rw [member_resume hm s] at hm'
        cases hm'
        exact ⟨m, hm, rfl, rfl, Or.inl ⟨s, hgoes, rfl, rfl, by simp [Chronicle.turnsOf]⟩⟩
      · rw [member_resume_of_ne hm s hij] at hm'
        exact ⟨m', hm', rfl, rfl, Or.inr ⟨rfl, id, by simp [Chronicle.turnsOf, hij]⟩⟩
  | enroll hphase hepisode hcall =>
      rcases member_enroll hm' with hm' | ⟨rfl, rfl⟩
      · exact Or.inr ⟨m', hm', rfl, rfl, Or.inr ⟨rfl, id, rfl⟩⟩
      · exact Or.inl ⟨rfl, hphase, rfl⟩
  | dismiss i =>
      obtain ⟨m, hm, rfl⟩ := member_dismiss hm'
      refine Or.inr ⟨m, hm, ?_⟩
      split <;> simp [Chronicle.turnsOf]
  | world hworld =>
      obtain ⟨m, call, hm, rfl⟩ := hworld.member hm'
      exact Or.inr ⟨m, hm, rfl, rfl, Or.inr ⟨rfl, id, rfl⟩⟩

theorem Step.now_le (hstep : Step Open c e c') : c.now ≤ c'.now := by
  cases hstep with
  | turn hm _ => exact (resume_frame hm _).1.ge
  | enroll => exact Nat.le_refl _
  | dismiss i => exact (dismiss_frame c i).1.ge
  | world hworld => exact hworld.now_le

omit [LockService σ] in
theorem Open.length_members_eq (hopen : Open c c') : c'.members.length = c.members.length := by
  have hlength := congrArg List.length hopen.members_eq
  simpa only [List.length_map] using hlength

theorem Step.length_members_le (hstep : Step Open c e c') :
    c.members.length ≤ c'.members.length := by
  cases hstep with
  | turn hm _ => exact (length_members_resume hm _).ge
  | enroll => simp [Cluster.enroll]
  | dismiss i => simp [(dismiss_frame c i).2.2.1]
  | world hworld => exact hworld.length_members_eq.ge

/-- Nobody leaves, or changes its pace. -/
theorem Step.policy (hstep : Step Open c e c') (hm : m ∈ c.members) :
    ∃ m' ∈ c'.members, m'.policy = m.policy := by
  obtain ⟨i, hi⟩ := List.mem_iff_getElem?.mp hm
  have hlt : i < c.members.length := (List.getElem?_eq_some_iff.mp hi).1
  have hm' := List.getElem?_eq_getElem (hlt.trans_le hstep.length_members_le)
  rcases hstep.member hm' with ⟨rfl, -, -⟩ | ⟨m₀, hm₀, -, hpolicy, -⟩
  · exact absurd hlt (Nat.lt_irrefl _)
  · rw [hi] at hm₀
    cases hm₀
    exact ⟨_, List.mem_of_getElem? hm', hpolicy⟩

theorem Step.turnsOf_of_length_le (hstep : Step Open c e c') (hj : c.members.length ≤ j) :
    e.turnsOf j = [] := by
  cases hstep with
  | @turn i m s hm hgoes =>
      have hi : i < c.members.length := (List.getElem?_eq_some_iff.mp hm).1
      have hij : i ≠ j := by omega
      simp [Chronicle.turnsOf, hij]
  | enroll | dismiss | world => rfl

end Members

/-- That a clock can show the first renewal of a reign that begins now. -/
def Representable (c : Cluster σ) (m : Member) : Prop :=
  c.now + Controller.Ticker.periodOf m.policy.renewal < Instant.horizon

section Histories

variable [LockService σ] {c c' start : Cluster σ} {h e : Chronicle} {i : Nat} {m : Member}
variable {service : σ} {traced : Bool}

/-- What a clock can show later it could show before. -/
theorem Step.representable (hstep : Step Open c e c')
    (hticker : ∀ m ∈ c'.members, c'.Representable m) : ∀ m ∈ c.members, c.Representable m := by
  intro m hm
  obtain ⟨m', hm', hpolicy⟩ := hstep.policy hm
  have hlater := hticker m' hm'
  rw [Representable, hpolicy] at hlater
  exact Nat.lt_of_le_of_lt (Nat.add_le_add_right hstep.now_le _) hlater

theorem turnsOf_append (i : Nat) (e h : Chronicle) :
    (e ++ h).turnsOf i = e.turnsOf i ++ h.turnsOf i :=
  List.filterMap_append

/-- That a chronicle tells what all controllers of a cluster did. -/
structure Chronicled (h : Chronicle) (c : Cluster σ) : Prop where
  past : ∀ i m, c.members[i]? = some m → History m.id m.policy (h.turnsOf i) m.phase
  earlier : ∀ i m, c.members[i]? = some m →
    ∀ t ∈ h.turnsOf i, t.time ≤ c.now ∧ (t.shutdown = true → m.shutdown = true)
  absent : ∀ i, c.members.length ≤ i → h.turnsOf i = []

theorem Chronicled.step (hc : Chronicled h c) (hstep : Step Open c e c') :
    Chronicled (e ++ h) c' where
  past i m' hm' := by
    rw [turnsOf_append]
    rcases hstep.member hm' with ⟨rfl, hphase, he⟩ |
      ⟨m, hm, hid, hpolicy, ⟨s, hgoes, -, hphase, he⟩ | ⟨hphase, -, he⟩⟩
    · rw [he, hc.absent _ (Nat.le_refl _), hphase]
      exact .begin
    · rw [he, hid, hpolicy, hphase]
      exact .turn (hc.past i m hm) hgoes.due (hc.earlier i m hm)
    · rw [he, hid, hpolicy, hphase]
      exact hc.past i m hm
  earlier i m' hm' := by
    have hnow := hstep.now_le
    rw [turnsOf_append]
    rcases hstep.member hm' with ⟨rfl, hphase, he⟩ |
      ⟨m, hm, hid, hpolicy, ⟨s, hgoes, hshutdown, hphase, he⟩ | ⟨hphase, hshutdown, he⟩⟩
    · rw [he, hc.absent _ (Nat.le_refl _)]
      exact fun t ht => absurd ht List.not_mem_nil
    · rw [he]
      refine List.forall_mem_cons.mpr ⟨⟨hnow, fun hfired => hshutdown ▸ hfired⟩, ?_⟩
      intro t ht
      obtain ⟨htime, hfired⟩ := hc.earlier i m hm t ht
      exact ⟨htime.trans hnow, fun h => hshutdown ▸ hfired h⟩
    · rw [he]
      intro t ht
      obtain ⟨htime, hfired⟩ := hc.earlier i m hm t ht
      exact ⟨htime.trans hnow, fun h => hshutdown (hfired h)⟩
  absent i hi := by
    have hlength : c.members.length ≤ i := hstep.length_members_le.trans hi
    rw [turnsOf_append, hstep.turnsOf_of_length_le hlength, hc.absent i hlength]
    rfl

theorem Run.chronicled (run : Run Open (empty service traced) h c) : Chronicled h c := by
  induction run with
  | start => exact ⟨fun i m hm => by simp [empty] at hm, fun i m hm => by simp [empty] at hm,
      fun _ _ => rfl⟩
  | step _ hstep hc => exact hc.step hstep

/-- Whatever the service does and whenever a shutdown fires: every controller follows
the diagram of its states from the first one on, writes one entry for every step on its
way, and makes its calls one after another in the order of terms of leading. -/
theorem member_follows_path (run : Run Open (empty service traced) h c)
    (hm : c.members[i]? = some m) :
    Controller.Follows (h.turnsOf i) m.state ∧
      (Controller.writings m.id (h.turnsOf i)).filter (·.level = .trace) =
        ((Controller.path (h.turnsOf i)).zip (Controller.path (h.turnsOf i)).tail).map
          (fun e => Controller.transitionEntry m.id e.1 e.2) ∧
      Controller.Converses m.id (h.turnsOf i) m.state := by
  have past := run.chronicled.past i m hm
  exact ⟨past.follows, past.traceEntries_eq, past.converses⟩

/-- Whatever the world may do, there is a run in which a controller is granted the lock. -/
theorem exists_run_to_grant (World : Cluster Script → Cluster Script → Prop) :
    ∃ (h : Chronicle) (c : Cluster Script) (m : Member),
      Run World (empty ⟨[.answer .zero (.granted ⟨"lock-1"⟩)], []⟩ false) h c ∧
        c.members[0]? = some m ∧ m.state = .leading ∧ m.shutdown = false ∧
        c.Representable m ∧ c.crew.marks = [(0, false)] := by
  let m : Member :=
    { name := "first", id := ⟨"first"⟩, policy := ⟨.ofMillis 5, .ofMillis 7, .zero⟩,
      conduct := .prompt }
  let leader : Member :=
    { m with
      phase := .leading ⟨⟨"lock-1"⟩, 0⟩ ⟨5000000, 5000000⟩
      episode := some ⟨⟨"lock-1"⟩, 0, 0⟩ }
  let script : Script := ⟨[.answer .zero (.granted ⟨"lock-1"⟩)], []⟩
  have first : Run World (empty script false) [] ((empty script false).enroll m) :=
    .step .start (.enroll _ rfl rfl rfl)
  have second := first.step (.turn (i := 0) rfl (.signalled rfl))
  have third := second.step
    (.turn (i := 0) (s := .elapsed) rfl (.signalled (by decide)))
  have fourth := third.step
    (.turn (i := 0) (s := .answered (.granted ⟨"lock-1"⟩)) rfl (.signalled (by decide)))
  exact ⟨_, _, leader, fourth, by decide, rfl, rfl, by unfold Representable; decide, by decide⟩

theorem member_follows_path_to_grant :
    ∃ (h : Chronicle) (c : Cluster Script) (m : Member),
      c.members[0]? = some m ∧ m.state = .leading ∧
        Controller.Follows (h.turnsOf 0) .leading ∧
        Controller.Converses m.id (h.turnsOf 0) .leading := by
  obtain ⟨h, c, m, run, hm, hstate, -⟩ := exists_run_to_grant Open
  have hall := member_follows_path run hm
  rw [hstate] at hall
  exact ⟨h, c, m, hm, hstate, hall.1, hall.2.2⟩

end Histories

end Cluster

end LeaseElection
