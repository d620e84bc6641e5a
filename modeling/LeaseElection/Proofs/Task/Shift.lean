import LeaseElection.Proofs.Task.Crew
import Mathlib.Data.List.Infix

/-!
# What a record knows of its tasks

The instances of a crew begin and finish in any order, several at a time and under any names,
and all that the record ever learns is who begins and who finishes.  It counts right: how often
the task began, how many instances run, and how many ever ran at once, with no instance finished
that was not counted before.  Whom it names is whom the last instance began for, unless one of
that name finished since; and where there never were two at once, it names somebody exactly
while one runs.
-/

namespace LeaseElection

/-- What the `i`-th instance tells the record that it shares with others. -/
inductive Notice where
  | began (i : Nat) (id : ControllerId)
  | finished (i : Nat) (id : ControllerId)
deriving DecidableEq

namespace Notice

/-- The number of the instance. -/
def number : Notice → Nat
  | .began i _ | .finished i _ => i

@[simp]
theorem number_began (i : Nat) (id : ControllerId) : (began i id).number = i := rfl

@[simp]
theorem number_finished (i : Nat) (id : ControllerId) : (finished i id).number = i := rfl

def isBegan : Notice → Bool
  | .began .. => true
  | .finished .. => false

end Notice

namespace TaskRecord

def note (r : TaskRecord) : Notice → TaskRecord
  | .began _ id => r.begin id
  | .finished _ id => r.finish id

/-- A record goes on with notices, of which the latest comes first. -/
def resume (r : TaskRecord) (ns : List Notice) : TaskRecord := ns.foldr (fun n r => r.note n) r

/-- The record of some notices, latest first. -/
def ofNotices (ns : List Notice) : TaskRecord := resume {} ns

end TaskRecord

namespace Notice

/-- What was told of the `i`-th instance. -/
def about (i : Nat) (ns : List Notice) : List Notice := ns.filter (·.number = i)

/-- That an instance tells first that it began and then that it finished, each once at most
and under one name. -/
def Coherent (ns : List Notice) : Prop :=
  ∀ i, ∃ id, about i ns <:+ [.finished i id, .began i id]

/-- The notices of all instances that began and did not finish. -/
def unfinished (ns : List Notice) : List Notice :=
  ns.filter fun n => (about n.number ns).all isBegan

/-- That the instance that began last did so for `id`, and that none finished for `id` since. -/
def LastFor (id : ControllerId) (ns : List Notice) : Prop :=
  ∃ i later earlier, ns = later ++ .began i id :: earlier ∧
    ∀ n ∈ later, ∃ j other, n = .finished j other ∧ other ≠ id

section Coherence

variable {ns earlier : List Notice} {i : Nat} {id : ControllerId} {n : Notice}

theorem about_cons (i : Nat) (n : Notice) (ns : List Notice) :
    about i (n :: ns) = if n.number = i then n :: about i ns else about i ns := by
  simp [about, List.filter_cons]

theorem about_append (i : Nat) (later earlier : List Notice) :
    about i (later ++ earlier) = about i later ++ about i earlier :=
  List.filter_append ..

theorem Coherent.suffix (hcoherent : Coherent ns) (hsuffix : earlier <:+ ns) :
    Coherent earlier := by
  intro i
  obtain ⟨id, hi⟩ := hcoherent i
  exact ⟨id, (hsuffix.filter _).trans hi⟩

theorem Coherent.tail (hcoherent : Coherent (n :: ns)) : Coherent ns :=
  hcoherent.suffix (List.suffix_cons n ns)

/-- Of an instance nothing was told, or that it began, or also that it finished. -/
theorem Coherent.about_cases (hcoherent : Coherent ns) (i : Nat) :
    about i ns = [] ∨ ∃ id, about i ns = [.began i id] ∨
      about i ns = [.finished i id, .began i id] := by
  obtain ⟨id, hi⟩ := hcoherent i
  rw [List.suffix_cons_iff, List.suffix_cons_iff, List.suffix_nil] at hi
  rcases hi with hboth | hbegan | hnone
  · exact Or.inr ⟨id, Or.inr hboth⟩
  · exact Or.inr ⟨id, Or.inl hbegan⟩
  · exact Or.inl hnone

/-- Nothing was told of an instance before it began. -/
theorem Coherent.about_of_began (hcoherent : Coherent (.began i id :: ns)) :
    about i ns = [] := by
  have hcases := hcoherent.about_cases i
  simpa [about_cons] using hcases

/-- Of an instance that finishes it was told that it began, and nothing else. -/
theorem Coherent.about_of_finished (hcoherent : Coherent (.finished i id :: ns)) :
    about i ns = [.began i id] := by
  have hcases := hcoherent.about_cases i
  simpa [about_cons] using hcases

end Coherence

section Unfinished

variable {ns : List Notice} {i : Nat} {id : ControllerId}

theorem all_isBegan_about_cons_began (j : Nat) :
    (about j (.began i id :: ns)).all isBegan = (about j ns).all isBegan := by
  rw [about_cons]
  split <;> rfl

theorem all_isBegan_about_cons_finished (j : Nat) :
    (about j (.finished i id :: ns)).all isBegan =
      (decide (j ≠ i) && (about j ns).all isBegan) := by
  rw [about_cons, number_finished]
  split
  next hij => simp [← hij, isBegan]
  next hij => rw [decide_eq_true (Ne.symm hij), Bool.true_and]

theorem unfinished_cons_began (hnew : about i ns = []) :
    unfinished (.began i id :: ns) = .began i id :: unfinished ns := by
  simp only [unfinished, all_isBegan_about_cons_began]
  exact List.filter_cons_of_pos (by simp [hnew])

theorem unfinished_cons_finished :
    unfinished (.finished i id :: ns) = (unfinished ns).filter (·.number ≠ i) := by
  simp only [unfinished, all_isBegan_about_cons_finished, List.filter_filter]
  exact List.filter_cons_of_neg (by simp)

/-- The notice of an instance that runs is the only one about it. -/
theorem about_unfinished (hopen : about i ns = [.began i id]) :
    about i (unfinished ns) = [.began i id] := by
  have hcomm : about i (unfinished ns) =
      (about i ns).filter fun n => (about n.number ns).all isBegan := by
    simp only [about, unfinished, List.filter_filter, Bool.and_comm]
  rw [hcomm, hopen]
  exact List.filter_cons_of_pos (by simp [hopen, isBegan])

theorem mem_unfinished (hopen : about i ns = [.began i id]) : .began i id ∈ unfinished ns := by
  have hmem : .began i id ∈ about i (unfinished ns) := by
    rw [about_unfinished hopen]
    exact List.mem_singleton_self _
  exact (List.mem_filter.mp hmem).1

theorem length_unfinished_cons_finished (hopen : about i ns = [.began i id]) :
    (unfinished (.finished i id :: ns)).length + 1 = (unfinished ns).length := by
  have hone : (about i (unfinished ns)).length = 1 := by rw [about_unfinished hopen]; rfl
  have hsplit := List.length_eq_length_filter_add (l := unfinished ns) (·.number = i)
  rw [unfinished_cons_finished, hsplit, Nat.add_comm]
  simp only [about] at hone
  rw [hone]
  simp

end Unfinished

/-- Who began for whom, if none finished for the same since, has not finished. -/
theorem Coherent.about_of_last {later earlier : List Notice} {i : Nat} {id : ControllerId}
    (hcoherent : Coherent (later ++ .began i id :: earlier))
    (hlater : ∀ n ∈ later, ∃ j other, n = .finished j other ∧ other ≠ id) :
    about i (later ++ .began i id :: earlier) = [.began i id] := by
  have habout : about i (later ++ .began i id :: earlier) =
      about i later ++ .began i id :: about i earlier := by
    rw [about_append, about_cons, if_pos (number_began ..)]
  have hcases := hcoherent.about_cases i
  rw [habout] at hcases ⊢
  cases hsince : about i later with
  | nil =>
      rw [hsince] at hcases
      simpa using hcases
  | cons n ns =>
      -- What was told of the instance since then is that it finished, but for somebody else.
      have hn : n ∈ about i later := hsince ▸ List.mem_cons_self
      obtain ⟨hmem, hnumber⟩ := List.mem_filter.mp hn
      obtain ⟨j, other, rfl, hother⟩ := hlater n hmem
      rw [hsince] at hcases
      rcases hcases with hnone | ⟨id', hbegan | hboth⟩
      · cases hnone
      · cases hbegan
      · obtain ⟨hfirst, hrest⟩ := List.cons.inj hboth
        cases hfirst
        cases ns with
        | nil =>
            obtain ⟨hsame, -⟩ := List.cons.inj hrest
            cases hsame
            exact absurd rfl hother
        | cons n' ns => simp at hrest

section Last

variable {ns : List Notice} {i : Nat} {id other : ControllerId}

theorem lastFor_cons_began : LastFor id (.began i other :: ns) ↔ other = id := by
  constructor
  · rintro ⟨j, later, earlier, hns, hlater⟩
    cases later with
    | nil =>
        obtain ⟨hbegan, -⟩ := List.cons.inj hns
        cases hbegan
        rfl
    | cons n later =>
        obtain ⟨rfl, -⟩ := List.cons.inj hns
        obtain ⟨_, _, hfinished, -⟩ := hlater _ List.mem_cons_self
        cases hfinished
  · rintro rfl
    exact ⟨i, [], ns, rfl, fun n hn => absurd hn List.not_mem_nil⟩

theorem lastFor_cons_finished :
    LastFor id (.finished i other :: ns) ↔ LastFor id ns ∧ other ≠ id := by
  constructor
  · rintro ⟨j, later, earlier, hns, hlater⟩
    cases later with
    | nil =>
        obtain ⟨hbegan, -⟩ := List.cons.inj hns
        cases hbegan
    | cons n later =>
        obtain ⟨rfl, htail⟩ := List.cons.inj hns
        obtain ⟨⟨_, _, hfinished, hother⟩, hlater⟩ := List.forall_mem_cons.mp hlater
        cases hfinished
        exact ⟨⟨j, later, earlier, htail, hlater⟩, hother⟩
  · rintro ⟨⟨j, later, earlier, rfl, hlater⟩, hother⟩
    exact ⟨j, _ :: later, earlier, rfl,
      List.forall_mem_cons.mpr ⟨⟨i, other, rfl, hother⟩, hlater⟩⟩

/-- The instance that began last has not finished, if none did so for the same since. -/
theorem LastFor.exists_unfinished (hlast : LastFor id ns) (hcoherent : Coherent ns) :
    ∃ i, .began i id ∈ unfinished ns := by
  obtain ⟨i, later, earlier, rfl, hlater⟩ := hlast
  exact ⟨i, mem_unfinished (hcoherent.about_of_last hlater)⟩

end Last

end Notice

namespace TaskRecord

open Notice

section Replay

variable {ns earlier : List Notice} {i : Nat} {id : ControllerId}

@[simp]
theorem ofNotices_nil : ofNotices [] = {} := rfl

@[simp]
theorem ofNotices_began (i : Nat) (id : ControllerId) (ns : List Notice) :
    ofNotices (.began i id :: ns) = (ofNotices ns).begin id := rfl

@[simp]
theorem ofNotices_finished (i : Nat) (id : ControllerId) (ns : List Notice) :
    ofNotices (.finished i id :: ns) = (ofNotices ns).finish id := rfl

theorem live_ofNotices (hcoherent : Coherent ns) :
    (ofNotices ns).live = (unfinished ns).length := by
  induction ns with
  | nil => rfl
  | cons n ns ih =>
      have hlive := ih hcoherent.tail
      cases n with
      | began i id =>
          rw [unfinished_cons_began hcoherent.about_of_began, List.length_cons, ← hlive]
          rfl
      | finished i id =>
          have hlength := length_unfinished_cons_finished hcoherent.about_of_finished
          rw [ofNotices_finished, finish]
          dsimp only
          omega

/-- There is an instance to count off whenever one finishes. -/
theorem live_pos_of_finished (hcoherent : Coherent (.finished i id :: ns)) :
    0 < (ofNotices ns).live := by
  have hlength := length_unfinished_cons_finished hcoherent.about_of_finished
  rw [live_ofNotices hcoherent.tail]
  omega

theorem maxLive_le_cons (n : Notice) (ns : List Notice) :
    (ofNotices ns).maxLive ≤ (ofNotices (n :: ns)).maxLive := by
  cases n with
  | began i id => exact Nat.le_max_left ..
  | finished i id => exact Nat.le_refl _

theorem live_le_maxLive (ns : List Notice) : (ofNotices ns).live ≤ (ofNotices ns).maxLive := by
  induction ns with
  | nil => exact Nat.le_refl 0
  | cons n ns ih =>
      cases n with
      | began i id => exact Nat.le_max_right ..
      | finished i id => exact (Nat.sub_le ..).trans ih

/-- No more instances ever ran than the record says, -/
theorem live_le_maxLive_of_suffix (hsuffix : earlier <:+ ns) :
    (ofNotices earlier).live ≤ (ofNotices ns).maxLive := by
  induction ns with
  | nil =>
      rw [List.suffix_nil.mp hsuffix]
      exact Nat.le_refl 0
  | cons n ns ih =>
      rcases List.suffix_cons_iff.mp hsuffix with rfl | hsuffix
      · exact live_le_maxLive _
      · exact (ih hsuffix).trans (maxLive_le_cons n ns)

/-- and once there were as many. -/
theorem exists_live_eq_maxLive (ns : List Notice) :
    ∃ earlier, earlier <:+ ns ∧ (ofNotices earlier).live = (ofNotices ns).maxLive := by
  induction ns with
  | nil => exact ⟨[], List.suffix_rfl, rfl⟩
  | cons n ns ih =>
      obtain ⟨earlier, hsuffix, hlive⟩ := ih
      have hbefore : earlier <:+ n :: ns := hsuffix.trans (List.suffix_cons n ns)
      cases n with
      | began i id =>
          rcases Nat.le_total (ofNotices ns).maxLive ((ofNotices ns).live + 1) with hmore | hless
          · exact ⟨_, List.suffix_rfl, (Nat.max_eq_right hmore).symm⟩
          · exact ⟨earlier, hbefore, hlive.trans (Nat.max_eq_left hless).symm⟩
      | finished i id => exact ⟨earlier, hbefore, hlive⟩

theorem runner_ofNotices (ns : List Notice) (id : ControllerId) :
    (ofNotices ns).runner = some id ↔ LastFor id ns := by
  induction ns with
  | nil => simp [LastFor]
  | cons n ns ih =>
      cases n with
      | began i other =>
          rw [ofNotices_began, lastFor_cons_began]
          exact Option.some_inj
      | finished i other =>
          rw [lastFor_cons_finished, ← ih, ofNotices_finished, finish]
          dsimp only
          split
          next hsame => simp [hsame]
          next hnamed =>
            refine ⟨fun hid => ⟨hid, fun hsame => hnamed (hsame ▸ hid)⟩, And.left⟩

/-- Whoever is named has an instance that runs. -/
theorem live_pos_of_runner (hcoherent : Coherent ns) (hnamed : (ofNotices ns).runner.isSome) :
    1 ≤ (ofNotices ns).live := by
  obtain ⟨id, hid⟩ := Option.isSome_iff_exists.mp hnamed
  obtain ⟨i, hmem⟩ := ((runner_ofNotices ns id).mp hid).exists_unfinished hcoherent
  rw [live_ofNotices hcoherent]
  exact List.length_pos_of_mem hmem

/-- As long as there never were two instances at once, somebody is named while one runs. -/
theorem isSome_runner_iff (hcoherent : Coherent ns) (hsolo : (ofNotices ns).maxLive ≤ 1) :
    (ofNotices ns).runner.isSome ↔ (ofNotices ns).live = 1 := by
  induction ns with
  | nil => simp
  | cons n ns ih =>
      have hbefore := (maxLive_le_cons n ns).trans hsolo
      cases n with
      | began i id =>
          have hnone : (ofNotices ns).live + 1 ≤ 1 := (Nat.le_max_right ..).trans hsolo
          rw [ofNotices_began, begin]
          simp only [Option.isSome_some, true_iff]
          omega
      | finished i id =>
          -- The one that finishes is the only one that ran, so it is the one that is named.
          have hone : (ofNotices ns).live = 1 :=
            Nat.le_antisymm ((live_le_maxLive ns).trans hbefore) (live_pos_of_finished hcoherent)
          obtain ⟨named, hnamed⟩ :=
            Option.isSome_iff_exists.mp ((ih hcoherent.tail hbefore).mpr hone)
          obtain ⟨j, hj⟩ :=
            ((runner_ofNotices ns named).mp hnamed).exists_unfinished hcoherent.tail
          have hi := mem_unfinished hcoherent.about_of_finished
          have hlength := (live_ofNotices hcoherent.tail).symm.trans hone
          obtain ⟨only, honly⟩ := List.length_eq_one_iff.mp hlength
          rw [honly, List.mem_singleton] at hi hj
          cases hi.trans hj.symm
          rw [ofNotices_finished, finish, hnamed, if_pos rfl, hone]
          simp

end Replay

end TaskRecord

namespace Task

/-- Whether the task told its record that it finished. -/
def hasFinished (t : Task) : Bool := t.hasBegun && !t.isRunning

/-- What the task told its record until now, as the `i`-th instance. -/
def told (i : Nat) (t : Task) : List Notice :=
  (if t.hasFinished then [.finished i t.runner] else []) ++
    if t.hasBegun then [.began i t.runner] else []

/-- What a task has told after a step and had not told before. -/
def tells (i : Nat) (before after : Task) : List Notice :=
  (after.told i).filter fun n => !(before.told i).contains n

variable {t : Task} {r : TaskRecord} {i : Nat}

theorem told_suffix (i : Nat) (t : Task) :
    t.told i <:+ [.finished i t.runner, .began i t.runner] := by
  rw [told, hasFinished]
  cases t.hasBegun with
  | false => exact List.nil_suffix
  | true =>
      cases t.isRunning with
      | true => exact List.suffix_cons ..
      | false => exact List.suffix_rfl

theorem number_of_mem_told {n : Notice} (hn : n ∈ t.told i) : n.number = i := by
  have hmem := (t.told_suffix i).subset hn
  simp only [List.mem_cons, List.not_mem_nil, or_false] at hmem
  rcases hmem with rfl | rfl <;> rfl

theorem number_of_mem_tells {t' : Task} {n : Notice} (hn : n ∈ tells i t t') : n.number = i :=
  number_of_mem_told (List.mem_filter.mp hn).1

theorem told_of_fresh (hfresh : t.stage = .fresh) : t.told i = [] := by
  rw [told, hasFinished, hasBegun_of_fresh hfresh]
  rfl

theorem told_of_isRunning (hrunning : t.isRunning = true) : t.told i = [.began i t.runner] := by
  simp [told, hasFinished, hrunning, hasBegun_of_isRunning hrunning]

theorem told_of_finished (hbegun : t.hasBegun = true) (hover : t.isRunning = false) :
    t.told i = [.finished i t.runner, .began i t.runner] := by
  simp [told, hasFinished, hbegun, hover]

/-- A task tells its record just what is new, on top of what it told before. -/
theorem Progress.tells_eq {x : Task × TaskRecord} (hprogress : Progress t r x) (i : Nat) :
    tells i t x.1 ++ t.told i = x.1.told i ∧ x.2 = r.resume (tells i t x.1) := by
  cases hprogress with
  | @stays stage hbegun hrunning =>
      have htold : ({ t with stage } : Task).told i = t.told i := by
        rw [told, hasFinished, hbegun, hrunning, told, hasFinished]
      have htells : tells i t { t with stage } = [] := by
        rw [tells, htold]
        simp
      rw [htells, htold]
      exact ⟨rfl, rfl⟩
  | begins hfresh hbegun hrunning =>
      rw [tells, told_of_fresh hfresh, told_of_isRunning hrunning]
      exact ⟨rfl, rfl⟩
  | passes hfresh hbegun hover =>
      rw [tells, told_of_fresh hfresh, told_of_finished hbegun hover]
      exact ⟨rfl, rfl⟩
  | @ends stage hrunning hbegun hover =>
      have htells : tells i t { t with stage } = [.finished i t.runner] := by
        rw [tells, told_of_isRunning hrunning, told_of_finished hbegun hover]
        simp
      rw [htells, told_of_isRunning hrunning, told_of_finished hbegun hover]
      exact ⟨rfl, rfl⟩

end Task

namespace Crew

/-- What may happen to the instances of a crew. -/
inductive Operation where
  | spawn (group : Nat) (runner : ControllerId) (conduct : Conduct)
  | poll (now i : Nat)
  | cancel (i : Nat)
deriving DecidableEq

/-- A crew at work, and what its instances told, latest first. -/
structure Shift where
  crew : Crew := {}
  notices : List Notice := []
deriving DecidableEq

namespace Shift

open Notice

/-- What is new about the `i`-th instance. -/
def news (before after : Crew) (i : Nat) : List Notice :=
  match before.tasks[i]?, after.tasks[i]? with
  | some t, some t' => Task.tells i t t'
  | _, _ => []

def perform (s : Shift) : Operation → Shift
  | .spawn group runner conduct =>
      { s with crew := (s.crew.spawn { group, runner, conduct }).2 }
  | .poll now i =>
      let crew := s.crew.poll now i
      ⟨crew, news s.crew crew i ++ s.notices⟩
  | .cancel i => { s with crew := s.crew.cancel i }

/-- A new crew after the operations, first one first. -/
def after (ops : List Operation) : Shift := ops.foldl perform {}

/-- That the record of a crew is what its instances told, and that they told what they did. -/
structure Told (s : Shift) : Prop where
  record : s.crew.record = .ofNotices s.notices
  about : ∀ i, about i s.notices = (s.crew.tasks[i]?.map (Task.told i)).getD []

namespace Told

variable {s : Shift}

theorem coherent (htold : s.Told) : Coherent s.notices := by
  intro i
  rw [htold.about]
  cases s.crew.tasks[i]? with
  | none => exact ⟨⟨""⟩, List.nil_suffix⟩
  | some t => exact ⟨t.runner, t.told_suffix i⟩

theorem spawn (htold : s.Told) (group : Nat) (runner : ControllerId) (conduct : Conduct) :
    (s.perform (.spawn group runner conduct)).Told where
  record := htold.record
  about i := by
    refine (htold.about i).trans ?_
    simp only [Shift.perform, Crew.spawn]
    rcases Nat.lt_trichotomy i s.crew.tasks.length with hold | rfl | hbeyond
    · rw [List.getElem?_append_left hold]
    · rw [List.getElem?_concat_length, List.getElem?_eq_none (Nat.le_refl _)]
      exact (Task.told_of_fresh rfl).symm
    · rw [List.getElem?_eq_none (Nat.le_of_lt hbeyond),
        List.getElem?_eq_none (by simpa using Nat.succ_le_of_lt hbeyond)]

theorem cancel (htold : s.Told) (j : Nat) : (s.perform (.cancel j)).Told where
  record := htold.record
  about i := by
    refine (htold.about i).trans ?_
    simp only [Shift.perform, Crew.cancel, List.getElem?_modify]
    cases s.crew.tasks[i]? with
    | none => rfl
    | some t => by_cases hij : j = i <;> simp only [hij, if_true, if_false] <;> rfl

theorem poll (htold : s.Told) (now j : Nat) : (s.perform (.poll now j)).Told := by
  cases hj : s.crew.tasks[j]? with
  | none =>
      have hsame : s.perform (.poll now j) = s := by
        simp [Shift.perform, poll_of_none hj, news, hj]
      rwa [hsame]
  | some t =>
      have hlt := (List.getElem?_eq_some_iff.mp hj).1
      obtain ⟨htells, hrecord⟩ := (Task.progress_poll now t s.crew.record).tells_eq j
      rw [Shift.perform, poll_of_some hj]
      generalize t.poll now s.crew.record = polled at htells hrecord ⊢
      have hnews : news s.crew ⟨polled.2, s.crew.tasks.set j polled.1⟩ j =
          Task.tells j t polled.1 := by
        simp only [news, hj, List.getElem?_set_self hlt]
      rw [hnews]
      refine ⟨?_, fun i => ?_⟩
      · dsimp only
        rw [hrecord, htold.record, TaskRecord.ofNotices, TaskRecord.ofNotices, TaskRecord.resume,
          TaskRecord.resume, TaskRecord.resume, List.foldr_append]
      · dsimp only
        rw [about_append, htold.about]
        by_cases hij : j = i
        · subst hij
          have hself : Notice.about j (Task.tells j t polled.1) = Task.tells j t polled.1 :=
            List.filter_eq_self.mpr fun n hn => decide_eq_true (Task.number_of_mem_tells hn)
          rw [hself, hj, List.getElem?_set_self hlt]
          exact htells
        · have hnone : Notice.about i (Task.tells j t polled.1) = [] :=
            List.filter_eq_nil_iff.mpr fun n hn => by
              simpa [Task.number_of_mem_tells hn] using hij
          rw [hnone, List.getElem?_set_ne hij]
          rfl

theorem perform (htold : s.Told) (op : Operation) : (s.perform op).Told := by
  cases op with
  | spawn group runner conduct => exact htold.spawn group runner conduct
  | poll now i => exact htold.poll now i
  | cancel i => exact htold.cancel i

end Told

/-- What is true of a new crew and kept by every operation is true after all of them. -/
theorem after_of_perform {p : Shift → Prop} (hnew : p {})
    (hperform : ∀ s op, p s → p (s.perform op)) (ops : List Operation) : p (after ops) := by
  have hrun (s : Shift) (hs : p s) : p (ops.foldl perform s) := by
    induction ops generalizing s with
    | nil => exact hs
    | cons op ops ih => exact ih _ (hperform s op hs)
  exact hrun {} hnew

/-- Whatever happens to a crew, its record knows what its instances told and nothing else. -/
theorem told_after (ops : List Operation) : (after ops).Told :=
  after_of_perform ⟨rfl, fun _ => rfl⟩ (fun _ op htold => htold.perform op) ops

theorem counts_after (ops : List Operation) : (after ops).crew.Counts := by
  refine after_of_perform (p := fun s => s.crew.Counts) ⟨rfl, rfl⟩ (fun s op hcounts => ?_) ops
  cases op with
  | spawn group runner conduct => exact hcounts.spawn rfl
  | poll now i => exact hcounts.poll now i
  | cancel i => exact hcounts.cancel i

/-- However the instances of a task begin, are cancelled and finish, and whomever they run for:
the record counts those that began and those that run.  No instance finishes that was not
counted.  The most that ever ran are the most that had begun and not finished at any moment.
Somebody is named if the last instance began for them and none finished for them since; so
whoever is named has one that runs, and where there never were two at once, somebody is named
just while one runs. -/
theorem record_after (ops : List Operation) :
    let crew := (after ops).crew
    let ns := (after ops).notices
    crew.record = .ofNotices ns ∧
    crew.record.starts = crew.tasks.countP Task.hasBegun ∧
    crew.record.live = crew.tasks.countP Task.isRunning ∧
    (∀ earlier, earlier <:+ ns →
      (TaskRecord.ofNotices earlier).live = (unfinished earlier).length ∧
      (unfinished earlier).length ≤ crew.record.maxLive) ∧
    (∃ earlier, earlier <:+ ns ∧ (unfinished earlier).length = crew.record.maxLive) ∧
    (∀ i id earlier, .finished i id :: earlier <:+ ns →
      0 < (TaskRecord.ofNotices earlier).live) ∧
    (∀ id, crew.record.runner = some id ↔ LastFor id ns) ∧
    (crew.record.runner.isSome → 1 ≤ crew.record.live) ∧
    (crew.record.maxLive ≤ 1 → (crew.record.runner.isSome ↔ crew.record.live = 1)) := by
  intro crew ns
  have htold : (after ops).Told := told_after ops
  have hrecord : crew.record = .ofNotices ns := htold.record
  have hcoherent : Coherent ns := htold.coherent
  have hcounts := counts_after ops
  refine ⟨hrecord, hcounts.starts, hcounts.live, ?_⟩
  rw [hrecord]
  refine ⟨fun earlier hsuffix => ?_, ?_, fun i id earlier hsuffix => ?_,
    TaskRecord.runner_ofNotices ns, TaskRecord.live_pos_of_runner hcoherent,
    TaskRecord.isSome_runner_iff hcoherent⟩
  · have hlive := TaskRecord.live_ofNotices (hcoherent.suffix hsuffix)
    exact ⟨hlive, hlive ▸ TaskRecord.live_le_maxLive_of_suffix hsuffix⟩
  · obtain ⟨earlier, hsuffix, hmost⟩ := TaskRecord.exists_live_eq_maxLive ns
    exact ⟨earlier, hsuffix,
      (TaskRecord.live_ofNotices (hcoherent.suffix hsuffix)).symm.trans hmost⟩
  · exact TaskRecord.live_pos_of_finished (hcoherent.suffix hsuffix)

/-- Of two instances of one name the first finishes: one runs on, and nobody is named.  Where the
second one begins after that, it is named. -/
theorem record_after_of_namesakes :
    let spawn : Operation := .spawn 0 ⟨"a"⟩ .prompt
    let together := after [spawn, spawn, .poll 0 0, .poll 0 1, .cancel 0, .poll 0 0]
    let apart := after [spawn, .poll 0 0, .cancel 0, .poll 0 0, spawn, .poll 0 1]
    together.crew.record = ⟨2, none, 1, 2⟩ ∧ ¬ LastFor ⟨"a"⟩ together.notices ∧
      (TaskRecord.ofNotices [.began 1 ⟨"a"⟩, .began 0 ⟨"a"⟩]).live = 2 ∧
      apart.crew.record.maxLive ≤ 1 ∧ apart.crew.record.live = 1 ∧
      apart.crew.record.runner.isSome ∧ 1 ≤ apart.crew.record.live := by
  intro spawn together apart
  obtain ⟨-, -, -, hmoments, -, -, hrunner, -, -⟩ :=
    record_after [spawn, spawn, .poll 0 0, .poll 0 1, .cancel 0, .poll 0 0]
  obtain ⟨-, -, -, -, -, -, -, hnamed, hsolo⟩ :=
    record_after [spawn, .poll 0 0, .cancel 0, .poll 0 0, spawn, .poll 0 1]
  have hsome := (hsolo (by decide)).mpr (by decide)
  refine ⟨by decide, fun hlast => ?_, ?_, by decide, by decide, hsome, hnamed hsome⟩
  · exact absurd ((hrunner _).mpr hlast) (by decide)
  · exact (hmoments _ ⟨[.finished 0 ⟨"a"⟩], by decide⟩).1

end Shift

end Crew

end LeaseElection
