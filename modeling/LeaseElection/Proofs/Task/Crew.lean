import LeaseElection.Task.Crew
import Mathlib.Data.List.Basic

/-!
# What a crew tells its record

Whatever the conduct of the instances, the record of a crew counts those that began and
those that run.  Where they return as soon as they are cancelled, and where at most one is
not done with at any time, the record knows whom the only one runs for.
-/

namespace LeaseElection

namespace Task

variable {t : Task} {r : TaskRecord} {now : Nat}

/-- Whether the task told its record that it began. -/
def hasBegun (t : Task) : Bool :=
  match t.stage with
  | .fresh | .crashed => false
  | _ => true

/-- Whether it told so, and did not tell yet that it finished. -/
def isRunning (t : Task) : Bool :=
  match t.stage with
  | .running _ => true
  | _ => false

theorem hasBegun_of_fresh (hfresh : t.stage = .fresh) : t.hasBegun = false := by
  rw [hasBegun, hfresh]

theorem isRunning_of_fresh (hfresh : t.stage = .fresh) : t.isRunning = false := by
  rw [isRunning, hfresh]

theorem hasBegun_of_isRunning (hrunning : t.isRunning = true) : t.hasBegun = true := by
  obtain ⟨group, runner, conduct, stage, cancelled⟩ := t
  cases stage <;> first | rfl | cases hrunning

theorem start_cases (now : Nat) (t : Task) (r : TaskRecord) :
    t.stage ≠ .fresh ∧ t.start now r = (t, r) ∨
      t.stage = .fresh ∧ (t.start now r = ({ t with stage := .crashed }, r) ∨
        ∃ stop, t.start now r = ({ t with stage := .running stop }, r.begin t.runner)) := by
  obtain ⟨group, runner, conduct, stage, cancelled⟩ := t
  cases stage with
  | fresh =>
      refine Or.inr ⟨rfl, ?_⟩
      cases conduct with
      | crashing => exact Or.inl rfl
      | prompt | stubborn | lingering | shortLived => exact Or.inr ⟨_, rfl⟩
  | running | lingering | returned | crashed => exact Or.inl ⟨by simp, rfl⟩

theorem stop_cases (now : Nat) (t : Task) (r : TaskRecord) :
    t.stop now r = (t, r) ∨ t.isRunning = true ∧
      ∃ stage, t.stop now r = ({ t with stage }, r.finish t.runner) ∧
        ({ t with stage } : Task).hasBegun = true ∧
        ({ t with stage } : Task).isRunning = false := by
  rw [stop]
  split
  · rename_i hstop
    refine Or.inr ⟨?_, _, rfl, ?_⟩
    · obtain ⟨group, runner, conduct, stage, cancelled⟩ := t
      cases stage <;> simp_all [hasToStop, isRunning]
    · cases t.conduct <;> exact ⟨rfl, rfl⟩
  · exact Or.inl rfl

theorem leave_cases (now : Nat) (t : Task) :
    ∃ stage, t.leave now = { t with stage } ∧
      ({ t with stage } : Task).hasBegun = t.hasBegun ∧
      ({ t with stage } : Task).isRunning = t.isRunning := by
  obtain ⟨group, runner, conduct, stage, cancelled⟩ := t
  rw [leave]
  cases stage with
  | lingering wake =>
      dsimp only
      split
      · exact ⟨.returned, rfl, rfl, rfl⟩
      · exact ⟨_, rfl, rfl, rfl⟩
  | fresh | running | returned | crashed => exact ⟨_, rfl, rfl, rfl⟩

/-- What a task may do when it is polled, and what its record learns. -/
inductive Progress (t : Task) (r : TaskRecord) : Task × TaskRecord → Prop where
  | stays {stage : Stage} (hbegun : ({ t with stage } : Task).hasBegun = t.hasBegun)
      (hrunning : ({ t with stage } : Task).isRunning = t.isRunning) :
      Progress t r ({ t with stage }, r)
  | begins {stage : Stage} (hfresh : t.stage = .fresh)
      (hbegun : ({ t with stage } : Task).hasBegun = true)
      (hrunning : ({ t with stage } : Task).isRunning = true) :
      Progress t r ({ t with stage }, r.begin t.runner)
  | passes {stage : Stage} (hfresh : t.stage = .fresh)
      (hbegun : ({ t with stage } : Task).hasBegun = true)
      (hover : ({ t with stage } : Task).isRunning = false) :
      Progress t r ({ t with stage }, (r.begin t.runner).finish t.runner)
  | ends {stage : Stage} (hrunning : t.isRunning = true)
      (hbegun : ({ t with stage } : Task).hasBegun = true)
      (hover : ({ t with stage } : Task).isRunning = false) :
      Progress t r ({ t with stage }, r.finish t.runner)

theorem Progress.eq {x : Task × TaskRecord} (hprogress : Progress t r x) :
    ∃ stage, x.1 = { t with stage } := by
  cases hprogress <;> exact ⟨_, rfl⟩

theorem progress_poll (now : Nat) (t : Task) (r : TaskRecord) : Progress t r (t.poll now r) := by
  rw [poll]
  rcases t.start_cases now r with ⟨hstage, hstart⟩ | ⟨hfresh, hstart | ⟨stop, hstart⟩⟩ <;>
    rw [hstart] <;> dsimp only
  · rcases t.stop_cases now r with hstop | ⟨hrunning, stage, hstop, hbegun, hover⟩ <;>
      rw [hstop] <;> dsimp only
    · obtain ⟨stage, hleave, hbegun, hrunning⟩ := t.leave_cases now
      rw [hleave]
      exact .stays hbegun hrunning
    · obtain ⟨stage', hleave, hbegun', hover'⟩ := leave_cases now { t with stage }
      rw [hleave]
      exact .ends hrunning (hbegun'.trans hbegun) (hover'.trans hover)
  · -- A task that crashed has nothing to stop.
    exact .stays (hasBegun_of_fresh hfresh).symm (isRunning_of_fresh hfresh).symm
  · rcases stop_cases now { t with stage := .running stop } (r.begin t.runner) with
      hstop | ⟨-, stage, hstop, hbegun, hover⟩ <;> rw [hstop] <;> dsimp only
    · exact .begins hfresh rfl rfl
    · obtain ⟨stage', hleave, hbegun', hover'⟩ := leave_cases now { t with stage }
      rw [hleave]
      exact .passes hfresh (hbegun'.trans hbegun) (hover'.trans hover)

end Task

section Counting

variable {α : Type} {p : α → Bool} {l : List α}

theorem countP_modify {f : α → α} (hf : ∀ x, p (f x) = p x) (l : List α) (k : Nat) :
    (l.modify k f).countP p = l.countP p := by
  induction l generalizing k with
  | nil => simp
  | cons x l hl => cases k <;> simp [List.countP_cons, hf, hl]

/-- Where at most one element has a property, that one alone is counted. -/
theorem countP_of_unique {j : Nat} {x : α} (hx : l[j]? = some x)
    (hunique : ∀ k y, l[k]? = some y → p y = true → k = j) :
    l.countP p = if p x then 1 else 0 := by
  induction l generalizing j with
  | nil => simp at hx
  | cons y l hl =>
      cases j with
      | zero =>
          cases hx
          have hnone : l.countP p = 0 := by
            rw [List.countP_eq_zero]
            intro z hz hpz
            obtain ⟨k, hk⟩ := List.mem_iff_getElem?.mp hz
            exact absurd (hunique (k + 1) z hk hpz) (Nat.succ_ne_zero k)
          rw [List.countP_cons, hnone, Nat.zero_add]
      | succ j =>
          have hy : ¬p y = true := fun hpy => absurd (hunique 0 y rfl hpy) (Nat.succ_ne_zero j).symm
          rw [List.countP_cons_of_neg hy]
          exact hl hx fun k z hk hpz => Nat.succ.inj (hunique (k + 1) z hk hpz)

/-- What is counted at most once stands at one place only. -/
theorem eq_of_countP_le_one (hcount : l.countP p ≤ 1) {j k : Nat} {x y : α} (hx : l[j]? = some x)
    (hy : l[k]? = some y) (hpx : p x = true) (hpy : p y = true) : j = k := by
  induction l generalizing j k with
  | nil => simp at hx
  | cons z l hl =>
      rw [List.countP_cons] at hcount
      have htail {n : Nat} {w : α} (hw : l[n]? = some w) (hpw : p w = true) : 0 < l.countP p :=
        List.countP_pos_iff.mpr ⟨w, List.mem_of_getElem? hw, hpw⟩
      cases j with
      | zero =>
          cases hx
          rw [if_pos hpx] at hcount
          cases k with
          | zero => rfl
          | succ k =>
              have hpos := htail hy hpy
              omega
      | succ j =>
          cases k with
          | zero =>
              cases hy
              rw [if_pos hpy] at hcount
              have hpos := htail hx hpx
              omega
          | succ k => exact congrArg (· + 1) (hl (by omega) hx hy)

theorem countP_set_of_getElem? {j : Nat} {x : α} (hx : l[j]? = some x) (y : α) :
    (l.set j y).countP p + (if p x then 1 else 0) = l.countP p + if p y then 1 else 0 := by
  obtain ⟨hj, rfl⟩ := List.getElem?_eq_some_iff.mp hx
  have hpos : (if p l[j] then 1 else 0) ≤ l.countP p := by
    split
    · rename_i hp
      exact List.countP_pos_iff.mpr ⟨_, List.getElem_mem hj, hp⟩
    · exact Nat.zero_le _
  rw [List.countP_set hj]
  omega

end Counting

namespace Crew

variable {crew : Crew} {t : Task} {now j : Nat}

/-- That the record of a crew counts the instances that began, and those that run. -/
structure Counts (crew : Crew) : Prop where
  starts : crew.record.starts = crew.tasks.countP Task.hasBegun
  live : crew.record.live = crew.tasks.countP Task.isRunning

theorem Counts.spawn (hcounts : crew.Counts) (hfresh : t.stage = .fresh) :
    (crew.spawn t).2.Counts := by
  constructor
  · simp [Crew.spawn, hcounts.starts, Task.hasBegun, hfresh]
  · simp [Crew.spawn, hcounts.live, Task.isRunning, hfresh]

theorem countP_cancel {p : Task → Bool} (hp : ∀ t : Task, p { t with cancelled := true } = p t)
    (crew : Crew) (j : Nat) : (crew.cancel j).tasks.countP p = crew.tasks.countP p :=
  countP_modify hp crew.tasks j

theorem Counts.cancel (hcounts : crew.Counts) (j : Nat) : (crew.cancel j).Counts where
  starts := by
    rw [countP_cancel (fun _ => rfl)]
    exact hcounts.starts
  live := by
    rw [countP_cancel (fun _ => rfl)]
    exact hcounts.live

theorem poll_of_none (hj : crew.tasks[j]? = none) (now : Nat) : crew.poll now j = crew := by
  rw [poll, hj]

theorem poll_of_some (hj : crew.tasks[j]? = some t) (now : Nat) :
    crew.poll now j = ⟨(t.poll now crew.record).2, crew.tasks.set j (t.poll now crew.record).1⟩ := by
  rw [poll, hj]

/-- To cancel an instance changes nothing else about it. -/
theorem mem_cancel (ht : t ∈ (crew.cancel j).tasks) :
    ∃ t' ∈ crew.tasks, ∃ cancelled, t = { t' with cancelled } := by
  obtain ⟨k, hk⟩ := List.mem_iff_getElem?.mp ht
  rw [cancel, List.getElem?_modify] at hk
  obtain ⟨t', ht', rfl⟩ := Option.map_eq_some_iff.mp hk
  refine ⟨t', List.mem_of_getElem? ht', ?_⟩
  split
  · exact ⟨true, rfl⟩
  · exact ⟨t'.cancelled, rfl⟩

theorem mem_foldl_cancel {ks : List Nat} (ht : t ∈ (ks.foldl cancel crew).tasks) :
    ∃ t' ∈ crew.tasks, ∃ cancelled, t = { t' with cancelled } := by
  induction ks generalizing crew with
  | nil => exact ⟨t, ht, t.cancelled, rfl⟩
  | cons k ks hall =>
      obtain ⟨t₁, ht₁, cancelled, rfl⟩ := hall ht
      obtain ⟨t₂, ht₂, -, rfl⟩ := mem_cancel ht₁
      exact ⟨t₂, ht₂, cancelled, rfl⟩

theorem length_cancel (crew : Crew) (j : Nat) :
    (crew.cancel j).tasks.length = crew.tasks.length :=
  List.length_modify ..

theorem length_foldl_cancel (crew : Crew) (ks : List Nat) :
    (ks.foldl cancel crew).tasks.length = crew.tasks.length := by
  induction ks generalizing crew with
  | nil => rfl
  | cons k ks hall => exact (hall _).trans (length_cancel crew k)

/-- There is nobody to poll beyond the last instance. -/
theorem poll_eq_of_lt (hall : ∀ j < crew.tasks.length, crew.poll now j = crew) (j : Nat) :
    crew.poll now j = crew := by
  by_cases hj : j < crew.tasks.length
  · exact hall j hj
  · exact poll_of_none (List.getElem?_eq_none (Nat.le_of_not_lt hj)) now

/-- In a crew that a poll leaves as it is the task is as it was. -/
theorem task_poll_eq (hsame : crew.poll now j = crew) (hj : crew.tasks[j]? = some t) :
    (t.poll now crew.record).1 = t := by
  have htask := congrArg (fun crew : Crew => crew.tasks[j]?) hsame
  have hlt := (List.getElem?_eq_some_iff.mp hj).1
  simpa [poll_of_some hj, List.getElem?_set_self hlt, hj] using htask

/-- Whatever the conduct of its instances, a crew goes on to be counted. -/
theorem Counts.poll (hcounts : crew.Counts) (now j : Nat) : (crew.poll now j).Counts := by
  cases hj : crew.tasks[j]? with
  | none => rwa [poll_of_none hj]
  | some t =>
      rw [poll_of_some hj]
      have hbegan := countP_set_of_getElem? (p := Task.hasBegun) hj (t.poll now crew.record).1
      have hran := countP_set_of_getElem? (p := Task.isRunning) hj (t.poll now crew.record).1
      have hstarts := hcounts.starts
      have hlive := hcounts.live
      have hprogress := Task.progress_poll now t crew.record
      generalize t.poll now crew.record = polled at hbegan hran hprogress ⊢
      cases hprogress with
      | stays hbegun hrunning =>
          rw [hbegun] at hbegan
          rw [hrunning] at hran
          exact ⟨hstarts.trans (Nat.add_right_cancel hbegan).symm,
            hlive.trans (Nat.add_right_cancel hran).symm⟩
      | begins hfresh hbegun hrunning =>
          simp only [hbegun, hrunning, Task.hasBegun_of_fresh hfresh,
            Task.isRunning_of_fresh hfresh, if_true, Bool.false_eq_true, if_false] at hbegan hran
          constructor <;> dsimp only [TaskRecord.begin] <;> omega
      | passes hfresh hbegun hover =>
          simp only [hbegun, hover, Task.hasBegun_of_fresh hfresh,
            Task.isRunning_of_fresh hfresh, if_true, Bool.false_eq_true, if_false] at hbegan hran
          constructor <;> dsimp only [TaskRecord.begin, TaskRecord.finish] <;> omega
      | ends hrunning hbegun hover =>
          simp only [hbegun, hover, hrunning, Task.hasBegun_of_isRunning hrunning, if_true,
            Bool.false_eq_true, if_false] at hbegan hran
          constructor <;> dsimp only [TaskRecord.finish] <;> omega

end Crew

namespace Task

variable {t : Task} {r : TaskRecord} {now : Nat}

theorem isOver_of_isRunning (hrunning : t.isRunning = true) : t.isOver = false := by
  obtain ⟨group, runner, conduct, stage, cancelled⟩ := t
  cases stage <;> first | rfl | cases hrunning

/-- A task that is done with does nothing any more. -/
theorem poll_of_isOver (hover : t.isOver = true) (now : Nat) (r : TaskRecord) :
    t.poll now r = (t, r) := by
  obtain ⟨group, runner, conduct, stage, cancelled⟩ := t
  cases stage <;> first | rfl | cases hover

/-- A task that returns as soon as it is cancelled, and only then. -/
structure IsPrompt (t : Task) : Prop where
  conduct : t.conduct = .prompt
  stage : t.stage = .fresh ∨ t.stage = .running none ∨ t.stage = .returned ∧ t.cancelled = true

namespace IsPrompt

theorem poll (hprompt : t.IsPrompt) (now : Nat) (r : TaskRecord) : (t.poll now r).1.IsPrompt := by
  obtain ⟨group, runner, conduct, stage, cancelled⟩ := t
  obtain ⟨rfl, rfl | rfl | ⟨rfl, rfl⟩⟩ := hprompt
  · cases cancelled with
    | true => exact ⟨rfl, Or.inr (Or.inr ⟨rfl, rfl⟩)⟩
    | false => exact ⟨rfl, Or.inr (Or.inl rfl)⟩
  · cases cancelled with
    | true => exact ⟨rfl, Or.inr (Or.inr ⟨rfl, rfl⟩)⟩
    | false => exact ⟨rfl, Or.inr (Or.inl rfl)⟩
  · exact ⟨rfl, Or.inr (Or.inr ⟨rfl, rfl⟩)⟩

theorem cancel (hprompt : t.IsPrompt) : ({ t with cancelled := true } : Task).IsPrompt where
  conduct := hprompt.conduct
  stage := hprompt.stage.imp_right fun hstage => hstage.imp_right fun hreturned =>
    ⟨hreturned.1, rfl⟩

/-- A task that was cancelled is over once it is polled. -/
theorem isOver_poll (hprompt : t.IsPrompt) (hcancelled : t.cancelled = true) (now : Nat)
    (r : TaskRecord) : (t.poll now r).1.isOver = true := by
  obtain ⟨group, runner, conduct, stage, cancelled⟩ := t
  obtain ⟨rfl, rfl | rfl | ⟨rfl, rfl⟩⟩ := hprompt
  · cases hcancelled
    rfl
  · cases hcancelled
    rfl
  · rfl

/-- A task that a poll leaves as it is runs until it is cancelled, or has returned since. -/
theorem rests (hprompt : t.IsPrompt) (hrests : (t.poll now r).1 = t) :
    t.isRunning = true ∧ t.cancelled = false ∨ t.isOver = true ∧ t.cancelled = true := by
  obtain ⟨group, runner, conduct, stage, cancelled⟩ := t
  obtain ⟨rfl, rfl | rfl | ⟨rfl, rfl⟩⟩ := hprompt
  · cases cancelled <;> cases hrests
  · cases cancelled with
    | true => cases hrests
    | false => exact Or.inl ⟨rfl, rfl⟩
  · exact Or.inr ⟨rfl, rfl⟩

theorem hasBegun_of_isOver (hprompt : t.IsPrompt) (hover : t.isOver = true) :
    t.hasBegun = true := by
  obtain ⟨group, runner, conduct, stage, cancelled⟩ := t
  obtain ⟨rfl, rfl | rfl | ⟨rfl, rfl⟩⟩ := hprompt
  · cases hover
  · rfl
  · rfl

end IsPrompt

end Task

namespace Crew

variable {crew : Crew} {t : Task} {now j : Nat}

/-- That at most one instance is not done with. -/
def Solo (crew : Crew) : Prop :=
  ∀ (j k : Nat) (t t' : Task), crew.tasks[j]? = some t → crew.tasks[k]? = some t' →
    t.isOver = false → t'.isOver = false → j = k

/-- The only instance that is not done with is the only one to count. -/
theorem Solo.countP_eq (hsolo : crew.Solo) (hj : crew.tasks[j]? = some t) (hover : t.isOver = false)
    {p : Task → Bool} (hp : ∀ t, p t = true → t.isOver = false) :
    crew.tasks.countP p = if p t then 1 else 0 :=
  countP_of_unique hj fun k t' hk hpt' => hsolo k j t' t hk hj (hp t' hpt') hover

theorem Solo.countP_running (hsolo : crew.Solo) (hj : crew.tasks[j]? = some t)
    (hover : t.isOver = false) (id : ControllerId) :
    (0 < crew.tasks.countP fun t => t.isRunning && decide (t.runner = id)) ↔
      t.isRunning = true ∧ t.runner = id := by
  rw [hsolo.countP_eq hj hover fun t' ht' =>
    Task.isOver_of_isRunning (Bool.and_eq_true_iff.mp ht').1]
  by_cases hrunning : t.isRunning = true ∧ t.runner = id <;> simp [hrunning]

theorem Solo.countP_running_set (hsolo : crew.Solo) (hj : crew.tasks[j]? = some t)
    (hover : t.isOver = false) (t' : Task) (id : ControllerId) :
    (0 < (crew.tasks.set j t').countP fun t => t.isRunning && decide (t.runner = id)) ↔
      t'.isRunning = true ∧ t'.runner = id := by
  have hset := countP_set_of_getElem?
    (p := fun t : Task => t.isRunning && decide (t.runner = id)) hj t'
  rw [hsolo.countP_eq hj hover fun t' ht' =>
    Task.isOver_of_isRunning (Bool.and_eq_true_iff.mp ht').1, Nat.add_comm,
    Nat.add_left_cancel_iff] at hset
  rw [hset]
  by_cases hrunning : t'.isRunning = true ∧ t'.runner = id <;> simp [hrunning]

/-- Tasks that are told to stop go on to be prompt. -/
theorem isPrompt_cancel (hprompt : ∀ t ∈ crew.tasks, t.IsPrompt) (j : Nat) :
    ∀ t ∈ (crew.cancel j).tasks, t.IsPrompt := by
  intro t ht
  obtain ⟨k, hk⟩ := List.mem_iff_getElem?.mp ht
  rw [cancel, List.getElem?_modify] at hk
  obtain ⟨t', ht', rfl⟩ := Option.map_eq_some_iff.mp hk
  have hbefore := hprompt t' (List.mem_of_getElem? ht')
  split
  · exact hbefore.cancel
  · exact hbefore

theorem isPrompt_foldl_cancel (hprompt : ∀ t ∈ crew.tasks, t.IsPrompt) (ks : List Nat) :
    ∀ t ∈ (ks.foldl cancel crew).tasks, t.IsPrompt := by
  induction ks generalizing crew with
  | nil => exact hprompt
  | cons k ks hall => exact hall (isPrompt_cancel hprompt k)

/-- That the record of a crew of prompt instances knows of the only one that runs. -/
structure Orderly (crew : Crew) : Prop where
  prompt : ∀ t ∈ crew.tasks, t.IsPrompt
  counts : crew.Counts
  maxLive : crew.record.maxLive ≤ 1
  runner : ∀ id, crew.record.runner = some id ↔
    0 < crew.tasks.countP fun t => t.isRunning && decide (t.runner = id)

namespace Orderly

theorem empty : ({} : Crew).Orderly where
  prompt t ht := absurd ht List.not_mem_nil
  counts := ⟨rfl, rfl⟩
  maxLive := Nat.zero_le 1
  runner id := by simp

theorem spawn (horderly : crew.Orderly) (hprompt : t.IsPrompt) (hfresh : t.stage = .fresh) :
    (crew.spawn t).2.Orderly where
  prompt t' ht' := by
    rcases List.mem_append.mp ht' with ht' | ht'
    · exact horderly.prompt t' ht'
    · exact List.mem_singleton.mp ht' ▸ hprompt
  counts := horderly.counts.spawn hfresh
  maxLive := horderly.maxLive
  runner id := by
    simp [Crew.spawn, horderly.runner id, Task.isRunning_of_fresh hfresh]

theorem cancel (horderly : crew.Orderly) (j : Nat) : (crew.cancel j).Orderly where
  prompt := isPrompt_cancel horderly.prompt j
  counts := horderly.counts.cancel j
  maxLive := horderly.maxLive
  runner id := by
    rw [countP_cancel (fun _ => rfl)]
    exact horderly.runner id

theorem foldl_cancel (horderly : crew.Orderly) (ks : List Nat) :
    (ks.foldl Crew.cancel crew).Orderly := by
  induction ks generalizing crew with
  | nil => exact horderly
  | cons k ks hall => exact hall (horderly.cancel k)

theorem poll (horderly : crew.Orderly) (hsolo : crew.Solo) (now j : Nat) :
    (crew.poll now j).Orderly := by
  cases hj : crew.tasks[j]? with
  | none => rwa [poll_of_none hj]
  | some t =>
      have hprompt := horderly.prompt t (List.mem_of_getElem? hj)
      cases hover : t.isOver with
      | true =>
          obtain ⟨hlt, hget⟩ := List.getElem?_eq_some_iff.mp hj
          rw [poll_of_some hj, Task.poll_of_isOver hover, ← hget, List.set_getElem_self]
          exact horderly
      | false =>
          have hcounts := horderly.counts.poll now j
          have hpolled := hprompt.poll now crew.record
          have hlive := horderly.counts.live
          rw [hsolo.countP_eq hj hover fun _ => Task.isOver_of_isRunning] at hlive
          have hrunner := horderly.runner
          simp only [hsolo.countP_running hj hover] at hrunner
          have hafter := hsolo.countP_running_set hj hover
          rw [poll_of_some hj] at hcounts ⊢
          have hprogress := Task.progress_poll now t crew.record
          generalize t.poll now crew.record = polled at hcounts hpolled hprogress ⊢
          have hall : ∀ t' ∈ crew.tasks.set j polled.1, t'.IsPrompt := by
            intro t' ht'
            rcases List.mem_or_eq_of_mem_set ht' with ht' | rfl
            · exact horderly.prompt t' ht'
            · exact hpolled
          refine ⟨hall, hcounts, ?_, fun id => ?_⟩
          · cases hprogress with
            | stays | ends => exact horderly.maxLive
            | begins hfresh | passes hfresh =>
                rw [Task.isRunning_of_fresh hfresh] at hlive
                exact Nat.max_le.mpr ⟨horderly.maxLive, hlive ▸ Nat.le_refl 1⟩
          · cases hprogress with
            | stays hbegun hrunning => rw [hrunner, hafter, hrunning]
            | begins hfresh hbegun hrunning => simp [TaskRecord.begin, hafter, hrunning]
            | passes hfresh hbegun hover' =>
                simp [TaskRecord.begin, TaskRecord.finish, hafter, hover']
            | ends hrunning hbegun hover' =>
                have hself : crew.record.runner = some t.runner := (hrunner _).mpr ⟨hrunning, rfl⟩
                simp [TaskRecord.finish, hafter, hover', hself]

end Orderly

end Crew

end LeaseElection
