import LeaseElection.Cluster.Command
import LeaseElection.Proofs.Controller.Turn
import Mathlib.Data.List.Basic

/-!
# What a turn changes in a cluster

A controller that takes a turn changes itself, the lock service and the crew, and
nothing else but journals and queues.  What its actions come to is computed on these
parts alone.
-/

namespace LeaseElection

open Controller (Phase Signal Action Turn)

/-- All that the actions of a controller change: the service, the call it is in, the
crew and its last episode. -/
structure Reach (σ : Type) where
  service : σ
  call : Option PendingCall
  crew : Crew
  episode : Option Episode

/-- One action of controller `i`, which was `m` when its turn began. -/
def Reach.act {σ : Type} [LockService σ] (now i : Nat) (m : Member) (x : Reach σ) :
    Action → Reach σ
  | .note _ => x
  | .call r =>
      let (reply, service, _) := LockService.call now (.member i) r x.service
      { x with service, call := PendingCall.of? now r reply }
  | .startTask token =>
      let task : Task :=
        { group := i, runner := m.id, conduct := m.conduct, cancelled := m.shutdown }
      let (e, crew) := Episode.begin x.crew now token task
      { x with crew, episode := some e }
  | .cancelTask =>
      match x.episode with
      | none => x
      | some e => { x with crew := x.crew.cancel e.task }

/-- Notes are out of reach. -/
@[simp]
theorem Reach.foldl_act_note {σ : Type} [LockService σ] (now i : Nat) (m : Member)
    (x : Reach σ) (notes : List Controller.Note) :
    (notes.map Action.note).foldl (Reach.act now i m) x = x := by
  induction notes with
  | nil => rfl
  | cons _ _ hrest => exact hrest

/-- What a call makes of the service, and what is then waited for. -/
def Reach.ask {σ : Type} [LockService σ] (now i : Nat) (x : σ × Option PendingCall)
    (r : Request) : σ × Option PendingCall :=
  let (reply, service, _) := LockService.call now (.member i) r x.1
  (service, PendingCall.of? now r reply)

/-- The service is changed by calls only. -/
theorem Reach.foldl_act_ask {σ : Type} [LockService σ] (now i : Nat) (m : Member)
    (actions : List Action) (x : Reach σ) :
    let x' := actions.foldl (Reach.act now i m) x
    (x'.service, x'.call) =
      (actions.filterMap fun
        | .call r => some r
        | _ => none).foldl (Reach.ask now i) (x.service, x.call) := by
  induction actions generalizing x with
  | nil => rfl
  | cons a actions hall =>
      have hrest := hall (x.act now i m a)
      cases a with
      | note | call | startTask => exact hrest
      | cancelTask =>
          have hsame : ((x.act now i m .cancelTask).service, (x.act now i m .cancelTask).call) =
              (x.service, x.call) := by
            simp only [Reach.act]
            split <;> rfl
          rw [hsame] at hrest
          exact hrest

theorem modify_set {α : Type} {l : List α} {i : Nat} (hi : i < l.length) (f : α → α) (x : α) :
    (l.set i x).modify i f = l.set i (f x) := by
  apply List.ext_getElem?
  intro j
  by_cases hij : i = j
  · subst hij
    simp [hi]
  · simp [hij]

theorem modify_eq_set {α : Type} {l : List α} {i : Nat} {x : α} (hx : l[i]? = some x)
    (f : α → α) : l.modify i f = l.set i (f x) := by
  obtain ⟨hi, rfl⟩ := List.getElem?_eq_some_iff.mp hx
  rw [← modify_set hi, List.set_getElem_self]

namespace Cluster

variable {σ : Type} {c : Cluster σ} {i j : Nat} {m : Member}

section Queues

@[simp]
theorem now_wake (c : Cluster σ) (r : Runner) : (c.wake r).now = c.now := by
  rw [wake]
  split <;> rfl

@[simp]
theorem service_wake (c : Cluster σ) (r : Runner) : (c.wake r).service = c.service := by
  rw [wake]
  split <;> rfl

@[simp]
theorem members_wake (c : Cluster σ) (r : Runner) : (c.wake r).members = c.members := by
  rw [wake]
  split <;> rfl

@[simp]
theorem crew_wake (c : Cluster σ) (r : Runner) : (c.wake r).crew = c.crew := by
  rw [wake]
  split <;> rfl

/-- To hear an answer only adds to what was written. -/
theorem hear_frame (c : Cluster σ) (m : Member) :
    (c.hear m).now = c.now ∧ (c.hear m).service = c.service ∧ (c.hear m).crew = c.crew ∧
      (c.hear m).members = c.members := by
  rw [hear]
  cases m.call with
  | none => exact ⟨rfl, rfl, rfl, rfl⟩
  | some k =>
      dsimp only
      split <;> exact ⟨rfl, rfl, rfl, rfl⟩

end Queues

/-- That a cluster is as some members were, but for what controller `i` has in reach. -/
structure Agrees (c : Cluster σ) (members : List Member) (i : Nat) (m : Member)
    (x : Reach σ) : Prop where
  service : c.service = x.service
  crew : c.crew = x.crew
  members : c.members = members.set i { m with call := x.call, episode := x.episode }

section Turns

variable [LockService σ] {members : List Member} {x : Reach σ} {m' : Member}

@[simp]
theorem now_perform (i : Nat) (m : Member) (c : Cluster σ) (a : Action) :
    (perform i m c a).now = c.now := by
  cases a with
  | note | call => rfl
  | startTask token => exact now_wake _ _
  | cancelTask =>
      simp only [perform]
      split
      · rfl
      · exact now_wake _ _

theorem Agrees.perform (hi : i < members.length) (hc : c.Agrees members i m' x) (a : Action) :
    (perform i m c a).Agrees members i m' (x.act c.now i m a) := by
  have hself : c.members[i]? = some { m' with call := x.call, episode := x.episode } := by
    rw [hc.members, List.getElem?_set_self hi]
  cases a with
  | note n => exact ⟨hc.service, hc.crew, hc.members⟩
  | call r =>
      constructor
      · simp [Cluster.perform, Cluster.call, Reach.act, Cluster.modify, writeFor, write, exchange,
          hc.service]
      · exact hc.crew
      · simp [Cluster.perform, Cluster.call, Reach.act, Cluster.modify, writeFor, write, exchange,
          hc.service, hc.members, modify_set hi]
  | startTask token =>
      constructor
      · simp [Cluster.perform, Reach.act, Cluster.modify, hc.service]
      · simp [Cluster.perform, Reach.act, Cluster.modify, hc.crew]
      · simp [Cluster.perform, Reach.act, Cluster.modify, hc.crew, hc.members, modify_set hi]
  | cancelTask =>
      simp only [Cluster.perform, Reach.act, hself, Option.bind_some]
      cases hepisode : x.episode with
      | none => exact hc
      | some e =>
          constructor
          · simp [cancelTask, hc.service]
          · simp [cancelTask, hc.crew]
          · simp [cancelTask, hc.members, hepisode]

/-- What actions make of a cluster is what they make of the reach of the controller. -/
theorem Agrees.foldl_perform (hi : i < members.length) (actions : List Action)
    (hc : c.Agrees members i m' x) :
    (actions.foldl (Cluster.perform i m) c).now = c.now ∧
      (actions.foldl (Cluster.perform i m) c).Agrees members i m'
        (actions.foldl (Reach.act c.now i m) x) := by
  induction actions generalizing c x with
  | nil => exact ⟨rfl, hc⟩
  | cons a actions hall =>
      have hrest := hall (hc.perform (m := m) hi a)
      rw [now_perform] at hrest
      exact hrest

/-- A turn goes by small changes: an answer is heard, the phase is set, and the actions are done.
What each of them leaves standing the turn does. -/
theorem resume_induction {P : Cluster σ → Prop} (i : Nat) (m : Member) (hstart : P c)
    (hheard : P (c.hear m))
    (hphase : ∀ (x : Cluster σ) (phase : Phase),
      P x → P (x.modify i fun m => { m with phase, call := none }))
    (hperform : ∀ (x : Cluster σ) (a : Action), P x → P (Cluster.perform i m x a)) (s : Signal) :
    P (c.resume i m s) := by
  have hactions (actions : List Action) (x : Cluster σ) (hx : P x) :
      P (actions.foldl (Cluster.perform i m) x) := by
    induction actions generalizing x with
    | nil => exact hx
    | cons a actions hall => exact hall _ (hperform x a hx)
  cases s with
  | answered a => exact hactions _ _ (hphase _ _ hheard)
  | begun | cancelled | elapsed | resumed => exact hactions _ _ (hphase _ _ hstart)

/-- What controller `i` has in reach once it took a turn. -/
def reach (c : Cluster σ) (i : Nat) (m : Member) (t : Turn) : Reach σ :=
  t.actions.foldl (Reach.act c.now i m) ⟨c.service, none, c.crew, m.episode⟩

theorem reach_of_requests (c : Cluster σ) (i : Nat) (m : Member) (t : Turn) :
    ((c.reach i m t).service, (c.reach i m t).call) =
      t.requests.foldl (Reach.ask c.now i) (c.service, none) :=
  Reach.foldl_act_ask c.now i m t.actions _

/-- The actions of a step, from a cluster that differs in its journals only. -/
theorem step_frame {c' : Cluster σ} (hm : c.members[i]? = some m) (s : Signal)
    (hnow : c'.now = c.now) (hservice : c'.service = c.service) (hcrew : c'.crew = c.crew)
    (hmembers : c'.members = c.members) :
    let t := Turn.take m.id m.policy c.now m.shutdown m.phase s
    let step := Controller.resume m.id m.policy c'.now m.phase s
    let c'' := step.2.foldl (Cluster.perform i m)
      (c'.modify i fun m' => { m' with phase := step.1, call := none })
    c''.now = c.now ∧
      c''.Agrees c.members i { m with phase := t.after } (c.reach i m t) := by
  have hi : i < c.members.length := (List.getElem?_eq_some_iff.mp hm).1
  rw [hnow]
  intro t step c''
  have hstart : (c'.modify i fun m' => { m' with phase := step.1, call := none }).Agrees
      c.members i { m with phase := t.after } ⟨c.service, none, c.crew, m.episode⟩ := by
    refine ⟨hservice, hcrew, ?_⟩
    rw [modify, hmembers]
    exact modify_eq_set hm _
  have hall := hstart.foldl_perform (m := m) hi step.2
  rw [show (c'.modify i _).now = c.now from hnow] at hall
  exact hall

theorem resume_frame (hm : c.members[i]? = some m) (s : Signal) :
    let t := Turn.take m.id m.policy c.now m.shutdown m.phase s
    (c.resume i m s).now = c.now ∧
      (c.resume i m s).Agrees c.members i { m with phase := t.after } (c.reach i m t) := by
  cases s with
  | answered a =>
      obtain ⟨hnow, hservice, hcrew, hmembers⟩ := hear_frame c m
      exact step_frame hm _ hnow hservice hcrew hmembers
  | begun | cancelled | elapsed | resumed => exact step_frame hm _ rfl rfl rfl rfl

end Turns

section Commands

/-- Who is in after a controller was taken in: it, and who was in before. -/
theorem member_enroll {m' : Member} (hm' : (c.enroll m).members[j]? = some m') :
    c.members[j]? = some m' ∨ j = c.members.length ∧ m' = m := by
  rcases Nat.lt_trichotomy j c.members.length with hj | rfl | hj
  · rw [enroll, List.getElem?_append_left hj] at hm'
    exact Or.inl hm'
  · rw [enroll, List.getElem?_concat_length] at hm'
    exact Or.inr ⟨rfl, (Option.some.inj hm').symm⟩
  · have hlength : (c.members ++ [m]).length ≤ j := by
      rw [List.length_append]
      exact hj
    rw [enroll, List.getElem?_eq_none hlength] at hm'
    cases hm'

theorem foldl_cancelTask_frame (c : Cluster σ) (tasks : List Nat) :
    (tasks.foldl cancelTask c).now = c.now ∧
      (tasks.foldl cancelTask c).service = c.service ∧
      (tasks.foldl cancelTask c).members = c.members ∧
      (tasks.foldl cancelTask c).crew = tasks.foldl Crew.cancel c.crew := by
  induction tasks generalizing c with
  | nil => exact ⟨rfl, rfl, rfl, rfl⟩
  | cons j tasks hall =>
      have hrest := hall (c.cancelTask j)
      simp only [cancelTask, now_wake, service_wake, members_wake, crew_wake] at hrest
      exact hrest

theorem cancelTask_frame (c : Cluster σ) (j : Nat) :
    (c.cancelTask j).now = c.now ∧ (c.cancelTask j).service = c.service ∧
      (c.cancelTask j).members = c.members ∧ (c.cancelTask j).crew = c.crew.cancel j :=
  foldl_cancelTask_frame c [j]

theorem dismiss_frame (c : Cluster σ) (i : Nat) :
    (c.dismiss i).now = c.now ∧ (c.dismiss i).service = c.service ∧
      (c.dismiss i).members = c.members.modify i (fun m => { m with shutdown := true }) ∧
      (c.dismiss i).crew = (c.crew.activeIn i).foldl Crew.cancel c.crew := by
  simp only [dismiss, now_wake, service_wake, members_wake, crew_wake]
  exact foldl_cancelTask_frame _ _

theorem member_dismiss {m' : Member} (hm' : (c.dismiss i).members[j]? = some m') :
    ∃ m, c.members[j]? = some m ∧ m' = if i = j then { m with shutdown := true } else m := by
  rw [(dismiss_frame c i).2.2.1, List.getElem?_modify] at hm'
  obtain ⟨m, hm, rfl⟩ := Option.map_eq_some_iff.mp hm'
  exact ⟨m, hm, rfl⟩

end Commands

end Cluster

end LeaseElection
