import LeaseElection.Proofs.Cluster.Lives

/-!
# Controllers of one lock double

A lock double renews for whoever asks and takes no grant back by itself, so it does not keep two
controllers from leading.  The controllers do: only who was granted the lock asks to renew it,
and who learns that it lost the lock leads no longer.  Grant, loss and answer pass the lock on
from one controller to the next, and in between it is with one of them at most.
-/

namespace LeaseElection

open Controller (Phase Signal Turn Course)

namespace LockDouble

/-- To ask for the lock is to be granted it, where nobody holds it, or to get nothing. -/
theorem acquire_cases (l : LockDouble) (now : Nat) (caller : ControllerId) :
    (l.holder = none ∧ (l.call now (.acquire caller)).2.holder = some caller) ∨
      ((l.call now (.acquire caller)).1.grant? = none ∧
        (l.call now (.acquire caller)).2.holder = l.holder) := by
  obtain ⟨ttl, holding, renewals, callers, failingAcquires, failingRenewals⟩ := l
  cases failingAcquires with
  | succ n => exact Or.inr ⟨rfl, rfl⟩
  | zero =>
      cases holding with
      | none => exact Or.inl ⟨rfl, rfl⟩
      | some held => exact Or.inr ⟨rfl, rfl⟩

/-- A renewal that goes through leaves the lock with its holder. -/
theorem holder_renew (l : LockDouble) (now : Nat)
    (hdone : (l.call now .renew).1.refusal? = none) :
    (l.call now .renew).2.holder = l.holder := by
  obtain ⟨ttl, holding, renewals, callers, failingAcquires, failingRenewals⟩ := l
  cases failingRenewals with
  | succ n => cases hdone
  | zero =>
      cases holding with
      | none => cases hdone
      | some held =>
          simp only [call, renew] at hdone ⊢
          split at hdone
          · cases hdone
          · rename_i hintime
            simp [hintime, holder]

/-- A call to the double is answered at once. -/
theorem ask_eq (l : LockDouble) (now i : Nat) (r : Request) :
    Reach.ask now i (l, none) r = ((l.call now r).2, some ⟨r, now, now, (l.call now r).1⟩) :=
  rfl

end LockDouble

/-- Whether a controller has the lock, by all that it knows or is about to hear. -/
def Member.Keeps (m : Member) : Prop :=
  match m.phase with
  | .leading .. | .failed => True
  | .renewing .. => ∃ k, m.call = some k ∧ k.answer.refusal? = none
  | .acquiring => ∃ k, m.call = some k ∧ k.answer.grant? ≠ none
  | _ => False

/-- What a turn of a controller means to the lock: it is granted to the controller, or stays where
it is, or the controller learns that it does not have it any more. -/
inductive Handover (l l' : LockDouble) (m m' : Member) : Prop where
  | gain (hfree : l.holder = none) (hholder : l'.holder = some m'.id)
  | keep (hkeeps : m'.Keeps → m.Keeps) (hholder : l'.holder = l.holder)
  | lose (hkept : m.Keeps) (hlost : ¬m'.Keeps)

section Turns

variable {l l' : LockDouble} {now i : Nat} {m : Member} {s : Signal} {step : Controller.Step}
variable {call : Option PendingCall}

theorem handover_acquire {m' : Member} (hphase : m'.phase = .acquiring)
    (hask : (l', m'.call) = [Request.acquire m'.id].foldl (Reach.ask now i) (l, none)) :
    Handover l l' m m' := by
  rw [List.foldl_cons, LockDouble.ask_eq] at hask
  obtain ⟨rfl, hcall⟩ := Prod.mk.inj hask
  rcases l.acquire_cases now m'.id with ⟨hfree, hholder⟩ | ⟨hdenied, hholder⟩
  · exact .gain hfree hholder
  · refine .keep (fun hkeeps => ?_) hholder
    rw [Member.Keeps, hphase] at hkeeps
    obtain ⟨k, hk, hgrant⟩ := hkeeps
    rw [hcall] at hk
    cases hk
    exact absurd hdenied hgrant

theorem handover_renew {m' : Member} {reign : Controller.Reign} {ticker : Controller.Ticker}
    (hkept : m.Keeps) (hphase : m'.phase = .renewing reign ticker)
    (hask : (l', m'.call) = [Request.renew].foldl (Reach.ask now i) (l, none)) :
    Handover l l' m m' := by
  rw [List.foldl_cons, LockDouble.ask_eq] at hask
  obtain ⟨rfl, hcall⟩ := Prod.mk.inj hask
  cases hdone : (l.call now .renew).1.refusal? with
  | none => exact .keep (fun _ => hkept) (l.holder_renew now hdone)
  | some reason =>
      refine .lose hkept fun hkeeps => ?_
      rw [Member.Keeps, hphase] at hkeeps
      obtain ⟨k, hk, hanswer⟩ := hkeeps
      rw [hcall] at hk
      cases hk
      rw [hdone] at hanswer
      cases hanswer

/-- Every turn hands the lock over, keeps it, or gives it up. -/
theorem handover_of_course (hcourse : Course m.id m.policy now m.shutdown m.phase s step)
    (hhears : ∀ r, m.Hears r now)
    (hheard : ∀ a, s = .answered a → ∀ k, m.call = some k → k.answer = a)
    (hask : (l', call) =
      (Turn.requests ⟨now, m.shutdown, m.phase, s, step⟩).foldl (Reach.ask now i) (l, none))
    (episode : Option Episode) :
    Handover l l' m { m with phase := step.1, call, episode } := by
  obtain ⟨name, id, policy, conduct, phase, shutdown, episode', call'⟩ := m
  -- A turn without a call leaves the lock as it is.
  have hquiet (hnone : Turn.requests ⟨now, shutdown, phase, s, step⟩ = [])
      (hkeeps : Member.Keeps ⟨name, id, policy, conduct, step.1, shutdown, episode, call⟩ →
        Member.Keeps ⟨name, id, policy, conduct, phase, shutdown, episode', call'⟩) :
      Handover l l' ⟨name, id, policy, conduct, phase, shutdown, episode', call'⟩
        ⟨name, id, policy, conduct, step.1, shutdown, episode, call⟩ := by
    rw [show Turn.requests _ = [] from hnone] at hask
    cases hask
    exact .keep hkeeps rfl
  cases hcourse with
  | first | again => exact handover_acquire rfl hask
  | renew => exact handover_renew trivial rfl hask
  | @win a token _ hgrant | @fail a token hgrant =>
      refine hquiet rfl fun _ => ?_
      obtain ⟨k, hk⟩ := (hhears (.acquire id)).exists_call rfl
      refine ⟨k, hk, ?_⟩
      rw [hheard a rfl k hk, hgrant]
      exact Option.some_ne_none token
  | @keep _ _ a hanswer =>
      refine hquiet rfl fun _ => ?_
      obtain ⟨k, hk⟩ := (hhears .renew).exists_call rfl
      refine ⟨k, hk, ?_⟩
      rw [hheard a rfl k hk, hanswer]
  | begin | miss | lose | cool | interrupt | quit => exact hquiet rfl False.elim
  | rest _ taskOver => exact hquiet (by cases taskOver <;> rfl) False.elim
  | leave _ taskOver => exact hquiet (by cases taskOver <;> rfl) False.elim

end Turns

namespace Cluster

variable {c c' : Cluster LockDouble} {h e : Chronicle} {i j : Nat} {m m' : Member} {s : Signal}
variable {ttl : Span} {traced : Bool}

/-- What a world may do in which nobody but the controllers calls their lock double: time passes,
and calls are made to fail. -/
structure Rehearsing (c c' : Cluster LockDouble) : Prop where
  now_le : c.now ≤ c'.now
  members_eq : c'.members = c.members
  service_eq : ∃ acquires renewals,
    c'.service = (c.service.failAcquires acquires).failRenewals renewals

theorem Virtual.rehearsing (hvirtual : Virtual c c') : Rehearsing c c' := by
  cases hvirtual with
  | work | queue => exact ⟨Nat.le_refl _, rfl, _, _, rfl⟩
  | pass now hlater => exact ⟨hlater.le, rfl, _, _, rfl⟩

/-- The next calls of each kind can be made to fail at any time. -/
theorem rehearsing_fail (c : Cluster LockDouble) (acquires renewals : Nat) :
    Rehearsing c
      { c with service := (c.service.failAcquires acquires).failRenewals renewals } :=
  ⟨Nat.le_refl _, rfl, acquires, renewals, rfl⟩

/-- At most one controller has the lock, and the double names it. -/
structure Rehearsed (c : Cluster LockDouble) : Prop where
  alone : ∀ (i j : Nat) (m m' : Member), c.members[i]? = some m → c.members[j]? = some m' →
    m.Keeps → m'.Keeps → i = j
  held : ∀ (i : Nat) (m : Member), c.members[i]? = some m → m.Keeps →
    c.service.holder = some m.id

namespace Rehearsed

/-- Who has the lock had it before. -/
theorem of_before (hc : Rehearsed c) (hholder : c'.service.holder = c.service.holder)
    (hbefore : ∀ (j : Nat) (m' : Member), c'.members[j]? = some m' → m'.Keeps →
      ∃ m, c.members[j]? = some m ∧ m.Keeps ∧ m.id = m'.id) : Rehearsed c' where
  alone i j m₁ m₂ hm₁ hm₂ hkeeps₁ hkeeps₂ := by
    obtain ⟨m₁', hm₁', hkept₁, -⟩ := hbefore i m₁ hm₁ hkeeps₁
    obtain ⟨m₂', hm₂', hkept₂, -⟩ := hbefore j m₂ hm₂ hkeeps₂
    exact hc.alone i j m₁' m₂' hm₁' hm₂' hkept₁ hkept₂
  held i m' hm' hkeeps := by
    obtain ⟨m, hm, hkept, hid⟩ := hbefore i m' hm' hkeeps
    rw [hholder, hc.held i m hm hkept, hid]

/-- Whatever a turn means to the lock, at most one controller has it. -/
theorem handover (hc : Rehearsed c) (hm : c.members[i]? = some m)
    (hhandover : Handover c.service c'.service m m') (hid : m'.id = m.id)
    (hmembers : c'.members = c.members.set i m') : Rehearsed c' := by
  have hcases {j : Nat} {m₀ : Member} (hm₀ : c'.members[j]? = some m₀) :
      j = i ∧ m₀ = m' ∨ j ≠ i ∧ c.members[j]? = some m₀ := by
    by_cases hij : i = j
    · subst hij
      rw [hmembers, List.getElem?_set_self (List.getElem?_eq_some_iff.mp hm).1] at hm₀
      exact Or.inl ⟨rfl, (Option.some.inj hm₀).symm⟩
    · rw [hmembers, List.getElem?_set_ne hij] at hm₀
      exact Or.inr ⟨Ne.symm hij, hm₀⟩
  cases hhandover with
  | gain hfree hholder =>
      -- Nobody had the lock before, so only who was granted it has it now.
      have honly {j : Nat} {m₀ : Member} (hm₀ : c'.members[j]? = some m₀) (hkeeps : m₀.Keeps) :
          j = i ∧ m₀ = m' := by
        refine (hcases hm₀).resolve_right ?_
        rintro ⟨-, hm₀⟩
        have hheld := hc.held j m₀ hm₀ hkeeps
        rw [hfree] at hheld
        cases hheld
      constructor
      · intro j k m₁ m₂ hm₁ hm₂ hkeeps₁ hkeeps₂
        rw [(honly hm₁ hkeeps₁).1, (honly hm₂ hkeeps₂).1]
      · intro j m₀ hm₀ hkeeps
        rw [(honly hm₀ hkeeps).2, hholder]
  | keep hkeeps hholder =>
      refine hc.of_before hholder fun j m₀ hm₀ hkeeps₀ => ?_
      rcases hcases hm₀ with ⟨rfl, rfl⟩ | ⟨-, hm₀⟩
      · exact ⟨m, hm, hkeeps hkeeps₀, hid.symm⟩
      · exact ⟨m₀, hm₀, hkeeps₀, rfl⟩
  | lose hkept hlost =>
      -- Only one controller had the lock, and it does not have it any more.
      have hnobody {j : Nat} {m₀ : Member} (hm₀ : c'.members[j]? = some m₀) : ¬m₀.Keeps := by
        intro hkeeps
        rcases hcases hm₀ with ⟨-, rfl⟩ | ⟨hij, hm₀⟩
        · exact hlost hkeeps
        · exact hij (hc.alone j i m₀ m hm₀ hm hkeeps hkept)
      constructor
      · exact fun j k m₁ m₂ hm₁ _ hkeeps => absurd hkeeps (hnobody hm₁)
      · exact fun j m₀ hm₀ hkeeps => absurd hkeeps (hnobody hm₀)

theorem turn (hc : Rehearsed c) (hm : c.members[i]? = some m) (hgoes : c.GoesOn m s)
    (hhears : ∀ r, m.Hears r c.now) : Rehearsed (c.resume i m s) := by
  obtain ⟨-, hframe⟩ := resume_frame hm s
  have hask := reach_of_requests c i m (Turn.take m.id m.policy c.now m.shutdown m.phase s)
  rw [← hframe.service] at hask
  have hhandover := handover_of_course (Controller.course_of_due hgoes.due m.id m.policy) hhears
    (fun a ha k hk => (ha ▸ hgoes).answer hk) hask
    (c.reach i m (Turn.take m.id m.policy c.now m.shutdown m.phase s)).episode
  exact hc.handover hm hhandover rfl hframe.members

theorem enroll (hc : Rehearsed c) (hphase : m.phase = .idle) : Rehearsed (c.enroll m) := by
  refine hc.of_before rfl fun j m' hm' hkeeps => ?_
  rcases member_enroll hm' with hm' | ⟨-, rfl⟩
  · exact ⟨m', hm', hkeeps, rfl⟩
  · rw [Member.Keeps, hphase] at hkeeps
    cases hkeeps

theorem dismiss (hc : Rehearsed c) (i : Nat) : Rehearsed (c.dismiss i) := by
  have hservice := (dismiss_frame c i).2.1
  refine hc.of_before (congrArg LockDouble.holder hservice) fun j m' hm' hkeeps => ?_
  obtain ⟨m, hm, rfl⟩ := member_dismiss hm'
  refine ⟨m, hm, ?_⟩
  split at hkeeps <;> split <;> exact ⟨hkeeps, rfl⟩

theorem world (hc : Rehearsed c) (hworld : Rehearsing c c') : Rehearsed c' := by
  obtain ⟨acquires, renewals, hservice⟩ := hworld.service_eq
  have hholder : c'.service.holder = c.service.holder := by
    rw [hservice]
    rfl
  refine hc.of_before hholder fun j m hm hkeeps => ?_
  rw [hworld.members_eq] at hm
  exact ⟨m, hm, hkeeps, rfl⟩

end Rehearsed

/-- All calls to the double are answered. -/
theorem Run.hears_lockDouble (run : Run Rehearsing (empty { ttl } traced) h c)
    (hm : c.members[i]? = some m) (r : Request) : m.Hears r c.now :=
  run.hears (LockDouble.answersAtOnce r)
    (fun hworld => ⟨hworld.now_le, hworld.members_eq⟩) hm

/-- In every run at most one controller has the lock. -/
theorem Run.rehearsed (run : Run Rehearsing (empty { ttl } traced) h c) : Rehearsed c := by
  induction run with
  | start => exact ⟨fun i j m m' hm => by simp [empty] at hm, fun i m hm => by simp [empty] at hm⟩
  | step run hstep hc =>
      cases hstep with
      | turn hm hgoes => exact hc.turn hm hgoes (run.hears_lockDouble hm)
      | enroll hphase => exact hc.enroll hphase
      | dismiss i => exact hc.dismiss i
      | world hworld => exact hc.world hworld

/-- A leader with no answer to hear has the lock. -/
theorem Run.keeps_of_leading (run : Run Rehearsing (empty { ttl } traced) h c)
    (hm : c.members[i]? = some m) (hleading : m.state = .leading)
    (hpause : m.answer? c.now = none) : m.Keeps := by
  rw [Member.state] at hleading
  unfold Member.Keeps
  cases hphase : m.phase with
  | leading | failed => trivial
  | renewing =>
      refine absurd hpause (run.hears_lockDouble hm .renew ?_)
      rw [hphase]
      rfl
  | _ =>
      rw [hphase] at hleading
      cases hleading

/-- Whatever the pace of the controllers and the time that the double allows them, whenever they
start and are told to stop, in whatever order they go on at one instant, and whichever calls are
made to fail: when no controller has an answer to hear, at most one of them leads, and it is the
one that the double names as the holder of the lock. -/
theorem leader_of_lockDouble (run : Run Rehearsing (empty { ttl } traced) h c)
    (hpause : ∀ m ∈ c.members, m.answer? c.now = none) :
    (∀ (i j : Nat) (m m' : Member), c.members[i]? = some m → c.members[j]? = some m' →
      m.state = .leading → m'.state = .leading → i = j) ∧
    ∀ m ∈ c.members, m.state = .leading →
      c.service.isLocked = true ∧ c.service.holder = some m.id := by
  have hc := run.rehearsed
  have hkeeps {i : Nat} {m : Member} (hm : c.members[i]? = some m) (hleading : m.state = .leading) :
      m.Keeps := run.keeps_of_leading hm hleading (hpause m (List.mem_of_getElem? hm))
  constructor
  · intro i j m m' hm hm' hleading hleading'
    exact hc.alone i j m m' hm hm' (hkeeps hm hleading) (hkeeps hm' hleading')
  · intro m hm hleading
    obtain ⟨i, hi⟩ := List.mem_iff_getElem?.mp hm
    have hholder := hc.held i m hi (hkeeps hi hleading)
    refine ⟨?_, hholder⟩
    rw [LockDouble.holder] at hholder
    rw [LockDouble.isLocked, ← Option.isSome_map (f := Prod.fst), hholder, Option.isSome_some]

/-- A leader whose first renewal comes too late loses the lock to a rival, whose first attempt was
made to fail. -/
theorem leader_of_lockDouble_of_rivals :
    ∃ (h : Chronicle) (c : Cluster LockDouble) (m m' : Member),
      Run Rehearsing (empty { ttl := .ofMillis 5 } false) h c ∧
      c.now = 9000000 ∧ c.members = [m, m'] ∧ m.policy.renewal = .ofMillis 7 ∧
      m.state = .waiting ∧ m'.state = .leading ∧
      c.service.isLocked = true ∧ c.service.holder = some m'.id := by
  let double : LockDouble := { ttl := .ofMillis 5 }
  let m : Member :=
    { name := "first", id := ⟨"first"⟩, policy := ⟨.ofMillis 7, .ofMillis 9, .zero⟩,
      conduct := .prompt }
  let m' : Member :=
    { name := "second", id := ⟨"second"⟩, policy := ⟨.ofMillis 7, .ofMillis 4, .ofMillis 5⟩,
      conduct := .prompt }
  let former (phase : Phase) : Member := { m with phase, episode := some ⟨⟨"fake-lock"⟩, 0, 0⟩ }
  have enrolled : Run Rehearsing (empty double false) []
      (((empty double false).enroll m).enroll m') :=
    .step (.step .start (.enroll _ rfl rfl rfl)) (.enroll _ rfl rfl rfl)
  have begun := enrolled.step (.turn (i := 0) (m := m) (s := .begun)
    (by decide) (.signalled (by decide)))
  have asked := begun.step (.turn (i := 0) (m := { m with phase := .starting 0 })
    (s := .elapsed) (by decide) (.signalled (by decide)))
  have granted := asked.step (.turn (i := 0)
    (m := { m with
      phase := .acquiring
      call := some ⟨.acquire m.id, 0, 0, .granted ⟨"fake-lock"⟩⟩ })
    (s := .answered (.granted ⟨"fake-lock"⟩)) (by decide) (.signalled (by decide)))
  have begun' := granted.step (.turn (i := 1) (m := m') (s := .begun)
    (by decide) (.signalled (by decide)))
  have due' := begun'.step (.world (Virtual.pass _ 5000000
    (by decide) (by decide) (by decide) (by decide)).rehearsing)
  have failing := due'.step (.world (rehearsing_fail _ 1 0))
  have asked' := failing.step (.turn (i := 1) (m := { m' with phase := .starting 5000000 })
    (s := .elapsed) (by decide) (.signalled (by decide)))
  have failed := asked'.step (.turn (i := 1)
    (m := { m' with
      phase := .acquiring
      call := some ⟨.acquire m'.id, 5000000, 5000000,
        .refused (.backend "injected acquire failure")⟩ })
    (s := .answered (.refused (.backend "injected acquire failure")))
    (by decide) (.signalled (by decide)))
  have due := failed.step (.world (Virtual.pass _ 7000000
    (by decide) (by decide) (by decide) (by decide)).rehearsing)
  have renewing := due.step (.turn (i := 0)
    (m := former (.leading ⟨⟨"fake-lock"⟩, 0⟩ ⟨7000000, 7000000⟩))
    (s := .elapsed) (by decide) (.signalled (by decide)))
  have lost := renewing.step (.turn (i := 0)
    (m := { former (.renewing ⟨⟨"fake-lock"⟩, 0⟩ ⟨14000000, 7000000⟩) with
      call := some ⟨.renew, 7000000, 7000000, .refused .expired⟩ })
    (s := .answered (.refused .expired)) (by decide) (.signalled (by decide)))
  have cooled := lost.step (.turn (i := 0) (m := former (.cooling 7000000))
    (s := .elapsed) (by decide) (.signalled (by decide)))
  have resumed := cooled.step (.turn (i := 0) (m := former (.yielding true))
    (by decide) (.resumed rfl))
  have dueAgain := resumed.step (.world (Virtual.pass _ 9000000
    (by decide) (by decide) (by decide) (by decide)).rehearsing)
  have askedAgain := dueAgain.step (.turn (i := 1) (m := { m' with phase := .retrying 9000000 })
    (s := .elapsed) (by decide) (.signalled (by decide)))
  have granted' := askedAgain.step (.turn (i := 1)
    (m := { m' with
      phase := .acquiring
      call := some ⟨.acquire m'.id, 9000000, 9000000, .granted ⟨"fake-lock"⟩⟩ })
    (s := .answered (.granted ⟨"fake-lock"⟩)) (by decide) (.signalled (by decide)))
  let leader : Member :=
    { m' with
      phase := .leading ⟨⟨"fake-lock"⟩, 9000000⟩ ⟨16000000, 7000000⟩
      episode := some ⟨⟨"fake-lock"⟩, 9000000, 1⟩ }
  obtain ⟨-, hholder⟩ := leader_of_lockDouble granted' (by decide)
  obtain ⟨hlocked, hnamed⟩ := hholder leader (by decide) rfl
  exact ⟨_, _, former (.retrying 16000000), leader, granted', by decide, by decide, rfl, rfl, rfl,
    hlocked, hnamed⟩

end Cluster

end LeaseElection
