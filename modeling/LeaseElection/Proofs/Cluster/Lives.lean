import LeaseElection.Proofs.Cluster.Latency
import LeaseElection.Proofs.Cluster.Shutdown

/-!
# Lives of controllers

In a world in which time is virtual no controller is ever late: time passes only while all of
them wait, and never beyond the alarm of one of them.  What is then true of a single controller
does not depend on the others.  A `Life` tells what happens to it, turns and waits, so that
whatever its turns and waits preserve is true of each controller in every run.  Calls that are
answered at once take no time in it.
-/

namespace LeaseElection

open Controller (Phase Signal Turn)

namespace Controller

/-- When a controller made calls of one kind, latest first. -/
def callTimes (r : Request) (ts : List Turn) : List Nat :=
  ts.filterMap fun t => if r ∈ t.requests then some t.time else none

section Calls

variable {r : Request} {t : Turn} {id : ControllerId} {p : Policy}

/-- Only who waits makes an attempt. -/
theorem Turn.IsOf.acquire_notMem_requests (hturn : t.IsOf id p)
    (hstate : t.before.state ≠ .waiting) : .acquire id ∉ t.requests := by
  rcases Turn.requests_cases hturn with hnone | ⟨hwaiting, -⟩ | ⟨-, hrenew⟩
  · simp [hnone]
  · exact absurd hwaiting hstate
  · simp [hrenew]

/-- Only who leads makes a renewal. -/
theorem Turn.IsOf.renew_notMem_requests (hturn : t.IsOf id p)
    (hstate : t.before.state ≠ .leading) : .renew ∉ t.requests := by
  rcases Turn.requests_cases hturn with hnone | ⟨-, hacquire⟩ | ⟨hleading, -⟩
  · simp [hnone]
  · simp [hacquire]
  · exact absurd hleading hstate

/-- Notes are no calls. -/
theorem Turn.notMem_requests_of_notes {notes : List Note} (hnotes : t.actions = notes.map .note)
    (r : Request) : r ∉ t.requests := by
  rw [(Turn.quiet_of_notes hnotes).1]
  exact List.not_mem_nil

/-- Whatever call a controller is in after a turn, it made it in that turn. -/
theorem Turn.IsOf.requests_of_call (hturn : t.IsOf id p) (hcall : t.after.call? id = some r) :
    t.requests = [r] := by
  obtain ⟨now, shutdown, before, signal, outcome⟩ := t
  change Course id p now shutdown before signal outcome at hturn
  cases hturn with
  | first | again | renew =>
      cases hcall
      rfl
  | _ => cases hcall

theorem callTimes_of_mem (hcall : r ∈ t.requests) (ts : List Turn) :
    callTimes r (t :: ts) = t.time :: callTimes r ts := by
  simp [callTimes, hcall]

theorem callTimes_of_notMem (hcall : r ∉ t.requests) (ts : List Turn) :
    callTimes r (t :: ts) = callTimes r ts := by
  simp [callTimes, hcall]

end Calls

/-- That a controller lets time pass in some phase: it does not wait for others to run, misses no
alarm, and may spend time in that phase. -/
structure Idles (Lasts : Phase → Prop) (now now' : Nat) (phase : Phase) : Prop where
  later : now < now'
  stays : ∀ completed, phase ≠ .yielding completed
  wakes : ∀ wake, phase.wake? = some wake → now' ≤ wake
  lasts : Lasts phase

/-- What became of a controller by `now`: whether its shutdown fired, the turns that it took,
and the phase that it is in.  It spends time only in phases of some kind. -/
inductive Life (Lasts : Phase → Prop) (id : ControllerId) (p : Policy) :
    (now : Nat) → (shutdown : Bool) → List Turn → Phase → Prop where
  | begin (now : Nat) (shutdown : Bool) : Life Lasts id p now shutdown [] .idle
  | turn {now : Nat} {shutdown : Bool} {ts : List Turn} {phase : Phase} {s : Signal}
      (past : Life Lasts id p now shutdown ts phase) (hdue : Due now shutdown phase s) :
      Life Lasts id p now shutdown (Turn.take id p now shutdown phase s :: ts)
        (resume id p now phase s).1
  | told {now : Nat} {ts : List Turn} {phase : Phase}
      (past : Life Lasts id p now false ts phase) : Life Lasts id p now true ts phase
  | pass {now now' : Nat} {shutdown : Bool} {ts : List Turn} {phase : Phase}
      (past : Life Lasts id p now shutdown ts phase)
      (hidles : Idles Lasts now now' phase) : Life Lasts id p now' shutdown ts phase

end Controller

open Controller (Life)

/-- That a service answers a call at once, whoever makes it and whenever. -/
def LockService.AnswersAtOnce (σ : Type) [LockService σ] (r : Request) : Prop :=
  ∀ (now : Nat) (party : Party) (service : σ),
    ∃ a, (LockService.call now party r service).1 = .answer .zero a

theorem LeaseTable.answersAtOnce (r : Request) :
    LockService.AnswersAtOnce (LeaseTable Party) r :=
  fun _ _ _ => ⟨_, rfl⟩

theorem LockDouble.answersAtOnce (r : Request) : LockService.AnswersAtOnce LockDouble r :=
  fun _ _ _ => ⟨_, rfl⟩

/-- That the answer to a call is there by `now`, if a controller is in it. -/
def Member.Hears (r : Request) (now : Nat) (m : Member) : Prop :=
  m.phase.call? m.id = some r → m.answer? now ≠ none

/-- What is answered stays answered. -/
theorem Member.Hears.mono {r : Request} {now now' : Nat} {m : Member} (hhears : m.Hears r now)
    (hle : now ≤ now') : m.Hears r now' := by
  intro hcall hnone
  rw [Member.answer?_eq_none_iff] at hnone
  exact hhears hcall (Member.answer?_eq_none_iff.mpr fun k hk => hle.trans_lt (hnone k hk))

theorem Member.Hears.exists_call {r : Request} {now : Nat} {m : Member} (hhears : m.Hears r now)
    (hcall : m.phase.call? m.id = some r) : ∃ k, m.call = some k := by
  obtain ⟨a, ha⟩ := Option.ne_none_iff_exists'.mp (hhears hcall)
  obtain ⟨k, hk, -⟩ := Option.map_eq_some_iff.mp ha
  exact ⟨k, Option.eq_some_of_filter_eq_some hk⟩

namespace Cluster

variable {σ : Type} {c c' : Cluster σ} {h : Chronicle} {i : Nat} {m : Member}
variable {Lasts : Phase → Prop}

/-- What a world may do in which time is virtual and passes in some phases only: anything to the
service and to the calls that it answers, while nobody is late. -/
structure Steady (Lasts : Phase → Prop) (c c' : Cluster σ) : Prop extends
    Unhurried c c', Punctual c c' where
  lasts : c.now < c'.now → ∀ m ∈ c.members, Lasts m.phase

theorem Virtual.members_eq (hvirtual : Virtual c c') : c'.members = c.members := by
  cases hvirtual <;> rfl

theorem Virtual.steady (hvirtual : Virtual c c')
    (hlasts : c.now < c'.now → ∀ m ∈ c.members, Lasts m.phase) : Steady Lasts c c' where
  toUnhurried := hvirtual.unhurried
  wakes := hvirtual.punctual.wakes
  lasts := hlasts

/-- What such a world does is no more to a controller than that time passes. -/
theorem Steady.life (hsteady : Steady Lasts c c') (hm : m ∈ c.members) {ts : List Turn}
    (past : Life Lasts m.id m.policy c.now m.shutdown ts m.phase) :
    Life Lasts m.id m.policy c'.now m.shutdown ts m.phase := by
  rcases Nat.eq_or_lt_of_le hsteady.now_le with hnow | hlater
  · rwa [← hnow]
  · exact past.pass ⟨hlater, (hsteady.waits hlater m hm).2, hsteady.wakes hlater m hm,
      hsteady.lasts hlater m hm⟩

variable [LockService σ] {service : σ} {traced : Bool}

/-- Every controller of a cluster leads a life of its own. -/
theorem Run.life (run : Run (Steady Lasts) (empty service traced) h c)
    (hm : c.members[i]? = some m) :
    Life Lasts m.id m.policy c.now m.shutdown (h.turnsOf i) m.phase := by
  induction run generalizing m with
  | start => simp [empty] at hm
  | @step h e c c' run hstep hall =>
      cases hstep with
      | @turn j m₀ s hm₀ hgoes =>
          rw [(resume_frame hm₀ s).1]
          by_cases hij : j = i
          · subst hij
            rw [member_resume hm₀ s] at hm
            cases hm
            rw [List.singleton_append, Chronicle.turnsOf_cons_self]
            exact (hall hm₀).turn hgoes.due
          · rw [member_resume_of_ne hm₀ s hij] at hm
            rw [List.singleton_append, Chronicle.turnsOf_cons_of_ne hij]
            exact hall hm
      | enroll hphase =>
          rcases member_enroll hm with hm | ⟨rfl, rfl⟩
          · exact hall hm
          · have hopen := run.mono fun hworld => hworld.toOpen
            rw [hphase, List.nil_append, hopen.chronicled.absent _ (Nat.le_refl _)]
            exact .begin _ _
      | dismiss j =>
          obtain ⟨m₀, hm₀, rfl⟩ := member_dismiss hm
          rw [(dismiss_frame c j).1]
          have hearlier := hall hm₀
          split
          · cases hshutdown : m₀.shutdown with
            | false => exact .told (hshutdown ▸ hearlier)
            | true => exact hshutdown ▸ hearlier
          · exact hearlier
      | world hworld =>
          obtain ⟨m₀, call, hm₀, rfl⟩ := hworld.member hm
          exact hworld.life (List.mem_of_getElem? hm₀) (hall hm₀)

/-- Who made a call in its turn that is answered at once has the answer. -/
theorem hears_resume {r : Request} (hprompt : LockService.AnswersAtOnce σ r) {s : Signal}
    (hm : c.members[i]? = some m) (hgoes : c.GoesOn m s) {m' : Member}
    (hm' : (c.resume i m s).members[i]? = some m') : m'.Hears r c.now := by
  intro hcall
  rw [member_resume hm s] at hm'
  cases hm'
  have hturn : (Turn.take m.id m.policy c.now m.shutdown m.phase s).IsOf m.id m.policy :=
    Turn.isOf_take hgoes.due
  have hask := reach_of_requests c i m (Turn.take m.id m.policy c.now m.shutdown m.phase s)
  rw [hturn.requests_of_call hcall, List.foldl_cons, List.foldl_nil] at hask
  obtain ⟨a, ha⟩ := hprompt c.now (.member i) c.service
  have hpending := congrArg Prod.snd hask
  simp only [Reach.ask, ha, PendingCall.of?] at hpending
  simp [Member.answer?, hpending, Span.dueFrom, Span.isZero]

/-- Where the world leaves the calls alone, those that are answered at once are always
answered. -/
theorem Run.hears {World : Cluster σ → Cluster σ → Prop} {r : Request}
    (hprompt : LockService.AnswersAtOnce σ r)
    (hworlds : ∀ {c c'}, World c c' → c.now ≤ c'.now ∧ c'.members = c.members)
    (run : Run World (empty service traced) h c) (hm : c.members[i]? = some m) :
    m.Hears r c.now := by
  induction run generalizing m with
  | start => simp [empty] at hm
  | @step h e c c' run hstep hall =>
      cases hstep with
      | @turn j m₀ s hm₀ hgoes =>
          rw [(resume_frame hm₀ s).1]
          by_cases hij : j = i
          · subst hij
            exact hears_resume hprompt hm₀ hgoes hm
          · rw [member_resume_of_ne hm₀ s hij] at hm
            exact hall hm
      | enroll hphase =>
          rcases member_enroll hm with hm | ⟨-, rfl⟩
          · exact hall hm
          · intro hcall
            rw [hphase] at hcall
            cases hcall
      | dismiss j =>
          obtain ⟨m₀, hm₀, rfl⟩ := member_dismiss hm
          rw [(dismiss_frame c j).1]
          have hearlier := hall hm₀
          split <;> exact hearlier
      | world hworld =>
          obtain ⟨hnow, hmembers⟩ := hworlds hworld
          rw [hmembers] at hm
          exact (hall hm).mono hnow

end Cluster

end LeaseElection
