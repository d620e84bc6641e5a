import LeaseElection.Proofs.Cluster.Commands
import LeaseElection.Proofs.Cluster.Exclusion
import LeaseElection.Proofs.Lease.History

/-!
# Succession

The journal of a cluster tells when the lease of a table was held last: every grant and
every renewal is written down.  A controller that was denied the lease asks again after its
wait.  As the lease was not past its time when it was denied, the wait is over soon after
the time of whoever held the lease last, however others call the table in between.
-/

namespace LeaseElection

open Controller (Phase Signal Action Turn Course)

namespace Lease

/-- What a step of a lease at `now` comes to: it is held since now, and an event says so, or
it is held by nobody but the one who held it before. -/
inductive Outcome (now : Nat) (l l' : Lease) (events : List Event) : Prop where
  | held (h : Holding) (hholding : l'.holding = some h) (hnow : h.renewedAt = now)
      (htold : events.any Event.isHold = true)
  | kept (hholding : ∀ h, l'.holding = some h → l.holding = some h)
      (hquiet : events.any Event.isHold = false)

theorem Outcome.refl (now : Nat) (l : Lease) : Outcome now l l [] := .kept (fun _ => id) rfl

/-- A step that frees the lease, or leaves it alone. -/
theorem Outcome.of_free {now : Nat} {l : Lease} {events : List Event}
    (hquiet : events.any Event.isHold = false) : Outcome now l l.free events :=
  .kept (fun _ hheld => by cases hheld) hquiet

theorem outcome_step (l : Lease) (now : Nat) (i : Input) :
    (l.step now i).1.ttl = l.ttl ∧ Outcome now l (l.step now i).1 (l.step now i).2 := by
  have hcourse := l.course_step now i
  generalize l.step now i = step at hcourse ⊢
  cases hcourse with
  | take | reclaim | extend => exact ⟨rfl, .held _ rfl rfl rfl⟩
  | deny | disown | decline | idle => exact ⟨rfl, .kept (fun _ => id) rfl⟩
  | lapse | giveBack | clear => exact ⟨rfl, .of_free rfl⟩

end Lease

namespace LeaseTable

variable {κ : Type} [DecidableEq κ]

/-- Every call is a step of the lease, or leaves it alone. -/
theorem outcome_call (t : LeaseTable κ) (now : Nat) (client : κ) (r : Request) :
    ∃ events, (t.call now client r).2.2 = events.map (Lease.Event.entry t.lease.name) ∧
      (t.call now client r).2.1.lease.ttl = t.lease.ttl ∧
      Lease.Outcome now t.lease (t.call now client r).2.1.lease events := by
  cases r with
  | acquire caller =>
      refine ⟨(t.lease.step now (.acquire caller)).2, ?_⟩
      have hstep := t.lease.outcome_step now (.acquire caller)
      simp only [call, acquire, apply]
      split <;> exact ⟨rfl, hstep⟩
  | renew =>
      simp only [call, renew, apply]
      split
      · exact ⟨[], rfl, rfl, .refl now _⟩
      · rename_i g hmemory
        refine ⟨(t.lease.step now (.renew g.holder g.token)).2, ?_⟩
        have hstep := t.lease.outcome_step now (.renew g.holder g.token)
        split <;> exact ⟨rfl, hstep⟩
  | release =>
      simp only [call, release, apply]
      split
      · exact ⟨[], rfl, rfl, .refl now _⟩
      · rename_i g hmemory
        exact ⟨_, rfl, t.lease.outcome_step now (.release g.holder g.token)⟩

/-- Who is denied the lease learns that it is held in time. -/
theorem holding_of_denied {t : LeaseTable κ} {now : Nat} {client : κ} {caller : ControllerId}
    (hdenied : (t.call now client (.acquire caller)).1 = .denied) :
    ∃ h, t.lease.holding = some h ∧ now ≤ h.renewedAt + t.lease.ttl.nanos := by
  cases hholding : t.lease.holding with
  | none =>
      simp [call, acquire, apply, Lease.step, Lease.acquire, hholding, grantedToken?,
        Answer.ofGrant] at hdenied
  | some h =>
      refine ⟨h, rfl, ?_⟩
      cases hexpired : h.isExpired t.lease.ttl now with
      | true =>
          simp [call, acquire, apply, Lease.step, Lease.acquire, hholding, hexpired,
            grantedToken?, Answer.ofGrant] at hdenied
      | false =>
          simp only [Holding.isExpired, decide_eq_false_iff_not] at hexpired
          omega

end LeaseTable

/-- Whether an entry tells of a grant of a lease or of a renewal that went through. -/
def Entry.isHold (e : Entry) : Bool :=
  e.message == "lease granted" || e.message == "lease renewed"

theorem Lease.Event.isHold_entry (name : String) (e : Lease.Event) :
    (e.entry name).isHold = e.isHold := by
  cases e <;> simp [entry, message, Entry.isHold, isHold]

theorem Controller.Note.isHold_entry (id : ControllerId) (n : Controller.Note) :
    (n.entry id).isHold = false := by
  cases n <;> simp [entry, message, Entry.isHold]

theorem Request.isHold_verdict (r : Request) (millis : Nat) (a : Answer) :
    (r.verdict millis a).isHold = false := by
  cases r <;> cases a <;> simp [verdict, Entry.isHold]

namespace Controller

/-- What an attempt to acquire brought, if a turn heard of that. -/
def Turn.verdict? (t : Turn) : Option Answer :=
  match t.before, t.signal with
  | .acquiring, .answered a => some a
  | _, _ => none

/-- What the last attempt brought that was answered. -/
def lastVerdict? (ts : List Turn) : Option Answer := ts.findSome? Turn.verdict?

end Controller

open Controller (lastVerdict?)

/-- The answer to the call to acquire that a controller made last, as far as it has come
back by `now`. -/
def Member.lastAnswer? (m : Member) (now : Nat) (ts : List Turn) : Option Answer :=
  match m.phase with
  | .acquiring => m.answer? now
  | _ => lastVerdict? ts

namespace Cluster

section Entries

variable {σ : Type}

/-- When a lease was last granted, or last renewed, as the journal tells. -/
def heldSince? (c : Cluster σ) : Option Nat :=
  (c.entries.find? (·.entry.isHold)).map Stamped.time

theorem heldSince?_write_of_hold (c : Cluster σ) {es : List Entry}
    (hhold : es.any Entry.isHold = true) : (c.write es).heldSince? = some c.now := by
  obtain ⟨e, he, hholds⟩ := List.any_eq_true.mp hhold
  have hmem : Stamped.mk c.now e ∈ (es.map (Stamped.mk c.now)).reverse :=
    List.mem_reverse.mpr (List.mem_map_of_mem he)
  obtain ⟨s, hs⟩ := Option.isSome_iff_exists.mp
    (List.find?_isSome.mpr ⟨_, hmem, hholds⟩ : (List.find? (·.entry.isHold) _).isSome = true)
  have htime : s.time = c.now := by
    obtain ⟨e', -, rfl⟩ := List.mem_map.mp (List.mem_reverse.mp (List.mem_of_find?_eq_some hs))
    rfl
  rw [heldSince?, write, List.find?_append, hs]
  exact congrArg some htime

theorem heldSince?_write_of_quiet (c : Cluster σ) {es : List Entry}
    (hquiet : es.any Entry.isHold = false) : (c.write es).heldSince? = c.heldSince? := by
  have hnone : (es.map (Stamped.mk c.now)).reverse.find? (·.entry.isHold) = none := by
    rw [List.find?_eq_none]
    intro s hs
    obtain ⟨e, he, rfl⟩ := List.mem_map.mp (List.mem_reverse.mp hs)
    simpa using List.any_eq_false.mp hquiet e he
  rw [heldSince?, write, List.find?_append, hnone]
  rfl

@[simp]
theorem heldSince?_wake (c : Cluster σ) (r : Runner) : (c.wake r).heldSince? = c.heldSince? := by
  rw [wake]
  split <;> rfl

theorem heldSince?_dismiss (c : Cluster σ) (i : Nat) :
    (c.dismiss i).heldSince? = c.heldSince? := by
  have hcancel (tasks : List Nat) (c : Cluster σ) :
      (tasks.foldl cancelTask c).heldSince? = c.heldSince? := by
    induction tasks generalizing c with
    | nil => rfl
    | cons j tasks hall => exact (hall _).trans (heldSince?_wake _ _)
  exact (heldSince?_wake _ _).trans (hcancel _ _)

end Entries

section Records

variable {c c' c'' x : Cluster (LeaseTable Party)} {ttl : Span} {i j : Nat} {m m' : Member}

/-- That the journal tells of a table with some `ttl` since when its lease is held. -/
structure Records (ttl : Span) (c : Cluster (LeaseTable Party)) : Prop where
  ttl : c.service.lease.ttl = ttl
  held : ∀ h, c.service.lease.holding = some h → c.heldSince? = some h.renewedAt
  past : ∀ r, c.heldSince? = some r → r ≤ c.now

/-- That a cluster comes after another, and its journal tells of nothing earlier. -/
structure Prolongs (ttl : Span) (c c' : Cluster (LeaseTable Party)) : Prop where
  now_le : c.now ≤ c'.now
  records : Records ttl c'
  later : ∀ r, c.heldSince? = some r → ∃ r', c'.heldSince? = some r' ∧ r ≤ r'

theorem Prolongs.trans (hfirst : Prolongs ttl c c') (hsecond : Prolongs ttl c' c'') :
    Prolongs ttl c c'' where
  now_le := hfirst.now_le.trans hsecond.now_le
  records := hsecond.records
  later r hr := by
    obtain ⟨r', hr', hle⟩ := hfirst.later r hr
    obtain ⟨r'', hr'', hle'⟩ := hsecond.later r' hr'
    exact ⟨r'', hr'', hle.trans hle'⟩

namespace Records

theorem of_same (hrecords : Records ttl c) (hnow : c.now ≤ c'.now)
    (hservice : c'.service = c.service) (hheld : c'.heldSince? = c.heldSince?) :
    Prolongs ttl c c' where
  now_le := hnow
  records := by
    refine ⟨hservice ▸ hrecords.ttl, ?_, ?_⟩ <;> rw [hheld]
    · rw [hservice]
      exact hrecords.held
    · exact fun r hr => (hrecords.past r hr).trans hnow
  later r hr := ⟨r, hheld ▸ hr, Nat.le_refl r⟩

/-- What happens to the lease is written down. -/
theorem written (hrecords : Records ttl c) (hnow : x.now = c.now) (hentries : x.entries = c.entries)
    {events : List Lease.Event} (httl : x.service.lease.ttl = c.service.lease.ttl)
    (houtcome : Lease.Outcome c.now c.service.lease x.service.lease events) {es : List Entry}
    (hes : es.any Entry.isHold = events.any Lease.Event.isHold) : Prolongs ttl c (x.write es) := by
  have hsame : x.heldSince? = c.heldSince? := by rw [heldSince?, hentries, heldSince?]
  cases houtcome with
  | held h hholding hrenewed htold =>
      have hheld : (x.write es).heldSince? = some c.now := by
        rw [heldSince?_write_of_hold x (hes.trans htold), hnow]
      refine ⟨hnow.ge, ⟨httl.trans hrecords.ttl, ?_, ?_⟩, ?_⟩
      · intro h' hh'
        rw [show (x.write es).service.lease.holding = some h from hholding] at hh'
        cases hh'
        rw [hheld, hrenewed]
      · intro r hr
        rw [hheld] at hr
        cases hr
        exact hnow.ge
      · exact fun r hr => ⟨c.now, hheld, hrecords.past r hr⟩
  | kept hholding hquiet =>
      have hheld : (x.write es).heldSince? = c.heldSince? := by
        rw [heldSince?_write_of_quiet x (hes.trans hquiet), hsame]
      refine ⟨hnow.ge, ⟨httl.trans hrecords.ttl, ?_, ?_⟩, ?_⟩
      · intro h hh
        rw [hheld]
        exact hrecords.held h (hholding h hh)
      · rw [hheld]
        exact fun r hr => (hrecords.past r hr).trans hnow.ge
      · exact fun r hr => ⟨r, hheld.trans hr, Nat.le_refl r⟩

theorem any_isHold_events (name : String) (events : List Lease.Event) :
    (events.map (Lease.Event.entry name)).any Entry.isHold = events.any Lease.Event.isHold := by
  simp only [List.any_map, Function.comp_def, Lease.Event.isHold_entry]

theorem any_isHold_within (scope : Scope) (es : List Entry) :
    (es.map (Entry.within · scope)).any Entry.isHold = es.any Entry.isHold := by
  rw [List.any_map]
  rfl

theorem call (hrecords : Records ttl c) (i : Nat) (m : Member) (r : Request) :
    Prolongs ttl c (c.call i m r) := by
  obtain ⟨events, hes, httl, houtcome⟩ := c.service.outcome_call c.now (Party.member i) r
  let called := { c with service := (c.service.call c.now (Party.member i) r).2.1 }
  let es := (c.service.call c.now (Party.member i) r).2.2
  have htold : ((if c.traced then es.map (Entry.within · r.scope) else es).map
      (Entry.within · (.election m.id))).any Entry.isHold = events.any Lease.Event.isHold := by
    rw [any_isHold_within, ← any_isHold_events, ← hes]
    split
    · exact any_isHold_within _ es
    · rfl
  have hwritten := hrecords.written (x := called.exchange (.asked r)) rfl rfl httl houtcome htold
  exact hwritten.trans (hwritten.records.of_same (Nat.le_refl _) rfl rfl)

theorem perform (hrecords : Records ttl c) (i : Nat) (m : Member) (a : Action) :
    Prolongs ttl c (perform i m c a) := by
  cases a with
  | note n =>
      refine hrecords.of_same (Nat.le_refl _) rfl (heldSince?_write_of_quiet c ?_)
      rw [List.any_cons, n.isHold_entry]
      rfl
  | call r => exact hrecords.call i m r
  | startTask token =>
      refine hrecords.of_same ?_ ?_ ?_ <;> simp only [Cluster.perform, now_wake, service_wake,
        heldSince?_wake]
      · exact Nat.le_refl _
      · rfl
      · rfl
  | cancelTask =>
      simp only [Cluster.perform]
      split
      · exact hrecords.of_same (Nat.le_refl _) rfl rfl
      · refine hrecords.of_same ?_ ?_ ?_ <;> simp only [cancelTask, now_wake, service_wake,
          heldSince?_wake]
        · exact Nat.le_refl _
        · rfl

theorem hear (hrecords : Records ttl c) (m : Member) : Prolongs ttl c (c.hear m) := by
  obtain ⟨hnow, hservice, -, -⟩ := hear_frame c m
  refine hrecords.of_same hnow.ge hservice ?_
  rw [Cluster.hear]
  cases m.call with
  | none => rfl
  | some k =>
      dsimp only
      split
      · refine heldSince?_write_of_quiet _ ?_
        rw [any_isHold_within, List.any_cons]
        exact (Bool.or_false _).trans (Request.isHold_verdict _ _ _)
      · rfl

theorem resume (hrecords : Records ttl c) (i : Nat) (m : Member) (s : Signal) :
    Prolongs ttl c (c.resume i m s) := by
  refine resume_induction i m (hrecords.of_same (Nat.le_refl _) rfl rfl) (hrecords.hear m)
    (fun x phase hx => ?_) (fun x a hx => hx.trans (hx.records.perform i m a)) s
  exact hx.trans (hx.records.of_same (Nat.le_refl _) rfl rfl)

end Records

end Records

section Waiting

variable {c c' : Cluster (LeaseTable Party)} {ttl : Span} {i j : Nat} {m m' : Member}
variable {ts : List Turn} {s : Signal} {d t t' : Nat}

/-- That the lease was held no longer than `d` before `t`. -/
def HeldWithin (c : Cluster (LeaseTable Party)) (d t : Nat) : Prop :=
  ∃ r, c.heldSince? = some r ∧ t ≤ r + d

theorem HeldWithin.mono (hheld : c.HeldWithin d t) (hprolongs : Prolongs ttl c c')
    (hle : t' ≤ t) : c'.HeldWithin d t' := by
  obtain ⟨r, hr, ht⟩ := hheld
  obtain ⟨r', hr', hlater⟩ := hprolongs.later r hr
  exact ⟨r', hr', by omega⟩

/-- How long after the last hold a controller may have to wait for its next attempt. -/
def reprieve (ttl : Span) (p : Policy) : Nat := ttl.nanos + Instant.ceilMillis p.wait.nanos

/-- What a controller that was denied the lease knows of whoever holds it: it was held in
time when the denial was given, and so soon before the next attempt. -/
def Awaits (ttl : Span) (c : Cluster (LeaseTable Party)) (ts : List Turn) (m : Member) : Prop :=
  match m.phase with
  | .acquiring => ∃ k, m.call = some k ∧ k.due = c.now ∧
      (k.answer = .denied → c.HeldWithin ttl.nanos c.now)
  | .retrying wake => lastVerdict? ts = some .denied →
      c.now ≤ wake ∧ c.HeldWithin (reprieve ttl m.policy) wake
  | .stopped | .failed => True
  | _ => lastVerdict? ts ≠ some .denied

/-- Only its phase, its pace and its call matter, and what the journal tells. -/
theorem Awaits.congr (hawaits : Awaits ttl c ts m) (hprolongs : Prolongs ttl c c')
    (hnow : c'.now = c.now) (hphase : m'.phase = m.phase) (hpolicy : m'.policy = m.policy)
    (hcall : m'.call = m.call) : Awaits ttl c' ts m' := by
  unfold Awaits at hawaits ⊢
  rw [hphase]
  split at hawaits
  · obtain ⟨k, hk, hdue, hdenied⟩ := hawaits
    refine ⟨k, hcall.trans hk, hdue.trans hnow.symm, fun hanswer => ?_⟩
    exact (hdenied hanswer).mono hprolongs hnow.le
  · intro hdenied
    obtain ⟨hle, hheld⟩ := hawaits hdenied
    rw [hnow, hpolicy]
    exact ⟨hle, hheld.mono hprolongs (Nat.le_refl _)⟩
  · exact trivial
  · exact trivial
  · exact hawaits

/-- While all wait, time does not pass beyond the next attempt. -/
theorem Awaits.pass (hawaits : Awaits ttl c ts m) (hprolongs : Prolongs ttl c c')
    (hrest : m.signal? c.now = none) (hsleep : ∀ wake, m.wake? = some wake → c'.now ≤ wake) :
    Awaits ttl c' ts m := by
  unfold Awaits at hawaits ⊢
  split at hawaits
  · rename_i hphase
    obtain ⟨k, hk, hdue, -⟩ := hawaits
    exact absurd hrest (Standing.signal_ne_none hk hdue (Or.inl hphase))
  · rename_i wake hphase
    intro hdenied
    obtain ⟨-, hheld⟩ := hawaits hdenied
    refine ⟨hsleep wake ?_, hheld.mono hprolongs (Nat.le_refl _)⟩
    rw [Member.wake?, hphase]
    rfl
  · exact trivial
  · exact trivial
  · exact hawaits

/-- A controller that just asked was denied only if the lease is held in time. -/
theorem awaits_of_attempt (hrecords : Records ttl c) (hprolongs : Prolongs ttl c c')
    (hnow : c'.now = c.now) {table : LeaseTable Party}
    (hask : (table, m.call) = [Request.acquire m.id].foldl (Reach.ask c.now i) (c.service, none))
    (hphase : m.phase = .acquiring) : Awaits ttl c' ts m := by
  rw [List.foldl_cons, ask_leaseTable] at hask
  obtain ⟨-, hcall⟩ := Prod.mk.inj hask
  rw [Awaits, hphase]
  refine ⟨_, hcall, hnow.symm, fun hdenied => ?_⟩
  obtain ⟨held, hholding, hintime⟩ := LeaseTable.holding_of_denied hdenied
  rw [hrecords.ttl] at hintime
  exact HeldWithin.mono ⟨held.renewedAt, hrecords.held held hholding, hintime⟩ hprolongs hnow.le

/-- A denial is heard at once, and the wait begins then. -/
theorem heldWithin_of_denial {p : Policy} (hheld : c.HeldWithin ttl.nanos c.now)
    (hmillis : 1000000 ∣ c.now) (hwait : c.now + p.wait.nanos < Instant.horizon) :
    c.now ≤ Instant.wake c.now p.wait ∧
      c.HeldWithin (reprieve ttl p) (Instant.wake c.now p.wait) := by
  obtain ⟨r, hr, hle⟩ := hheld
  have hwake : Instant.wake c.now p.wait ≤ c.now + Instant.ceilMillis p.wait.nanos := by
    rw [Instant.wake_eq hwait]
    exact Instant.ceilMillis_le_add hmillis (Nat.le_refl _)
  refine ⟨Instant.le_wake _ _, r, hr, ?_⟩
  rw [reprieve]
  omega

theorem awaits_of_course {step : Controller.Step}
    (hcourse : Course m.id m.policy c.now m.shutdown m.phase s step)
    (hawaits : Awaits ttl c ts m) (hrecords : Records ttl c) (hprolongs : Prolongs ttl c c')
    (hnow : c'.now = c.now) (hmillis : 1000000 ∣ c.now)
    (hwait : c.now + m.policy.wait.nanos < Instant.horizon)
    (hheard : ∀ a, s = .answered a → ∀ k, m.call = some k → k.answer = a)
    {table : LeaseTable Party} {call : Option PendingCall}
    (hask : (table, call) = (Turn.requests ⟨c.now, m.shutdown, m.phase, s, step⟩).foldl
      (Reach.ask c.now i) (c.service, none))
    (episode : Option Episode) :
    Awaits ttl c' (⟨c.now, m.shutdown, m.phase, s, step⟩ :: ts)
      { m with phase := step.1, call, episode } := by
  obtain ⟨name, id, policy, conduct, phase, shutdown, episode', call'⟩ := m
  cases hcourse with
  | first | again => exact awaits_of_attempt hrecords hprolongs hnow hask rfl
  | win hgrant =>
      rintro ⟨⟩
      cases hgrant
  | @miss a hgrant =>
      obtain ⟨k, hcall, -, hheld⟩ := hawaits
      intro hdenied
      obtain rfl : a = .denied := Option.some.inj hdenied
      obtain ⟨hle, hwithin⟩ := heldWithin_of_denial (hheld (hheard _ rfl k hcall)) hmillis hwait
      exact ⟨hnow.le.trans hle, hwithin.mono hprolongs (Nat.le_refl _)⟩
  | rest _ taskOver =>
      intro hdenied
      exact absurd hdenied hawaits
  | begin | renew | keep | lose | cool | interrupt => exact hawaits
  | fail | leave | quit => exact trivial

end Waiting

section Visits

variable {σ : Type} {c c' start : Cluster σ} {ttl : Span}

/-- A call from outside, as the service takes it. -/
def visit [LockService σ] (c : Cluster σ) (name : String) (r : Request) : Cluster σ :=
  let (_, service, es) := LockService.call c.now (.outsider name) r c.service
  ({ c with service }.exchange (.asked r)).write es

/-- A look at the table from outside, which frees a lease that is past its time. -/
def inspect (c : Cluster (LeaseTable Party)) : Cluster (LeaseTable Party) :=
  let (service, events) := c.service.tick c.now
  { c with service }.write (events.map (Lease.Event.entry service.lease.name))

/-- What a world may do in which time is virtual and others call the table as well. -/
inductive Visited : Cluster (LeaseTable Party) → Cluster (LeaseTable Party) → Prop where
  | virtual {c c' : Cluster (LeaseTable Party)} (hvirtual : Virtual c c') : Visited c c'
  | visit (c : Cluster (LeaseTable Party)) (name : String) (r : Request) :
      Visited c (c.visit name r)
  | inspect (c : Cluster (LeaseTable Party)) : Visited c c.inspect
  | exchange (c : Cluster (LeaseTable Party)) (e : Exchange) : Visited c (c.exchange e)

theorem Visited.isOpen {c c' : Cluster (LeaseTable Party)} (hvisited : Visited c c') :
    Open c c' := by
  cases hvisited with
  | virtual hvirtual => exact hvirtual.isOpen
  | visit | inspect | exchange => exact ⟨Nat.le_refl _, rfl, .refl _⟩

/-- A call from outside is a visit, and its answer is there at once. -/
theorem Settles.callFrom_visited {start c : Cluster (LeaseTable Party)}
    (hc : Settles Visited start c) (name : String) (r : Request) :
    Settles Visited start (c.callFrom name r).2 := by
  have hcalled : Settles Visited start (c.visit name r).settle :=
    hc.settle .virtual (.world (.visit c name r)) (hc.tidy.altered _ _ _)
  have hanswered := hcalled.advanceTo .virtual (Span.zero.dueFrom_dvd hc.tidy.millis)
  exact hanswered.settle .virtual (.world (.exchange _ (.answered r _)))
    (hanswered.tidy.altered _ _ _)

/-- So is a look at the table. -/
theorem Settles.tick_visited {start c : Cluster (LeaseTable Party)}
    (hc : Settles Visited start c) : Settles Visited start c.tick.2 :=
  hc.settle .virtual (.world (.inspect c)) (hc.tidy.altered _ _ _)

/-- Nobody can call the table without the journal telling what came of it. -/
theorem Records.world {c c' : Cluster (LeaseTable Party)} (hrecords : Records ttl c)
    (hvisited : Visited c c') : Prolongs ttl c c' := by
  cases hvisited with
  | virtual hvirtual =>
      refine hrecords.of_same hvirtual.isOpen.now_le ?_ ?_ <;> cases hvirtual <;> rfl
  | visit name r =>
      obtain ⟨events, hes, httl, houtcome⟩ := c.service.outcome_call c.now (.outsider name) r
      let called := { c with service := (c.service.call c.now (Party.outsider name) r).2.1 }
      have htold : (c.service.call c.now (Party.outsider name) r).2.2.any Entry.isHold =
          events.any Lease.Event.isHold := by rw [hes, any_isHold_events]
      exact hrecords.written (x := called.exchange (.asked r)) rfl rfl httl houtcome htold
  | inspect =>
      obtain ⟨httl, houtcome⟩ := c.service.lease.outcome_step c.now .tick
      exact hrecords.written (x := { c with service := (c.service.tick c.now).1 }) rfl rfl httl
        houtcome (any_isHold_events _ _)
  | exchange e => exact hrecords.of_same (Nat.le_refl _) rfl rfl

end Visits

section Heirs

variable {c c' : Cluster (LeaseTable Party)} {h e : Chronicle} {ttl : Span} {i : Nat}
variable {m : Member} {s : Signal} {name : String} {traced : Bool}

/-- What the journal tells of the lease, and what all controllers know of it. -/
structure Heirs (ttl : Span) (h : Chronicle) (c : Cluster (LeaseTable Party)) : Prop where
  millis : 1000000 ∣ c.now
  records : Records ttl c
  awaits : ∀ i m, c.members[i]? = some m → c.now + m.policy.wait.nanos < Instant.horizon →
    Awaits ttl c (h.turnsOf i) m

theorem Heirs.turn (hheirs : Heirs ttl h c) (hm : c.members[i]? = some m)
    (hgoes : c.GoesOn m s) :
    Heirs ttl ((i, Turn.take m.id m.policy c.now m.shutdown m.phase s) :: h) (c.resume i m s) := by
  have hprolongs := hheirs.records.resume i m s
  have hnow := (resume_frame hm s).1
  refine ⟨hnow ▸ hheirs.millis, hprolongs.records, fun j m' hm' hwait => ?_⟩
  rw [hnow] at hwait
  by_cases hij : i = j
  · subst hij
    rw [member_resume hm s] at hm'
    cases hm'
    rw [Chronicle.turnsOf_cons_self]
    exact awaits_of_course (Controller.course_of_due hgoes.due m.id m.policy)
      (hheirs.awaits i m hm hwait) hheirs.records hprolongs hnow hheirs.millis hwait
      (fun a (ha : s = .answered a) k hcall => GoesOn.answer (ha ▸ hgoes) hcall)
      (reach_of_requests c i m _) _
  · rw [member_resume_of_ne hm s hij] at hm'
    rw [Chronicle.turnsOf_cons_of_ne hij]
    exact (hheirs.awaits j m' hm' hwait).congr hprolongs hnow rfl rfl rfl

theorem Heirs.enroll (hheirs : Heirs ttl h c) (hc : Chronicled h c) (hphase : m.phase = .idle) :
    Heirs ttl h (c.enroll m) := by
  have hprolongs : Prolongs ttl c (c.enroll m) :=
    hheirs.records.of_same (Nat.le_refl _) rfl rfl
  refine ⟨hheirs.millis, hprolongs.records, fun j m' hm' hwait => ?_⟩
  rcases member_enroll hm' with hm' | ⟨rfl, rfl⟩
  · exact (hheirs.awaits j m' hm' hwait).congr hprolongs rfl rfl rfl rfl
  · rw [Awaits, hphase, hc.absent _ (Nat.le_refl _)]
    rintro ⟨⟩

theorem Heirs.dismiss (hheirs : Heirs ttl h c) (i : Nat) : Heirs ttl h (c.dismiss i) := by
  obtain ⟨hnow, hservice, -, -⟩ := dismiss_frame c i
  have hprolongs : Prolongs ttl c (c.dismiss i) :=
    hheirs.records.of_same hnow.ge hservice (heldSince?_dismiss c i)
  refine ⟨hnow ▸ hheirs.millis, hprolongs.records, fun j m' hm' hwait => ?_⟩
  obtain ⟨m, hm, rfl⟩ := member_dismiss hm'
  have hpolicy : (if i = j then { m with shutdown := true } else m).policy = m.policy := by
    split <;> rfl
  rw [hnow, hpolicy] at hwait
  refine (hheirs.awaits j m hm hwait).congr hprolongs hnow ?_ hpolicy ?_ <;> split <;> rfl

theorem Heirs.world (hheirs : Heirs ttl h c) (hvisited : Visited c c') : Heirs ttl h c' := by
  have hprolongs := hheirs.records.world hvisited
  -- But for the passing of time, what is done leaves the controllers alone.
  have hinstant (hnow : c'.now = c.now) (hmembers : c'.members = c.members) : Heirs ttl h c' := by
    refine ⟨hnow ▸ hheirs.millis, hprolongs.records, fun j m hm hwait => ?_⟩
    rw [hmembers] at hm
    rw [hnow] at hwait
    exact (hheirs.awaits j m hm hwait).congr hprolongs hnow rfl rfl rfl
  cases hvisited with
  | virtual hvirtual =>
      cases hvirtual with
      | work | queue => exact hinstant rfl rfl
      | pass now hlater hmillis hrest hsleep =>
          refine ⟨hmillis, hprolongs.records, fun j m hm hwait => ?_⟩
          have hmem : m ∈ c.members := List.mem_of_getElem? hm
          have hearlier : c.now + m.policy.wait.nanos < Instant.horizon :=
            (Nat.add_le_add_right (Nat.le_of_lt hlater) _).trans_lt hwait
          exact (hheirs.awaits j m hm hearlier).pass hprolongs (hrest m hmem).1 (hsleep m hmem)
  | visit | inspect | exchange => exact hinstant rfl rfl

theorem Run.heirs (run : Run Visited (empty (LeaseTable.new name ttl) traced) h c) :
    Heirs ttl h c := by
  induction run with
  | start =>
      refine ⟨Nat.dvd_zero _, ⟨rfl, ?_, ?_⟩, fun i m hm => by simp [empty] at hm⟩
      · rintro held ⟨⟩
      · rintro r ⟨⟩
  | step run hstep hheirs =>
      cases hstep with
      | turn hm hgoes => exact hheirs.turn hm hgoes
      | enroll hphase hepisode hcall =>
          exact hheirs.enroll (run.mono Visited.isOpen).chronicled hphase
      | dismiss i => exact hheirs.dismiss i
      | world hworld => exact hheirs.world hworld

/-- Who was denied the lease and has not asked again is never later than the time of the
lease and its own wait after the last hold. -/
theorem Awaits.heldWithin (hawaits : Awaits ttl c (h.turnsOf i) m)
    (hover : m.phase.isOver = false)
    (hdenied : m.lastAnswer? c.now (h.turnsOf i) = some .denied) :
    c.HeldWithin (reprieve ttl m.policy) c.now := by
  unfold Awaits at hawaits
  unfold Member.lastAnswer? at hdenied
  split at hawaits
  · rename_i hphase
    obtain ⟨k, hk, hdue, hheld⟩ := hawaits
    rw [hphase] at hdenied
    obtain ⟨k', hk', hanswer⟩ := Option.map_eq_some_iff.mp hdenied
    rw [hk] at hk'
    cases Option.eq_some_of_filter_eq_some hk'
    obtain ⟨r, hr, hle⟩ := hheld hanswer
    refine ⟨r, hr, hle.trans ?_⟩
    rw [reprieve, ← Nat.add_assoc]
    exact Nat.le_add_right _ _
  · rename_i wake hphase
    rw [hphase] at hdenied
    obtain ⟨hle, r, hr, hwake⟩ := hawaits hdenied
    exact ⟨r, hr, hle.trans hwake⟩
  · rename_i hphase
    rw [hphase] at hover
    cases hover
  · rename_i hphase
    rw [hphase] at hover
    cases hover
  · rename_i hacquiring hretrying hstopped hfailed
    cases hphase : m.phase <;> rw [hphase] at hdenied <;>
      first | exact absurd hdenied hawaits | exact absurd hphase hacquiring

/-- Whatever the pace of the controllers, whenever they start and are told to stop, and
however others call the table in between: a controller that is still running, was denied
the lease and has not asked again asks again in time.  Since the lease was last granted or
renewed no more has passed than its time and the wait of the controller, in whole
milliseconds, be the leader of that time stopped or stalled. -/
theorem held_within_reprieve_of_denial
    (run : Run Visited (empty (LeaseTable.new name ttl) traced) h c)
    (hm : c.members[i]? = some m) (hover : m.phase.isOver = false)
    (hwait : c.now + m.policy.wait.nanos < Instant.horizon)
    (hdenied : m.lastAnswer? c.now (h.turnsOf i) = some .denied) :
    ∃ r, c.heldSince? = some r ∧ r ≤ c.now ∧
      (∀ held, c.service.lease.holding = some held → held.renewedAt = r) ∧
      c.now ≤ r + ttl.nanos + Instant.ceilMillis m.policy.wait.nanos := by
  have hheirs := run.heirs
  obtain ⟨r, hr, hle⟩ := (hheirs.awaits i m hm hwait).heldWithin hover hdenied
  refine ⟨r, hr, hheirs.records.past r hr, fun held hheld => ?_, ?_⟩
  · have hsince := hheirs.records.held held hheld
    rw [hr] at hsince
    exact (Option.some.inj hsince).symm
  · rwa [reprieve, ← Nat.add_assoc] at hle

/-- A leader stops without giving the lease back.  Its rival is denied twice, the second
time after seven of the ten milliseconds, and goes on waiting past the end of the lease. -/
theorem held_within_reprieve_of_denial_of_rivals :
    ∃ (h : Chronicle) (c : Cluster (LeaseTable Party)) (m m' : Member),
      Run Visited (empty (LeaseTable.new "lock" (.ofMillis 10)) false) h c ∧
        c.members = [m, m'] ∧ m.phase = .stopped ∧ m'.phase = .retrying 14000000 ∧
        c.now = 14000000 ∧ m'.lastAnswer? c.now (h.turnsOf 1) = some .denied ∧
        ∃ r, c.heldSince? = some r ∧ r ≤ c.now ∧
          c.now ≤ r + 10000000 + Instant.ceilMillis 7000000 := by
  let table : LeaseTable Party := .new "lock" (.ofMillis 10)
  let m : Member :=
    { name := "first", id := ⟨"first"⟩, policy := ⟨.ofMillis 5, .ofMillis 7, .zero⟩,
      conduct := .prompt }
  let m' : Member := { m with name := "second", id := ⟨"second"⟩ }
  let leader : Member :=
    { m with
      phase := .leading ⟨⟨"lock-1"⟩, 0⟩ ⟨5000000, 5000000⟩
      shutdown := true
      episode := some ⟨⟨"lock-1"⟩, 0, 0⟩ }
  let asking (now : Nat) : Member :=
    { m' with phase := .acquiring, call := some ⟨.acquire m'.id, now, now, .denied⟩ }
  have enrolled : Run Visited (empty table false) [] (((empty table false).enroll m).enroll m') :=
    .step (.step .start (.enroll _ rfl rfl rfl)) (.enroll _ rfl rfl rfl)
  have begun := enrolled.step (.turn (i := 0) (m := m) (s := .begun)
    (by decide) (.signalled (by decide)))
  have asked := begun.step (.turn (i := 0) (m := { m with phase := .starting 0 })
    (s := .elapsed) (by decide) (.signalled (by decide)))
  have granted := asked.step (.turn (i := 0) (s := .answered (.granted ⟨"lock-1"⟩))
    rfl (.signalled (by decide)))
  have begun' := granted.step (.turn (i := 1) (m := m') (s := .begun)
    (by decide) (.signalled (by decide)))
  have asked' := begun'.step (.turn (i := 1) (m := { m' with phase := .starting 0 })
    (s := .elapsed) (by decide) (.signalled (by decide)))
  have denied := asked'.step (.turn (i := 1) (m := asking 0) (s := .answered .denied)
    (by decide) (.signalled (by decide)))
  have dismissed := denied.step (.dismiss _ 0)
  have stopped := dismissed.step (.turn (i := 0) (m := leader) (s := .cancelled)
    (by decide) (.signalled (by decide)))
  have later := stopped.step (.world (.virtual (.pass _ 7000000
    (by decide) (by decide) (by decide) (by decide))))
  have visited := later.step (.world (.visit _ "guest" .renew))
  have asked'' := visited.step (.turn (i := 1) (m := { m' with phase := .retrying 7000000 })
    (s := .elapsed) (by decide) (.signalled (by decide)))
  have denied' := asked''.step (.turn (i := 1) (m := asking 7000000) (s := .answered .denied)
    (by decide) (.signalled (by decide)))
  have latest := denied'.step (.world (.virtual (.pass _ 14000000
    (by decide) (by decide) (by decide) (by decide))))
  let rival : Member := { m' with phase := .retrying 14000000 }
  obtain ⟨r, hr, hpast, -, hle⟩ := held_within_reprieve_of_denial latest (i := 1) (m := rival)
    (by decide) (by decide) (by decide) (by decide)
  exact ⟨_, _, { leader with phase := .stopped }, rival, latest, by decide, rfl, rfl, by decide,
    by decide, r, hr, hpast, hle⟩

end Heirs

end Cluster

end LeaseElection
