import LeaseElection.Lease.Table

/-!
# The history of a lease

A lease is given one input after another, and every step makes a new lease and a list of
events, each for itself.  `Course` lists all that can come of an input, so that whatever is
true of every step goes by cases on it.  The main result is that the two never drift apart:
who reads the events alone knows who holds the lease, under which token and since when, and
no event occurs where it says something untrue.
-/

namespace LeaseElection

def Holding.grant (h : Holding) : Grant := ⟨h.holder, h.token⟩

namespace Lease

/-- All that can come of an input, by what the lease is like. -/
inductive Course (l : Lease) (now : Nat) : Input → Lease × List Event → Prop where
  | take {caller : ControllerId} (hfree : l.holding = none) :
      Course l now (.acquire caller)
        (l.grant now caller, [.acquired caller (l.tokenOf (l.grants + 1))])
  | reclaim {caller : ControllerId} {h : Holding} (hheld : l.holding = some h)
      (hexpired : h.isExpired l.ttl now = true) :
      Course l now (.acquire caller)
        (l.grant now caller, [.expired h.holder, .reclaimed h.holder caller,
          .acquired caller (l.tokenOf (l.grants + 1))])
  | deny {caller : ControllerId} {h : Holding} (hheld : l.holding = some h)
      (hgood : h.isExpired l.ttl now = false) :
      Course l now (.acquire caller) (l, [.denied caller h.holder])
  | extend {h : Holding} (hheld : l.holding = some h)
      (hgood : h.isExpired l.ttl now = false) :
      Course l now (.renew h.holder h.token)
        ({ l with holding := some { h with renewedAt := now } }, [.renewed h.holder])
  | lapse {h : Holding} (hheld : l.holding = some h)
      (hexpired : h.isExpired l.ttl now = true) :
      Course l now (.renew h.holder h.token)
        (l.free, [.expired h.holder, .renewRejected h.holder .expired])
  | disown {holder : ControllerId} {token : LockToken}
      (hstranger : l.claimed holder token = none) :
      Course l now (.renew holder token) (l, [.renewRejected holder .notHeld])
  | giveBack {h : Holding} (hheld : l.holding = some h) :
      Course l now (.release h.holder h.token) (l.free, [.released h.holder])
  | decline {holder : ControllerId} {token : LockToken}
      (hstranger : l.claimed holder token = none) :
      Course l now (.release holder token) (l, [.releaseRejected holder .notHeld])
  | clear {h : Holding} (hheld : l.holding = some h)
      (hexpired : h.isExpired l.ttl now = true) :
      Course l now .tick (l.free, [.expired h.holder])
  | idle (hgood : ∀ h, l.holding = some h → h.isExpired l.ttl now = false) :
      Course l now .tick (l, [])

/-- Every step takes one of these courses. -/
theorem course_step (l : Lease) (now : Nat) (i : Input) : Course l now i (l.step now i) := by
  cases i with
  | acquire caller =>
      simp only [step, acquire]
      cases hheld : l.holding with
      | none => exact .take hheld
      | some h =>
          cases hexpired : h.isExpired l.ttl now with
          | true => simpa only [hexpired, if_true] using .reclaim hheld hexpired
          | false =>
              simpa only [hexpired, Bool.false_eq_true, if_false] using .deny hheld hexpired
  | release holder token =>
      simp only [step, release]
      cases hclaimed : l.claimed holder token with
      | none => exact .decline hclaimed
      | some h =>
          obtain ⟨hheld, rfl, rfl⟩ := claimed_eq_some_iff.mp hclaimed
          exact .giveBack hheld
  | renew holder token =>
      simp only [step, renew]
      cases hclaimed : l.claimed holder token with
      | none => exact .disown hclaimed
      | some h =>
          obtain ⟨hheld, rfl, rfl⟩ := claimed_eq_some_iff.mp hclaimed
          cases hexpired : h.isExpired l.ttl now with
          | true => simpa only [hexpired, if_true] using .lapse hheld hexpired
          | false =>
              simpa only [hexpired, Bool.false_eq_true, if_false] using .extend hheld hexpired
  | tick =>
      simp only [step, tick]
      cases hheld : l.holding with
      | none => exact .idle (by simp [hheld])
      | some h =>
          cases hexpired : h.isExpired l.ttl now with
          | true => simpa only [hexpired, if_true] using .clear hheld hexpired
          | false =>
              have hgood : ∀ h', l.holding = some h' → h'.isExpired l.ttl now = false := by
                intro h' hh'
                rw [hheld] at hh'
                cases hh'
                exact hexpired
              simpa only [hexpired, Bool.false_eq_true, if_false] using .idle hgood

/-- An input that a lease was given: when, what the lease was like, and what came of it. -/
structure Move where
  time : Nat
  input : Input
  before : Lease
  outcome : Lease × List Event
deriving DecidableEq

namespace Move

def after (m : Move) : Lease := m.outcome.1

def events (m : Move) : List Event := m.outcome.2

/-- What comes of an input at `now`. -/
def make (l : Lease) (now : Nat) (i : Input) : Move := ⟨now, i, l, l.step now i⟩

end Move

/-- What a lease was given since it was new, latest first, and what it is like since.  Time
does not run back. -/
inductive History (name : String) (ttl : Span) : List Move → Lease → Prop where
  | new : History name ttl [] { name, ttl }
  | move {ms : List Move} {l : Lease} (past : History name ttl ms l) (now : Nat) (i : Input)
      (hlater : ∀ m ∈ ms, m.time ≤ now) :
      History name ttl (Move.make l now i :: ms) (l.step now i).1

/-- All events, first to last. -/
def told : List Move → List Event
  | [] => []
  | m :: ms => told ms ++ m.events

namespace Event

/-- Whether an event begins a hold on the lease or prolongs it. -/
def isHold : Event → Bool
  | .acquired .. | .renewed .. => true
  | _ => false

/-- Whether an event tells that the lease changed. -/
def isChange : Event → Bool
  | .acquired .. | .renewed .. | .released .. | .expired .. => true
  | _ => false

/-- What is known of the current grant once an event is read. -/
def read (known : Option Grant) : Event → Option Grant
  | .acquired holder token => some ⟨holder, token⟩
  | .released _ | .expired _ => none
  | _ => known

/-- Whether an event may occur between two others, where so much is known of the current
grant. -/
def Fits (known : Option Grant) (previous next : Option Event) : Event → Prop
  | .acquired .. => known = none
  | .released holder | .expired holder | .renewed holder =>
      known.map Grant.holder = some holder
  | .denied _ current => known.map Grant.holder = some current
  | .reclaimed former caller =>
      previous = some (.expired former) ∧ ∃ token, next = some (.acquired caller token)
  | .renewRejected .. | .releaseRejected .. => True

end Event

/-- What the events tell of the current grant. -/
def replay (es : List Event) : Option Grant := es.foldl Event.read none

/-- When the lease was last granted or renewed. -/
def lastHold? (ms : List Move) : Option Nat :=
  (ms.find? fun m => m.events.any Event.isHold).map Move.time

/-- Whether every event fits where it occurs, after one that may have come before. -/
def AllFit (known : Option Grant) (previous : Option Event) : List Event → Prop
  | [] => True
  | e :: es => e.Fits known previous es.head? ∧ AllFit (e.read known) (some e) es

/-- An event that fits at the end fits before others. -/
theorem Event.Fits.before {e : Event} {known : Option Grant} {previous : Option Event}
    (hfits : e.Fits known previous none) (next : Option Event) : e.Fits known previous next := by
  cases e with
  | reclaimed =>
      obtain ⟨-, token, htoken⟩ := hfits
      cases htoken
  | _ => exact hfits

namespace AllFit

variable {known : Option Grant} {previous : Option Event} {es es' before after : List Event}
variable {e : Event}

/-- The event before those that follow a list. -/
theorem getLast?_cons_or (e : Event) (es : List Event) (previous : Option Event) :
    (e :: es).getLast?.or previous = es.getLast?.or (some e) := by
  cases es with
  | nil => rfl
  | cons e' es =>
      rw [List.getLast?_cons_cons, List.getLast?_eq_some_getLast (List.cons_ne_nil _ _)]
      rfl

theorem append (hfirst : AllFit known previous es)
    (hsecond : AllFit (es.foldl Event.read known) (es.getLast?.or previous) es') :
    AllFit known previous (es ++ es') := by
  induction es generalizing known previous with
  | nil => exact hsecond
  | cons e es ih =>
      obtain ⟨hfits, hrest⟩ := hfirst
      rw [getLast?_cons_or] at hsecond
      refine ⟨?_, ih hrest hsecond⟩
      cases es with
      | nil => exact hfits.before _
      | cons => exact hfits

theorem fits (hall : AllFit known previous (before ++ e :: after)) :
    e.Fits (before.foldl Event.read known) (before.getLast?.or previous) after.head? := by
  induction before generalizing known previous with
  | nil => exact hall.1
  | cons first before ih =>
      rw [getLast?_cons_or]
      exact ih hall.2

end AllFit

section Steps

variable {l : Lease} {now : Nat} {i : Input} {step : Lease × List Event}

/-- What the events of a step tell of the lease. -/
theorem Course.foldl_read (hcourse : Course l now i step) :
    step.2.foldl Event.read (l.holding.map Holding.grant) =
      step.1.holding.map Holding.grant := by
  cases hcourse with
  | take | reclaim | lapse | giveBack | clear => rfl
  | extend hheld =>
      rw [hheld]
      rfl
  | deny | disown | decline | idle => rfl

theorem Course.allFit (hcourse : Course l now i step) (previous : Option Event) :
    AllFit (l.holding.map Holding.grant) previous step.2 := by
  cases hcourse with
  | take hfree =>
      rw [hfree]
      exact ⟨rfl, trivial⟩
  | reclaim hheld =>
      rw [hheld]
      exact ⟨rfl, ⟨rfl, _, rfl⟩, rfl, trivial⟩
  | deny hheld | extend hheld | giveBack hheld | clear hheld =>
      rw [hheld]
      exact ⟨rfl, trivial⟩
  | lapse hheld =>
      rw [hheld]
      exact ⟨rfl, trivial, trivial⟩
  | disown | decline => exact ⟨trivial, trivial⟩
  | idle => trivial

/-- A step that tells of no change makes none. -/
theorem Course.eq_of_unchanged (hcourse : Course l now i step)
    (hquiet : ∀ e ∈ step.2, e.isChange = false) : step.1 = l := by
  cases hcourse with
  | deny | disown | decline | idle => rfl
  | take | reclaim | extend | lapse | giveBack | clear => cases hquiet _ List.mem_cons_self

/-- The lease is held since now if an event says so, and since it was before if none does. -/
theorem Course.renewedAt_eq (hcourse : Course l now i step) {h : Holding}
    (hheld : step.1.holding = some h) :
    step.2.any Event.isHold = true ∧ h.renewedAt = now ∨
      step.2.any Event.isHold = false ∧ l.holding = some h := by
  cases hcourse with
  | take | reclaim | extend =>
      cases hheld
      exact Or.inl ⟨rfl, rfl⟩
  | deny | disown | decline | idle => exact Or.inr ⟨rfl, hheld⟩
  | lapse | giveBack | clear => cases hheld

end Steps

namespace History

variable {name : String} {ttl : Span} {ms : List Move} {l : Lease}

theorem replay_eq (past : History name ttl ms l) :
    replay (told ms) = l.holding.map Holding.grant := by
  induction past with
  | new => rfl
  | @move ms l past now i hlater ih =>
      have hstep := (course_step l now i).foldl_read
      rw [← ih] at hstep
      rw [← hstep, told, replay, List.foldl_append]
      rfl

theorem lastHold?_eq (past : History name ttl ms l) {h : Holding} (hheld : l.holding = some h) :
    lastHold? ms = some h.renewedAt := by
  induction past generalizing h with
  | new => cases hheld
  | @move ms l past now i hlater ih =>
      rw [lastHold?, List.find?_cons]
      rcases (course_step l now i).renewedAt_eq hheld with ⟨hhold, hnow⟩ | ⟨hquiet, hbefore⟩
      · rw [show (Move.make l now i).events.any Event.isHold = true from hhold, hnow]
        rfl
      · rw [show (Move.make l now i).events.any Event.isHold = false from hquiet]
        exact ih hbefore

theorem allFit (past : History name ttl ms l) : AllFit none none (told ms) := by
  induction past with
  | new => trivial
  | @move ms l past now i hlater ih =>
      refine ih.append ?_
      rw [show (told ms).foldl Event.read none = _ from past.replay_eq]
      exact (course_step l now i).allFit _

theorem unchanged (past : History name ttl ms l) :
    ∀ m ∈ ms, (∀ e ∈ m.events, e.isChange = false) → m.after = m.before := by
  induction past with
  | new => exact fun m hm => absurd hm List.not_mem_nil
  | @move ms l past now i hlater ih =>
      exact List.forall_mem_cons.mpr ⟨(course_step l now i).eq_of_unchanged, ih⟩

end History

/-- Whatever a lease is given since it was new, by whom and under what tokens: its events, read
one after another, tell at every point who holds it under which token, or that nobody does,
and the last grant or renewal among them tells since when.  Every event fits where it occurs,
and a step that reports no change leaves the lease as it was, the count of its grants
included. -/
theorem replay_told {name : String} {ttl : Span} {ms : List Move} {l : Lease}
    (past : History name ttl ms l) :
    replay (told ms) = l.holding.map Holding.grant ∧
    (∀ h, l.holding = some h → lastHold? ms = some h.renewedAt) ∧
    (∀ (before : List Event) (e : Event) (after : List Event), told ms = before ++ e :: after →
      e.Fits (replay before) before.getLast? after.head?) ∧
    ∀ m ∈ ms, (∀ e ∈ m.events, e.isChange = false) → m.after = m.before := by
  refine ⟨past.replay_eq, fun h => past.lastHold?_eq, ?_, past.unchanged⟩
  intro before e after htold
  have hall := past.allFit
  rw [htold] at hall
  have hfits := hall.fits
  rwa [Option.or_none] at hfits

/-- A lease is denied to a second participant, who takes it over when it expired and renews
it. -/
theorem replay_told_of_takeover :
    ∃ (ms : List Move) (l : Lease), History "lock" (.ofMillis 10) ms l ∧
      told ms = [.acquired ⟨"a"⟩ ⟨"lock-1"⟩, .denied ⟨"b"⟩ ⟨"a"⟩, .expired ⟨"a"⟩,
        .reclaimed ⟨"a"⟩ ⟨"b"⟩, .acquired ⟨"b"⟩ ⟨"lock-2"⟩, .renewed ⟨"b"⟩] ∧
      l.holding = some ⟨⟨"b"⟩, ⟨"lock-2"⟩, 12000000⟩ ∧
      replay (told ms) = some ⟨⟨"b"⟩, ⟨"lock-2"⟩⟩ ∧ lastHold? ms = some 12000000 := by
  have granted : History "lock" (.ofMillis 10) _ _ :=
    .move .new 0 (.acquire ⟨"a"⟩) (by decide)
  have denied := granted.move 5000000 (.acquire ⟨"b"⟩) (by decide)
  have reclaimed := denied.move 11000000 (.acquire ⟨"b"⟩) (by decide)
  have renewed := reclaimed.move 12000000 (.renew ⟨"b"⟩ ⟨"lock-2"⟩) (by decide)
  obtain ⟨hreplay, hhold, -⟩ := replay_told renewed
  exact ⟨_, _, renewed, by decide, by decide, hreplay.trans (by decide),
    hhold ⟨⟨"b"⟩, ⟨"lock-2"⟩, 12000000⟩ (by decide)⟩

end Lease

end LeaseElection
