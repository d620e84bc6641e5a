import LeaseElection.Proofs.Lease.Fencing

/-!
# Looks from outside

A tick does no more than free a lease that is expired already.  A lease that was looked at,
at whatever instants, is therefore the one that was not, or that one freed where it is
expired; `Swept` says so, and every input keeps it.  The main result is that a run and the
same run with ticks put in between tell each participant the same, but for the words in
which one who comes too late is refused.
-/

namespace LeaseElection

namespace Lease

/-- The grant that is still good. -/
def live (l : Lease) (now : Nat) : Option Holding :=
  l.holding.filter fun h => !h.isExpired l.ttl now

/-- What becomes of a lease that is given one input after another. -/
def run (l : Lease) : List (Nat × Input) → List Move
  | [] => []
  | (now, i) :: rest => Move.make l now i :: run (l.step now i).1 rest

/-- What a lease is given at which times, and the times at which a tick is put in. -/
abbrev Plan := List (Nat × Option Input)

namespace Plan

/-- The inputs alone. -/
def inputs (p : Plan) : List (Nat × Input) := p.filterMap fun e => e.2.map (e.1, ·)

/-- The inputs with the ticks in between. -/
def ticked (p : Plan) : List (Nat × Input) := p.map fun e => (e.1, e.2.getD .tick)

/-- The moves that are not made by the ticks that were put in. -/
def own (p : Plan) (ms : List Move) : List Move :=
  ((p.zip ms).filter fun e => e.1.2.isSome).map Prod.snd

end Plan

/-- A lease that was looked at is like the one that was not, or freed where that is
expired. -/
def Swept (now : Nat) (l l' : Lease) : Prop :=
  l' = l ∨ l.isExpired now = true ∧ l' = l.free

/-- The same input, given to a lease and to one that was looked at: nobody is told anything
else that is granted, and nobody is refused for any other cause than to have come too late. -/
structure Agrees (m m' : Move) : Prop where
  time : m'.time = m.time
  input : m'.input = m.input
  acquire : ∀ caller, m.input = .acquire caller →
    (∃ token, .acquired caller token ∈ m.events ∧ .acquired caller token ∈ m'.events) ∨
      ∃ current, m.events = [.denied caller current] ∧ m'.events = [.denied caller current]
  renew : ∀ holder token, m.input = .renew holder token →
    (m.events = [.renewed holder] ∧ m'.events = [.renewed holder]) ∨
      ∃ reason reason', .renewRejected holder reason ∈ m.events ∧
        .renewRejected holder reason' ∈ m'.events ∧
        (reason' = reason ∨ reason = .expired ∧ reason' = .notHeld)
  release : ∀ holder token, m.input = .release holder token →
    m'.events = m.events ∨
      m.before.isExpired m.time = true ∧ m.events = [.released holder] ∧
        m'.events = [.releaseRejected holder .notHeld]
  grants : m'.after.grants = m.after.grants
  live : ∀ now, m.time ≤ now → m'.after.live now = m.after.live now
  isOpen : ∀ now, m.time ≤ now → ∀ caller,
    (granted? (m'.after.step now (.acquire caller)).2).isSome =
      (granted? (m.after.step now (.acquire caller)).2).isSome

section Steps

variable {l l' : Lease} {now later : Nat}

theorem isExpired_iff : l.isExpired now = true ↔ ∃ h, l.holding = some h ∧
    h.isExpired l.ttl now = true := by
  rw [isExpired, Option.any_eq_true]

theorem isExpired_mono (hexpired : l.isExpired now = true) (hlater : now ≤ later) :
    l.isExpired later = true := by
  obtain ⟨h, hheld, hpast⟩ := isExpired_iff.mp hexpired
  refine isExpired_iff.mpr ⟨h, hheld, ?_⟩
  rw [Holding.isExpired_iff] at hpast ⊢
  omega

theorem not_isExpired_of_good {h : Holding} (hheld : l.holding = some h)
    (hgood : h.isExpired l.ttl now = false) : l.isExpired now = false := by
  rw [isExpired, hheld, Option.any_some, hgood]

theorem live_of_isExpired (hexpired : l.isExpired now = true) : l.live now = none := by
  obtain ⟨h, hheld, hpast⟩ := isExpired_iff.mp hexpired
  simp [live, hheld, hpast, Option.filter_some]

/-- Whoever asks is granted the lease exactly if nobody holds a good grant. -/
theorem isSome_granted?_acquire (l : Lease) (now : Nat) (caller : ControllerId) :
    (granted? (l.step now (.acquire caller)).2).isSome = (l.live now).isNone := by
  cases hheld : l.holding with
  | none => simp [step, acquire, live, hheld, granted?]
  | some h =>
      cases hexpired : h.isExpired l.ttl now <;>
        simp [step, acquire, live, hheld, hexpired, granted?, Option.filter_some]

end Steps

namespace Swept

variable {l l' : Lease} {now later : Nat}

theorem mono (hswept : Swept now l l') (hlater : now ≤ later) : Swept later l l' :=
  hswept.imp_right fun ⟨hexpired, hfree⟩ => ⟨isExpired_mono hexpired hlater, hfree⟩

theorem grants_eq (hswept : Swept now l l') : l'.grants = l.grants := by
  obtain rfl | ⟨-, rfl⟩ := hswept <;> rfl

theorem live_eq (hswept : Swept now l l') : l'.live now = l.live now := by
  obtain rfl | ⟨hexpired, rfl⟩ := hswept
  · rfl
  · rw [live_of_isExpired hexpired]
    rfl

/-- One more look. -/
theorem tick (hswept : Swept now l l') : Swept now l (l'.step now .tick).1 := by
  obtain rfl | ⟨hexpired, rfl⟩ := hswept
  · have hcourse := course_step l' now .tick
    generalize l'.step now .tick = step at hcourse
    cases hcourse with
    | clear hheld hexpired => exact Or.inr ⟨isExpired_iff.mpr ⟨_, hheld, hexpired⟩, rfl⟩
    | idle => exact Or.inl rfl
  · exact Or.inr ⟨hexpired, rfl⟩

/-- The same input to both. -/
theorem step (hswept : Swept now l l') (i : Input) :
    Swept now (l.step now i).1 (l'.step now i).1 := by
  obtain rfl | ⟨hexpired, rfl⟩ := hswept
  · exact Or.inl rfl
  · have hcourse := course_step l now i
    generalize l.step now i = step at hcourse
    cases hcourse with
    | take | reclaim | lapse | giveBack | clear => exact Or.inl rfl
    | disown | decline => exact Or.inr ⟨hexpired, rfl⟩
    | deny hheld hgood | extend hheld hgood =>
        rw [not_isExpired_of_good hheld hgood] at hexpired
        cases hexpired
    | idle => exact Or.inr ⟨hexpired, rfl⟩

/-- Who asks the one is answered as who asks the other. -/
theorem acquire_events (hswept : Swept now l l') (caller : ControllerId) :
    (∃ token, .acquired caller token ∈ (l.step now (.acquire caller)).2 ∧
        .acquired caller token ∈ (l'.step now (.acquire caller)).2) ∨
      ∃ current, (l.step now (.acquire caller)).2 = [.denied caller current] ∧
        (l'.step now (.acquire caller)).2 = [.denied caller current] := by
  have hgranted : (l.free.step now (.acquire caller)).2 =
      [.acquired caller (l.tokenOf (l.grants + 1))] := rfl
  have hcourse := course_step l now (.acquire caller)
  obtain rfl | ⟨hexpired, rfl⟩ := hswept
  · generalize l'.step now (.acquire caller) = step at hcourse
    cases hcourse with
    | take | reclaim => exact Or.inl ⟨l'.tokenOf (l'.grants + 1), by simp, by simp⟩
    | deny => exact Or.inr ⟨_, rfl, rfl⟩
  · rw [hgranted]
    generalize l.step now (.acquire caller) = step at hcourse
    cases hcourse with
    | take | reclaim => exact Or.inl ⟨l.tokenOf (l.grants + 1), by simp, by simp⟩
    | deny hheld hgood =>
        rw [not_isExpired_of_good hheld hgood] at hexpired
        cases hexpired

theorem renew_events (hswept : Swept now l l') (holder : ControllerId) (token : LockToken) :
    ((l.step now (.renew holder token)).2 = [.renewed holder] ∧
        (l'.step now (.renew holder token)).2 = [.renewed holder]) ∨
      ∃ reason reason', .renewRejected holder reason ∈ (l.step now (.renew holder token)).2 ∧
        .renewRejected holder reason' ∈ (l'.step now (.renew holder token)).2 ∧
        (reason' = reason ∨ reason = .expired ∧ reason' = .notHeld) := by
  have hrefused : (l.free.step now (.renew holder token)).2 =
      [.renewRejected holder .notHeld] := rfl
  have hcourse := course_step l now (.renew holder token)
  obtain rfl | ⟨hexpired, rfl⟩ := hswept
  · generalize l'.step now (.renew holder token) = step at hcourse
    cases hcourse with
    | extend => exact Or.inl ⟨rfl, rfl⟩
    | lapse => exact Or.inr ⟨.expired, .expired, by simp, by simp, Or.inl rfl⟩
    | disown => exact Or.inr ⟨.notHeld, .notHeld, by simp, by simp, Or.inl rfl⟩
  · rw [hrefused]
    generalize l.step now (.renew holder token) = step at hcourse
    cases hcourse with
    | extend hheld hgood =>
        rw [not_isExpired_of_good hheld hgood] at hexpired
        cases hexpired
    | lapse => exact Or.inr ⟨.expired, .notHeld, by simp, by simp, Or.inr ⟨rfl, rfl⟩⟩
    | disown => exact Or.inr ⟨.notHeld, .notHeld, by simp, by simp, Or.inl rfl⟩

/-- A grant that is given back late was taken back already if somebody looked. -/
theorem release_events (hswept : Swept now l l') (holder : ControllerId) (token : LockToken) :
    (l'.step now (.release holder token)).2 = (l.step now (.release holder token)).2 ∨
      l.isExpired now = true ∧ (l.step now (.release holder token)).2 = [.released holder] ∧
        (l'.step now (.release holder token)).2 = [.releaseRejected holder .notHeld] := by
  have hrefused : (l.free.step now (.release holder token)).2 =
      [.releaseRejected holder .notHeld] := rfl
  have hcourse := course_step l now (.release holder token)
  obtain rfl | ⟨hexpired, rfl⟩ := hswept
  · exact Or.inl rfl
  · rw [hrefused]
    generalize l.step now (.release holder token) = step at hcourse
    cases hcourse with
    | giveBack => exact Or.inr ⟨hexpired, rfl, rfl⟩
    | decline => exact Or.inl rfl

theorem agrees (hswept : Swept now l l') (i : Input) :
    Agrees (Move.make l now i) (Move.make l' now i) where
  time := rfl
  input := rfl
  acquire := by
    rintro caller rfl
    exact hswept.acquire_events caller
  renew := by
    rintro holder token rfl
    exact hswept.renew_events holder token
  release := by
    rintro holder token rfl
    exact hswept.release_events holder token
  grants := (hswept.step i).grants_eq
  live later hlater := ((hswept.step i).mono hlater).live_eq
  isOpen later hlater caller := by
    rw [isSome_granted?_acquire, isSome_granted?_acquire]
    exact congrArg Option.isNone ((hswept.step i).mono hlater).live_eq

/-- Through a whole run. -/
theorem run {p : Plan} (hswept : Swept now l l') (hlater : ∀ e ∈ p, now ≤ e.1)
    (hordered : p.Pairwise fun e e' => e.1 ≤ e'.1) :
    List.Forall₂ Agrees (l.run p.inputs) (p.own (l'.run p.ticked)) := by
  induction p generalizing now l l' with
  | nil => exact .nil
  | cons e p ih =>
      obtain ⟨time, i⟩ := e
      obtain ⟨hfirst, hrest⟩ := List.pairwise_cons.mp hordered
      have hnow : Swept time l l' := hswept.mono (hlater _ List.mem_cons_self)
      cases i with
      | none => exact ih hnow.tick hfirst hrest
      | some i => exact .cons (hnow.agrees i) (ih (hnow.step i) hfirst hrest)

end Swept

/-- Ticks are invisible.  Take any run of a lease since it was new, by whomever and under what
tokens, and put in ticks wherever you like: every input of the run is answered alike in both,
but that who comes too late may be told that it does not hold the lease where it would have
been told that the lease expired, or could still have given it back.  After every input, and
from then on until the next, both tell the same good grant and the same count of grants, and
both would be granted or neither. -/
theorem run_agrees_of_ticks (name : String) (ttl : Span) (p : Plan)
    (hordered : p.Pairwise fun e e' => e.1 ≤ e'.1) :
    let l : Lease := { name, ttl }
    List.Forall₂ Agrees (l.run p.inputs) (p.own (l.run p.ticked)) :=
  Swept.run (Or.inl rfl) (fun _ _ => Nat.zero_le _) hordered

/-- Two grants are given up late, by a renewal and by a release.  After a tick both are refused
for want of a grant. -/
theorem run_agrees_of_ticks_late :
    let p : Plan := [(0, some (.acquire ⟨"a"⟩)), (11000000, none),
      (11000000, some (.renew ⟨"a"⟩ ⟨"lock-1"⟩)), (12000000, some (.acquire ⟨"b"⟩)),
      (23000000, none), (24000000, some (.release ⟨"b"⟩ ⟨"lock-2"⟩))]
    let l : Lease := ⟨"lock", .ofMillis 10, none, 0⟩
    told (l.run p.inputs).reverse = [.acquired ⟨"a"⟩ ⟨"lock-1"⟩, .expired ⟨"a"⟩,
        .renewRejected ⟨"a"⟩ .expired, .acquired ⟨"b"⟩ ⟨"lock-2"⟩, .released ⟨"b"⟩] ∧
      told (p.own (l.run p.ticked)).reverse = [.acquired ⟨"a"⟩ ⟨"lock-1"⟩,
        .renewRejected ⟨"a"⟩ .notHeld, .acquired ⟨"b"⟩ ⟨"lock-2"⟩,
        .releaseRejected ⟨"b"⟩ .notHeld] ∧
      (p.Pairwise fun e e' => e.1 ≤ e'.1) ∧
      List.Forall₂ Agrees (l.run p.inputs) (p.own (l.run p.ticked)) := by
  refine ⟨by decide, by decide, by decide, ?_⟩
  exact run_agrees_of_ticks "lock" (.ofMillis 10) _ (by decide)

end Lease

end LeaseElection
