import LeaseElection.Proofs.Cluster.Lives
import LeaseElection.Proofs.Cluster.Tenure
import LeaseElection.Proofs.Controller.Losses

/-!
# When renewals are made

A reign is renewed once in a period, counted from its beginning.  Timers go off at whole
milliseconds, so each renewal may be late by less than one; the next is due as if it had not
been.  Where renewals are answered at once, no number of them makes the reign drift.
-/

namespace LeaseElection

open Controller (Phase Signal Turn Course Ticker Life History Idles callTimes lastGrant?
  lastGrant?_of_grant lastGrant?_of_none)

namespace Controller

/-- Whether a controller is in a call to renew. -/
def Phase.isRenewing : Phase → Bool
  | .renewing .. => true
  | _ => false

/-- The turns since a controller last heard of a grant. -/
def sinceGrant (ts : List Turn) : List Turn := ts.takeWhile fun t => t.grant?.isNone

/-- When the first renewals of a reign are due that began at `s`, latest first. -/
def renewalsDue (s period n : Nat) : List Nat :=
  (List.range n).reverse.map fun k => Instant.ceilMillis (s + (k + 1) * period)

theorem renewalsDue_succ (s period n : Nat) :
    renewalsDue s period (n + 1) =
      Instant.ceilMillis (s + (n + 1) * period) :: renewalsDue s period n := by
  simp [renewalsDue, List.range_succ]

section Grants

variable {t : Turn} {ts : List Turn}

theorem sinceGrant_of_grant (hgrant : t.grant?.isSome = true) (ts : List Turn) :
    sinceGrant (t :: ts) = [] := by
  obtain ⟨token, hgranted⟩ := Option.isSome_iff_exists.mp hgrant
  rw [sinceGrant, List.takeWhile_cons, if_neg (by simp [hgranted])]

theorem sinceGrant_of_none (hgrant : t.grant? = none) (ts : List Turn) :
    sinceGrant (t :: ts) = t :: sinceGrant ts := by
  rw [sinceGrant, List.takeWhile_cons, if_pos (by simp [hgrant])]
  rfl

end Grants

/-- A reign that began at `s` and was renewed `n` times, each of them when it was due. -/
structure Renewed (period : Nat) (ts : List Turn) (s n : Nat) : Prop where
  grant : lastGrant? ts = some s
  made : callTimes .renew (sinceGrant ts) = renewalsDue s period n

/-- How a controller in some phase stands to the renewals of its last reign at `now`. -/
inductive OnTick (period now : Nat) (ts : List Turn) : Phase → Prop where
  | leads {reign : Reign} {ticker : Ticker} {s n : Nat} (hrenewed : Renewed period ts s n)
      (hticker : ticker = ⟨s + (n + 1) * period, period⟩) (hnow : now ≤ ticker.wake) :
      OnTick period now ts (.leading reign ticker)
  | renews {reign : Reign} {ticker : Ticker} {s n : Nat} (hrenewed : Renewed period ts s n)
      (hticker : ticker = ⟨s + (n + 1) * period, period⟩) (hnow : now < ticker.wake) :
      OnTick period now ts (.renewing reign ticker)
  | rests {phase : Phase} (hstate : phase.state ≠ .leading)
      (hrenewed : ∀ s, lastGrant? ts = some s → ∃ n, Renewed period ts s n) :
      OnTick period now ts phase

namespace Renewed

variable {period s n : Nat} {t : Turn} {ts : List Turn}

/-- A turn without a grant and without a call to renew changes nothing. -/
theorem quiet (hrenewed : Renewed period ts s n) (hgrant : t.grant? = none)
    (hcalls : .renew ∉ t.requests) : Renewed period (t :: ts) s n where
  grant := (lastGrant?_of_none hgrant ts).trans hrenewed.grant
  made := by
    rw [sinceGrant_of_none hgrant, callTimes_of_notMem hcalls]
    exact hrenewed.made

/-- A reign begins without a renewal. -/
theorem of_grant (hgrant : t.grant?.isSome = true) (ts : List Turn) :
    Renewed period (t :: ts) t.time 0 where
  grant := lastGrant?_of_grant hgrant ts
  made := by
    rw [sinceGrant_of_grant hgrant]
    rfl

/-- One more renewal is made when it is due. -/
theorem succ (hrenewed : Renewed period ts s n) (hgrant : t.grant? = none)
    (hcalls : .renew ∈ t.requests) (htime : t.time = Instant.ceilMillis (s + (n + 1) * period)) :
    Renewed period (t :: ts) s (n + 1) where
  grant := (lastGrant?_of_none hgrant ts).trans hrenewed.grant
  made := by
    rw [sinceGrant_of_none hgrant, callTimes_of_mem hcalls, renewalsDue_succ, hrenewed.made, htime]

end Renewed

namespace OnTick

variable {id : ControllerId} {p : Policy} {now now' period : Nat} {shutdown : Bool}
variable {phase : Phase} {s : Signal} {step : Step} {t : Turn} {ts : List Turn}

theorem renewed (htick : OnTick period now ts phase) {s : Nat} (hs : lastGrant? ts = some s) :
    ∃ n, Renewed period ts s n := by
  cases htick with
  | leads hrenewed | renews hrenewed =>
      have hgrant := hrenewed.grant
      rw [hs] at hgrant
      cases hgrant
      exact ⟨_, hrenewed⟩
  | rests _ hrenewed => exact hrenewed s hs

/-- Who does not lead after a turn makes no renewal in it. -/
theorem rest (htick : OnTick period now ts phase) (hgrant : t.grant? = none)
    (hcalls : .renew ∉ t.requests) {phase' : Phase} (hstate : phase'.state ≠ .leading) :
    OnTick period now (t :: ts) phase' := by
  refine .rests hstate fun s hs => ?_
  rw [lastGrant?_of_none hgrant] at hs
  obtain ⟨n, hrenewed⟩ := htick.renewed hs
  exact ⟨n, hrenewed.quiet hgrant hcalls⟩

/-- Every turn keeps to the ticks. -/
theorem of_course (hcourse : Course id p now shutdown phase s step)
    (htick : OnTick (Ticker.periodOf p.renewal) now ts phase)
    (hclock : now + Ticker.periodOf p.renewal < Instant.horizon) :
    OnTick (Ticker.periodOf p.renewal) now (⟨now, shutdown, phase, s, step⟩ :: ts) step.1 := by
  have hidle (hstate : phase.state ≠ .leading) :
      .renew ∉ Turn.requests ⟨now, shutdown, phase, s, step⟩ := by
    have hturn : Turn.IsOf ⟨now, shutdown, phase, s, step⟩ id p := hcourse
    exact hturn.renew_notMem_requests hstate
  cases hcourse with
  | @win a token ticker hgrant hstart =>
      rw [Ticker.start?, if_pos hclock, Option.some.injEq] at hstart
      subst hstart
      have hheard : a.grant?.isSome = true := by rw [hgrant]; rfl
      refine .leads (.of_grant (t := ⟨now, false, .acquiring, .answered a, _⟩) hheard ts) ?_ ?_
      · rw [Nat.zero_add, Nat.one_mul]
      · exact (Nat.le_add_right now _).trans (Instant.le_ceilMillis _)
  | fail hgrant hstart =>
      rw [Ticker.start?, if_pos hclock] at hstart
      cases hstart
  | @renew reign ticker hdue =>
      cases htick with
      | rests hstate => exact absurd rfl hstate
      | @leads _ _ s n hrenewed hticker hnow =>
          obtain rfl := Nat.le_antisymm hdue hnow
          have hperiod : 1000000 ≤ ticker.period := hticker ▸ Ticker.le_periodOf p.renewal
          obtain ⟨hadvance, hlater⟩ := Ticker.advance_of_wake hperiod
          refine .renews (hrenewed.succ rfl (List.mem_singleton.mpr rfl) ?_) ?_ hlater
          · rw [hticker]
            rfl
          · rw [hadvance, hticker, Nat.succ_mul (n + 1), Nat.add_assoc]
  | keep hanswer =>
      cases htick with
      | rests hstate => exact absurd rfl hstate
      | renews hrenewed hticker hnow =>
          exact .leads (hrenewed.quiet rfl List.not_mem_nil) hticker hnow.le
  | miss hgrant =>
      refine htick.rest ?_ (hidle (by rintro ⟨⟩)) (by rintro ⟨⟩)
      exact hgrant
  | begin | first | again | cool | interrupt | rest | leave =>
      exact htick.rest rfl (hidle (by rintro ⟨⟩)) (by rintro ⟨⟩)
  | lose => exact htick.rest rfl (by simp [Turn.requests, Turn.actions]) (by rintro ⟨⟩)
  | @quit phase note hnote =>
      refine htick.rest ?_ (Turn.notMem_requests_of_notes rfl .renew) (by rintro ⟨⟩)
      cases phase <;> rfl

/-- So does time that passes between renewals, as long as no alarm is missed. -/
theorem pass (htick : OnTick period now ts phase)
    (hidles : Idles (fun phase => phase.isRenewing = false) now now' phase) :
    OnTick period now' ts phase := by
  cases htick with
  | leads hrenewed hticker => exact .leads hrenewed hticker (hidles.wakes _ rfl)
  | renews => cases hidles.lasts
  | rests hstate hrenewed => exact .rests hstate hrenewed

end OnTick

/-- In every life in which renewals are answered at once they are made on the tick. -/
theorem Life.onTick {id : ControllerId} {p : Policy} {now : Nat} {shutdown : Bool}
    {ts : List Turn} {phase : Phase}
    (life : Life (fun phase => phase.isRenewing = false) id p now shutdown ts phase)
    (hclock : now + Ticker.periodOf p.renewal < Instant.horizon) :
    OnTick (Ticker.periodOf p.renewal) now ts phase := by
  induction life with
  | begin => exact .rests (by rintro ⟨⟩) (by rintro s ⟨⟩)
  | turn past hdue hall => exact (hall hclock).of_course (course_of_due hdue id p) hclock
  | told past hall => exact hall hclock
  | pass past hidles hall =>
      have hlater := hidles.later
      exact (hall (by omega)).pass hidles

/-- Whether a turn ends a reign: it heard of a loss, or the shutdown had fired. -/
def Turn.isLast (t : Turn) : Bool := t.isLoss || t.shutdown

section Ends

variable {id : ControllerId} {p : Policy} {phase : Phase} {t : Turn} {ts : List Turn}

/-- A turn that ends a reign calls nobody, and nobody leads after it. -/
theorem Turn.IsOf.ends (hturn : t.IsOf id p) (hlast : t.isLast = true) :
    t.after.state ≠ .leading ∧ .renew ∉ t.requests := by
  obtain ⟨now, shutdown, before, signal, outcome⟩ := t
  change Course id p now shutdown before signal outcome at hturn
  cases shutdown with
  | true =>
      obtain ⟨notes, hnotes⟩ := hturn.exists_notes
      refine ⟨?_, notMem_requests_of_notes (t := ⟨now, true, before, signal, outcome⟩) hnotes _⟩
      cases hturn <;> rintro ⟨⟩
  | false =>
      rw [isLast, Bool.or_false] at hlast
      cases hturn with
      | lose => exact ⟨by rintro ⟨⟩, by simp [requests, actions]⟩
      | keep hanswer => simp [isLoss, hanswer] at hlast
      | _ => cases hlast

/-- Nobody leads on after the end of its reign. -/
theorem History.state_of_end (past : History id p ts phase) :
    ∀ t ∈ sinceGrant ts, t.isLast = true → phase.state ≠ .leading := by
  induction past with
  | begin => exact fun t ht => absurd ht List.not_mem_nil
  | @turn ts phase past now shutdown s hdue hlater hall =>
      have hturn : (Turn.take id p now shutdown phase s).IsOf id p := Turn.isOf_take hdue
      cases hgrant : (Turn.take id p now shutdown phase s).grant? with
      | some token =>
          rw [sinceGrant_of_grant (by rw [hgrant]; rfl)]
          exact fun t ht => absurd ht List.not_mem_nil
      | none =>
          rw [sinceGrant_of_none hgrant]
          refine List.forall_mem_cons.mpr ⟨fun hlast => (hturn.ends hlast).1, ?_⟩
          intro t ht hlast hleading
          exact hall t ht hlast (Turn.before_of_leading hturn hgrant hleading)

/-- There are no renewals after the end of a reign, until the next begins. -/
theorem History.pairwise_ends (past : History id p ts phase) :
    (sinceGrant ts).Pairwise fun later t => t.isLast = true → .renew ∉ later.requests := by
  induction past with
  | begin => exact List.Pairwise.nil
  | @turn ts phase past now shutdown s hdue hlater hall =>
      have hturn : (Turn.take id p now shutdown phase s).IsOf id p := Turn.isOf_take hdue
      cases hgrant : (Turn.take id p now shutdown phase s).grant? with
      | some token =>
          rw [sinceGrant_of_grant (by rw [hgrant]; rfl)]
          exact List.Pairwise.nil
      | none =>
          rw [sinceGrant_of_none hgrant]
          refine List.pairwise_cons.mpr ⟨fun t ht hlast => ?_, hall⟩
          exact hturn.renew_notMem_requests (past.state_of_end t ht hlast)

end Ends

end Controller

open Controller (sinceGrant renewalsDue Renewed)

namespace Cluster

variable {σ : Type} [LockService σ] {service : σ} {traced : Bool} {c : Cluster σ}
variable {h : Chronicle} {i : Nat} {m : Member}

/-- Where a service answers renewals at once, no time passes in a call to renew. -/
theorem Run.steady_of_answersAtOnce (hprompt : LockService.AnswersAtOnce σ .renew)
    (run : Run Virtual (empty service traced) h c) :
    Run (Steady fun phase => phase.isRenewing = false) (empty service traced) h c := by
  induction run with
  | start => exact .start
  | @step h e c c' run hstep hall =>
      cases hstep with
      | turn hm hgoes => exact hall.step (.turn hm hgoes)
      | enroll hphase hepisode hcall => exact hall.step (.enroll c hphase hepisode hcall)
      | dismiss i => exact hall.step (.dismiss c i)
      | world hvirtual =>
          refine hall.step (.world (hvirtual.steady fun hlater m hm => ?_))
          have hrests := (hvirtual.unhurried.waits hlater m hm).1
          obtain ⟨i, hi⟩ := List.mem_iff_getElem?.mp hm
          have hhears := run.hears hprompt (fun hw => ⟨hw.isOpen.now_le, hw.members_eq⟩) hi
          cases hphase : m.phase with
          | renewing =>
              rw [Member.signal?, hphase] at hrests
              rw [Member.Hears, hphase] at hhears
              exact absurd (Controller.call_eq_none_iff.mp hrests).2 (hhears rfl)
          | _ => rfl

/-- Where renewals are answered at once, whatever the answers: the renewals of a reign that began
at `s` are made one, two, three periods after `s` and so on, each at the next whole millisecond,
and while the reign goes on none is left out.  Once one is refused or the shutdown has fired
there are no more. -/
theorem renewals_as_due
    (run : Run (Steady fun phase => phase.isRenewing = false) (empty service traced) h c)
    (hm : c.members[i]? = some m) (hticker : c.Representable m) :
    let ts := h.turnsOf i
    let period := Ticker.periodOf m.policy.renewal
    (∀ s, lastGrant? ts = some s →
      ∃ n, callTimes .renew (sinceGrant ts) = renewalsDue s period n) ∧
    (m.state = .leading → ∃ s n, lastGrant? ts = some s ∧
      callTimes .renew (sinceGrant ts) = renewalsDue s period n ∧
      c.now ≤ Instant.ceilMillis (s + (n + 1) * period) ∧
      (m.signal? c.now = none → c.now < Instant.ceilMillis (s + (n + 1) * period))) ∧
    (∀ t ∈ ts, t.isLast = true → .renew ∉ t.requests) ∧
    (sinceGrant ts).Pairwise fun later t => t.isLast = true → .renew ∉ later.requests := by
  intro ts period
  have past := (run.mono fun hworld => hworld.toOpen).chronicled.past i m hm
  have htick := (run.life hm).onTick hticker
  refine ⟨fun s hs => ?_, fun hleading => ?_, fun t ht hlast => ?_, past.pairwise_ends⟩
  · obtain ⟨n, hrenewed⟩ := htick.renewed hs
    exact ⟨n, hrenewed.made⟩
  · rw [Member.state] at hleading
    rw [Member.signal?]
    generalize m.phase = phase at htick hleading ⊢
    cases htick with
    | leads hrenewed hticker hnow =>
        subst hticker
        exact ⟨_, _, hrenewed.grant, hrenewed.made, hnow,
          fun hrests => (Controller.wait_eq_none_iff.mp hrests).2⟩
    | renews hrenewed hticker hnow =>
        subst hticker
        exact ⟨_, _, hrenewed.grant, hrenewed.made, hnow.le, fun _ => hnow⟩
    | rests hstate => exact absurd hleading hstate
  · exact ((past.isOf_of_mem t ht).ends hlast).2

/-- A reign with a period of one and a half milliseconds is renewed after two, three and five;
the last of these renewals is refused. -/
theorem renewals_as_due_of_fraction :
    ∃ (h : Chronicle) (c : Cluster Script) (m : Member) (n : Nat),
      Run (Steady fun phase => phase.isRenewing = false)
        (empty ⟨[.answer .zero (.granted ⟨"lock-1"⟩)], [.answer .zero .done,
          .answer .zero .done, .answer .zero (.refused .expired)]⟩ false) h c ∧
      c.members = [m] ∧ m.policy.renewal.nanos = 1500000 ∧ m.state = .waiting ∧
      lastGrant? (h.turnsOf 0) = some 0 ∧
      callTimes .renew (sinceGrant (h.turnsOf 0)) = renewalsDue 0 1500000 n ∧
      renewalsDue 0 1500000 n = [5000000, 3000000, 2000000] := by
  let script : Script := ⟨[.answer .zero (.granted ⟨"lock-1"⟩)],
    [.answer .zero .done, .answer .zero .done, .answer .zero (.refused .expired)]⟩
  let m : Member :=
    { name := "first", id := ⟨"first"⟩, policy := ⟨.ofNanos 1500000, .ofMillis 4, .zero⟩,
      conduct := .prompt }
  let leader (phase : Phase) : Member := { m with phase, episode := some ⟨⟨"lock-1"⟩, 0, 0⟩ }
  let leads (deadline : Nat) : Member := leader (.leading ⟨⟨"lock-1"⟩, 0⟩ ⟨deadline, 1500000⟩)
  let renews (now deadline : Nat) (a : Answer) : Member :=
    { leader (.renewing ⟨⟨"lock-1"⟩, 0⟩ ⟨deadline, 1500000⟩) with
      call := some ⟨.renew, now, now, a⟩ }
  have enrolled : Run (Steady fun phase => phase.isRenewing = false) (empty script false) []
      ((empty script false).enroll m) := .step .start (.enroll _ rfl rfl rfl)
  have begun := enrolled.step (.turn (i := 0) (m := m) (s := .begun)
    (by decide) (.signalled (by decide)))
  have asked := begun.step (.turn (i := 0) (m := { m with phase := .starting 0 })
    (s := .elapsed) (by decide) (.signalled (by decide)))
  have granted := asked.step (.turn (i := 0)
    (m := { m with phase := .acquiring, call := some ⟨.acquire m.id, 0, 0, .granted ⟨"lock-1"⟩⟩ })
    (s := .answered (.granted ⟨"lock-1"⟩)) (by decide) (.signalled (by decide)))
  have due := granted.step (.world ((Virtual.pass _ 2000000
    (by decide) (by decide) (by decide) (by decide)).steady (by decide)))
  have renewing := due.step (.turn (i := 0) (m := leads 1500000)
    (s := .elapsed) (by decide) (.signalled (by decide)))
  have renewed := renewing.step (.turn (i := 0) (m := renews 2000000 3000000 .done)
    (s := .answered .done) (by decide) (.signalled (by decide)))
  have due₂ := renewed.step (.world ((Virtual.pass _ 3000000
    (by decide) (by decide) (by decide) (by decide)).steady (by decide)))
  have renewing₂ := due₂.step (.turn (i := 0) (m := leads 3000000)
    (s := .elapsed) (by decide) (.signalled (by decide)))
  have renewed₂ := renewing₂.step (.turn (i := 0) (m := renews 3000000 4500000 .done)
    (s := .answered .done) (by decide) (.signalled (by decide)))
  have due₃ := renewed₂.step (.world ((Virtual.pass _ 5000000
    (by decide) (by decide) (by decide) (by decide)).steady (by decide)))
  have renewing₃ := due₃.step (.turn (i := 0) (m := leads 4500000)
    (s := .elapsed) (by decide) (.signalled (by decide)))
  have lost := renewing₃.step (.turn (i := 0) (m := renews 5000000 6000000 (.refused .expired))
    (s := .answered (.refused .expired)) (by decide) (.signalled (by decide)))
  have hall := renewals_as_due (i := 0) (m := leader (.cooling 5000000)) lost (by decide)
    (by unfold Representable; decide)
  obtain ⟨n, hmade⟩ := hall.1 0 (by decide)
  exact ⟨_, _, leader (.cooling 5000000), n, lost, by decide, rfl, rfl, by decide, hmade,
    hmade.symm.trans (by decide)⟩

end Cluster

end LeaseElection
