import LeaseElection.Lock.Service

/-!
# Renewals counted

A lock double counts renewals.  The count is meant to say how often the lease was renewed since
it was last granted or released.  Giving the lease back and taking it away start the count
anew; a renewal that comes too late and the next grant do not.  So what is counted is the
renewals since the last release, and the two differ exactly when a lease that had been renewed
lapsed and was granted again.
-/

namespace LeaseElection

/-- What becomes of a lease. -/
inductive Fate where
  | granted
  | renewed
  | lapsed
  | released
deriving DecidableEq

/-- What a call and its answer say of the lease. -/
def Request.fate? : Request → Answer → Option Fate
  | .acquire _, .granted _ => some .granted
  | .renew, .done => some .renewed
  | .renew, .refused .expired => some .lapsed
  | .release, .done => some .released
  | _, _ => none

namespace LockDouble

/-- What may be done with a lock double and its clock. -/
inductive Operation where
  | call (r : Request)
  | forceRelease
  | failAcquires (n : Nat)
  | failRenewals (n : Nat)
  | advance (d : Span)
deriving DecidableEq

/-- A lock double in use. -/
structure Bench where
  double : LockDouble
  clock : ManualClock := {}
  /-- What became of the lease, latest first. -/
  fates : List Fate := []
deriving DecidableEq

namespace Bench

/-- A clock that cannot go on by so much stays where it is. -/
def perform (b : Bench) : Operation → Bench
  | .call r =>
      let (a, double) := b.double.call b.clock.now r
      { b with double, fates := (r.fate? a).toList ++ b.fates }
  | .forceRelease => { b with double := b.double.forceRelease, fates := .released :: b.fates }
  | .failAcquires n => { b with double := b.double.failAcquires n }
  | .failRenewals n => { b with double := b.double.failRenewals n }
  | .advance d => { b with clock := (b.clock.advance? d).getD b.clock }

/-- A new double after the operations, first one first. -/
def after (ttl : Span) (ops : List Operation) : Bench := ops.foldl perform { double := { ttl } }

/-- What became of the lease since it was last given back or taken away, latest first. -/
def sinceRelease (b : Bench) : List Fate := b.fates.takeWhile (· ≠ .released)

/-- What became of the lease since it was last granted or released, latest first. -/
def sinceGrant (b : Bench) : List Fate := b.sinceRelease.takeWhile (· ≠ .granted)

theorem sinceRelease_of_cons {b b' : Bench} {f : Fate} (hfates : b'.fates = f :: b.fates)
    (hf : f ≠ .released) : b'.sinceRelease = f :: b.sinceRelease := by
  rw [sinceRelease, hfates, List.takeWhile_cons, if_pos (decide_eq_true hf), sinceRelease]

end Bench

end LockDouble

/-- No renewal is left out by looking back to the last grant only, unless there is one before
that. -/
theorem Fate.count_renewed_takeWhile (s : List Fate) :
    (s.takeWhile (· ≠ .granted)).count .renewed ≤ s.count .renewed ∧
      (s.count .renewed = (s.takeWhile (· ≠ .granted)).count .renewed ↔
        ¬ [.granted, .renewed].Sublist s) := by
  induction s with
  | nil => simp
  | cons f s ih =>
      cases f with
      | granted => simp [List.count_eq_zero]
      | renewed | lapsed | released =>
          simpa [List.sublist_cons_iff] using ih

namespace LockDouble.Bench

/-- The double counts the renewals since the last release.  While the lock is free, what was
renewed has lapsed, and so has whatever was renewed before a grant. -/
structure Tallies (b : Bench) : Prop where
  renewals : b.double.renewals = b.sinceRelease.count .renewed
  free : b.double.holding = none → .renewed ∈ b.sinceRelease →
    [.lapsed, .renewed].Sublist b.sinceRelease
  regranted : [.granted, .renewed].Sublist b.sinceRelease →
    [.granted, .lapsed, .renewed].Sublist b.sinceRelease

namespace Tallies

variable {b b' : Bench}

theorem new (ttl : Span) : Tallies { double := { ttl } } where
  renewals := rfl
  free _ hmem := absurd hmem (List.not_mem_nil)
  regranted hsub := by cases hsub

/-- Where neither the count nor the holding changes, and nothing becomes of the lease. -/
theorem idle (htallies : b.Tallies) (hrenewals : b'.double.renewals = b.double.renewals)
    (hholding : b'.double.holding = b.double.holding) (hfates : b'.fates = b.fates) :
    b'.Tallies := by
  have hsince : b'.sinceRelease = b.sinceRelease := by rw [sinceRelease, hfates, sinceRelease]
  exact ⟨by rw [hrenewals, hsince, htallies.renewals],
    by rw [hholding, hsince]; exact htallies.free, by rw [hsince]; exact htallies.regranted⟩

theorem released (hrenewals : b'.double.renewals = 0)
    (hfates : b'.fates = .released :: b.fates) : b'.Tallies := by
  have hsince : b'.sinceRelease = [] := by rw [sinceRelease, hfates]; rfl
  refine ⟨by rw [hrenewals, hsince]; rfl, fun _ hmem => ?_, fun hsub => ?_⟩
  · rw [hsince] at hmem
    exact absurd hmem List.not_mem_nil
  · rw [hsince] at hsub
    cases hsub

theorem granted (htallies : b.Tallies) (hfree : b.double.holding = none)
    (hrenewals : b'.double.renewals = b.double.renewals) (hheld : b'.double.holding ≠ none)
    (hfates : b'.fates = .granted :: b.fates) : b'.Tallies := by
  have hsince := sinceRelease_of_cons hfates (by decide)
  refine ⟨?_, fun hnone => absurd hnone hheld, fun hsub => ?_⟩
  · rw [hrenewals, hsince, htallies.renewals, List.count_cons_of_ne (by decide)]
  · rw [hsince] at hsub ⊢
    have hrenewed : .renewed ∈ b.sinceRelease := by
      have hmem := hsub.subset (List.mem_cons_of_mem _ (List.mem_singleton_self _))
      simpa using hmem
    exact (htallies.free hfree hrenewed).cons_cons .granted

theorem renewed (htallies : b.Tallies) (hrenewals : b'.double.renewals = b.double.renewals + 1)
    (hheld : b'.double.holding ≠ none) (hfates : b'.fates = .renewed :: b.fates) :
    b'.Tallies := by
  have hsince := sinceRelease_of_cons hfates (by decide)
  refine ⟨?_, fun hnone => absurd hnone hheld, fun hsub => ?_⟩
  · rw [hrenewals, hsince, htallies.renewals, List.count_cons_self]
  · rw [hsince] at hsub ⊢
    cases hsub with
    | cons _ hsub => exact (htallies.regranted hsub).cons _

theorem lapsed (htallies : b.Tallies) (hrenewals : b'.double.renewals = b.double.renewals)
    (hfates : b'.fates = .lapsed :: b.fates) : b'.Tallies := by
  have hsince := sinceRelease_of_cons hfates (by decide)
  refine ⟨?_, fun _ hmem => ?_, fun hsub => ?_⟩
  · rw [hrenewals, hsince, htallies.renewals, List.count_cons_of_ne (by decide)]
  · rw [hsince] at hmem ⊢
    have hrenewed : .renewed ∈ b.sinceRelease := by simpa using hmem
    exact (List.singleton_sublist.mpr hrenewed).cons_cons .lapsed
  · rw [hsince] at hsub ⊢
    cases hsub with
    | cons _ hsub => exact (htallies.regranted hsub).cons _

theorem acquire (htallies : b.Tallies) (caller : ControllerId) :
    (b.perform (.call (.acquire caller))).Tallies := by
  simp only [Bench.perform, LockDouble.call, LockDouble.acquire, isLocked]
  cases b.double.failingAcquires with
  | succ n => exact htallies.idle rfl rfl rfl
  | zero =>
      cases hholding : b.double.holding with
      | none =>
          simp only [Option.isSome_none, Bool.false_eq_true, if_false]
          exact htallies.granted hholding rfl (by simp) rfl
      | some h =>
          simp only [Option.isSome_some, if_true]
          exact htallies.idle rfl hholding.symm rfl

theorem renew (htallies : b.Tallies) : (b.perform (.call .renew)).Tallies := by
  simp only [Bench.perform, LockDouble.call, LockDouble.renew]
  cases b.double.failingRenewals with
  | succ n => exact htallies.idle rfl rfl rfl
  | zero =>
      cases hholding : b.double.holding with
      | none => exact htallies.idle rfl rfl rfl
      | some h =>
          by_cases hlate : b.double.ttl.nanos < b.clock.now - h.2
          · simp only [hlate, if_true]
            exact htallies.lapsed rfl rfl
          · simp only [hlate, if_false]
            exact htallies.renewed rfl (by simp) rfl

theorem release (htallies : b.Tallies) : (b.perform (.call .release)).Tallies := by
  simp only [Bench.perform, LockDouble.call, LockDouble.release]
  cases b.double.isLocked with
  | false => exact htallies.idle rfl rfl rfl
  | true => exact released rfl rfl

theorem perform (htallies : b.Tallies) (op : Operation) : (b.perform op).Tallies := by
  cases op with
  | call r =>
      cases r with
      | acquire caller => exact htallies.acquire caller
      | renew => exact htallies.renew
      | release => exact htallies.release
  | forceRelease => exact released rfl rfl
  | failAcquires n | failRenewals n | advance d => exact htallies.idle rfl rfl rfl

theorem foldl_perform (htallies : b.Tallies) (ops : List Operation) :
    (ops.foldl Bench.perform b).Tallies := by
  induction ops generalizing b with
  | nil => exact htallies
  | cons op ops ih => exact ih (htallies.perform op)

end Tallies

theorem tallies_after (ttl : Span) (ops : List Operation) : (after ttl ops).Tallies :=
  (Tallies.new ttl).foldl_perform ops

/-- Whatever is done with a lock double, it counts the renewals since its lease was last given
back or taken away.  These are never fewer than those since the lease was last granted or
released, and they are as many unless a lease that had been renewed lapsed and was granted again
in between. -/
theorem renewals_after (ttl : Span) (ops : List Operation) :
    (after ttl ops).double.renewals = (after ttl ops).sinceRelease.count .renewed ∧
      (after ttl ops).sinceGrant.count .renewed ≤ (after ttl ops).double.renewals ∧
      ((after ttl ops).double.renewals = (after ttl ops).sinceGrant.count .renewed ↔
        ¬ [.granted, .lapsed, .renewed].Sublist (after ttl ops).sinceRelease) := by
  have htallies := tallies_after ttl ops
  obtain ⟨hle, heq⟩ := Fate.count_renewed_takeWhile (after ttl ops).sinceRelease
  refine ⟨htallies.renewals, htallies.renewals ▸ hle, ?_⟩
  rw [htallies.renewals]
  refine heq.trans (not_congr ⟨htallies.regranted, fun hsub => ?_⟩)
  exact List.Sublist.trans (by decide) hsub

/-- A lease that was renewed once lapses.  The next one is granted with one renewal to its
name. -/
theorem exists_renewals_of_past_grant :
    let b := after (.ofMillis 10) [.call (.acquire ⟨"a"⟩), .call .renew, .advance (.ofMillis 11),
      .call .renew, .call (.acquire ⟨"a"⟩)]
    b.fates = [.granted, .lapsed, .renewed, .granted] ∧ b.double.isLocked ∧
      b.sinceGrant.count .renewed = 0 ∧ b.double.renewals = 1 := by
  decide

end LockDouble.Bench

end LeaseElection
