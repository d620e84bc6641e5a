import LeaseElection.Policy
import LeaseElection.Proofs.Binary64.Rounding

/-!
# The pace of a usable configuration

Which configurations are usable, and what their pace is.  However close its factor is to
one and however long the lease, renewals never come later than the lease ends; and attempts
to acquire never come earlier, as long as a word counts the lease.
-/

namespace LeaseElection

namespace Config

open Binary64 (rankOne)

theorem zero_eq : Binary64.zero = .finite false ⟨0, by decide⟩ := by decide +kernel

theorem le_finite {r s : Fin Binary64.ranks} :
    (Binary64.finite false r).le (.finite false s) = decide (r.val ≤ s.val) := by
  simp [Binary64.le, Binary64.place?]

/-- Renewal factors lie strictly between zero and one. -/
theorem renewalFactor_usable_iff {x : Binary64} :
    (x.isNan || x.le .zero || Binary64.one.le x) = false ↔
      ∃ r : Fin Binary64.ranks, x = .finite false r ∧ 0 < r.val ∧ r.val < rankOne := by
  rw [zero_eq, Binary64.one_eq]
  cases x with
  | nan negative => simp [Binary64.isNan]
  | infinite negative => cases negative <;> simp [Binary64.isNan, Binary64.le, Binary64.place?]
  | finite negative r =>
      cases negative with
      | true => simp [Binary64.isNan, Binary64.le, Binary64.place?]
      | false =>
          rw [le_finite, le_finite, Bool.or_eq_false_iff, Bool.or_eq_false_iff,
            decide_eq_false_iff_not, decide_eq_false_iff_not, Nat.not_le, Nat.not_le]
          constructor
          · rintro ⟨⟨-, hpos⟩, hlt⟩
            exact ⟨r, rfl, hpos, hlt⟩
          · rintro ⟨_, ⟨⟩, hpos, hlt⟩
            exact ⟨⟨rfl, hpos⟩, hlt⟩

/-- Wait factors lie above one, and may be infinite. -/
theorem waitFactor_usable_iff {x : Binary64} :
    (x.isNan || x.le .one) = false ↔
      x = .infinite false ∨
        ∃ r : Fin Binary64.ranks, x = .finite false r ∧ rankOne < r.val := by
  rw [Binary64.one_eq]
  cases x with
  | nan negative => simp [Binary64.isNan]
  | infinite negative => cases negative <;> simp [Binary64.isNan, Binary64.le, Binary64.place?]
  | finite negative r =>
      cases negative with
      | true => simp [Binary64.isNan, Binary64.le, Binary64.place?]
      | false =>
          rw [le_finite, Bool.or_eq_false_iff, decide_eq_false_iff_not, Nat.not_le]
          constructor
          · rintro ⟨-, hlt⟩
            exact Or.inr ⟨r, rfl, hlt⟩
          · rintro (⟨⟨⟩⟩ | ⟨_, ⟨⟩, hlt⟩)
            exact ⟨rfl, hlt⟩

/-- A configuration is usable if it has a lease and both factors are. -/
theorem validate_eq_ok_iff {c : Config} :
    c.validate = .ok () ↔
      0 < c.lease.nanos ∧
        (∃ r : Fin Binary64.ranks,
          c.renewalFactor = .finite false r ∧ 0 < r.val ∧ r.val < rankOne) ∧
        (c.waitFactor = .infinite false ∨
          ∃ r : Fin Binary64.ranks, c.waitFactor = .finite false r ∧ rankOne < r.val) := by
  rw [← renewalFactor_usable_iff, ← waitFactor_usable_iff, validate]
  have hlease : c.lease.isZero = false ↔ 0 < c.lease.nanos := by
    simp [Span.isZero, Nat.pos_iff_ne_zero]
  rw [← hlease]
  cases c.lease.isZero with
  | true => simp
  | false =>
      cases c.renewalFactor.isNan || c.renewalFactor.le .zero ||
          Binary64.one.le c.renewalFactor with
      | true => simp
      | false => cases c.waitFactor.isNan || c.waitFactor.le .one <;> simp

end Config

namespace Policy

variable {c : Config} {entropy : WordStream} {p : Policy}

@[simp]
theorem nanos_scale (s : Span) (factor : Binary64) :
    (scale s factor).nanos = ((Binary64.ofNat s.nanos).mul factor).toWord := by
  rw [scale, Span.nanos_ofNanos]
  exact UInt64.toNat_ofNat_of_lt' (Binary64.toWord_lt _)

/-- Only a usable configuration sets a pace, and its spans do not depend on chance. -/
theorem ofConfig_eq_ok (h : ofConfig c entropy = .ok p) :
    c.validate = .ok () ∧ p.renewal = scale c.lease c.renewalFactor ∧
      p.wait = scale c.lease c.waitFactor := by
  rw [ofConfig] at h
  cases hvalid : c.validate with
  | error flaw =>
      rw [hvalid] at h
      cases h
  | ok =>
      rw [hvalid] at h
      cases h
      exact ⟨rfl, rfl, rfl⟩

/-- Renewals never come later than the lease ends. -/
theorem renewal_le_lease (h : ofConfig c entropy = .ok p) : p.renewal ≤ c.lease := by
  obtain ⟨hvalid, hrenewal, -⟩ := ofConfig_eq_ok h
  obtain ⟨hlease, ⟨r, hfactor, -, hr⟩, -⟩ := Config.validate_eq_ok_iff.mp hvalid
  have hmax : c.lease.nanos ≤ 2 ^ 128 := c.lease.nanos_lt.le.trans (by decide)
  rw [Span.le_iff, hrenewal, hfactor, nanos_scale]
  exact Binary64.toWord_mul_le hlease hmax hr

/-- Attempts to acquire never come before the lease ends, unless that is longer than a word
counts. -/
theorem lease_le_wait_iff (h : ofConfig c entropy = .ok p) :
    c.lease ≤ p.wait ↔ c.lease.nanos < UInt64.size := by
  obtain ⟨hvalid, -, hwait⟩ := ofConfig_eq_ok h
  obtain ⟨hlease, -, hfactor⟩ := Config.validate_eq_ok_iff.mp hvalid
  have hmax : c.lease.nanos ≤ 2 ^ 128 := c.lease.nanos_lt.le.trans (by decide)
  have hword : ((Binary64.ofNat c.lease.nanos).mul c.waitFactor).toWord < UInt64.size :=
    Binary64.toWord_lt _
  have hlarge : min c.lease.nanos (UInt64.size - 1) ≤
      ((Binary64.ofNat c.lease.nanos).mul c.waitFactor).toWord := by
    rcases hfactor with hfactor | ⟨r, hfactor, hr⟩
    · rw [hfactor, Binary64.toWord_mul_infinite hlease hmax]
      exact Nat.min_le_right _ _
    · rw [hfactor]
      exact Binary64.le_toWord_mul hlease hmax hr
  rw [Span.le_iff, hwait, nanos_scale]
  omega

/-- The check of the factors is enough for the order of the periods, but not for a strict one:
renewals never come after the end of the lease and, if a word counts its nanoseconds, attempts
to acquire never before it.  The periods lie strictly around such a lease exactly if none of
them is rounded to it, and never around a longer one. -/
theorem periods_around_lease (h : ofConfig c entropy = .ok p) :
    p.renewal ≤ c.lease ∧ (c.lease ≤ p.wait ↔ c.lease.nanos < UInt64.size) ∧
      (p.brackets c.lease = true ↔
        p.renewal ≠ c.lease ∧ p.wait ≠ c.lease ∧ c.lease.nanos < UInt64.size) := by
  have hrenewal := renewal_le_lease h
  have hwait := lease_le_wait_iff h
  have heq {s t : Span} : s = t ↔ s.nanos = t.nanos := ⟨congrArg Span.nanos, Span.ext⟩
  refine ⟨hrenewal, hwait, ?_⟩
  rw [← hwait, brackets, Bool.and_eq_true, decide_eq_true_eq, decide_eq_true_eq, Span.lt_iff,
    Span.lt_iff, Span.le_iff, Ne, Ne, heq, heq]
  rw [Span.le_iff] at hrenewal
  omega

/-- Around ten milliseconds lie seven and eleven. -/
theorem periods_around_lease_of_usual :
    ∃ (c : Config) (entropy : WordStream) (p : Policy),
      c = { lease := .ofMillis 10, maxJitter := .zero } ∧ ofConfig c entropy = .ok p ∧
        p = ⟨.ofMillis 7, .ofMillis 11, .zero⟩ ∧ p.brackets c.lease = true := by
  let c : Config := { lease := .ofMillis 10, maxJitter := .zero }
  have hpolicy : ofConfig c (fun _ => 0) = .ok ⟨.ofMillis 7, .ofMillis 11, .zero⟩ := by
    decide +kernel
  have haround := periods_around_lease hpolicy
  exact ⟨c, _, _, rfl, hpolicy, rfl, haround.2.2.mpr (by decide)⟩

/-- Usable configurations whose periods do not lie around the lease: one nanosecond, where both
are as long as the lease; one second with a factor very close to one, where renewals come when
the lease ends; and a lease of more than five hundred years, where attempts to acquire come
before it ends. -/
theorem exists_unbracketed :
    ∃ (short close long : Config) (p q r : Policy) (entropy : WordStream),
      short = { lease := .ofNanos 1, maxJitter := .zero } ∧
      close = { lease := .ofMillis 1000, renewalFactor := .ofDecimal false 9999999999 (-10),
                maxJitter := .zero } ∧
      long = { lease := .ofMillis 20000000000000, maxJitter := .zero } ∧
      ofConfig short entropy = .ok p ∧ p.brackets short.lease = false ∧
      ofConfig close entropy = .ok q ∧ q.brackets close.lease = false ∧
      ofConfig long entropy = .ok r ∧ r.brackets long.lease = false :=
  ⟨_, _, _, ⟨.ofNanos 1, .ofNanos 1, .zero⟩, ⟨.ofMillis 1000, .ofMillis 1100, .zero⟩,
    ⟨.ofNanos 14000000000000000000, .ofNanos 18446744073709551615, .zero⟩, fun _ => 0,
    rfl, rfl, rfl, by decide +kernel, by decide, by decide +kernel, by decide,
    by decide +kernel, by decide⟩

end Policy

end LeaseElection
