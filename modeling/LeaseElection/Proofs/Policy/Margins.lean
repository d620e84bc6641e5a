import LeaseElection.Proofs.Binary64.Whole
import LeaseElection.Proofs.Policy

/-!
# Room around the lease

The check of a configuration is on its factors alone.  If they leave room for a nanosecond on
either side of the lease, no rounding takes that away: the periods lie around the lease, unless
it is so long that no word is longer.
-/

namespace LeaseElection

namespace Policy

variable {c : Config}

/-- A renewal factor that leaves a nanosecond keeps renewals below the lease. -/
theorem scale_renewal_lt (hvalid : c.validate = .ok ())
    (hmargin : ∀ x, c.renewalFactor.toRat? = some x → 1 ≤ c.lease.nanos * (1 - x)) :
    scale c.lease c.renewalFactor < c.lease := by
  obtain ⟨-, ⟨r, hfactor, -, hr⟩, -⟩ := Config.validate_eq_ok_iff.mp hvalid
  have hmax : c.lease.nanos ≤ 2 ^ 128 := c.lease.nanos_lt.le.trans (by decide)
  rw [hfactor] at hmargin ⊢
  have hroom := (Binary64.one_le_mul_one_sub_iff Binary64.unitsPerOne_pos).mp (hmargin _ rfl)
  rw [Span.lt_iff, nanos_scale]
  exact Binary64.toWord_mul_lt hmax hr hroom

/-- A wait factor that leaves a nanosecond keeps waits above a lease that some word exceeds. -/
theorem lt_scale_wait (hvalid : c.validate = .ok ())
    (hmargin : ∀ x, c.waitFactor.toRat? = some x → 1 ≤ c.lease.nanos * (x - 1))
    (hword : c.lease.nanos < UInt64.size - 1) : c.lease < scale c.lease c.waitFactor := by
  obtain ⟨hpos, -, hwait⟩ := Config.validate_eq_ok_iff.mp hvalid
  have hmax : c.lease.nanos ≤ 2 ^ 128 := c.lease.nanos_lt.le.trans (by decide)
  rw [Span.lt_iff, nanos_scale]
  rcases hwait with hfactor | ⟨r, hfactor, hr⟩
  · rw [hfactor, Binary64.toWord_mul_infinite hpos hmax]
    exact hword
  · rw [hfactor] at hmargin ⊢
    have hroom := (Binary64.one_le_mul_sub_one_iff Binary64.unitsPerOne_pos).mp (hmargin _ rfl)
    have hlarge := Binary64.min_succ_le_toWord_mul hmax hr hroom
    omega

/-- Where each factor moves the lease by a nanosecond at least, computed exactly, the periods
lie strictly around the lease as long as there is a word above it, and never around a longer
one.  An infinite wait factor leaves room around every lease. -/
theorem brackets_derive_iff (hvalid : c.validate = .ok ()) (words : WordStream)
    (hrenewal : ∀ x, c.renewalFactor.toRat? = some x → 1 ≤ c.lease.nanos * (1 - x))
    (hwait : ∀ x, c.waitFactor.toRat? = some x → 1 ≤ c.lease.nanos * (x - 1)) :
    (derive c words).1.brackets c.lease = true ↔ c.lease.nanos ≤ 2 ^ 64 - 2 := by
  have hpolicy : (derive c words).1.brackets c.lease = true ↔
      scale c.lease c.renewalFactor < c.lease ∧ c.lease < scale c.lease c.waitFactor := by
    rw [brackets, Bool.and_eq_true, decide_eq_true_iff, decide_eq_true_iff]
    rfl
  rw [hpolicy]
  constructor
  · rintro ⟨-, hlonger⟩
    have hword := Binary64.toWord_lt ((Binary64.ofNat c.lease.nanos).mul c.waitFactor)
    rw [Span.lt_iff, nanos_scale] at hlonger
    unfold UInt64.size at hword
    omega
  · intro hword
    exact ⟨scale_renewal_lt hvalid hrenewal,
      lt_scale_wait hvalid hwait (Nat.lt_of_le_of_lt hword (by decide))⟩

/-- With the factors next to one, on either side, the periods lie around the second longest
lease of a word and not around the longest one. -/
theorem brackets_derive_iff_of_longest :
    ∃ (c : Config) (r w : Fin Binary64.ranks) (words : WordStream),
      c.renewalFactor = .finite false r ∧ r.val + 1 = Binary64.rankOne ∧
        c.waitFactor = .finite false w ∧ w.val = Binary64.rankOne + 1 ∧
        c.lease = .ofNanos 18446744073709551614 ∧ c.validate = .ok () ∧
        (derive c words).1.brackets c.lease = true ∧
        (derive { c with lease := .ofNanos 18446744073709551615 } words).1.brackets
          (.ofNanos 18446744073709551615) = false := by
  let r : Fin Binary64.ranks := ⟨Binary64.rankOne - 1, by decide⟩
  let w : Fin Binary64.ranks := ⟨Binary64.rankOne + 1, by decide⟩
  let c (nanos : UInt64) : Config :=
    { lease := .ofNanos nanos, renewalFactor := .finite false r, waitFactor := .finite false w }
  have hone := Binary64.unitsPerOne_pos
  have hiff (nanos : UInt64) (hvalid : (c nanos).validate = .ok ())
      (hrenewal : nanos.toNat * Binary64.units r + Binary64.unitsPerOne ≤
        nanos.toNat * Binary64.unitsPerOne)
      (hwait : nanos.toNat * Binary64.unitsPerOne + Binary64.unitsPerOne ≤
        nanos.toNat * Binary64.units w) :
      (derive (c nanos) fun _ => 0).1.brackets (.ofNanos nanos) = true ↔
        nanos.toNat ≤ 2 ^ 64 - 2 := by
    apply brackets_derive_iff hvalid
    · rintro _ ⟨⟩
      exact (Binary64.one_le_mul_one_sub_iff hone).mpr hrenewal
    · rintro _ ⟨⟩
      exact (Binary64.one_le_mul_sub_one_iff hone).mpr hwait
  have hsecond := hiff 18446744073709551614 (by decide +kernel) (by decide +kernel)
    (by decide +kernel)
  have hlongest := hiff 18446744073709551615 (by decide +kernel) (by decide +kernel)
    (by decide +kernel)
  refine ⟨c 18446744073709551614, r, w, fun _ => 0, rfl, by decide, rfl, rfl, rfl,
    by decide +kernel, hsecond.mpr (by decide), Bool.eq_false_iff.mpr fun haround => ?_⟩
  exact absurd (hlongest.mp haround) (by decide)

end Policy

end LeaseElection
