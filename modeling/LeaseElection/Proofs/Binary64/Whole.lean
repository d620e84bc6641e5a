import LeaseElection.Proofs.Binary64.Rounding
import Mathlib.Algebra.Order.Field.Basic
import Mathlib.Algebra.Order.Ring.Rat
import Mathlib.Data.Nat.ModEq
import Mathlib.Tactic.FieldSimp

/-!
# Whole numbers

From `2 ^ 52` on all numbers are whole, and up to `2 ^ 53` all whole numbers are numbers.
A whole number times a factor that takes it down by one at least, with both roundings, comes
out lower by one at least, and one that takes it up by one at least comes out higher by one:
below `2 ^ 53` because the first rounding and the limits are exact, and above because the
neighbours of a rounded number lie on either side of what was rounded.
-/

namespace LeaseElection

namespace Binary64

/-- The exact value of a number; what is infinite or no number has none. -/
def toRat? : Binary64 → Option ℚ
  | .finite false r => some (units r / unitsPerOne)
  | .finite true r => some (-(units r / unitsPerOne))
  | _ => none

section Margins

variable {n u d : Nat}

/-- To take one away at least, in natural numbers. -/
theorem one_le_mul_one_sub_iff (hd : 0 < d) :
    (1 : ℚ) ≤ n * (1 - u / d) ↔ n * u + d ≤ n * d := by
  have hpos : (0 : ℚ) < d := Nat.cast_pos.mpr hd
  have hexact : (n : ℚ) * (1 - u / d) = (n * d - n * u) / d := by
    field_simp
  rw [hexact, one_le_div hpos, le_sub_iff_add_le, add_comm]
  norm_cast

/-- To add one at least, in natural numbers. -/
theorem one_le_mul_sub_one_iff (hd : 0 < d) :
    (1 : ℚ) ≤ n * (u / d - 1) ↔ n * d + d ≤ n * u := by
  have hpos : (0 : ℚ) < d := Nat.cast_pos.mpr hd
  have hexact : (n : ℚ) * (u / d - 1) = (n * u - n * d) / d := by
    field_simp
  rw [hexact, one_le_div hpos, le_sub_iff_add_le, add_comm]
  norm_cast

end Margins

section Whole

variable {n r s : Nat}

/-- Where `2 ^ 52` stands among the ranks. -/
abbrev rankWhole : Nat := rankOne + 52 * stretch

theorem gap_rankWhole : gap rankWhole = unitsPerOne := by decide +kernel

theorem gap_dvd_gap (hle : r ≤ s) : gap r ∣ gap s :=
  Nat.pow_dvd_pow 2 (Nat.sub_le_sub_right (Nat.div_le_div_right hle) 1)

/-- From `2 ^ 52` on all numbers are whole. -/
theorem unitsPerOne_dvd_units (hr : rankWhole ≤ r) : unitsPerOne ∣ units r := by
  have hfull : stretch ≤ r := Nat.le_trans (by decide) hr
  rw [units_of_le hfull, ← gap_rankWhole]
  exact Dvd.dvd.mul_left (gap_dvd_gap hr) _

/-- Up to `2 ^ 53` all whole numbers are numbers. -/
theorem exists_units_eq (hn : n ≤ 2 * stretch) : ∃ r, units r = n * unitsPerOne := by
  rcases n with - | - | n
  · exact ⟨0, (Nat.zero_mul unitsPerOne).symm⟩
  · exact ⟨rankOne, by rw [Nat.zero_add, Nat.one_mul, units_rankOne]⟩
  · -- One less gives the right stretch for a power of two as well, at its end.
    have hlow := Nat.log2_self_le (Nat.succ_ne_zero n)
    have hhigh := Nat.lt_log2_self (n := n + 1)
    have hexp : (n + 1).log2 ≤ 52 := by
      apply Nat.le_of_lt_succ
      rw [Nat.log2_lt (Nat.succ_ne_zero n)]
      exact hn
    generalize (n + 1).log2 = e at *
    have hpow : 2 ^ e * 2 ^ (52 - e) = stretch := by
      rw [← Nat.pow_add, Nat.add_sub_cancel' hexp]
    have hstart : stretch ≤ (n + 2) * 2 ^ (52 - e) := by
      rw [← hpow]
      exact Nat.mul_le_mul_right _ (Nat.le_succ_of_le hlow)
    have hend : (n + 2) * 2 ^ (52 - e) ≤ 2 * stretch := by
      rw [← hpow, ← Nat.mul_assoc, ← Nat.pow_succ']
      exact Nat.mul_le_mul_right _ hhigh
    obtain ⟨k, hk⟩ : ∃ k, gap rankOne = 2 ^ k := ⟨_, rfl⟩
    refine ⟨(n + 2) * 2 ^ (52 - e) + (k + e) * stretch, ?_⟩
    rw [units_stride (Or.inr hstart) hend, unitsPerOne_eq, hk, ← hpow]
    ring

theorem le_nearestRank_of_le {num den : Nat} (hden : 0 < den) (hle : den * units r ≤ num) :
    r ≤ nearestRank num den := by
  calc
    r = nearestRank (den * units r) den := (nearestRank_units hden r).symm
    _ ≤ nearestRank num den := nearestRank_mono hden hden (Nat.mul_le_mul_right den hle)

/-- Such whole numbers are not rounded. -/
theorem units_nearestRank_whole (hn : n ≤ 2 * stretch) :
    units (nearestRank (n * unitsPerOne) 1) = n * unitsPerOne := by
  obtain ⟨r, hr⟩ := exists_units_eq hn
  rw [← hr, ← Nat.one_mul (units r), nearestRank_units Nat.one_pos, Nat.one_mul]

theorem units_rankWhole_add : units (rankWhole + stretch) = 2 * stretch * unitsPerOne := by
  decide +kernel

/-- What lies at `2 ^ 53` or above is not rounded below it. -/
theorem rankWhole_add_le_nearestRank (hn : 2 * stretch ≤ n) :
    rankWhole + stretch ≤ nearestRank (n * unitsPerOne) 1 := by
  apply le_nearestRank_of_le Nat.one_pos
  rw [Nat.one_mul, units_rankWhole_add]
  exact Nat.mul_le_mul_right _ hn

/-- Of two whole numbers the larger one is larger by one at least. -/
theorem add_unitsPerOne_le {a b : Nat} (ha : unitsPerOne ∣ a) (hb : unitsPerOne ∣ b)
    (hlt : a < b) : a + unitsPerOne ≤ b := by
  have hmod : a ≡ b [MOD unitsPerOne] :=
    (Nat.modEq_zero_iff_dvd.mpr ha).trans (Nat.modEq_zero_iff_dvd.mpr hb).symm
  exact hmod.add_le_of_lt hlt

end Whole

section Products

variable {n r : Nat}

/-- Nothing can be taken from zero. -/
theorem pos_of_margin {u : Nat} (hmargin : n * u + unitsPerOne ≤ n * unitsPerOne) : 0 < n := by
  apply Nat.pos_of_ne_zero
  rintro rfl
  have hpos := unitsPerOne_pos
  omega

/-- A factor that takes a whole number down by one at least does so with both roundings. -/
theorem units_nearestRank_mul_add_le (hr : r < rankOne)
    (hmargin : n * units r + unitsPerOne ≤ n * unitsPerOne) :
    units (nearestRank (units (nearestRank (n * unitsPerOne) 1) * units r) unitsPerOne) +
      unitsPerOne ≤ n * unitsPerOne := by
  rcases Nat.lt_or_ge n (2 * stretch) with hsmall | hlarge
  · obtain ⟨m, rfl⟩ : ∃ m, n = m + 1 := Nat.exists_eq_add_of_le' (pos_of_margin hmargin)
    obtain ⟨s, hs⟩ := exists_units_eq (Nat.le_of_succ_le hsmall.le)
    have hproduct : (m + 1) * unitsPerOne * units r ≤ unitsPerOne * units s := by
      have hfewer : (m + 1) * units r ≤ m * unitsPerOne := by
        rw [Nat.add_one_mul m unitsPerOne] at hmargin
        omega
      calc
        (m + 1) * unitsPerOne * units r = unitsPerOne * ((m + 1) * units r) := by ring
        _ ≤ unitsPerOne * units s := Nat.mul_le_mul_left _ (hfewer.trans_eq hs.symm)
    rw [units_nearestRank_whole hsmall.le, Nat.add_one_mul m unitsPerOne, ← hs,
      Nat.add_le_add_iff_right, units_strictMono.le_iff_le, hs, ← Nat.add_one_mul]
    exact nearestRank_le_of_le unitsPerOne_pos hproduct
  · have hrank := rankWhole_add_le_nearestRank hlarge
    obtain ⟨f, hf⟩ : ∃ f, nearestRank (n * unitsPerOne) 1 = f + 1 :=
      Nat.exists_eq_add_of_le' (Nat.le_trans (by decide) hrank)
    have hwhole : rankWhole ≤ f := by
      have hstep : 1 ≤ stretch := by decide
      omega
    have hbefore : units f < n * unitsPerOne := by
      rw [← Nat.one_mul (units f)]
      exact units_lt_of_lt_nearestRank Nat.one_pos (hf ▸ Nat.lt_add_one f)
    rw [hf]
    calc
      units (nearestRank (units (f + 1) * units r) unitsPerOne) + unitsPerOne
          ≤ units f + unitsPerOne :=
        Nat.add_le_add_right (units_strictMono.monotone
          (nearestRank_mul_le (Nat.le_trans (by decide) hwhole) hr)) _
      _ ≤ n * unitsPerOne :=
        add_unitsPerOne_le (unitsPerOne_dvd_units hwhole) (Nat.dvd_mul_left _ _) hbefore

/-- A factor that takes a whole number up by one at least does so with both roundings. -/
theorem add_le_units_nearestRank_mul (hr : rankOne < r)
    (hmargin : n * unitsPerOne + unitsPerOne ≤ n * units r) :
    n * unitsPerOne + unitsPerOne ≤
      units (nearestRank (units (nearestRank (n * unitsPerOne) 1) * units r) unitsPerOne) := by
  rcases Nat.lt_or_ge n (2 * stretch) with hsmall | hlarge
  · obtain ⟨s, hs⟩ := exists_units_eq (Nat.succ_le_of_lt hsmall)
    rw [Nat.add_one_mul] at hs
    have hproduct : unitsPerOne * units s ≤ n * unitsPerOne * units r := by
      calc
        unitsPerOne * units s ≤ unitsPerOne * (n * units r) :=
          Nat.mul_le_mul_left _ (hs.trans_le hmargin)
        _ = n * unitsPerOne * units r := by ring
    rw [units_nearestRank_whole hsmall.le, ← hs, units_strictMono.le_iff_le]
    exact le_nearestRank_of_le unitsPerOne_pos hproduct
  · have hrank := rankWhole_add_le_nearestRank hlarge
    have hnearest := (nearestRank_le_iff Nat.one_pos).mp
      (Nat.le_refl (nearestRank (n * unitsPerOne) 1))
    generalize nearestRank (n * unitsPerOne) 1 = f at *
    have hwhole : rankWhole ≤ f + 1 := by omega
    have hnext : units f < units (f + 1) := units_strictMono (Nat.lt_succ_self f)
    have hbelow : n * unitsPerOne < units (f + 1) := by omega
    calc
      n * unitsPerOne + unitsPerOne ≤ units (f + 1) :=
        add_unitsPerOne_le (Nat.dvd_mul_left _ _) (unitsPerOne_dvd_units hwhole) hbelow
      _ ≤ units (nearestRank (units f * units r) unitsPerOne) :=
        units_strictMono.monotone
          (Nat.succ_le_of_lt (lt_nearestRank_mul (Nat.le_trans (by decide) hrank) hr))

end Products

section Words

variable {n : Nat} {r : Fin ranks}

/-- So the word that is made of the product is smaller. -/
theorem toWord_mul_lt (hmax : n ≤ 2 ^ 128) (hr : r.val < rankOne)
    (hmargin : n * units r + unitsPerOne ≤ n * unitsPerOne) :
    ((ofNat n).mul (.finite false r)).toWord < n := by
  obtain ⟨_, hofNat⟩ := ofNat_eq hmax
  have hunits := units_nearestRank_mul_add_le hr hmargin
  obtain ⟨m, rfl⟩ : ∃ m, n = m + 1 := Nat.exists_eq_add_of_le' (pos_of_margin hmargin)
  have hfinite : nearestRank (units (nearestRank ((m + 1) * unitsPerOne) 1) * units r)
      unitsPerOne < ranks := by
    refine Nat.lt_of_le_pred (by decide) (units_strictMono.le_iff_le.mp ?_)
    exact (Nat.le_of_add_right_le hunits).trans (mul_unitsPerOne_le hmax)
  rw [Nat.add_one_mul, Nat.add_le_add_iff_right, ← Nat.add_one_mul] at hunits
  rw [hofNat, mul, nearest, ofRank, dif_pos hfinite]
  exact Nat.lt_succ_of_le (toWord_le hunits)

/-- And this one is larger, as far as words go. -/
theorem min_succ_le_toWord_mul (hmax : n ≤ 2 ^ 128) (hr : rankOne < r.val)
    (hmargin : n * unitsPerOne + unitsPerOne ≤ n * units r) :
    min (n + 1) (UInt64.size - 1) ≤ ((ofNat n).mul (.finite false r)).toWord := by
  obtain ⟨_, hofNat⟩ := ofNat_eq hmax
  have hunits := add_le_units_nearestRank_mul hr hmargin
  rw [← Nat.add_one_mul] at hunits
  rw [hofNat, mul, nearest, ofRank]
  split
  · exact le_toWord hunits
  · exact Nat.min_le_right _ _

end Words

end Binary64

end LeaseElection
