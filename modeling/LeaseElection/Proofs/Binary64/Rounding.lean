import LeaseElection.Binary64.Rounding
import Mathlib.Order.Monotone.Basic
import Mathlib.Tactic.Ring

/-!
# Nearest numbers

Magnitudes grow with their ranks, and the rank nearest to a magnitude is at most `r` if
the magnitude lies below the middle between those of `r` and its successor, or on it with
`r` even.  That rounding keeps the order, is exact on numbers, and that a product with a
factor below one comes out smaller, and one with a factor above one larger, are consequences.
-/

namespace LeaseElection

namespace Binary64

section Magnitudes

variable {r a k : Nat}

/-- How far the number of rank `r` is from the next one. -/
def gap (r : Nat) : Nat := 2 ^ (r / stretch - 1)

/-- Every rank but those of the first stretch lies on some stretch. -/
theorem exists_stride (h : stretch ≤ r) :
    ∃ k a, stretch ≤ a ∧ a < 2 * stretch ∧ r = a + k * stretch := by
  refine ⟨r / stretch - 1, stretch + r % stretch, ?_⟩
  unfold stretch at *
  omega

/-- The place of a rank on its stretch, and the number of the stretch. -/
theorem stride_divMod (hstart : stretch ≤ a) (hend : a < 2 * stretch) (k : Nat) :
    stretch + (a + k * stretch) % stretch = a ∧ (a + k * stretch) / stretch - 1 = k := by
  unfold stretch at *
  omega

theorem units_of_le (h : stretch ≤ r) : units r = (stretch + r % stretch) * gap r := by
  by_cases hsmall : r < 2 * stretch
  · obtain ⟨hmod, hdiv⟩ := stride_divMod h hsmall 0
    rw [Nat.zero_mul, Nat.add_zero] at hmod hdiv
    rw [units_of_lt hsmall, gap, hmod, hdiv, Nat.pow_zero, Nat.mul_one]
  · rw [units, if_neg hsmall, gap, Nat.pow_eq]

theorem gap_of_lt (h : r < 2 * stretch) : gap r = 1 := by
  have hexp : r / stretch - 1 = 0 := by
    unfold stretch at *
    omega
  rw [gap, hexp, Nat.pow_zero]

theorem gap_stride (hstart : stretch ≤ a) (hend : a < 2 * stretch) (k : Nat) :
    gap (a + k * stretch) = 2 ^ k := by
  rw [gap, (stride_divMod hstart hend k).2]

/-- Along one stretch, or along the first two, the steps are equally long. -/
theorem units_stride (hstart : k = 0 ∨ stretch ≤ a) (hend : a ≤ 2 * stretch) :
    units (a + k * stretch) = a * 2 ^ k := by
  rcases hend.eq_or_lt with rfl | hlt
  · -- The end of a stretch is the start of the next.
    have hnext : 2 * stretch + k * stretch = stretch + (k + 1) * stretch := by ring
    have hstart' : stretch < 2 * stretch := by decide
    rw [hnext, units_of_le (Nat.le_add_right _ _), (stride_divMod (Nat.le_refl _) hstart' _).1,
      gap_stride (Nat.le_refl _) hstart']
    ring
  · rcases hstart with rfl | hstart
    · rw [Nat.zero_mul, Nat.add_zero, units_of_lt hlt, Nat.pow_zero, Nat.mul_one]
    · rw [units_of_le (Nat.le_add_right_of_le hstart), (stride_divMod hstart hlt k).1,
        gap_stride hstart hlt]

theorem units_succ (r : Nat) : units (r + 1) = units r + gap r := by
  rcases Nat.lt_or_ge r stretch with hsmall | hlarge
  · have hsucc : r + 1 < 2 * stretch := by
      unfold stretch at *
      omega
    rw [gap_of_lt (Nat.lt_of_succ_lt hsucc), units_of_lt hsucc,
      units_of_lt (Nat.lt_of_succ_lt hsucc)]
  · obtain ⟨k, a, hstart, hend, rfl⟩ := exists_stride hlarge
    rw [Nat.add_right_comm, units_stride (Or.inr (Nat.le_succ_of_le hstart)) hend,
      units_stride (Or.inr hstart) hend.le, gap_stride hstart hend, Nat.succ_mul]

theorem gap_pos (r : Nat) : 0 < gap r := Nat.two_pow_pos _

theorem units_strictMono : StrictMono units := by
  refine strictMono_nat_of_lt_succ fun r => ?_
  rw [units_succ]
  exact Nat.lt_add_of_pos_right (gap_pos r)

/-- Neighbours are close to each other, compared with how large they are. -/
theorem stretch_mul_gap_le (h : stretch ≤ r) : stretch * gap r ≤ units r := by
  rw [units_of_le h]
  exact Nat.mul_le_mul_right _ (Nat.le_add_right _ _)

end Magnitudes

section Rounding

variable {num den num' den' a r s : Nat}

theorem roundHalfEven_le_iff (hden : 0 < den) :
    roundHalfEven num den ≤ a ↔
      2 * num < den * (2 * a + 1) ∨ 2 * num = den * (2 * a + 1) ∧ 2 ∣ a := by
  have hnum : den * (num / den) + num % den = num := Nat.div_add_mod num den
  have hrest : num % den < den := Nat.mod_lt num hden
  unfold roundHalfEven
  generalize num / den = q at *
  generalize num % den = rest at *
  have hmiddle : den * (2 * a + 1) = 2 * (den * a) + den := by ring
  rw [hmiddle]
  dsimp only
  rcases Nat.lt_trichotomy q a with hlt | rfl | hgt
  · obtain ⟨d, rfl⟩ := Nat.exists_eq_add_of_lt hlt
    have hbelow : den * (q + d + 1) = den * q + den * d + den := by ring
    split
    · omega
    · split <;> omega
  · split
    · omega
    · split <;> omega
  · obtain ⟨d, rfl⟩ := Nat.exists_eq_add_of_lt hgt
    have habove : den * (a + d + 1) = den * a + den * d + den := by ring
    split
    · omega
    · split <;> omega

/-- Every magnitude lies on one stretch, or on the first two, and is counted in the steps
of that stretch. -/
theorem exists_nearestRank_eq (num : Nat) (hden : 0 < den) :
    ∃ k, (k = 0 ∨ den * 2 ^ k * stretch ≤ num) ∧ num < den * 2 ^ k * (2 * stretch) ∧
      nearestRank num den = roundHalfEven num (den * 2 ^ k) + k * stretch := by
  have hmul : den * (num / den) ≤ num := Nat.mul_div_le num den
  have hdiv : num < den * (num / den + 1) := Nat.lt_mul_div_succ num hden
  unfold nearestRank
  generalize num / den = q at *
  by_cases hsmall : q < 2 * stretch
  · refine ⟨0, Or.inl rfl, ?_, by simp [hsmall]⟩
    calc
      num < den * (q + 1) := hdiv
      _ ≤ den * (2 * stretch) := Nat.mul_le_mul_left den hsmall
      _ = den * 2 ^ 0 * (2 * stretch) := by rw [Nat.pow_zero, Nat.mul_one]
  · have hlarge : 2 ^ 53 ≤ q := Nat.le_of_not_lt hsmall
    have hq : q ≠ 0 := (Nat.lt_of_lt_of_le (by decide) hlarge).ne'
    have hlog : 53 ≤ q.log2 := (Nat.le_log2 hq).mpr hlarge
    obtain ⟨k, hk⟩ := Nat.exists_eq_add_of_le (Nat.le_of_succ_le hlog)
    refine ⟨k, Or.inr ?_, ?_, by simp [hsmall, hk]⟩
    · calc
        den * 2 ^ k * stretch = den * 2 ^ q.log2 := by rw [hk, Nat.pow_add]; ring
        _ ≤ den * q := Nat.mul_le_mul_left den (Nat.log2_self_le hq)
        _ ≤ num := hmul
    · calc
        num < den * (q + 1) := hdiv
        _ ≤ den * 2 ^ (q.log2 + 1) := Nat.mul_le_mul_left den Nat.lt_log2_self
        _ = den * 2 ^ k * (2 * stretch) := by rw [hk, Nat.pow_succ, Nat.pow_add]; ring

/-- What lies below the middle between a number and the next is not rounded up. -/
theorem nearestRank_le_iff (hden : 0 < den) :
    nearestRank num den ≤ r ↔
      2 * num < den * (units r + units (r + 1)) ∨
        2 * num = den * (units r + units (r + 1)) ∧ 2 ∣ r := by
  obtain ⟨k, hstart, hend, heq⟩ := exists_nearestRank_eq num hden
  have hstep : 0 < den * 2 ^ k := Nat.mul_pos hden (Nat.two_pow_pos k)
  have hgrows : den * units r < den * units (r + 1) :=
    Nat.mul_lt_mul_of_pos_left (units_strictMono (Nat.lt_succ_self r)) hden
  have hzero : 0 < stretch := by decide
  rw [heq]
  rcases Nat.lt_or_ge r (2 * stretch + k * stretch) with hlt | hbelow
  · by_cases habove : k ≠ 0 ∧ r < stretch + k * stretch
    · -- The magnitude lies beyond the successor of `r`.
      obtain ⟨hk, hr⟩ := habove
      have hnum : den * 2 ^ k * stretch ≤ num := hstart.resolve_left hk
      have hsucc : den * units (r + 1) ≤ num := by
        calc
          den * units (r + 1) ≤ den * units (stretch + k * stretch) :=
            Nat.mul_le_mul_left den (units_strictMono.monotone hr)
          _ = den * 2 ^ k * stretch := by
            rw [units_stride (Or.inr (Nat.le_refl _)) (Nat.le_mul_of_pos_left _ (by decide))]
            ring
          _ ≤ num := hnum
      have hround : stretch ≤ roundHalfEven num (den * 2 ^ k) := by
        obtain ⟨a, ha⟩ := Nat.exists_eq_add_of_lt hzero
        rw [Nat.zero_add] at ha
        rw [ha] at hnum ⊢
        rw [Nat.succ_le_iff, ← Nat.not_le, roundHalfEven_le_iff hstep]
        have hmiddle : den * 2 ^ k * (2 * a + 1) + den * 2 ^ k =
            2 * (den * 2 ^ k * (a + 1)) := by ring
        omega
      rw [Nat.mul_add]
      omega
    · -- The magnitude lies on the stretch of `r`.
      obtain ⟨a, rfl⟩ : ∃ a, r = a + k * stretch := by
        refine ⟨r - k * stretch, (Nat.sub_add_cancel ?_).symm⟩
        rcases Nat.eq_zero_or_pos k with rfl | hk <;> omega
      have ha : k = 0 ∨ stretch ≤ a := by omega
      have hmiddle : den * (units (a + k * stretch) + units (a + k * stretch + 1)) =
          den * 2 ^ k * (2 * a + 1) := by
        rw [Nat.add_right_comm a, units_stride ha (by omega), units_stride (by omega) (by omega)]
        ring
      have heven : 2 ∣ a + k * stretch ↔ 2 ∣ a := by
        unfold stretch
        omega
      rw [hmiddle, Nat.add_le_add_iff_right, roundHalfEven_le_iff hstep, heven]
  · -- The magnitude lies below the number of rank `r`.
    have hnum : num < den * units r := by
      calc
        num < den * 2 ^ k * (2 * stretch) := hend
        _ = den * units (2 * stretch + k * stretch) := by
          rw [units_stride (Or.inr (Nat.le_mul_of_pos_left _ (by decide))) (Nat.le_refl _)]
          ring
        _ ≤ den * units r := Nat.mul_le_mul_left den (units_strictMono.monotone hbelow)
    have hround : roundHalfEven num (den * 2 ^ k) ≤ 2 * stretch := by
      rw [roundHalfEven_le_iff hstep, Nat.mul_add]
      have hdouble : den * 2 ^ k * (2 * (2 * stretch)) = 2 * (den * 2 ^ k * (2 * stretch)) := by
        ring
      omega
    rw [Nat.mul_add]
    omega

theorem lt_nearestRank_iff (hden : 0 < den) :
    r < nearestRank num den ↔
      den * (units r + units (r + 1)) < 2 * num ∨
        2 * num = den * (units r + units (r + 1)) ∧ ¬2 ∣ r := by
  rw [← Nat.not_le, nearestRank_le_iff hden]
  omega

/-- Numbers are their own nearest. -/
theorem nearestRank_units (hden : 0 < den) (r : Nat) : nearestRank (den * units r) den = r := by
  apply Nat.le_antisymm
  · rw [nearestRank_le_iff hden, units_succ, Nat.mul_add, Nat.mul_add]
    have hgap : 0 < den * gap r := Nat.mul_pos hden (gap_pos r)
    omega
  · rcases r with - | r
    · exact Nat.zero_le _
    · rw [Nat.succ_le_iff, lt_nearestRank_iff hden, units_succ, Nat.mul_add, Nat.mul_add]
      have hgap : 0 < den * gap r := Nat.mul_pos hden (gap_pos r)
      omega

/-- Rounding keeps the order. -/
theorem nearestRank_mono (hden : 0 < den) (hden' : 0 < den')
    (hle : num * den' ≤ num' * den) : nearestRank num den ≤ nearestRank num' den' := by
  have hself := (nearestRank_le_iff hden').mp (Nat.le_refl (nearestRank num' den'))
  rw [nearestRank_le_iff hden]
  generalize units (nearestRank num' den') + units (nearestRank num' den' + 1) = x at *
  have hleft : 2 * num * den' = 2 * (num * den') := by ring
  have hright : den * x * den' = den * (den' * x) := by ring
  rw [← Nat.mul_lt_mul_right hden', ← Nat.mul_left_inj hden'.ne', hleft, hright]
  rcases hself with hlt | ⟨heq, heven⟩
  · have hscaled : den * (2 * num') < den * (den' * x) := Nat.mul_lt_mul_of_pos_left hlt hden
    have hcomm : den * (2 * num') = 2 * (num' * den) := by ring
    omega
  · have hscaled : den * (den' * x) = 2 * (num' * den) := by rw [← heq]; ring
    omega

/-- What is not above a number is not rounded above it. -/
theorem nearestRank_le_of_le (hden : 0 < den) (hle : num ≤ den * units r) :
    nearestRank num den ≤ r := by
  calc
    nearestRank num den ≤ nearestRank (den * units r) den :=
      nearestRank_mono hden hden (Nat.mul_le_mul_right den hle)
    _ = r := nearestRank_units hden r

/-- Whether it was rounded up or not: the number before the nearest lies below. -/
theorem units_lt_of_lt_nearestRank (hden : 0 < den) (hlt : r < nearestRank num den) :
    den * units r < num := by
  by_contra hle
  exact absurd (nearestRank_le_of_le hden (Nat.le_of_not_lt hle)) (Nat.not_le_of_lt hlt)

end Rounding

/-- Where one stands among the ranks. -/
abbrev rankOne : Nat := 1023 * stretch

theorem units_rankOne : units rankOne = unitsPerOne := by decide +kernel

theorem one_eq : one = .finite false ⟨rankOne, by decide⟩ := by decide +kernel

/-- One lies at the start of its stretch. -/
theorem unitsPerOne_eq : unitsPerOne = stretch * gap rankOne := by
  rw [← units_rankOne, units_of_le (by decide), show rankOne % stretch = 0 by decide,
    Nat.add_zero]

theorem unitsPerOne_pos : 0 < unitsPerOne := by
  rw [← units_rankOne]
  exact Nat.lt_of_le_of_lt (Nat.zero_le _) (units_strictMono (show 0 < rankOne by decide))

/-- The number before a power of two is nearer to it than the number after. -/
theorem units_stride_end (k : Nat) :
    units (2 * stretch + k * stretch) = 2 * stretch * gap (2 * stretch - 1 + k * stretch) := by
  rw [units_stride (Or.inr (by decide)) (Nat.le_refl _), gap_stride (by decide) (by decide)]

/-- The number before one falls short of it by one part in `2 ^ 53`. -/
theorem exists_gap_below_one :
    ∃ e, 0 < e ∧ unitsPerOne = 2 * stretch * e ∧ ∀ r < rankOne, units r + e ≤ unitsPerOne := by
  have hrank : rankOne = 2 * stretch + 1021 * stretch := by decide
  have hsucc : rankOne = 2 * stretch - 1 + 1021 * stretch + 1 := by decide
  refine ⟨gap (2 * stretch - 1 + 1021 * stretch), gap_pos _, ?_, fun r hr => ?_⟩
  · rw [← units_stride_end, ← hrank, units_rankOne]
  · rw [hsucc] at hr
    rw [← units_rankOne, hsucc, units_succ]
    exact Nat.add_le_add_right (units_strictMono.monotone (Nat.le_of_lt_succ hr)) _

section Products

variable {f n r : Nat}

/-- A factor below one takes a number of full precision to the one before it, or below. -/
theorem nearestRank_mul_le (hf : stretch ≤ f) (hr : r < rankOne) :
    nearestRank (units (f + 1) * units r) unitsPerOne ≤ f := by
  obtain ⟨e, hpos, hone, hbelow⟩ := exists_gap_below_one
  rw [nearestRank_le_iff unitsPerOne_pos]
  left
  have hclose : stretch * gap f < units (f + 1) := by
    calc
      stretch * gap f ≤ units f := stretch_mul_gap_le hf
      _ < units (f + 1) := units_strictMono (Nat.lt_succ_self f)
  have hgap : unitsPerOne * gap f < 2 * (units (f + 1) * e) := by
    calc
      unitsPerOne * gap f = 2 * (stretch * gap f * e) := by rw [hone]; ring
      _ < 2 * (units (f + 1) * e) :=
        Nat.mul_lt_mul_of_pos_left (Nat.mul_lt_mul_of_pos_right hclose hpos) (by decide)
  have hproduct : units (f + 1) * units r + units (f + 1) * e ≤ unitsPerOne * units (f + 1) := by
    rw [← Nat.mul_add, Nat.mul_comm unitsPerOne]
    exact Nat.mul_le_mul_left _ (hbelow r hr)
  have hsum : unitsPerOne * (units f + units (f + 1)) + unitsPerOne * gap f =
      2 * (unitsPerOne * units (f + 1)) := by
    rw [units_succ]
    ring
  omega

/-- A whole number has full precision, however it is rounded. -/
theorem rankOne_le_nearestRank (hn : 0 < n) : rankOne ≤ nearestRank (n * unitsPerOne) 1 := by
  calc
    rankOne = nearestRank (1 * units rankOne) 1 := (nearestRank_units Nat.one_pos _).symm
    _ ≤ nearestRank (n * unitsPerOne) 1 := by
      rw [units_rankOne]
      exact nearestRank_mono Nat.one_pos Nat.one_pos
        (Nat.mul_le_mul_right _ (Nat.mul_le_mul_right _ hn))

/-- A whole number, rounded, times a factor below one and rounded again, is at most that
whole number: a factor is below one by more than the first rounding can add. -/
theorem units_nearestRank_mul_le (hn : 0 < n) (hr : r < rankOne) :
    units (nearestRank (units (nearestRank (n * unitsPerOne) 1) * units r) unitsPerOne) ≤
      n * unitsPerOne := by
  have hone := rankOne_le_nearestRank hn
  obtain ⟨f, hf⟩ : ∃ f, nearestRank (n * unitsPerOne) 1 = f + 1 :=
    Nat.exists_eq_add_of_le' (Nat.le_trans (by decide) hone)
  have hfull : stretch ≤ f := by
    have hlarge : stretch + 1 ≤ rankOne := by decide
    omega
  have hbefore : 1 * units f < n * unitsPerOne :=
    units_lt_of_lt_nearestRank Nat.one_pos (hf ▸ Nat.lt_succ_self f)
  rw [hf]
  calc
    units (nearestRank (units (f + 1) * units r) unitsPerOne) ≤ units f :=
      units_strictMono.monotone (nearestRank_mul_le hfull hr)
    _ ≤ n * unitsPerOne := by omega

/-- A factor above one takes a number of full precision to the one after it, or above. -/
theorem lt_nearestRank_mul (hf : stretch ≤ f) (hr : rankOne < r) :
    f < nearestRank (units f * units r) unitsPerOne := by
  have hfactor : unitsPerOne + gap rankOne ≤ units r := by
    rw [← units_rankOne, ← units_succ]
    exact units_strictMono.monotone hr
  have hproduct : unitsPerOne * units (f + 1) ≤ units f * units r := by
    calc
      unitsPerOne * units (f + 1)
          = unitsPerOne * units f + stretch * gap f * gap rankOne := by
        rw [units_succ, Nat.mul_add, unitsPerOne_eq]
        ring
      _ ≤ unitsPerOne * units f + units f * gap rankOne :=
        Nat.add_le_add_left (Nat.mul_le_mul_right _ (stretch_mul_gap_le hf)) _
      _ = units f * (unitsPerOne + gap rankOne) := by ring
      _ ≤ units f * units r := Nat.mul_le_mul_left _ hfactor
  calc
    f < f + 1 := Nat.lt_succ_self f
    _ = nearestRank (unitsPerOne * units (f + 1)) unitsPerOne :=
      (nearestRank_units unitsPerOne_pos _).symm
    _ ≤ nearestRank (units f * units r) unitsPerOne :=
      nearestRank_mono unitsPerOne_pos unitsPerOne_pos (Nat.mul_le_mul_right _ hproduct)

/-- A whole number, rounded, times a factor above one and rounded again, is more than that
whole number: a factor is above one by more than the first rounding can take away. -/
theorem lt_units_nearestRank_mul (hn : 0 < n) (hr : rankOne < r) :
    n * unitsPerOne <
      units (nearestRank (units (nearestRank (n * unitsPerOne) 1) * units r) unitsPerOne) := by
  have hfull : stretch ≤ nearestRank (n * unitsPerOne) 1 :=
    Nat.le_trans (by decide) (rankOne_le_nearestRank hn)
  have hnearest := (nearestRank_le_iff Nat.one_pos).mp
    (Nat.le_refl (nearestRank (n * unitsPerOne) 1))
  have hproduct := units_strictMono.monotone (Nat.succ_le_of_lt (lt_nearestRank_mul hfull hr))
  generalize nearestRank (n * unitsPerOne) 1 = f at *
  have hnext : units f < units (f + 1) := units_strictMono (Nat.lt_succ_self f)
  have hbelow : n * unitsPerOne < units (f + 1) := by omega
  exact hbelow.trans_le hproduct

end Products

section Words

variable {n : Nat} {r : Fin ranks}

theorem toWord_le (hle : units r ≤ n * unitsPerOne) : toWord (.finite false r) ≤ n := by
  have hpos := unitsPerOne_pos
  have hnext : (n + 1) * (2 * unitsPerOne) = 2 * (n * unitsPerOne) + 2 * unitsPerOne := by ring
  have hhalf : (2 * units r + unitsPerOne) / (2 * unitsPerOne) < n + 1 := by
    rw [Nat.div_lt_iff_lt_mul (Nat.mul_pos Nat.two_pos hpos), hnext]
    omega
  rw [toWord, if_neg Bool.false_ne_true]
  exact (Nat.min_le_left _ _).trans (Nat.le_of_lt_succ hhalf)

theorem le_toWord (hle : n * unitsPerOne ≤ units r) :
    min n (UInt64.size - 1) ≤ toWord (.finite false r) := by
  have hhalf : n ≤ (2 * units r + unitsPerOne) / (2 * unitsPerOne) := by
    rw [Nat.le_div_iff_mul_le (Nat.mul_pos Nat.two_pos unitsPerOne_pos)]
    calc
      n * (2 * unitsPerOne) = 2 * (n * unitsPerOne) := by ring
      _ ≤ 2 * units r + unitsPerOne := by omega
  rw [toWord, if_neg Bool.false_ne_true]
  exact min_le_min_right _ hhalf

/-- The largest number lies far beyond all that is counted here. -/
theorem mul_unitsPerOne_le (hn : n ≤ 2 ^ 128) : n * unitsPerOne ≤ units (ranks - 1) := by
  calc
    n * unitsPerOne ≤ 2 ^ 128 * unitsPerOne := Nat.mul_le_mul_right _ hn
    _ ≤ units (ranks - 1) := by decide +kernel

theorem ofNat_eq (hn : n ≤ 2 ^ 128) :
    ∃ h : nearestRank (n * unitsPerOne) 1 < ranks,
      ofNat n = .finite false ⟨nearestRank (n * unitsPerOne) 1, h⟩ := by
  have hle : nearestRank (n * unitsPerOne) 1 ≤ ranks - 1 := by
    apply nearestRank_le_of_le Nat.one_pos
    rw [Nat.one_mul]
    exact mul_unitsPerOne_le hn
  have hlt : nearestRank (n * unitsPerOne) 1 < ranks := Nat.lt_of_le_pred (by decide) hle
  exact ⟨hlt, by rw [ofNat, nearest, ofRank, dif_pos hlt]⟩

/-- A whole number times a factor below one, made a whole number again, has not grown. -/
theorem toWord_mul_le (hn : 0 < n) (hmax : n ≤ 2 ^ 128) (hr : r.val < rankOne) :
    ((ofNat n).mul (.finite false r)).toWord ≤ n := by
  obtain ⟨_, hofNat⟩ := ofNat_eq hmax
  have hunits := units_nearestRank_mul_le hn hr
  have hfinite : nearestRank (units (nearestRank (n * unitsPerOne) 1) * units r) unitsPerOne <
      ranks :=
    Nat.lt_of_le_pred (by decide)
      (units_strictMono.le_iff_le.mp (hunits.trans (mul_unitsPerOne_le hmax)))
  rw [hofNat, mul, nearest, ofRank, dif_pos hfinite]
  exact toWord_le hunits

/-- A whole number times a factor above one, made a whole number again, has not shrunk, unless
it is more than a word holds. -/
theorem le_toWord_mul (hn : 0 < n) (hmax : n ≤ 2 ^ 128) (hr : rankOne < r.val) :
    min n (UInt64.size - 1) ≤ ((ofNat n).mul (.finite false r)).toWord := by
  obtain ⟨_, hofNat⟩ := ofNat_eq hmax
  rw [hofNat, mul, nearest, ofRank]
  split
  · exact le_toWord (lt_units_nearestRank_mul hn hr).le
  · exact Nat.min_le_right _ _

/-- What an infinite factor makes of a whole number fills a word. -/
theorem toWord_mul_infinite (hn : 0 < n) (hmax : n ≤ 2 ^ 128) :
    ((ofNat n).mul (.infinite false)).toWord = UInt64.size - 1 := by
  obtain ⟨_, hofNat⟩ := ofNat_eq hmax
  have hpos : nearestRank (n * unitsPerOne) 1 ≠ 0 :=
    (Nat.lt_of_lt_of_le (by decide) (rankOne_le_nearestRank hn)).ne'
  rw [hofNat, mul, if_neg hpos]
  rfl

end Words

end Binary64

end LeaseElection
