import LeaseElection.Binary64.Text
import LeaseElection.Proofs.Binary64.Rounding

/-!
# Digits that read back

A decimal stands for the number whose rank is nearest to it.  That is so for every point that
is found on a grid, because it was looked for between the middles to the neighbours, and for
the number itself, where no grid was left to try.  Zeros at the end and the place of the point
make no difference.  The main result is that the decimal which is chosen for a number is
rounded to that number.
-/

namespace LeaseElection

namespace Decimal

open Binary64 (unitsPerOne nearestRank)

/-- How many units a decimal makes, over `Decimal.den`. -/
def num (d : Decimal) : Nat := d.digits * 10 ^ d.exponent.toNat * unitsPerOne

def den (d : Decimal) : Nat := 10 ^ (-d.exponent).toNat

theorem den_pos (d : Decimal) : 0 < d.den := Nat.pow_pos (by decide)

/-- Whether a decimal is rounded to the number of rank `r`. -/
def Names (d : Decimal) (r : Nat) : Prop := nearestRank d.num d.den = r

variable {d d' : Decimal} {r k : Nat}

/-- The same number with zeros at the end of its digits. -/
theorem names_shift_iff (hdigits : d.digits = d'.digits * 10 ^ k)
    (hexponent : d'.exponent = d.exponent + k) : d.Names r ↔ d'.Names r := by
  have hpowers : d.exponent.toNat + k + (-d'.exponent).toNat =
      d'.exponent.toNat + (-d.exponent).toNat := by omega
  have hcross : d.num * d'.den = d'.num * d.den := by
    calc
      d.num * d'.den = d'.digits * 10 ^ (d.exponent.toNat + k + (-d'.exponent).toNat) *
          unitsPerOne := by
        rw [num, den, hdigits, Nat.pow_add, Nat.pow_add]
        ring
      _ = d'.num * d.den := by
        rw [hpowers, num, den, Nat.pow_add]
        ring
  have heq : nearestRank d.num d.den = nearestRank d'.num d'.den :=
    Nat.le_antisymm (Binary64.nearestRank_mono d.den_pos d'.den_pos hcross.le)
      (Binary64.nearestRank_mono d'.den_pos d.den_pos hcross.ge)
  rw [Names, Names, heq]

theorem exists_trim_eq (fuel : Nat) (d : Decimal) :
    ∃ k : Nat, d.digits = (trim fuel d).digits * 10 ^ k ∧
      (trim fuel d).exponent = d.exponent + k := by
  induction fuel generalizing d with
  | zero => exact ⟨0, by simp [trim]⟩
  | succ fuel ih =>
      rw [trim]
      split
      · next hzero =>
          obtain ⟨k, hdigits, hexponent⟩ := ih ⟨d.digits / 10, d.exponent + 1⟩
          refine ⟨k + 1, ?_, ?_⟩
          · rw [Nat.pow_succ, ← Nat.mul_assoc, ← hdigits]
            exact (Nat.div_mul_cancel (Nat.dvd_of_mod_eq_zero hzero.2)).symm
          · rw [hexponent]
            push_cast
            ring
      · exact ⟨0, by simp⟩

theorem names_trim_iff (fuel : Nat) : (trim fuel d).Names r ↔ d.Names r := by
  obtain ⟨k, hdigits, hexponent⟩ := exists_trim_eq fuel d
  exact (names_shift_iff hdigits hexponent).symm

end Decimal

namespace Binary64

open Decimal (Names)

variable {r : Nat} {d : Decimal} {p : Int} {c : Nat}

/-- Twice the number of rank `r` and of its neighbours, in the measure of a grid. -/
theorem gridPoint?_cases (hpoint : gridPoint? r p = some c) :
    let doubled := 2 * (⟨c, p⟩ : Decimal).num
    let den := (⟨c, p⟩ : Decimal).den
    doubled = den * (2 * units r) ∨
      (2 ∣ r ∧ den * (units (r - 1) + units r) ≤ doubled ∧
        doubled ≤ den * (units r + units (r + 1))) ∨
      (den * (units (r - 1) + units r) < doubled ∧
        doubled < den * (units r + units (r + 1))) := by
  have hgrid : (if 0 ≤ p then Nat.pow 10 p.toNat * (2 * unitsPerOne) else 2 * unitsPerOne) =
      10 ^ p.toNat * (2 * unitsPerOne) := by
    split
    · rfl
    · next hneg => rw [Int.toNat_of_nonpos (by omega), Nat.pow_zero, Nat.one_mul]
  have hscale : (if 0 ≤ p then 1 else Nat.pow 10 (-p).toNat) = 10 ^ (-p).toNat := by
    split
    · next hpos => rw [Int.toNat_of_nonpos (by omega), Nat.pow_zero]
    · rfl
  simp only [gridPoint?, hgrid, hscale] at hpoint
  simp only [Decimal.num, Decimal.den]
  have hdoubled : 2 * (c * 10 ^ p.toNat * unitsPerOne) =
      c * (10 ^ p.toNat * (2 * unitsPerOne)) := by ring
  rw [hdoubled]
  generalize 10 ^ p.toNat * (2 * unitsPerOne) = grid at *
  generalize 10 ^ (-p).toNat = den at *
  generalize hvalue : 2 * units r * den = value at *
  have hinside (e : Nat)
      (h : (if r % 2 = 0 then
          decide ((units (r - 1) + units r) * den ≤ e * grid ∧
            e * grid ≤ (units r + units (r + 1)) * den)
        else
          decide ((units (r - 1) + units r) * den < e * grid ∧
            e * grid < (units r + units (r + 1)) * den)) = true) :
      2 ∣ r ∧ den * (units (r - 1) + units r) ≤ e * grid ∧
          e * grid ≤ den * (units r + units (r + 1)) ∨
        den * (units (r - 1) + units r) < e * grid ∧
          e * grid < den * (units r + units (r + 1)) := by
    rw [Nat.mul_comm den, Nat.mul_comm den]
    split at h
    · next heven => exact Or.inl ⟨Nat.dvd_of_mod_eq_zero heven, of_decide_eq_true h⟩
    · exact Or.inr (of_decide_eq_true h)
  split at hpoint
  · next hexact =>
      left
      cases hpoint
      rw [Nat.div_mul_cancel (Nat.dvd_of_mod_eq_zero hexact), ← hvalue, Nat.mul_comm den]
  · right
    split at hpoint
    · next hbelow habove =>
        split at hpoint
        · cases hpoint
          exact hinside _ hbelow
        · cases hpoint
          exact hinside _ habove
    · next hbelow _ =>
        cases hpoint
        exact hinside _ hbelow
    · next _ habove =>
        cases hpoint
        exact hinside _ habove
    · cases hpoint

/-- A point of a grid that was looked for between the neighbours. -/
theorem names_of_gridPoint? (hr : 0 < r) (hpoint : gridPoint? r p = some c) :
    Names ⟨c, p⟩ r := by
  have hden := (⟨c, p⟩ : Decimal).den_pos
  have hcases := gridPoint?_cases hpoint
  obtain ⟨s, rfl⟩ := Nat.exists_eq_add_of_lt hr
  rw [Nat.zero_add] at hcases ⊢
  rw [Nat.add_sub_cancel] at hcases
  have hparity : 2 ∣ s + 1 ↔ ¬2 ∣ s := by omega
  rw [hparity] at hcases
  rcases hcases with hexact | hinside
  · have hnum : (⟨c, p⟩ : Decimal).num = (⟨c, p⟩ : Decimal).den * units (s + 1) := by
      rw [Nat.mul_left_comm] at hexact
      exact Nat.eq_of_mul_eq_mul_left (by decide) hexact
    rw [Names, hnum, nearestRank_units hden]
  · refine Nat.le_antisymm ?_ (Nat.succ_le_of_lt ?_)
    · rw [nearestRank_le_iff hden, hparity]
      omega
    · rw [lt_nearestRank_iff hden]
      omega

theorem names_shortestFrom (hr : 0 < r) (top : Int) (n fuel : Nat) :
    (shortestFrom r top n fuel).Names r := by
  induction fuel generalizing n with
  | zero =>
      have hpowers : Nat.pow 5 1074 * unitsPerOne = 10 ^ (- -1074 : Int).toNat := by
        decide +kernel
      have hden : (shortestFrom r top n 0).den = 10 ^ (- -1074 : Int).toNat := by
        rw [shortestFrom, Decimal.den]
      have hnum : (shortestFrom r top n 0).num = (shortestFrom r top n 0).den * units r := by
        rw [hden, ← hpowers, shortestFrom, Decimal.num]
        generalize Nat.pow 5 1074 = fives
        rw [show (-1074 : Int).toNat = 0 from rfl, Nat.pow_zero]
        ring
      rw [Names, hnum, nearestRank_units (Decimal.den_pos _)]
  | succ fuel ih =>
      rw [shortestFrom]
      split
      · next c hpoint => exact (Decimal.names_trim_iff n).mpr (names_of_gridPoint? hr hpoint)
      · exact ih (n + 1)

/-- The decimal that is chosen for a number stands for it. -/
theorem names_shortest (r : Nat) : (shortest r).Names r := by
  rw [shortest]
  split
  · next hzero =>
      rw [hzero, Names, Decimal.num, Nat.zero_mul, Nat.zero_mul]
      exact Nat.le_zero.mp (nearestRank_le_of_le (Decimal.den_pos _) (Nat.zero_le _))
  · next hpos => exact names_shortestFrom (Nat.pos_of_ne_zero hpos) _ 1 17

section Bounds

theorem lt_pow_length_toDigits (m : Nat) : m < 10 ^ (Nat.toDigits 10 m).length :=
  (Nat.length_toDigits_le_iff (by decide) Nat.length_toDigits_pos).mp (Nat.le_refl _)

theorem pow_length_toDigits_le {m : Nat} (hm : m ≠ 0) :
    10 ^ ((Nat.toDigits 10 m).length - 1) ≤ m := by
  by_contra hlt
  rcases Nat.eq_zero_or_pos ((Nat.toDigits 10 m).length - 1) with hone | hmore
  · rw [hone] at hlt
    omega
  · have hshort := (Nat.length_toDigits_le_iff (by decide) hmore).mpr (Nat.lt_of_not_le hlt)
    omega

/-- What has so many digits before the point is beyond the largest number. -/
theorem ranks_le_nearestRank (hdigits : d.digits ≠ 0)
    (hlarge : 311 < (Nat.toDigits 10 d.digits).length + d.exponent) :
    ranks ≤ nearestRank d.num d.den := by
  have hwidth := pow_length_toDigits_le hdigits
  obtain ⟨k, hk, hmax⟩ : ∃ k, k = 311 ∧ units ranks ≤ 10 ^ k * unitsPerOne :=
    ⟨311, rfl, by decide +kernel⟩
  have hpowers : k + (-d.exponent).toNat ≤
      (Nat.toDigits 10 d.digits).length - 1 + d.exponent.toNat := by omega
  have hnum : d.den * units ranks ≤ d.num := by
    calc
      d.den * units ranks ≤ d.den * (10 ^ k * unitsPerOne) := Nat.mul_le_mul_left _ hmax
      _ = 10 ^ (k + (-d.exponent).toNat) * unitsPerOne := by
        rw [Nat.pow_add, Decimal.den]
        ring
      _ ≤ 10 ^ ((Nat.toDigits 10 d.digits).length - 1 + d.exponent.toNat) * unitsPerOne :=
        Nat.mul_le_mul_right _ (Nat.pow_le_pow_right (by decide) hpowers)
      _ ≤ d.num := by
        rw [Nat.pow_add]
        exact Nat.mul_le_mul_right _ (Nat.mul_le_mul_right _ hwidth)
  calc
    ranks = nearestRank (d.den * units ranks) d.den := (nearestRank_units d.den_pos _).symm
    _ ≤ nearestRank d.num d.den :=
      nearestRank_mono d.den_pos d.den_pos (Nat.mul_le_mul_right _ hnum)

/-- What has so many zeros after the point is nearest to zero. -/
theorem nearestRank_eq_zero
    (hsmall : (Nat.toDigits 10 d.digits).length + d.exponent < -330) :
    nearestRank d.num d.den = 0 := by
  have hwidth := lt_pow_length_toDigits d.digits
  obtain ⟨k, hk, hmin⟩ : ∃ k, k = 330 ∧ 2 * unitsPerOne ≤ 10 ^ k :=
    ⟨330, rfl, by decide +kernel⟩
  have hwhole : d.exponent.toNat = 0 := Int.toNat_of_nonpos (by omega)
  have hpowers : (Nat.toDigits 10 d.digits).length + k ≤ (-d.exponent).toNat := by omega
  rw [← Nat.le_zero, nearestRank_le_iff d.den_pos, show units 0 + units (0 + 1) = 1 from rfl,
    Nat.mul_one]
  left
  calc
    2 * d.num = d.digits * (2 * unitsPerOne) := by
      rw [Decimal.num, hwhole]
      ring
    _ < 10 ^ (Nat.toDigits 10 d.digits).length * (2 * unitsPerOne) :=
      Nat.mul_lt_mul_of_pos_right hwidth (Nat.mul_pos Nat.two_pos unitsPerOne_pos)
    _ ≤ 10 ^ (Nat.toDigits 10 d.digits).length * 10 ^ k := Nat.mul_le_mul_left _ hmin
    _ = 10 ^ ((Nat.toDigits 10 d.digits).length + k) := (Nat.pow_add ..).symm
    _ ≤ d.den := Nat.pow_le_pow_right (by decide) hpowers

end Bounds

/-- A decimal is rounded to the number it stands for. -/
theorem ofDecimal_of_names (hnames : d.Names r) (hr : r < ranks) (negative : Bool) :
    ofDecimal negative d.digits d.exponent = .finite negative ⟨r, hr⟩ := by
  have hzero : d.digits = 0 → nearestRank d.num d.den = 0 := by
    intro hdigits
    rw [Decimal.num, hdigits, Nat.zero_mul, Nat.zero_mul]
    exact Nat.le_zero.mp (nearestRank_le_of_le d.den_pos (Nat.zero_le _))
  have hrank : ofRank negative r = .finite negative ⟨r, hr⟩ := dif_pos hr
  rw [← hrank]
  simp only [ofDecimal]
  split
  · next htiny => rw [← hnames, htiny.elim hzero nearestRank_eq_zero]
  split
  · next htiny hlarge =>
      rw [not_or] at htiny
      have hbeyond := ranks_le_nearestRank htiny.1 hlarge
      rw [hnames] at hbeyond
      omega
  split
  · next hwhole =>
      have hden : (-d.exponent).toNat = 0 := Int.toNat_of_nonpos (by omega)
      rw [← hnames, nearest, Decimal.num, Decimal.den, hden, Nat.pow_zero]
      rfl
  · next hwhole =>
      have hnum : d.exponent.toNat = 0 := Int.toNat_of_nonpos (by omega)
      rw [← hnames, nearest, Decimal.num, Decimal.den, hnum, Nat.pow_zero, Nat.mul_one]
      rfl

end Binary64

end LeaseElection
