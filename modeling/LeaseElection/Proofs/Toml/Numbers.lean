import LeaseElection.Proofs.Binary64.Shortest
import LeaseElection.Toml.Moments
import LeaseElection.Toml.Writer
import Mathlib.Data.List.Basic

/-!
# Numbers that are read back

A written number is a sign, digits, and perhaps a point with more digits.  No zero stands in
front without need, no digit follows, and there is no date in it, because dates have their
first dash or colon right after digits.  So it is read as the number that its digits spell,
which for a floating point number is the number they were chosen for.
-/

namespace LeaseElection

namespace Toml

open Binary64 (ofDecimal pointedDigits shortest signed)
open Decimal (Names)

variable {c : Char} {ds rest whole fraction : List Char} {n : Nat}

section Digits

/-- Text that does not go on with digits. -/
def Stops (rest : List Char) : Prop :=
  ∀ c, rest.head? = some c → c.isDigit = false ∧ c ≠ '_'

theorem stops_cons (hdigit : c.isDigit = false) (hunderscore : c ≠ '_') : Stops (c :: rest) := by
  intro d hd
  cases hd
  exact ⟨hdigit, hunderscore⟩

theorem moreDigits_append (hds : ∀ c ∈ ds, c.isDigit = true) (hstops : Stops rest) :
    moreDigits Char.isDigit (ds ++ rest) = some (ds, rest) := by
  induction ds with
  | nil =>
      cases rest with
      | nil => rfl
      | cons c rest =>
          obtain ⟨hdigit, hunderscore⟩ := hstops c rfl
          rw [List.nil_append, moreDigits, if_neg (by simp [hdigit]), if_neg hunderscore]
  | cons c ds ih =>
      obtain ⟨hc, hds⟩ := List.forall_mem_cons.mp hds
      rw [List.cons_append, moreDigits, if_pos hc, ih hds]
      rfl

theorem digits_append (hds : ∀ c ∈ ds, c.isDigit = true) (hne : ds ≠ []) (hstops : Stops rest) :
    digits Char.isDigit (ds ++ rest) = some (ds, rest) := by
  have hhead : (ds ++ rest).head?.any Char.isDigit = true := by
    cases ds with
    | nil => exact absurd rfl hne
    | cons c ds => exact hds c List.mem_cons_self
  rw [digits, if_pos hhead, moreDigits_append hds hstops]

theorem digitsValue_eq_ofDigitChars (hds : ∀ c ∈ ds, c.isDigit = true) :
    digitsValue 10 ds = Nat.ofDigitChars 10 ds 0 := by
  have hfold (n : Nat) : ds.foldl (fun n c =>
      let d := if c.isDigit then c.toNat - '0'.toNat else c.toLower.toNat - 'a'.toNat + 10
      n * 10 + d) n = Nat.ofDigitChars 10 ds n := by
    induction ds generalizing n with
    | nil => rfl
    | cons c ds ih =>
        obtain ⟨hc, hds⟩ := List.forall_mem_cons.mp hds
        rw [List.foldl_cons, ih hds, Nat.ofDigitChars_cons, if_pos hc, Nat.mul_comm]
  exact hfold 0

theorem isDigit_of_mem_zeros (k : Nat) : ∀ c ∈ List.replicate k '0', c.isDigit = true := by
  intro c hc
  rw [(List.mem_replicate.mp hc).2]
  rfl

/-- The digits of a whole number, without a zero in front. -/
structure Whole (ds : List Char) : Prop where
  digits : ∀ c ∈ ds, c.isDigit = true
  ne_nil : ds ≠ []
  eq_zero : ds.head? = some '0' → ds = ['0']

theorem wholeDigits_append (hwhole : Whole ds) (hstops : Stops rest) :
    wholeDigits (ds ++ rest) = some (ds, rest) := by
  by_cases hzero : ds.head? = some '0'
  · rw [hwhole.eq_zero hzero]
    rfl
  · unfold wholeDigits
    split
    · next hhead =>
        cases ds with
        | nil => exact absurd rfl hwhole.ne_nil
        | cons d ds => exact absurd (congrArg some (List.cons.inj hhead).1) hzero
    · exact digits_append hwhole.digits hwhole.ne_nil hstops

theorem head?_toDigits_ne (hn : n ≠ 0) : (Nat.toDigits 10 n).head? ≠ some '0' := by
  have hchar : ∀ d < 10, Nat.digitChar d = '0' → d = 0 := by decide
  induction n using Nat.strongRecOn with
  | _ n ih =>
      rw [Nat.toDigits_eq_if (by decide)]
      split
      · next hlt => exact fun h => hn (hchar n hlt (Option.some.inj h))
      · next hle =>
          have hmore := ih (n / 10) (by omega) (by omega)
          rwa [List.head?_append_of_ne_nil _ Nat.toDigits_ne_nil]

theorem whole_toDigits (n : Nat) : Whole (Nat.toDigits 10 n) where
  digits c hc := Nat.isDigit_of_mem_toDigits (by decide) (by decide) hc
  ne_nil := Nat.toDigits_ne_nil
  eq_zero hzero := by
    by_cases hn : n = 0
    · rw [hn, Nat.toDigits_zero]
    · exact absurd hzero (head?_toDigits_ne hn)

/-- Several digits are no lone zero, nor are those in front of them. -/
theorem Whole.take (hwhole : Whole ds) {k : Nat} (hk : k ≠ 0) (hmany : 1 < ds.length) :
    Whole (ds.take k) where
  digits c hc := hwhole.digits c (List.mem_of_mem_take hc)
  ne_nil h := by
    rcases List.take_eq_nil_iff.mp h with h | h
    · exact hk h
    · exact hwhole.ne_nil h
  eq_zero hzero := by
    rw [List.head?_take, if_neg hk] at hzero
    rw [hwhole.eq_zero hzero] at hmany
    exact absurd hmany (by decide)

end Digits

section Points

/-- Digits before and after a point that stand for a decimal. -/
structure Spells (d : Decimal) (whole fraction : List Char) : Prop where
  before : Whole whole
  after : ∀ c ∈ fraction, c.isDigit = true
  names_iff : ∀ r, Names ⟨digitsValue 10 (whole ++ fraction), -fraction.length⟩ r ↔ d.Names r

variable {d : Decimal}

/-- Zeros at the end stand for the power of ten. -/
theorem spells_of_nonneg (hexponent : 0 ≤ d.exponent) : Spells d d.positional [] := by
  obtain ⟨digits, exponent⟩ := d
  obtain ⟨e, rfl⟩ := Int.eq_ofNat_of_zero_le hexponent
  have hwhole := whole_toDigits digits
  have hvalue : Nat.ofDigitChars 10 (Nat.toDigits 10 digits ++ List.replicate e '0') 0 =
      digits * 10 ^ e := by
    rw [Nat.ofDigitChars_append, Nat.ofDigitChars_ten_toDigits, Nat.ofDigitChars_replicate_zero,
      Nat.mul_comm]
  simp only [Decimal.positional, if_pos hexponent, Int.toNat_natCast]
  split
  · next hzero =>
      refine ⟨hwhole, List.forall_mem_nil _, fun r => ?_⟩
      apply Decimal.names_shift_iff (k := e)
      · rw [List.append_nil, digitsValue_eq_ofDigitChars hwhole.digits,
          Nat.ofDigitChars_ten_toDigits, hzero, Nat.zero_mul]
      · simp
  · next hzero =>
      have hdigits : ∀ c ∈ Nat.toDigits 10 digits ++ List.replicate e '0', c.isDigit = true :=
        List.forall_mem_append.mpr ⟨hwhole.digits, isDigit_of_mem_zeros e⟩
      refine ⟨⟨hdigits, ?_, ?_⟩, List.forall_mem_nil _, fun r => ?_⟩
      · exact List.append_ne_nil_of_left_ne_nil hwhole.ne_nil _
      · intro hhead
        rw [List.head?_append_of_ne_nil _ hwhole.ne_nil] at hhead
        exact absurd hhead (head?_toDigits_ne hzero)
      · apply Decimal.names_shift_iff (k := e)
        · rw [List.append_nil, digitsValue_eq_ofDigitChars hdigits]
          exact hvalue
        · simp

/-- The point stands among the digits, or zeros fill the places up to it. -/
theorem exists_spells_of_neg (hexponent : d.exponent < 0) :
    ∃ whole fraction, d.positional = whole ++ '.' :: fraction ∧ fraction ≠ [] ∧
      Spells d whole fraction := by
  obtain ⟨digits, exponent⟩ := d
  obtain ⟨places, rfl⟩ := Int.exists_eq_neg_ofNat hexponent.le
  have hplaces : 0 < places := by
    simp only at hexponent
    omega
  have hwhole := whole_toDigits digits
  have hvalue := @Nat.ofDigitChars_ten_toDigits digits
  simp only [Decimal.positional, if_neg (Int.not_le.mpr hexponent), Int.neg_neg, Int.toNat_natCast]
  generalize Nat.toDigits 10 digits = ds at *
  split
  · next hlt =>
      refine ⟨_, _, rfl, ?_, hwhole.take (by omega) (by omega), ?_, fun r => ?_⟩
      · rw [Ne, List.drop_eq_nil_iff]
        omega
      · exact fun c hc => hwhole.digits c (List.mem_of_mem_drop hc)
      · have hlength : (ds.drop (ds.length - places)).length = places := by
          rw [List.length_drop]
          omega
        rw [List.take_append_drop, digitsValue_eq_ofDigitChars hwhole.digits, hvalue, hlength]
  · next hge =>
      have hzero : ∀ c ∈ ['0'], c.isDigit = true := isDigit_of_mem_zeros 1
      have hzeros : ∀ c ∈ List.replicate (places - ds.length) '0' ++ ds, c.isDigit = true :=
        List.forall_mem_append.mpr ⟨isDigit_of_mem_zeros _, hwhole.digits⟩
      refine ⟨['0'], _, rfl, ?_, ⟨hzero, by decide, fun _ => rfl⟩, hzeros, fun r => ?_⟩
      · exact List.append_ne_nil_of_right_ne_nil _ hwhole.ne_nil
      · have hlength : (List.replicate (places - ds.length) '0' ++ ds).length = places := by
          rw [List.length_append, List.length_replicate]
          omega
        have hall : ∀ c ∈ ['0'] ++ (List.replicate (places - ds.length) '0' ++ ds),
            c.isDigit = true := List.forall_mem_append.mpr ⟨hzero, hzeros⟩
        rw [digitsValue_eq_ofDigitChars hall, hlength, List.singleton_append,
          Nat.ofDigitChars_cons, Nat.ofDigitChars_append, Nat.ofDigitChars_replicate_zero]
        simp [hvalue]

/-- Every finite number is written with digits before and after a point. -/
theorem exists_pointedDigits_eq (r : Nat) :
    ∃ whole fraction, pointedDigits r = whole ++ '.' :: fraction ∧ fraction ≠ [] ∧
      Spells (shortest r) whole fraction := by
  unfold pointedDigits
  rcases Int.lt_or_le (shortest r).exponent 0 with hneg | hnonneg
  · obtain ⟨whole, fraction, hpositional, hspells⟩ := exists_spells_of_neg hneg
    refine ⟨whole, fraction, ?_, hspells⟩
    have hpoint : (shortest r).positional.contains '.' = true := by
      rw [hpositional]
      simp
    rw [if_pos hpoint, hpositional]
  · have hspells := spells_of_nonneg hnonneg
    have hpoint : ¬(shortest r).positional.contains '.' = true := by
      rw [List.contains_iff_mem]
      exact fun h => absurd (hspells.before.digits _ h) (by decide)
    have hzero : ∀ c ∈ ['0'], c.isDigit = true := isDigit_of_mem_zeros 1
    have hdigits : ∀ c ∈ (shortest r).positional ++ ['0'], c.isDigit = true :=
      List.forall_mem_append.mpr ⟨hspells.before.digits, hzero⟩
    refine ⟨_, ['0'], if_neg hpoint, by decide, hspells.before, hzero, fun s => ?_⟩
    rw [← hspells.names_iff, List.append_nil, digitsValue_eq_ofDigitChars hdigits,
      digitsValue_eq_ofDigitChars hspells.before.digits, Nat.ofDigitChars_append]
    apply Decimal.names_shift_iff (k := 1)
    · exact Nat.mul_comm _ _
    · rfl

end Points

section Floats

theorem signed_append (negative : Bool) (cs rest : List Char) :
    signed negative cs ++ rest = signed negative (cs ++ rest) := by
  cases negative <;> rfl

/-- Before digits only a minus is written, and it is read as the sign. -/
theorem readSign_signed (hwhole : Whole ds) (negative : Bool) (rest : List Char) :
    readSign (signed negative (ds ++ rest)) =
      (if negative then some true else none, ds ++ rest) := by
  cases ds with
  | nil => exact absurd rfl hwhole.ne_nil
  | cons c ds =>
      have hc := hwhole.digits c List.mem_cons_self
      have hplus : c ≠ '+' := fun h => absurd (h ▸ hc) (by decide)
      have hminus : c ≠ '-' := fun h => absurd (h ▸ hc) (by decide)
      cases negative
      · simp only [signed, Bool.false_eq_true, if_false]
        unfold readSign
        split
        · next h => exact absurd (List.cons.inj h).1 hplus
        · next h => exact absurd (List.cons.inj h).1 hminus
        · rfl
      · rfl

/-- Digits with a point among them are read to the end of the line. -/
theorem readDecimal_signed (negative : Bool) (rest : List Char) (hwhole : Whole whole)
    (hfraction : ∀ c ∈ fraction, c.isDigit = true) (hne : fraction ≠ [])
    (hfinite : (ofDecimal negative (digitsValue 10 (whole ++ fraction))
      (-fraction.length)).isPosInfinite = false) :
    readDecimal (signed negative (whole ++ '.' :: fraction) ++ '\n' :: rest) =
      some (ofDecimal negative (digitsValue 10 (whole ++ fraction)) (-fraction.length),
        '\n' :: rest) := by
  have hnewline : Stops ('\n' :: rest) := stops_cons (by decide) (by decide)
  have hpoint : Stops ('.' :: (fraction ++ '\n' :: rest)) := stops_cons (by decide) (by decide)
  have hnegative : (if negative then some true else none).getD false = negative := by
    cases negative <;> rfl
  have hempty : fraction.isEmpty = false := by simpa using hne
  simp only [readDecimal, signed_append, List.append_assoc, List.cons_append,
    readSign_signed hwhole, wholeDigits_append hwhole hpoint, readFraction,
    digits_append hfraction hne hnewline, readExponent, Option.bind_eq_bind, Option.bind_some]
  simp [hempty, hnegative, hfinite]

/-- Every floating point number is read back. -/
theorem readFloat_writeFloat (x : Binary64) :
    readFloat (writeFloat x ++ '\n' :: rest) = some (x, '\n' :: rest) := by
  cases x with
  | nan negative => cases negative <;> rfl
  | infinite negative => cases negative <;> rfl
  | finite negative r =>
      obtain ⟨whole, fraction, hdigits, hne, hspells⟩ := exists_pointedDigits_eq r
      have hnames := (hspells.names_iff r).mpr (Binary64.names_shortest r)
      have hvalue := Binary64.ofDecimal_of_names hnames r.isLt negative
      have hread := readDecimal_signed negative rest hspells.before hspells.after hne
        (by rw [hvalue]; rfl)
      rw [writeFloat, hdigits, readFloat, hread, hvalue]
      rfl

end Floats

section Integers

/-- Digits without a point are no floating point number. -/
theorem readFloat_digits (hwhole : Whole ds) : readFloat (ds ++ '\n' :: rest) = none := by
  have hnewline : Stops ('\n' :: rest) := stops_cons (by decide) (by decide)
  have hdigits := wholeDigits_append hwhole hnewline
  have hsign : readSign (ds ++ '\n' :: rest) = (none, ds ++ '\n' :: rest) :=
    readSign_signed hwhole false _
  have hdecimal : readDecimal (ds ++ '\n' :: rest) = none := by
    simp only [readDecimal, hsign, hdigits, readFraction, readExponent, Option.bind_eq_bind,
      Option.bind_some]
    rfl
  have hspecial : readSpecial (ds ++ '\n' :: rest) = none := by
    cases ds with
    | nil => exact absurd rfl hwhole.ne_nil
    | cons c ds =>
        have hc := hwhole.digits c List.mem_cons_self
        have hi : c ≠ 'i' := fun h => absurd (h ▸ hc) (by decide)
        have hn : c ≠ 'n' := fun h => absurd (h ▸ hc) (by decide)
        simp only [readSpecial, hsign]
        split
        · next h => exact absurd (List.cons.inj h).1 hi
        · next h => exact absurd (List.cons.inj h).1 hn
        · rfl
  rw [readFloat, hdecimal, hspecial]
  rfl

/-- After a zero in front the line ends, so no mark of another base can follow. -/
theorem eq_newline_of_whole {x : Char} {tail : List Char} (hwhole : Whole ds)
    (hsplit : ds ++ '\n' :: rest = '0' :: x :: tail) : x = '\n' := by
  have hzero : ds.head? = some '0' := by
    cases ds with
    | nil => exact absurd rfl hwhole.ne_nil
    | cons c ds => exact congrArg some (List.cons.inj hsplit).1
  rw [hwhole.eq_zero hzero] at hsplit
  cases hsplit
  rfl

theorem boundedInteger_of_lt {n : Nat} (hn : n < 9223372036854775808) :
    boundedInteger false n = some (n : Int) := by
  have hbounds : -(9223372036854775808) ≤ (n : Int) ∧ (n : Int) < 9223372036854775808 := by
    omega
  rw [boundedInteger]
  simp only [Bool.false_eq_true, if_false]
  rw [if_pos hbounds]

/-- A whole number that fits in 64 bits is read back. -/
theorem readInteger_writeNat {n : Nat} (hn : n < 9223372036854775808) :
    readInteger (writeNat n ++ '\n' :: rest) = some ((n : Int), '\n' :: rest) := by
  have hwhole := whole_toDigits n
  have hvalue : digitsValue 10 (Nat.toDigits 10 n) = n := by
    rw [digitsValue_eq_ofDigitChars hwhole.digits, Nat.ofDigitChars_ten_toDigits]
  have hdigits := wholeDigits_append hwhole (stops_cons (by decide) (by decide) :
    Stops ('\n' :: rest))
  have hsign : readSign (Nat.toDigits 10 n ++ '\n' :: rest) =
      (none, Nat.toDigits 10 n ++ '\n' :: rest) := readSign_signed hwhole false _
  rw [writeNat]
  unfold readInteger
  split
  · next h => exact absurd (eq_newline_of_whole hwhole h) (by decide)
  · next h => exact absurd (eq_newline_of_whole hwhole h) (by decide)
  · next h => exact absurd (eq_newline_of_whole hwhole h) (by decide)
  · rw [hsign]
    dsimp only
    rw [hdigits, Option.bind_eq_bind, Option.bind_some]
    dsimp only
    rw [hvalue, Option.getD_none, boundedInteger_of_lt hn]
    rfl

end Integers

section Moments

theorem fixedDigits_eq_some {n low high v : Nat} {cs tail : List Char}
    (hfixed : fixedDigits n low high cs = some (v, tail)) :
    (cs.take n).length = n ∧ (∀ c ∈ cs.take n, c.isDigit = true) ∧ tail = cs.drop n := by
  simp only [fixedDigits] at hfixed
  split at hfixed
  · next h =>
      cases hfixed
      exact ⟨h.1, List.all_eq_true.mp h.2.1, rfl⟩
  · cases hfixed

/-- Behind some of the digits come digits or what follows them all, but no mark. -/
theorem expect_of_fixedDigits {n low high v : Nat} {mark : Char} {tail : List Char}
    (hdigit : c.isDigit = false) (hmark : mark.isDigit = false) (hne : c ≠ mark)
    (hds : ∀ c ∈ ds, c.isDigit = true)
    (hfixed : fixedDigits n low high (ds ++ c :: rest) = some (v, tail)) :
    expect mark tail = none := by
  obtain ⟨hlength, hall, rfl⟩ := fixedDigits_eq_some hfixed
  have hn : n ≤ ds.length := by
    by_contra hlt
    have hmem : c ∈ (ds ++ c :: rest).take n := by
      rw [List.take_append, List.mem_append, List.take_cons (by omega)]
      exact Or.inr List.mem_cons_self
    exact absurd (hall c hmem) (by simp [hdigit])
  rw [List.drop_append_of_le_length hn]
  cases hdrop : ds.drop n with
  | nil => exact if_neg hne
  | cons d more =>
      have hd := hds d (List.mem_of_mem_drop (hdrop ▸ List.mem_cons_self))
      exact if_neg fun h => absurd (h ▸ hd) (by simp [hmark])

/-- Digits with neither a dash nor a colon after them begin no date and no time. -/
theorem readMoment_digits (hds : ∀ c ∈ ds, c.isDigit = true) (hdigit : c.isDigit = false)
    (hdash : c ≠ '-') (hcolon : c ≠ ':') : readMoment (ds ++ c :: rest) = none := by
  have hdate : skipDate (ds ++ c :: rest) = none := by
    rw [skipDate]
    cases hfixed : fixedDigits 4 0 9999 (ds ++ c :: rest) with
    | none => rfl
    | some p => simp [expect_of_fixedDigits hdigit (by decide) hdash hds hfixed]
  have htime : skipTime (ds ++ c :: rest) = none := by
    rw [skipTime]
    cases hfixed : fixedDigits 2 0 23 (ds ++ c :: rest) with
    | none => rfl
    | some p => simp [expect_of_fixedDigits hdigit (by decide) hcolon hds hfixed]
  simp [readMoment, hdate, htime]

theorem fixedDigits_cons (hdigit : c.isDigit = false) (n low high : Nat) :
    fixedDigits (n + 1) low high (c :: rest) = none := by
  cases hfixed : fixedDigits (n + 1) low high (c :: rest) with
  | none => rfl
  | some p =>
      obtain ⟨-, hall, -⟩ := fixedDigits_eq_some hfixed
      exact absurd (hall c List.mem_cons_self) (by simp [hdigit])

theorem readMoment_cons (hdigit : c.isDigit = false) : readMoment (c :: rest) = none := by
  simp [readMoment, skipDate, skipTime, fixedDigits_cons hdigit]

theorem readMoment_writeFloat (x : Binary64) :
    readMoment (writeFloat x ++ '\n' :: rest) = none := by
  cases x with
  | nan negative => cases negative <;> exact readMoment_cons (by decide)
  | infinite negative => cases negative <;> exact readMoment_cons (by decide)
  | finite negative r =>
      obtain ⟨whole, fraction, hdigits, -, hspells⟩ := exists_pointedDigits_eq r
      rw [writeFloat, hdigits]
      cases negative
      · simp only [signed, Bool.false_eq_true, if_false, List.append_assoc, List.cons_append]
        exact readMoment_digits hspells.before.digits (by decide) (by decide) (by decide)
      · exact readMoment_cons (by decide)

end Moments

end Toml

end LeaseElection
