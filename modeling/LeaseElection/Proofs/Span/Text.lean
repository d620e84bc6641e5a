import LeaseElection.Span.Text
import Mathlib.Algebra.Ring.Nat

/-!
# Spans that are read back

Each part of a written span is a number and the name of a unit, and adds to what was read
before it just what it stands for.  The parts of a span make up the span, so nothing on the
way is more than the span is, and no counter overflows.  The main result is that every span
is read back from its text.
-/

namespace LeaseElection

namespace Span

variable {s total sum : Span} {c : Char} {ds letters : List Char} {n k : Nat} {m : Measure}

theorem fits_of_lt (hn : n < 18446744073709551616) : fits n = true := decide_eq_true hn

section Numerals

/-- Partial values of digits are no larger than the whole value. -/
theorem le_ofDigitChars (ds : List Char) (n : Nat) : n ≤ Nat.ofDigitChars 10 ds n := by
  rw [Nat.ofDigitChars_eq_ofDigitChars_zero]
  have hpower : 1 * n ≤ 10 ^ ds.length * n := Nat.mul_le_mul_right n (Nat.pow_pos (by decide))
  omega

theorem foldlM_advance_inWhole (hds : ∀ c ∈ ds, c.isDigit = true)
    (hfits : Nat.ofDigitChars 10 ds n < UInt64.size) :
    ds.foldlM advance (total, .inWhole n) = .ok (total, .inWhole (Nat.ofDigitChars 10 ds n)) := by
  induction ds generalizing n with
  | nil => rfl
  | cons c ds ih =>
      obtain ⟨hc, hds⟩ := List.forall_mem_cons.mp hds
      have hdigit : digitAfter n c = 10 * n + (c.toNat - '0'.toNat) := by
        rw [digitAfter, Nat.mul_comm]
      rw [Nat.ofDigitChars_cons, ← hdigit] at hfits ⊢
      have hle := le_ofDigitChars ds (digitAfter n c)
      have hstep : advance (total, .inWhole n) c = .ok (total, .inWhole (digitAfter n c)) := by
        have hnext : fits (digitAfter n c) = true := fits_of_lt (Nat.lt_of_le_of_lt hle hfits)
        simp only [advance, hc, hnext, if_true]
      rw [List.foldlM_cons, hstep]
      exact ih hds hfits

/-- A number is read from its digits. -/
theorem foldlM_advance_toDigits (hn : n < UInt64.size) (total : Span) (first : Bool) :
    (Nat.toDigits 10 n).foldlM advance (total, .before first) = .ok (total, .inWhole n) := by
  have hds : ∀ c ∈ Nat.toDigits 10 n, c.isDigit = true :=
    fun c hc => Nat.isDigit_of_mem_toDigits (by decide) (by decide) hc
  have hvalue := @Nat.ofDigitChars_ten_toDigits n
  cases htext : Nat.toDigits 10 n with
  | nil => exact absurd htext Nat.toDigits_ne_nil
  | cons c ds =>
      rw [htext] at hds hvalue
      obtain ⟨hc, hds⟩ := List.forall_mem_cons.mp hds
      have hdigit : digitAfter 0 c = 10 * 0 + (c.toNat - '0'.toNat) := by
        rw [digitAfter, Nat.mul_comm]
      have hstep : advance (total, .before first) c = .ok (total, .inWhole (digitAfter 0 c)) := by
        simp only [advance, hc, if_true]
      rw [Nat.ofDigitChars_cons, ← hdigit] at hvalue
      rw [List.foldlM_cons, hstep, ← hvalue]
      exact foldlM_advance_inWhole hds (by rw [hvalue]; exact hn)

end Numerals

section Names

/-- A letter of a unit that is neither a digit nor a blank. -/
def isNameLetter (c : Char) : Bool := isUnitLetter c && !c.isDigit && !isBlank c

theorem foldlM_advance_inUnit {numeral : Numeral} (hletters : ∀ c ∈ ds, isNameLetter c = true) :
    ds.foldlM advance (total, .inUnit numeral letters) =
      .ok (total, .inUnit numeral (ds.reverse ++ letters)) := by
  induction ds generalizing letters with
  | nil => rfl
  | cons c ds ih =>
      obtain ⟨hc, hds⟩ := List.forall_mem_cons.mp hletters
      simp only [isNameLetter, Bool.and_eq_true, Bool.not_eq_true'] at hc
      have hstep : advance (total, .inUnit numeral letters) c =
          .ok (total, .inUnit numeral (c :: letters)) := by
        simp [advance, hc]
      rw [List.foldlM_cons, hstep, List.reverse_cons, List.append_assoc]
      exact ih hds

/-- The name of a unit is read after a number. -/
theorem foldlM_advance_name (hne : ds ≠ []) (hletters : ∀ c ∈ ds, isNameLetter c = true) :
    ds.foldlM advance (total, .inWhole n) = .ok (total, .inUnit ⟨n, none⟩ ds.reverse) := by
  cases ds with
  | nil => exact absurd rfl hne
  | cons c ds =>
      obtain ⟨hc, hds⟩ := List.forall_mem_cons.mp hletters
      simp only [isNameLetter, Bool.and_eq_true, Bool.not_eq_true'] at hc
      have hstep : advance (total, .inWhole n) c = .ok (total, .inUnit ⟨n, none⟩ [c]) := by
        simp [advance, hc]
      rw [List.foldlM_cons, hstep, List.reverse_cons]
      exact foldlM_advance_inUnit hds

end Names

section Sums

/-- The nanoseconds of a measure. -/
def Measure.length : Measure → Nat
  | .nanos k => k
  | .seconds k => k * 1000000000

/-- A sum that is a span is had by adding to it, if the nanoseconds are below a second. -/
theorem add_eq_ok {seconds nanos : Nat} (hbelow : nanos < 1000000000)
    (hsum : total.nanos + seconds * 1000000000 + nanos = sum.nanos) :
    total.add seconds nanos = .ok sum := by
  have hcarry : fits (total.nanos % 1000000000 + nanos) = true := fits_of_lt (by omega)
  simp only [add, hcarry, ofNanos?_eq_some_iff.mpr hsum.symm, Bool.not_true, Bool.false_eq_true,
    if_false]

theorem addMeasure_eq_ok (hbelow : ∀ k, m = .nanos k → n * k < 1000000000)
    (hsum : total.nanos + n * m.length = sum.nanos) : total.addMeasure n m = .ok sum := by
  have hlt := sum.nanos_lt
  cases m with
  | nanos k =>
      have hk := hbelow k rfl
      rw [addMeasure, if_pos (fits_of_lt (by omega))]
      exact add_eq_ok hk (by rwa [Nat.zero_mul, Nat.add_zero])
  | seconds k =>
      rw [Measure.length, ← Nat.mul_assoc] at hsum
      rw [addMeasure, if_pos (fits_of_lt (by omega))]
      exact add_eq_ok (by decide) (by rwa [Nat.add_zero])

end Sums

section Parts

/-- The units that a span is written in, and whether they take a plural. -/
def partUnits : List (String × Bool) :=
  [("year", true), ("month", true), ("day", true), ("h", false), ("m", false), ("s", false),
    ("ms", false), ("us", false), ("ns", false)]

/-- What a unit of this name measures. -/
def measureOf (unit : String) : Measure := ((unit? unit).map (·.whole)).getD (.nanos 0)

def partNanos (p : Nat × String × Bool) : Nat := p.1 * (measureOf p.2.1).length

/-- A part that can be read: its count fits, and what is counted in nanoseconds is below a
second. -/
structure Legible (p : Nat × String × Bool) : Prop where
  unit : p.2 ∈ partUnits
  count : p.1 < UInt64.size
  below : ∀ k, measureOf p.2.1 = .nanos k → p.1 * k < 1000000000

/-- The name of a unit, in the plural or not. -/
def unitName (unit : String × Bool) (many : Bool) : String :=
  unit.1 ++ (if unit.2 && many then "s" else "")

theorem unit?_unitName :
    ∀ unit ∈ partUnits, ∀ many,
      (unit? (unitName unit many)).map (·.whole) = some (measureOf unit.1) := by
  decide

theorem all_isNameLetter_unitName :
    ∀ unit ∈ partUnits, ∀ many, (unitName unit many).toList ≠ [] ∧
      (unitName unit many).toList.all isNameLetter = true := by
  decide

theorem toList_partText (p : Nat × String × Bool) :
    (partText p).toList = Nat.toDigits 10 p.1 ++ (unitName p.2 (1 < p.1)).toList := by
  obtain ⟨n, unit, plural⟩ := p
  rw [partText, unitName, String.append_assoc, String.toList_append,
    Nat.toString_eq_ofList_toDigits, String.toList_ofList]

theorem map_partNanos_parts (s : Span) :
    s.parts.map partNanos =
      let seconds := s.nanos / 1000000000
      let nanos := s.nanos % 1000000000
      let inYear := seconds % secondsPerYear
      let inMonth := inYear % secondsPerMonth
      let inDay := inMonth % secondsPerDay
      [seconds / secondsPerYear * (secondsPerYear * 1000000000),
        inYear / secondsPerMonth * (secondsPerMonth * 1000000000),
        inMonth / secondsPerDay * (secondsPerDay * 1000000000),
        inDay / 3600 * (3600 * 1000000000),
        inDay % 3600 / 60 * (60 * 1000000000),
        inDay % 60 * (1 * 1000000000),
        nanos / 1000000 * 1000000,
        nanos / 1000 % 1000 * 1000,
        nanos % 1000 * 1] := rfl

/-- The parts of a span make up the span. -/
theorem sum_partNanos_parts (s : Span) : (s.parts.map partNanos).sum = s.nanos := by
  have hyear : secondsPerYear = 31557600 := rfl
  have hmonth : secondsPerMonth = 2630016 := rfl
  have hday : secondsPerDay = 86400 := rfl
  rw [map_partNanos_parts]
  dsimp only
  rw [hyear, hmonth, hday]
  -- The sum is unfolded by rewriting, for it is too large to be compared by evaluation.
  repeat rw [List.sum_cons]
  rw [List.sum_nil]
  omega

/-- Parts that are zero can be left out. -/
theorem sum_map_filter (ps : List (Nat × String × Bool)) :
    ((ps.filter fun p => p.1 != 0).map partNanos).sum = (ps.map partNanos).sum := by
  induction ps with
  | nil => rfl
  | cons p ps ih =>
      by_cases hp : p.1 = 0
      · have hnanos : partNanos p = 0 := by rw [partNanos, hp, Nat.zero_mul]
        rw [List.filter_cons_of_neg (by simp [hp]), ih, List.map_cons, List.sum_cons, hnanos,
          Nat.zero_add]
      · rw [List.filter_cons_of_pos (by simp [hp]), List.map_cons, List.map_cons, List.sum_cons,
          List.sum_cons, ih]

theorem legible_of_seconds {unit : String × Bool} (hunit : unit ∈ partUnits)
    (hmeasure : measureOf unit.1 = .seconds k) (hn : n < UInt64.size) : Legible (n, unit) where
  unit := hunit
  count := hn
  below l hl := by
    rw [hmeasure] at hl
    cases hl

theorem legible_of_nanos {unit : String × Bool} (hunit : unit ∈ partUnits)
    (hmeasure : measureOf unit.1 = .nanos k) (hk : 0 < k) (hn : n * k < 1000000000) :
    Legible (n, unit) where
  unit := hunit
  count := by
    have hle : n * 1 ≤ n * k := Nat.mul_le_mul_left n hk
    exact Nat.lt_of_le_of_lt (by rwa [Nat.mul_one] at hle) (Nat.lt_trans hn (by decide))
  below l hl := by
    rw [hmeasure] at hl
    cases hl
    exact hn

theorem legible_of_mem_parts {p : Nat × String × Bool} (hp : p ∈ s.parts) : Legible p := by
  have hlt := s.nanos_lt
  have hseconds : s.nanos / 1000000000 < UInt64.size := by
    have hsize : UInt64.size = 18446744073709551616 := rfl
    omega
  have hnanos : s.nanos % 1000000000 < 1000000000 := Nat.mod_lt _ (by decide)
  simp only [parts, List.mem_cons, List.not_mem_nil, or_false] at hp
  generalize s.nanos / 1000000000 = seconds at hp hseconds
  generalize s.nanos % 1000000000 = nanos at hp hnanos
  have hinYear := Nat.lt_of_le_of_lt (Nat.mod_le seconds secondsPerYear) hseconds
  have hinMonth := Nat.lt_of_le_of_lt (Nat.mod_le _ secondsPerMonth) hinYear
  have hinDay := Nat.lt_of_le_of_lt (Nat.mod_le _ secondsPerDay) hinMonth
  rcases hp with rfl | rfl | rfl | rfl | rfl | rfl | rfl | rfl | rfl
  · exact legible_of_seconds (by decide) rfl (Nat.lt_of_le_of_lt (Nat.div_le_self _ _) hseconds)
  · exact legible_of_seconds (by decide) rfl (Nat.lt_of_le_of_lt (Nat.div_le_self _ _) hinYear)
  · exact legible_of_seconds (by decide) rfl (Nat.lt_of_le_of_lt (Nat.div_le_self _ _) hinMonth)
  · exact legible_of_seconds (by decide) rfl (Nat.lt_of_le_of_lt (Nat.div_le_self _ _) hinDay)
  · exact legible_of_seconds (by decide) rfl (by omega)
  · exact legible_of_seconds (by decide) rfl (by omega)
  · exact legible_of_nanos (by decide) rfl (by decide) (by omega)
  · exact legible_of_nanos (by decide) rfl (by decide) (by omega)
  · exact legible_of_nanos (by decide) rfl (by decide) (by omega)

end Parts

section Reading

variable {p : Nat × String × Bool} {ps : List (Nat × String × Bool)}

theorem ok_bind {α β : Type} (a : α) (f : α → Except ReadError β) : Except.ok a >>= f = f a := rfl

/-- A part is read up to the end of its unit. -/
theorem foldlM_advance_partText (hp : Legible p) (total : Span) (first : Bool) :
    (partText p).toList.foldlM advance (total, .before first) =
      .ok (total, .inUnit ⟨p.1, none⟩ (unitName p.2 (1 < p.1)).toList.reverse) := by
  obtain ⟨hne, hletters⟩ := all_isNameLetter_unitName p.2 hp.unit (1 < p.1)
  rw [toList_partText, List.foldlM_append, foldlM_advance_toDigits hp.count]
  exact foldlM_advance_name hne (List.all_eq_true.mp hletters)

/-- At the end of its unit a part adds what it stands for. -/
theorem addNumeral_unitName (hp : Legible p) (hsum : total.nanos + partNanos p = sum.nanos) :
    total.addNumeral ⟨p.1, none⟩
      (String.ofList (unitName p.2 (1 < p.1)).toList.reverse.reverse) = .ok sum := by
  have hunit := unit?_unitName p.2 hp.unit (1 < p.1)
  rw [List.reverse_reverse, String.ofList_toList]
  cases hlookup : unit? (unitName p.2 (1 < p.1)) with
  | none =>
      rw [hlookup] at hunit
      cases hunit
  | some u =>
      rw [hlookup] at hunit
      have hmeasure : u.whole = measureOf p.2.1 := Option.some.inj hunit
      have hadd := addMeasure_eq_ok hp.below hsum
      simp only [addNumeral, hlookup, hmeasure, hadd]
      rfl

/-- Parts with blanks between them are read as their sum. -/
theorem finish_foldlM_advance (hne : ps ≠ []) (hps : ∀ p ∈ ps, Legible p)
    (hsum : total.nanos + (ps.map partNanos).sum = sum.nanos) (first : Bool) :
    ([' '].intercalate (ps.map fun p => (partText p).toList)).foldlM advance
      (total, .before first) >>= finish = .ok sum := by
  induction ps generalizing total first with
  | nil => exact absurd rfl hne
  | cons p ps ih =>
      obtain ⟨hp, hps⟩ := List.forall_mem_cons.mp hps
      rw [List.map_cons, List.sum_cons] at hsum
      cases ps with
      | nil =>
          have hlast : total.nanos + partNanos p = sum.nanos := hsum
          rw [List.map_cons, List.map_nil, List.intercalate_singleton,
            foldlM_advance_partText hp, ok_bind, finish]
          exact addNumeral_unitName hp hlast
      | cons q ps =>
          have hlt := sum.nanos_lt
          let next : Span := ⟨total.nanos + partNanos p, by omega⟩
          have hadd : total.addNumeral ⟨p.1, none⟩ _ = .ok next := addNumeral_unitName hp rfl
          have hblank : advance (total, .inUnit ⟨p.1, none⟩
              (unitName p.2 (1 < p.1)).toList.reverse) ' ' = .ok (next, .before false) := by
            simp only [advance, hadd]
            rfl
          have hnext : next.nanos + ((q :: ps).map partNanos).sum = sum.nanos := by
            rw [← hsum, Nat.add_assoc]
          have hpart : ((partText p).toList ++ [' ']).foldlM advance (total, .before first) =
              .ok (next, .before false) := by
            rw [List.foldlM_append, foldlM_advance_partText hp, ok_bind, List.foldlM_cons, hblank]
            rfl
          rw [List.map_cons, List.map_cons, List.intercalate_cons_cons, List.foldlM_append, hpart]
          exact ih (List.cons_ne_nil q ps) hps hnext false

/-- Every span is read back from its text. -/
theorem read_text (s : Span) : read s.text = .ok s := by
  by_cases hzero : s.isZero = true
  · have hs : s = zero := ext (beq_iff_eq.mp hzero)
    rw [hs]
    rfl
  · have hps : ∀ p ∈ s.parts.filter fun p => p.1 != 0, Legible p :=
      fun p hp => legible_of_mem_parts (List.mem_filter.mp hp).1
    have hsum : zero.nanos + ((s.parts.filter fun p => p.1 != 0).map partNanos).sum =
        s.nanos := by
      rw [sum_map_filter, sum_partNanos_parts, nanos_zero, Nat.zero_add]
    have hne : (s.parts.filter fun p => p.1 != 0) ≠ [] := by
      intro hnil
      rw [hnil] at hsum
      exact hzero (beq_iff_eq.mpr hsum.symm)
    have hread := finish_foldlM_advance hne hps hsum true
    have htext : s.text.toList = [' '].intercalate
        ((s.parts.filter fun p => p.1 != 0).map fun p => (partText p).toList) := by
      rw [text, if_neg hzero, String.toList_intercalate, List.map_map]
      rfl
    rw [← htext] at hread
    have hlone : s.text ≠ "0" := by
      intro h
      rw [h] at hread
      cases hread
    rw [read, if_neg hlone]
    exact hread

example : (⟨5401500000000, by decide⟩ : Span).text = "1h 30m 1s 500ms" := by decide +kernel

end Reading

end Span

end LeaseElection
