import LeaseElection.Policy
import Mathlib.Algebra.Order.Ring.Nat

/-!
# Jitter from random words

A jitter is drawn with machine words throughout: the high half of a product of two words, and
sometimes one more.  Nothing there can fail, neither for want of a range to draw from nor
because a sum leaves the word.  What is drawn are whole milliseconds below the bound, all of
them, from one or two words; and a bound below a millisecond takes none.
-/

namespace LeaseElection

/-- The sum of two words, if a word holds it. -/
def addWords? (a b : UInt64) : Option UInt64 :=
  if a.toNat + b.toNat < UInt64.size then some (a + b) else none

/-- The high half of the product of two words. -/
def mulHigh (a b : UInt64) : UInt64 := (a.toNat * b.toNat / UInt64.size).toUInt64

/-- A draw below `m` in words alone, and how many of the random ones it took.  It fails on an
empty range, and where no word holds the result. -/
def drawWord? (m w w' : UInt64) : Option (UInt64 × Nat) :=
  if m = 0 then none
  else if -m < w * m then
    let carry := if (addWords? (w * m) (mulHigh w' m)).isNone then 1 else 0
    (addWords? (mulHigh w m) carry).map (·, 2)
  else some (mulHigh w m, 1)

/-- A jitter below `max` in words alone.  No range is asked for where there is none. -/
def drawJitter? (max : Span) (w w' : UInt64) : Option (Span × Nat) :=
  let m := max.millis.toUInt64
  if m = 0 then some (.zero, 0)
  else (drawWord? m w w').map fun (ms, used) => (.ofMillis ms, used)

/-- The jitter below `max` that the words from the `i`-th on give, and how many it takes. -/
def jitterFrom (max : Span) (words : WordStream) (i : Nat) : Span × Nat :=
  drawJitter max (words i) (words (i + 1))

section Words

theorem addWords?_of_lt {a b : UInt64} (hfits : a.toNat + b.toNat < UInt64.size) :
    addWords? a b = some (a.toNat + b.toNat).toUInt64 := by
  rw [addWords?, if_pos hfits, Nat.toUInt64_eq, UInt64.ofNat_add, UInt64.ofNat_toNat,
    UInt64.ofNat_toNat]

theorem isNone_addWords? (a b : UInt64) :
    (addWords? a b).isNone = decide (UInt64.size ≤ a.toNat + b.toNat) := by
  rw [addWords?]
  split
  next hfits => simpa using hfits
  next hlarge => simpa using hlarge

/-- A word times `m` leaves room for `m` in as many words. -/
theorem mul_add_le (w : UInt64) (m : Nat) : w.toNat * m + m ≤ UInt64.size * m := by
  rw [← Nat.succ_mul]
  exact Nat.mul_le_mul_right m w.toNat_lt

theorem toNat_mulHigh (a b : UInt64) :
    (mulHigh a b).toNat = a.toNat * b.toNat / UInt64.size := by
  have hle := mul_add_le a b.toNat
  have hb := b.toNat_lt
  rw [mulHigh, Nat.toUInt64_eq, UInt64.toNat_ofNat_of_lt']
  unfold UInt64.size at *
  omega

theorem toNat_neg_of_ne_zero {m : UInt64} (hm : m ≠ 0) : (-m).toNat = UInt64.size - m.toNat := by
  have hpos : 0 < m.toNat := Nat.pos_of_ne_zero fun hzero => hm (UInt64.toNat_inj.mp hzero)
  have hlt := m.toNat_lt
  rw [UInt64.toNat_neg]
  unfold UInt64.size
  omega

end Words

section Draws

variable {m k : Nat} {w w' : UInt64}

theorem drawBelow_of_pos (hm : 0 < m) :
    drawBelow m w w' =
      if UInt64.size - m < w.toNat * m % UInt64.size then
        (w.toNat * m / UInt64.size + if UInt64.size ≤
          w.toNat * m % UInt64.size + w'.toNat * m / UInt64.size then 1 else 0, 2)
      else (w.toNat * m / UInt64.size, 1) :=
  if_neg (Nat.ne_of_gt hm)

theorem drawBelow_used (hm : 0 < m) (w w' : UInt64) :
    (drawBelow m w w').2 = 1 ∨ (drawBelow m w w').2 = 2 := by
  rw [drawBelow_of_pos hm]
  split
  · exact Or.inr rfl
  · exact Or.inl rfl

/-- Where one word was enough the next one has no bearing on the draw. -/
theorem drawBelow_congr (hused : (drawBelow m w w').2 ≠ 2) (w'' : UInt64) :
    drawBelow m w w'' = drawBelow m w w' := by
  rcases m.eq_zero_or_pos with rfl | hm
  · rfl
  · rw [drawBelow_of_pos hm] at hused ⊢
    rw [drawBelow_of_pos hm]
    split
    · rename_i hlow
      rw [if_pos hlow] at hused
      exact absurd rfl hused
    · rfl

/-- A high half that is the largest result comes with a low half that takes no second word. -/
theorem drawBelow_lt (hm : 0 < m) (hsize : m ≤ UInt64.size) (w w' : UInt64) :
    (drawBelow m w w').1 < m := by
  have hle := mul_add_le w m
  rw [drawBelow_of_pos hm]
  unfold UInt64.size at *
  generalize w.toNat * m = product at *
  split
  · have hcarry : (if 18446744073709551616 ≤
        product % 18446744073709551616 + w'.toNat * m / 18446744073709551616 then 1 else 0) ≤ 1 := by
      split <;> decide
    dsimp only
    omega
  · dsimp only
    omega

/-- From any number there are less than `m` steps to a multiple of `m`. -/
theorem exists_mul_eq_add (hm : 0 < m) (n : Nat) : ∃ a, ∃ r < m, a * m = n + r := by
  have hdiv := Nat.div_add_mod' (n + (m - 1)) m
  have hmod := Nat.mod_lt (n + (m - 1)) hm
  exact ⟨(n + (m - 1)) / m, m - 1 - (n + (m - 1)) % m, by omega, by omega⟩

/-- The first word whose product with `m` has `k` for its high half draws `k`, if a zero
follows. -/
theorem exists_drawBelow_eq (hk : k < m) (hsize : m ≤ UInt64.size) :
    ∃ w, (drawBelow m w 0).1 = k := by
  have hm : 0 < m := Nat.zero_lt_of_lt hk
  obtain ⟨a, r, hr, hproduct⟩ := exists_mul_eq_add hm (k * UInt64.size)
  have ha : a < UInt64.size := by
    apply Nat.lt_of_mul_lt_mul_right (a := m)
    calc a * m = k * UInt64.size + r := hproduct
      _ < k * UInt64.size + UInt64.size := Nat.add_lt_add_left (Nat.lt_of_lt_of_le hr hsize) _
      _ = (k + 1) * UInt64.size := (Nat.succ_mul ..).symm
      _ ≤ m * UInt64.size := Nat.mul_le_mul_right _ hk
      _ = UInt64.size * m := Nat.mul_comm ..
  have hlow : r < UInt64.size := Nat.lt_of_lt_of_le hr hsize
  refine ⟨a.toUInt64, ?_⟩
  rw [drawBelow_of_pos hm, Nat.toUInt64_eq, UInt64.toNat_ofNat_of_lt' ha, hproduct]
  have hhigh : (k * UInt64.size + r) / UInt64.size = k := by
    rw [Nat.mul_comm, Nat.mul_add_div (by decide), Nat.div_eq_of_lt hlow, Nat.add_zero]
  have hzero : ¬UInt64.size ≤
      (k * UInt64.size + r) % UInt64.size + (0 : UInt64).toNat * m / UInt64.size := by
    rw [UInt64.toNat_zero, Nat.zero_mul, Nat.zero_div, Nat.add_zero, Nat.not_le]
    exact Nat.mod_lt _ (by decide)
  rw [if_neg hzero, hhigh]
  split <;> rfl

/-- In words a draw from a range that is not empty goes well, and gives the same. -/
theorem drawWord?_eq {m : UInt64} (hm : m ≠ 0) (w w' : UInt64) :
    drawWord? m w w' =
      some ((drawBelow m.toNat w w').1.toUInt64, (drawBelow m.toNat w w').2) := by
  have hpos : 0 < m.toNat := Nat.pos_of_ne_zero fun hzero => hm (UInt64.toNat_inj.mp hzero)
  have hbelow := drawBelow_lt hpos (Nat.le_of_lt m.toNat_lt) w w'
  have hlow : (-m < w * m) ↔ UInt64.size - m.toNat < w.toNat * m.toNat % UInt64.size := by
    rw [UInt64.lt_iff_toNat_lt, toNat_neg_of_ne_zero hm, UInt64.toNat_mul]
  have hcarries : (addWords? (w * m) (mulHigh w' m)).isNone =
      decide (UInt64.size ≤
        w.toNat * m.toNat % UInt64.size + w'.toNat * m.toNat / UInt64.size) := by
    rw [isNone_addWords?, toNat_mulHigh, UInt64.toNat_mul]
  have hcarry (c : Prop) [Decidable c] :
      (if c then 1 else 0 : UInt64).toNat = if c then 1 else 0 := by
    split <;> rfl
  rw [drawBelow_of_pos hpos] at hbelow ⊢
  rw [drawWord?, if_neg hm, hcarries]
  simp only [hlow, decide_eq_true_eq]
  split
  next hsecond =>
    rw [if_pos hsecond, ← toNat_mulHigh w m, ← hcarry] at hbelow
    rw [addWords?_of_lt (Nat.lt_trans hbelow m.toNat_lt), toNat_mulHigh, hcarry]
    rfl
  next => rfl

end Draws

section Jitters

variable {max : Span} {w w' : UInt64}

theorem millis_lt (max : Span) : max.millis < UInt64.size :=
  Nat.lt_of_le_of_lt (Nat.min_le_right ..) (by decide)

theorem millis_pos_iff : 0 < max.millis ↔ 1000000 ≤ max.nanos := by
  rw [Span.millis]
  unfold UInt64.size
  omega

/-- Fewer milliseconds than the whole ones of a span are shorter than the span. -/
theorem mul_lt_nanos_of_lt_millis {k : Nat} (hk : k < max.millis) :
    k * 1000000 < max.nanos := by
  rw [Span.millis] at hk
  omega

theorem drawJitter_eq (max : Span) (w w' : UInt64) :
    drawJitter max w w' =
      (.ofMillis (drawBelow max.millis w w').1.toUInt64, (drawBelow max.millis w w').2) := rfl

theorem drawJitter_of_lt (hmax : max.nanos < 1000000) : drawJitter max w w' = (.zero, 0) := by
  have hzero : max.millis = 0 := by
    rw [Span.millis, Nat.div_eq_of_lt hmax, Nat.zero_min]
  rw [drawJitter_eq, hzero, drawBelow_zero]
  rfl

/-- A jitter is as many whole milliseconds as were drawn, which fit in a word. -/
theorem nanos_drawJitter (hmillis : 0 < max.millis) (w w' : UInt64) :
    (drawJitter max w w').1.nanos = (drawBelow max.millis w w').1 * 1000000 := by
  have hsize := millis_lt max
  have hbelow := drawBelow_lt hmillis (Nat.le_of_lt hsize) w w'
  rw [drawJitter_eq, Span.nanos_ofMillis, Nat.toUInt64_eq,
    UInt64.toNat_ofNat_of_lt' (Nat.lt_trans hbelow hsize)]

/-- The words that a jitter did not take have no bearing on it. -/
theorem jitterFrom_congr {words words' : WordStream} {i : Nat}
    (hsame : ∀ k < (jitterFrom max words i).2, words' (i + k) = words (i + k)) :
    jitterFrom max words' i = jitterFrom max words i := by
  simp only [jitterFrom, drawJitter_eq] at hsame ⊢
  rcases max.millis.eq_zero_or_pos with hzero | hmillis
  · simp only [hzero, drawBelow_zero]
  · rcases drawBelow_used hmillis (words i) (words (i + 1)) with hone | htwo
    · have hfirst := hsame 0 (by rw [hone]; decide)
      rw [Nat.add_zero] at hfirst
      rw [hfirst, drawBelow_congr (by rw [hone]; decide)]
    · have hfirst := hsame 0 (by rw [htwo]; decide)
      have hsecond := hsame 1 (by rw [htwo]; decide)
      rw [Nat.add_zero] at hfirst
      rw [hfirst, hsecond]

theorem drawJitter?_eq (max : Span) (w w' : UInt64) :
    drawJitter? max w w' = some (drawJitter max w w') := by
  have htoNat : max.millis.toUInt64.toNat = max.millis := by
    rw [Nat.toUInt64_eq, UInt64.toNat_ofNat_of_lt' (millis_lt max)]
  rw [drawJitter?]
  split
  next hzero =>
    have hmillis : max.millis = 0 := by rw [← htoNat, hzero, UInt64.toNat_zero]
    rw [drawJitter_eq, hmillis, drawBelow_zero]
    rfl
  next hm =>
    rw [drawWord?_eq hm, htoNat]
    rfl

/-- To draw a jitter never fails, and what is drawn is fixed by the words that it takes.  A bound
below a millisecond takes no word and gives no jitter.  Any other takes one word or two, and
gives whole milliseconds, fewer than the bound has and fewer than the largest word; and all of
them, each from some words. -/
theorem jitterFrom_below (max : Span) (words : WordStream) (i : Nat) :
    let m := min (max.nanos / 1000000) (2 ^ 64 - 1)
    drawJitter? max (words i) (words (i + 1)) = some (jitterFrom max words i) ∧
    (∀ words' : WordStream, (∀ k < (jitterFrom max words i).2, words' (i + k) = words (i + k)) →
      jitterFrom max words' i = jitterFrom max words i) ∧
    (max.nanos < 1000000 → jitterFrom max words i = (.zero, 0)) ∧
    (1000000 ≤ max.nanos →
      ((jitterFrom max words i).2 = 1 ∨ (jitterFrom max words i).2 = 2) ∧
      (jitterFrom max words i).1 < max ∧
      (∃ k < m, (jitterFrom max words i).1.nanos = k * 1000000) ∧
      ∀ k < m, ∃ words' : WordStream, (jitterFrom max words' i).1.nanos = k * 1000000) := by
  intro m
  refine ⟨drawJitter?_eq .., fun words' => jitterFrom_congr, drawJitter_of_lt, fun hmax => ?_⟩
  have hmillis := millis_pos_iff.mpr hmax
  have hsize := Nat.le_of_lt (millis_lt max)
  have hbelow := drawBelow_lt hmillis hsize (words i) (words (i + 1))
  have hnanos := nanos_drawJitter hmillis (words i) (words (i + 1))
  refine ⟨drawBelow_used hmillis .., ?_, ⟨_, hbelow, hnanos⟩, fun k hk => ?_⟩
  · rw [Span.lt_iff, jitterFrom, hnanos]
    exact mul_lt_nanos_of_lt_millis hbelow
  · obtain ⟨w, hw⟩ := exists_drawBelow_eq (m := max.millis) hk hsize
    refine ⟨fun j => if j = i then w else 0, ?_⟩
    rw [jitterFrom, if_pos rfl, if_neg (Nat.succ_ne_self i), nanos_drawJitter hmillis, hw]

/-- Three times a third of the largest word is that word, so a second word decides, and here it
adds one.  A bound just below a millisecond has no use for either. -/
theorem jitterFrom_below_of_carry :
    let words := WordStream.ofList [6148914691236517205, 18446744073709551615]
    drawJitter? (.ofMillis 3) (words 0) (words 1) = some (.ofMillis 1, 2) ∧
      (jitterFrom (.ofMillis 3) words 0).1 < .ofMillis 3 ∧
      (∃ words' : WordStream, (jitterFrom (.ofMillis 3) words' 0).1.nanos = 2000000) ∧
      jitterFrom (.ofNanos 999999) words 0 = (.zero, 0) := by
  intro words
  obtain ⟨hnever, -, -, hlong⟩ := jitterFrom_below (.ofMillis 3) words 0
  obtain ⟨-, hbelow, -, hall⟩ := hlong (by decide)
  obtain ⟨-, -, hshort, -⟩ := jitterFrom_below (.ofNanos 999999) words 0
  exact ⟨hnever.trans (by decide +kernel), hbelow, hall 2 (by decide), hshort (by decide)⟩

end Jitters

end LeaseElection
