/-!
# Spans of time

A span is a non-negative length of time counted in nanoseconds.  Its whole
seconds fit in 64 bits, so the longest span is one nanosecond short of `2^64`
seconds.
-/

namespace LeaseElection

/-- A length of time in nanoseconds. -/
structure Span where
  nanos : Nat
  nanos_lt : nanos < 18446744073709551616000000000
deriving DecidableEq

namespace Span

theorem ext {a b : Span} (h : a.nanos = b.nanos) : a = b := by
  cases a; cases b; simp_all

instance : Inhabited Span := ⟨⟨0, by decide⟩⟩

instance : LT Span := ⟨fun a b => a.nanos < b.nanos⟩
instance : LE Span := ⟨fun a b => a.nanos ≤ b.nanos⟩

instance (a b : Span) : Decidable (a < b) := inferInstanceAs (Decidable (a.nanos < b.nanos))
instance (a b : Span) : Decidable (a ≤ b) := inferInstanceAs (Decidable (a.nanos ≤ b.nanos))

theorem lt_iff {a b : Span} : a < b ↔ a.nanos < b.nanos := Iff.rfl
theorem le_iff {a b : Span} : a ≤ b ↔ a.nanos ≤ b.nanos := Iff.rfl

/-- No time at all. -/
def zero : Span := ⟨0, by decide⟩

def isZero (s : Span) : Bool := s.nanos == 0

/-- The span of `n` nanoseconds, if seconds can count it. -/
def ofNanos? (n : Nat) : Option Span :=
  if h : n < 18446744073709551616000000000 then some ⟨n, h⟩ else none

/-- A 64-bit count of nanoseconds always is a span. -/
def ofNanos (n : UInt64) : Span :=
  ⟨n.toNat, by have := n.toNat_lt; omega⟩

/-- A 64-bit count of milliseconds always is a span. -/
def ofMillis (n : UInt64) : Span :=
  ⟨n.toNat * 1000000, by have := n.toNat_lt; omega⟩

/-- Whole milliseconds in a span, capped at the largest 64-bit count. -/
def millis (s : Span) : Nat := min (s.nanos / 1000000) (UInt64.size - 1)

/-- Whether a span is a whole number of milliseconds. -/
def isWholeMillis (s : Span) : Bool := s.nanos % 1000000 == 0

@[simp]
theorem nanos_zero : zero.nanos = 0 := rfl

@[simp]
theorem nanos_ofNanos (n : UInt64) : (ofNanos n).nanos = n.toNat := rfl

@[simp]
theorem nanos_ofMillis (n : UInt64) : (ofMillis n).nanos = n.toNat * 1000000 := rfl

theorem ofNanos?_eq_some_iff {n : Nat} {s : Span} : ofNanos? n = some s ↔ s.nanos = n := by
  unfold ofNanos?
  split
  · constructor
    · intro h; cases h; rfl
    · intro h; exact congrArg some (ext h.symm)
  · constructor
    · intro h; cases h
    · intro h; exact absurd s.nanos_lt (h ▸ by assumption)

end Span

end LeaseElection
