import LeaseElection.Lock.Basic

/-!
# Identities

Identities are drawn from sequences, `stem-1`, `stem-2` and so on.  Handles may
share one sequence: a number drawn through one of them is gone for all.  An
identity can also be made from 128 random bits.
-/

namespace LeaseElection

/-- A numbered sequence of names. -/
structure IdSequence where
  stem : String
  /-- How many names were drawn so far, taken to be fewer than `2 ^ 64`, as many
  as a word can count. -/
  drawn : Nat := 0
deriving DecidableEq

namespace IdSequence

/-- The stem used where none is given. -/
def defaultStem : String := "id"

/-- The `k`-th name of a sequence. -/
def nameAt (s : IdSequence) (k : Nat) : String := s.stem ++ "-" ++ toString k

/-- Draws the next name. -/
def next (s : IdSequence) : String × IdSequence :=
  (s.nameAt (s.drawn + 1), { s with drawn := s.drawn + 1 })

@[simp]
theorem drawn_next (s : IdSequence) : s.next.2.drawn = s.drawn + 1 := rfl

@[simp]
theorem stem_next (s : IdSequence) : s.next.2.stem = s.stem := rfl

end IdSequence

/-- Sequences and the handles on them; a handle is the index of its sequence. -/
structure IdRegistry where
  sequences : List IdSequence := []
  handles : List Nat := []
deriving DecidableEq

namespace IdRegistry

/-- A handle on a sequence of its own. -/
def create (r : IdRegistry) (stem : String) : Nat × IdRegistry :=
  (r.handles.length,
    ⟨r.sequences ++ [IdSequence.mk stem 0], r.handles ++ [r.sequences.length]⟩)

/-- Another handle on the sequence of `handle`. -/
def share? (r : IdRegistry) (handle : Nat) : Option (Nat × IdRegistry) :=
  r.handles[handle]?.map fun i => (r.handles.length, { r with handles := r.handles ++ [i] })

/-- Uses the sequence of `handle`, which may draw names from it. -/
def use? {α : Type} (r : IdRegistry) (handle : Nat) (f : IdSequence → α × IdSequence) :
    Option (α × IdRegistry) := do
  let i ← r.handles[handle]?
  let s ← r.sequences[i]?
  let (x, s) := f s
  some (x, { r with sequences := r.sequences.set i s })

/-- Draws a name through `handle`. -/
def draw? (r : IdRegistry) (handle : Nat) : Option (String × IdRegistry) :=
  r.use? handle IdSequence.next

end IdRegistry

/-- A universally unique identifier, as two halves of 64 bits. -/
structure Uuid where
  high : UInt64
  low : UInt64
deriving DecidableEq

namespace Uuid

/-- The identifier made of random bits: version 4, variant `10`. -/
def ofEntropy (high low : UInt64) : Uuid where
  high := (high &&& 0xFFFFFFFFFFFF0FFF) ||| 0x4000
  low := (low &&& 0x3FFFFFFFFFFFFFFF) ||| 0x8000000000000000

/-- The `n` lowest hexadecimal digits of a word. -/
def hexDigits (w : Nat) : Nat → List Char
  | 0 => []
  | n + 1 => hexDigits (w / 16) n ++ [Nat.digitChar (w % 16)]

/-- Lower-case digits in groups of 8, 4, 4, 4 and 12. -/
def text (u : Uuid) : String :=
  let h := u.high.toNat
  let l := u.low.toNat
  String.ofList <| "-".toList.intercalate
    [hexDigits (h / 4294967296) 8, hexDigits (h / 65536) 4, hexDigits h 4,
      hexDigits (l / 281474976710656) 4, hexDigits l 12]

end Uuid

end LeaseElection
