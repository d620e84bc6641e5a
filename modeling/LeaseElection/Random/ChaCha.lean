import LeaseElection.Random.Draw

/-!
# A stream of words from a seed

The words come from the ChaCha stream cipher with twelve rounds.  Its key is
spread out from a 64-bit seed by a small generator of the permuted congruential
kind; the block counter starts at zero and the nonce is zero.
-/

namespace LeaseElection

namespace ChaCha

abbrev State := Vector UInt32 16

def rotateLeft (x : UInt32) (n : UInt32) : UInt32 := (x <<< n) ||| (x >>> (32 - n))

def quarterRound (a b c d : Fin 16) (s : State) : State :=
  let xa := s[a] + s[b]
  let xd := rotateLeft (s[d] ^^^ xa) 16
  let xc := s[c] + xd
  let xb := rotateLeft (s[b] ^^^ xc) 12
  let xa := xa + xb
  let xd := rotateLeft (xd ^^^ xa) 8
  let xc := xc + xd
  let xb := rotateLeft (xb ^^^ xc) 7
  (((s.set a xa).set b xb).set c xc).set d xd

/-- A round on the columns and one on the diagonals. -/
def doubleRound (s : State) : State :=
  let s := quarterRound 0 4 8 12 s
  let s := quarterRound 1 5 9 13 s
  let s := quarterRound 2 6 10 14 s
  let s := quarterRound 3 7 11 15 s
  let s := quarterRound 0 5 10 15 s
  let s := quarterRound 1 6 11 12 s
  let s := quarterRound 2 7 8 13 s
  quarterRound 3 4 9 14 s

def rounds : Nat → State → State
  | 0, s => s
  | n + 1, s => rounds n (doubleRound s)

/-- The state before the rounds: four constants, the key, the block number. -/
def initial (key : Vector UInt32 8) (block : Nat) : State :=
  #v[0x61707865, 0x3320646e, 0x79622d32, 0x6b206574,
    key[0], key[1], key[2], key[3], key[4], key[5], key[6], key[7],
    block.toUInt32, (block / 4294967296).toUInt32, 0, 0]

/-- A block of sixteen words of 32 bits, after six double rounds. -/
def block (key : Vector UInt32 8) (n : Nat) : State :=
  let s := initial key n
  Vector.zipWith (· + ·) s (rounds 6 s)

/-- The words of the key stream: two halves each, the low one first. -/
def words (key : Vector UInt32 8) : WordStream := fun i =>
  let b := block key (i / 8)
  let low := b.toArray.getD (2 * (i % 8)) 0
  let high := b.toArray.getD (2 * (i % 8) + 1) 0
  low.toUInt64 ||| (high.toUInt64 <<< 32)

end ChaCha

namespace Seed

/-- One step of the congruence. -/
def next (s : UInt64) : UInt64 := s * 6364136223846793005 + 11634580027462260723

/-- The output of a step: high bits, rotated by the highest. -/
def output (s : UInt64) : UInt32 :=
  let x := (((s >>> 18) ^^^ s) >>> 27).toUInt32
  let r := (s >>> 59).toUInt32
  (x >>> r) ||| (x <<< ((32 - r) &&& 31))

/-- The first `n` outputs from a seed. -/
def outputs : Nat → UInt64 → List UInt32
  | 0, _ => []
  | n + 1, s => output (next s) :: outputs n (next s)

/-- The key for a seed. -/
def key (seed : UInt64) : Vector UInt32 8 :=
  let ks := outputs 8 seed
  Vector.ofFn fun i => ks.getD i.val 0

end Seed

/-- The stream of words for a seed. -/
def WordStream.ofSeed (seed : UInt64) : WordStream := ChaCha.words (Seed.key seed)

end LeaseElection
