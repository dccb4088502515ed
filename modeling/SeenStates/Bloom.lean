import SeenStates.Arena
import SeenStates.Bloom.Bits
import SeenStates.Config
import SeenStates.Host
import SeenStates.Statistics

/-!
# Bloom filters

A set of fixed size that may take a new fingerprint for a seen one. A fingerprint sets the bits at
its probes, one after the other; it is taken as seen when each of them was set already. Probes
follow enhanced double hashing: from two words `lo` and `hi`, modulo the count of bits, the `i`-th
step adds the second to the first and `i` to the second.
-/
namespace SeenStates

/-- A Bloom filter. -/
structure BloomFilter (w : Width) where
  /-- The name of the set. -/
  name : String
  /-- The bits, as long as the filter is open. -/
  bits : BitArray
  /-- The count of bits. -/
  bitCount : Nat
  /-- The probes of a fingerprint. -/
  hashes : Nat
  /-- The count of fingerprints taken as new. -/
  inserted : Nat
  /-- Whether the filter is closed. -/
  closed : Bool

namespace BloomFilter

variable {w : Width}

/-- The largest count of bits. The sum of two probes still fits a word. -/
def maxBits : Nat := Nat.pow 2 63

/-- The count of bits of a budget in bytes. -/
def bitsOf (bytes : Nat) : Nat := min (saturatingMul bytes 8) maxBits

/-- The empty filter of a configuration. Each of its locks takes a byte. -/
def make (w : Width) (machine : Machine) (c : Config) : Except Error (BloomFilter w) := do
  c.validate
  if c.width ≠ w then .error (.widthMismatch c.width.bits w.bits)
  else do
    let bytes ← c.memoryBytes machine.available
    let bitCount := bitsOf bytes
    if bitCount < 64 then .error (.config (.noFilter bytes))
    else if !machine.grants (BitArray.wordsFor bitCount * 8) then .error (.allocation bytes)
    else if blockLimit ≤ c.lockCount.getD machine.locks then
      .error (.tooManyLocks (c.lockCount.getD machine.locks))
    else .ok ⟨c.name, .zeros bitCount, bitCount, c.bloomHashes, 0, false⟩

/-- Open the empty filter of a configuration. -/
def «open» (w : Width) (machine : Machine) (c : Config) (h : Host) :
    Except Error (BloomFilter w) × Host :=
  match make w machine c with
  | .error e => (.error e, h)
  | .ok filter => (.ok filter, h.report .filterAllocated)

/-- The probes from the `i`-th on, where `x` is the probe before it and `y` its increment. -/
def probesFrom (m x y : Nat) : Nat → Nat → List Nat
  | 0, _ => []
  | n + 1, i =>
    let x := (x + y) % m
    let y := (y + i) % m
    x :: probesFrom m x y n (i + 1)

/-- The first `k` probes of a pair of words among `m` bits. -/
def probeList (m k lo hi : Nat) : List Nat :=
  match k with
  | 0 => []
  | k + 1 => lo % m :: probesFrom m (lo % m) (hi % m) k 1

/-- The probes of a fingerprint. -/
def probes (f : BloomFilter w) (fp : Fingerprint w) : List Nat :=
  probeList f.bitCount f.hashes fp.probeLanes.1 fp.probeLanes.2

/-- Set bits one after the other. The answer is also whether each of them was set already when its
turn came, beside `seen`. -/
def setEach (bits : BitArray) (seen : Bool) : List Nat → BitArray × Bool
  | [] => (bits, seen)
  | i :: rest =>
    let before := bits.test i
    setEach (bits.set i) (seen && before) rest

/-- Whether bits are all set. -/
def testAll (bits : BitArray) (positions : List Nat) : Bool := positions.all bits.test

/-- The filter with bits set for a fingerprint, and whether they were all set already. The
fingerprint counts as new if one of them was not. -/
def marked (f : BloomFilter w) (positions : List Nat) : BloomFilter w × Bool :=
  let (bits, seen) := setEach f.bits true positions
  ({ f with bits, inserted := if seen then f.inserted else f.inserted + 1 }, seen)

/-- Put a fingerprint into the filter. The answer is whether it is taken as seen. -/
def put (fp : Fingerprint w) (f : BloomFilter w) (h : Host) : Outcome (BloomFilter w) Bool :=
  if f.closed then .fail .closed f h
  else
    let (f, seen) := f.marked (f.probes fp)
    .ok seen f h

/-- Whether a fingerprint is taken as seen. -/
def contains (fp : Fingerprint w) (f : BloomFilter w) (h : Host) : Outcome (BloomFilter w) Bool :=
  if f.closed then .fail .closed f h else .ok (testAll f.bits (f.probes fp)) f h

/-- The count of fingerprints taken as new. -/
def size (f : BloomFilter w) : Nat := f.inserted

/-- The rate of false answers to be expected of `n` fingerprints in `m` bits with `k` probes:
`(1 - e ^ (-k n / m)) ^ k`. -/
def expectedRate (n m k : Nat) : Float :=
  let exponent := -(Float.ofNat k) * Float.ofNat n / Float.ofNat m
  Float.pow (1 - Float.exp exponent) (Float.ofNat k)

/-- The rate of false answers to be expected now. -/
def falsePositiveRate (f : BloomFilter w) : Float := expectedRate f.inserted f.bitCount f.hashes

/-- The counters of the filter. -/
def statistics (f : BloomFilter w) : Statistics :=
  { Statistics.zero with size := f.inserted, capacity := f.bitCount }

/-- Close the filter. Closing a closed filter does nothing. -/
def close (f : BloomFilter w) (h : Host) : Outcome (BloomFilter w) Unit :=
  if f.closed then .ok () f h
  else .ok () { f with closed := true, bits := .zeros 0 } (h.report (.filterClosed f.name))

end BloomFilter

end SeenStates
