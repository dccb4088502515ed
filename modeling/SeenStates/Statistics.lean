/-!
# Statistics

The counters that a set shows. The counters of shards are added up.
-/
namespace SeenStates

/-- What a set has done and holds. -/
structure Statistics where
  /-- The fingerprints taken as new. -/
  size : Nat
  /-- The look-ups answered from memory. -/
  memoryHits : Nat
  /-- The look-ups answered from the run. -/
  diskHits : Nat
  /-- The flushes done. -/
  flushes : Nat
  /-- The live fingerprints in the table. -/
  tableLive : Nat
  /-- The fingerprints in overflow. -/
  overflow : Nat
  /-- The entries of the run. -/
  diskCount : Nat
  /-- The slots of the table, or the bits of a Bloom filter. -/
  capacity : Nat
deriving DecidableEq

namespace Statistics

/-- All counters zero. -/
def zero : Statistics := ⟨0, 0, 0, 0, 0, 0, 0, 0⟩

/-- The counters of two sets together. -/
def add (a b : Statistics) : Statistics where
  size := a.size + b.size
  memoryHits := a.memoryHits + b.memoryHits
  diskHits := a.diskHits + b.diskHits
  flushes := a.flushes + b.flushes
  tableLive := a.tableLive + b.tableLive
  overflow := a.overflow + b.overflow
  diskCount := a.diskCount + b.diskCount
  capacity := a.capacity + b.capacity

end Statistics

end SeenStates
