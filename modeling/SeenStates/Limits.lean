/-!
# Limits

Counts, sizes and positions are natural numbers below `2 ^ 64`, small settings below `2 ^ 32`. A
sum or product that has to stay in range is either refused (`none`) or cut off. What else a set can
have depends on the machine that it is opened on.
-/
namespace SeenStates

/-- The least number that is too large for a count, a size or a position. -/
def countLimit : Nat := Nat.pow 2 64

/-- The least number that is too large for a small setting. -/
def smallLimit : Nat := Nat.pow 2 32

/-- The least count of bytes that is too large for a block of memory, however much there is. -/
def blockLimit : Nat := Nat.pow 2 63

/-- A number that is in range as a count. -/
def inRange? (n : Nat) : Option Nat := if n < countLimit then some n else none

/-- A product of two counts, cut off at the largest count. -/
def saturatingMul (a b : Nat) : Nat := min (a * b) (countLimit - 1)

/-- What a set learns of the machine that it is opened on. -/
structure Machine where
  /-- The memory that is available, in bytes. -/
  available : Nat
  /-- The size of the largest block of memory that is granted, in bytes. -/
  largestBlock : Nat
  /-- The count of processors. -/
  processors : Nat

namespace Machine

/-- Whether a block of memory is granted. -/
def grants (m : Machine) (bytes : Nat) : Bool :=
  decide (bytes < blockLimit ∧ bytes ≤ m.largestBlock)

/-- The locks of a set whose configuration does not say: eight for each processor, rounded up to a
power of two. -/
def locks (m : Machine) : Nat := Nat.nextPowerOfTwo (m.processors * 8)

end Machine

end SeenStates
