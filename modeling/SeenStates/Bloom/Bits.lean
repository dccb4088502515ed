import SeenStates.SparseArray

/-!
# Bit arrays

Bits packed into 64-bit words, of which there may be many more than are ever written to.
-/
namespace SeenStates

/-- An array of bits. -/
structure BitArray where
  /-- The words, each holding 64 bits, the least significant first. -/
  words : SparseArray (0 : UInt64)

namespace BitArray

/-- The count of words for `n` bits. -/
def wordsFor (n : Nat) : Nat := (n + 63) / 64

/-- An array of `n` bits, none of them set. -/
def zeros (n : Nat) : BitArray := ⟨.blank (wordsFor n)⟩

/-- The word with one bit set. -/
def mask (i : Nat) : UInt64 := (1 : UInt64) <<< UInt64.ofNat (i % 64)

/-- The word at a position, zero beyond the end. -/
def word (a : BitArray) (i : Nat) : UInt64 := (a.words.get? i).getD 0

/-- Whether a bit is set. Bits beyond the end are not. -/
def test (a : BitArray) (i : Nat) : Bool := a.word (i / 64) &&& mask i != 0

/-- The array with a bit set. -/
def set (a : BitArray) (i : Nat) : BitArray := ⟨a.words.set (i / 64) (a.word (i / 64) ||| mask i)⟩

end BitArray

end SeenStates
