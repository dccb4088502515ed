import SeenStates.Exponential

/-!
# The birthday bound

The probability that two of `n` random values of a given count of bits are equal, `1 - e ^ -x` where
`x` is the count of pairs over the count of values.
-/
namespace SeenStates

/-- Two to the power of a 32-bit word that is read as a signed number, as a double. -/
def twoPower (bits : Nat) : Float :=
  if bits < Nat.pow 2 31 then Float.scaleB 1 (min bits 1100)
  else 1 / Float.scaleB 1 (min (Nat.pow 2 32 - bits) 1100)

/-- The probability that two of `n` random values of `bits` bits are equal. -/
def birthdayProbability (n bits : Nat) : Float :=
  if n < 2 then 0
  else
    let count := Float.ofNat n
    let pairs := count * (count - 1) / 2
    Float.neg (Exponential.lessOne (-pairs / twoPower bits))

end SeenStates
