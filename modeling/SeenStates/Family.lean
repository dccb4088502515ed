import SeenStates.Polynomial.Moduli
import SeenStates.Polynomial.Reduction

/-!
# Hash families

A family is the position of a modulus. Its modulus is both what its lanes reduce by and the value
that they start from.
-/
namespace SeenStates

/-- The count of hash families. -/
def familyCount : Nat := 131

/-- A hash family. -/
abbrev Family := Fin familyCount

namespace Family

/-- The family of an index, if there is one. -/
def ofNat? (index : Nat) : Option Family :=
  if h : index < familyCount then some ⟨index, h⟩ else none

/-- Why an index that names no family is refused. -/
def refusal (index : Nat) : String := s!"fingerprint family {index} out of range 0..{familyCount}"

/-- The family `k` places further on, the first following the last. -/
def ahead (f : Family) (k : Nat) : Family := ⟨(f.val + k) % familyCount, Nat.mod_lt _ (by decide)⟩

/-- The modulus of a family. -/
def modulus (f : Family) : UInt64 := Polynomial.moduli.get f

/-- The value that a lane of a family starts from. -/
def seed (f : Family) : UInt64 := f.modulus

/-- The remainder table of a family. -/
def table (f : Family) : Vector UInt64 256 := Polynomial.byteTable f.modulus

end Family

end SeenStates
