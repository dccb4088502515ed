import SeenStates.Family
import SeenStates.Proofs.WordPolynomials

/-!
# Coprime moduli

Euclid's algorithm on polynomials over GF(2) needs only shifts and sums without carry. Here it runs
on numbers (`reachesOne`), each read as a polynomial with its highest bit as the coefficient of
`x ^ 0`, and clears that coefficient by adding the shorter number to the longer one with the highest
bits in line. What is left is a multiple of a power of `x`, which has no divisor in common with a
number that has a bit, so a pair that comes to `1` is coprime (`isCoprime_of_reachesOne`). The
moduli of each family and of the next one come to `1` (`isCoprime_divisor_next`).
-/
open Polynomial

namespace SeenStates.Polynomial

/-! ## Euclid's algorithm -/

/-- The polynomial of a number: its highest bit is the coefficient of `x ^ 0`. -/
noncomputable def reading (n : Nat) : (ZMod 2)[X] := mirrored (n.log2 + 1) n

/-- Whether two numbers come to `1` in a count of steps. A step exchanges the two or adds the second
to the first with the highest bits in line. -/
def reachesOne : Nat → Nat → Nat → Bool
  | 0, _, _ => false
  | steps + 1, a, b =>
    if b = 1 then true
    else if a < b then reachesOne steps b a
    else reachesOne steps (a ^^^ b <<< (a.log2 - b.log2)) b

/-- A number with a bit has the coefficient of `x ^ 0`. -/
theorem coeff_zero_reading {n : Nat} (nonzero : n ≠ 0) : (reading n).coeff 0 = 1 := by
  rw [reading, coeff_mirrored, if_pos]
  exact ⟨Nat.succ_pos _, Nat.testBit_log2 nonzero⟩

/-- A polynomial with that coefficient is coprime to `x`. -/
theorem isCoprime_X {f : (ZMod 2)[X]} (constant : f.coeff 0 = 1) : IsCoprime X f := by
  have split := divX_mul_X_add f
  rw [constant, map_one] at split
  refine ⟨-f.divX, 1, ?_⟩
  calc
    -f.divX * X + 1 * f = -f.divX * X + (f.divX * X + 1) := by rw [one_mul, split]
    _ = 1 := by ring

/-- Room above the highest bit of a number multiplies its polynomial by a power of `x`. -/
theorem exists_mirrored_eq {n size : Nat} (fits : n < 2 ^ size) :
    ∃ k, mirrored size n = X ^ k * reading n := by
  by_cases zero : n = 0
  · exact ⟨0, by simp [zero, reading]⟩
  · have enough : n.log2 + 1 ≤ size := (Nat.log2_lt zero).2 fits
    obtain ⟨k, rfl⟩ := Nat.exists_eq_add_of_le enough
    exact ⟨k, mirrored_of_lt Nat.lt_log2_self k⟩

/-- What a step leaves is the sum of the two polynomials, but for a power of `x`. -/
theorem exists_reading_add {a b : Nat} (nonzero : b ≠ 0) (ordered : b ≤ a) :
    ∃ k, X ^ k * reading (a ^^^ b <<< (a.log2 - b.log2)) = reading a + reading b := by
  have shorter : b.log2 ≤ a.log2 := by
    rw [Nat.le_log2 (by omega)]
    exact (Nat.log2_self_le nonzero).trans ordered
  have size : a.log2 + 1 = a.log2 - b.log2 + (b.log2 + 1) := by omega
  have inLine : mirrored (a.log2 + 1) (b <<< (a.log2 - b.log2)) = reading b := by
    rw [Nat.shiftLeft_eq, Nat.mul_comm, size]
    exact mirrored_two_pow_mul _ _ _
  have fits : b <<< (a.log2 - b.log2) < 2 ^ (a.log2 + 1) := by
    rw [Nat.shiftLeft_eq, Nat.mul_comm, size, pow_add]
    exact Nat.mul_lt_mul_of_pos_left Nat.lt_log2_self (Nat.two_pow_pos _)
  obtain ⟨k, sum⟩ := exists_mirrored_eq (Nat.xor_lt_two_pow Nat.lt_log2_self fits)
  refine ⟨k, ?_⟩
  rw [← sum, mirrored_xor, inLine]
  rfl

/-- Numbers that come to `1` are coprime polynomials. -/
theorem isCoprime_of_reachesOne {steps a b : Nat} (reaches : reachesOne steps a b = true) :
    IsCoprime (reading a) (reading b) := by
  fun_induction reachesOne steps a b with
  | case1 => cases reaches
  | case2 =>
    have one : reading 1 = 1 := mirrored_one_one
    exact one ▸ isCoprime_one_right
  | case3 _ _ _ _ _ ih => exact (ih reaches).symm
  | case4 steps a b _ ordered ih =>
    by_cases zero : b = 0
    · -- Adding zero changes nothing, so there is nothing to prove but what is left.
      simpa [zero] using ih reaches
    · obtain ⟨k, sum⟩ := exists_reading_add zero (Nat.le_of_not_lt ordered)
      have power : IsCoprime (X ^ k) (reading b) :=
        (isCoprime_X (coeff_zero_reading zero)).pow_left
      have both : IsCoprime (reading a + 1 * reading b) (reading b) := by
        rw [one_mul, ← sum]
        exact power.mul_left (ih reaches)
      exact both.of_add_mul_right_left

/-! ## Moduli -/

/-- The word of a modulus has the coefficient of `x ^ 0`. -/
theorem top_modulus (f : Family) : 2 ^ 63 ≤ f.modulus.toNat := by
  revert f
  decide +kernel

/-- The polynomial of such a modulus, as a number with the term `x ^ 64` as its lowest bit. -/
theorem divisor_eq_reading {p : UInt64} (top : 2 ^ 63 ≤ p.toNat) :
    divisor p = reading (2 * p.toNat + 1) := by
  have size : (2 * p.toNat + 1).log2 = 64 := by
    rw [Nat.log2_eq_iff (Nat.succ_ne_zero _)]
    have := p.toNat_lt
    omega
  have bits : 2 * p.toNat + 1 = 1 + 2 ^ 1 * p.toNat := by omega
  rw [reading, size, bits, Nat.add_comm 64, mirrored_add (by decide), mirrored_one_one, mul_one]
  rfl

/-- The modulus of a family is coprime to `x`. -/
theorem isCoprime_X_divisor (f : Family) : IsCoprime X (divisor f.modulus) := by
  rw [divisor_eq_reading (top_modulus f)]
  exact isCoprime_X (coeff_zero_reading (Nat.succ_ne_zero _))

/-- The moduli of a family and of the next one come to `1`. -/
theorem reachesOne_next (f : Family) :
    reachesOne 256 (2 * f.modulus.toNat + 1) (2 * (f.ahead 1).modulus.toNat + 1) = true := by
  revert f
  decide +kernel

/-- They are coprime. -/
theorem isCoprime_divisor_next (f : Family) :
    IsCoprime (divisor f.modulus) (divisor (f.ahead 1).modulus) := by
  rw [divisor_eq_reading (top_modulus f), divisor_eq_reading (top_modulus _)]
  exact isCoprime_of_reachesOne (reachesOne_next f)

end SeenStates.Polynomial
