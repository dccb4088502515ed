import Mathlib.Algebra.Field.ZMod
import Mathlib.RingTheory.AdjoinRoot
import SeenStates.Polynomial.Reduction

/-!
# Words as polynomials

The bits of a number, the lowest one first, are the coefficients of a polynomial over GF(2) from the
highest power of `x` down (`mirrored`). So the low bits of a word are those that are carried out of
it when it is multiplied by a power of `x` (`X_pow_mul_ofWord`). A modulus is the polynomial of its
word and a leading term above it (`divisor`). Every word has a residue modulo that polynomial, and
no two words have the same one (`residue_inj`): an equation between words can be proved between
their residues, where adding without carry is addition.
-/
open Polynomial

namespace SeenStates.Polynomial

/-! ## Bits as coefficients -/

/-- The polynomial of degree below `n` whose coefficients, that of `x ^ (n - 1)` first, are the bits
of a number, the lowest one first. -/
noncomputable def mirrored (n value : Nat) : (ZMod 2)[X] :=
  ∑ k ∈ Finset.range n, if value.testBit k then X ^ (n - 1 - k) else 0

/-- A coefficient is a bit. -/
theorem coeff_mirrored (n value j : Nat) :
    (mirrored n value).coeff j = if j < n ∧ value.testBit (n - 1 - j) then 1 else 0 := by
  have term (k : Nat) : (if value.testBit k then (X : (ZMod 2)[X]) ^ (n - 1 - k) else 0).coeff j =
      if value.testBit k ∧ j = n - 1 - k then 1 else 0 := by
    cases value.testBit k <;> simp [coeff_X_pow]
  rw [mirrored, finsetSum_coeff]
  simp only [term]
  by_cases inside : j < n
  · have back : j = n - 1 - (n - 1 - j) := by omega
    rw [Finset.sum_eq_single (n - 1 - j)]
    · simp [inside, ← back]
    · intro k member other
      have below : k < n := Finset.mem_range.1 member
      have elsewhere : ¬ j = n - 1 - k := by omega
      simp [elsewhere]
    · intro missing
      exact absurd (Finset.mem_range.2 (by omega)) missing
  · rw [Finset.sum_eq_zero]
    · simp [inside]
    · intro k member
      have below : k < n := Finset.mem_range.1 member
      have elsewhere : ¬ j = n - 1 - k := by omega
      simp [elsewhere]

/-- There is no coefficient from `x ^ n` on. -/
theorem degree_mirrored_lt (n value : Nat) : (mirrored n value).degree < n := by
  rw [degree_lt_iff_coeff_zero]
  intro j above
  rw [coeff_mirrored, if_neg]
  omega

/-- Without bits there is no coefficient at all. -/
@[simp] theorem mirrored_zero (n : Nat) : mirrored n 0 = 0 := by simp [mirrored]

/-- A bit alone is the polynomial `1`. -/
@[simp] theorem mirrored_one_one : mirrored 1 1 = 1 := by
  rw [mirrored, Finset.sum_range_one]
  rfl

/-- Adding numbers without carry adds their polynomials. -/
theorem mirrored_xor (n a b : Nat) : mirrored n (a ^^^ b) = mirrored n a + mirrored n b := by
  ext j
  rw [coeff_add, coeff_mirrored, coeff_mirrored, coeff_mirrored, Nat.testBit_xor]
  by_cases inside : j < n
  · have twice : (1 : ZMod 2) + 1 = 0 := by decide
    cases a.testBit (n - 1 - j) <;> cases b.testBit (n - 1 - j) <;> simp [inside, twice]
  · simp [inside]

/-- Numbers of `n` bits that have one polynomial are one number. -/
theorem mirrored_inj {n a b : Nat} (fits : a < 2 ^ n) (fits' : b < 2 ^ n)
    (same : mirrored n a = mirrored n b) : a = b := by
  apply Nat.eq_of_testBit_eq
  intro k
  by_cases inside : k < n
  · have coefficient := congrArg (coeff · (n - 1 - k)) same
    have back : n - 1 - (n - 1 - k) = k := by omega
    have here : n - 1 - k < n := by omega
    simp only [coeff_mirrored, back, here, true_and] at coefficient
    cases first : a.testBit k <;> cases second : b.testBit k <;>
      simp [first, second] at coefficient ⊢
  · have bound : 2 ^ n ≤ 2 ^ k := Nat.pow_le_pow_right (by decide) (by omega)
    rw [Nat.testBit_lt_two_pow (fits.trans_le bound), Nat.testBit_lt_two_pow (fits'.trans_le bound)]

/-- The low bits of a number are the coefficients of the high powers. -/
theorem mirrored_add {m low : Nat} (fits : low < 2 ^ m) (n high : Nat) :
    mirrored (m + n) (low + 2 ^ m * high) = X ^ n * mirrored m low + mirrored n high := by
  ext j
  rw [coeff_add, coeff_X_pow_mul', coeff_mirrored, coeff_mirrored, coeff_mirrored, Nat.add_comm low,
    Nat.testBit_two_pow_mul_add _ fits]
  by_cases above : n ≤ j
  · have place : m + n - 1 - j = m - 1 - (j - n) := by omega
    by_cases inside : j < m + n
    · have here : j - n < m := by omega
      have bit : m - 1 - (j - n) < m := by omega
      simp [above, inside, here, bit, place, Nat.not_lt_of_le above]
    · have outside : ¬ j - n < m := by omega
      simp [above, inside, outside, Nat.not_lt_of_le above]
  · have below : j < n := by omega
    have inside : j < m + n := by omega
    have bit : ¬ m + n - 1 - j < m := by omega
    have place : m + n - 1 - j - m = n - 1 - j := by omega
    simp [above, below, inside, bit, place]

/-- Room for more bits than a number has raises its polynomial. -/
theorem mirrored_of_lt {m value : Nat} (fits : value < 2 ^ m) (n : Nat) :
    mirrored (m + n) value = X ^ n * mirrored m value := by
  simpa using mirrored_add fits n 0

/-- Zeros below the bits of a number do not matter. -/
theorem mirrored_two_pow_mul (m n value : Nat) :
    mirrored (m + n) (2 ^ m * value) = mirrored n value := by
  simpa using mirrored_add (Nat.two_pow_pos m) n value

/-! ## Words -/

/-- The polynomial of a word: its most significant bit is the coefficient of `x ^ 0`. -/
noncomputable def ofWord (t : UInt64) : (ZMod 2)[X] := mirrored 64 t.toNat

/-- The polynomial of a modulus: that of its word, and the term `x ^ 64` that is not written. -/
noncomputable def divisor (p : UInt64) : (ZMod 2)[X] := X ^ 64 + ofWord p

/-- A word is a polynomial of degree below 64. -/
theorem degree_ofWord_lt (t : UInt64) : (ofWord t).degree < 64 := degree_mirrored_lt 64 t.toNat

/-- A modulus is of degree 64. -/
theorem degree_divisor (p : UInt64) : (divisor p).degree = 64 := by
  have leads : (ofWord p).degree < (X ^ 64 : (ZMod 2)[X]).degree := by
    rw [degree_X_pow]
    exact degree_ofWord_lt p
  rw [divisor, degree_add_eq_left_of_degree_lt leads, degree_X_pow]
  rfl

/-- Its leading coefficient is one. -/
theorem monic_divisor (p : UInt64) : (divisor p).Monic := monic_X_pow_add (degree_ofWord_lt p)

/-- A modulus divides no polynomial of lower degree but zero. -/
theorem eq_zero_of_divisor_dvd {p : UInt64} {f : (ZMod 2)[X]} (divides : divisor p ∣ f)
    (small : f.degree < 64) : f = 0 := by
  by_contra nonzero
  rw [← degree_divisor p] at small
  exact (monic_divisor p).not_dvd_of_degree_lt nonzero small divides

/-- Adding words without carry adds their polynomials. -/
theorem ofWord_xor (s t : UInt64) : ofWord (s ^^^ t) = ofWord s + ofWord t := by
  rw [ofWord, UInt64.toNat_xor, mirrored_xor, ofWord, ofWord]

/-- Words that have one polynomial are one word. -/
theorem ofWord_inj {s t : UInt64} (same : ofWord s = ofWord t) : s = t :=
  UInt64.toNat_inj.1 (mirrored_inj s.toNat_lt t.toNat_lt same)

/-- The polynomials of two words differ by one of degree below 64. -/
theorem degree_ofWord_sub_lt (s t : UInt64) : (ofWord s - ofWord t).degree < 64 :=
  (degree_sub_le _ _).trans_lt (max_lt (degree_ofWord_lt s) (degree_ofWord_lt t))

/-- Multiplying a word by `x ^ k` shifts it by `k` bits. The bits that are shifted out are carried
above `x ^ 64`. -/
theorem X_pow_mul_ofWord {k : Nat} (few : k < 64) (t : UInt64) :
    X ^ k * ofWord t = X ^ 64 * mirrored k (t.toNat % 2 ^ k) + ofWord (t >>> k.toUInt64) := by
  obtain ⟨rest, bits⟩ : ∃ rest, 64 = k + rest := ⟨64 - k, by omega⟩
  have low : t.toNat % 2 ^ k < 2 ^ k := Nat.mod_lt _ (Nat.two_pow_pos k)
  have high : t.toNat / 2 ^ k < 2 ^ rest := by
    rw [Nat.div_lt_iff_lt_mul (Nat.two_pow_pos k), ← pow_add, Nat.add_comm rest, ← bits]
    exact t.toNat_lt
  have shift : (t >>> k.toUInt64).toNat = t.toNat / 2 ^ k := by
    have amount : k.toUInt64.toNat % 64 = k := by
      simp
      omega
    rw [UInt64.toNat_shiftRight, amount, Nat.shiftRight_eq_div_pow]
  have whole : ofWord t =
      X ^ rest * mirrored k (t.toNat % 2 ^ k) + mirrored rest (t.toNat / 2 ^ k) := by
    rw [← mirrored_add low, ← bits, Nat.mod_add_div, ofWord]
  have shifted : ofWord (t >>> k.toUInt64) = X ^ k * mirrored rest (t.toNat / 2 ^ k) := by
    rw [← mirrored_of_lt high, Nat.add_comm rest, ← bits, ofWord, shift]
  rw [whole, shifted, bits, pow_add]
  ring

/-! ## Residues -/

/-- The residue of a word modulo the polynomial of a modulus. -/
noncomputable def residue (p t : UInt64) : AdjoinRoot (divisor p) := AdjoinRoot.mk _ (ofWord t)

/-- The residue of `x`. -/
noncomputable def root (p : UInt64) : AdjoinRoot (divisor p) := AdjoinRoot.root _

/-- The residue of a power of `x`. -/
theorem mk_X_pow (p : UInt64) (n : Nat) : AdjoinRoot.mk (divisor p) (X ^ n) = root p ^ n := by
  rw [root, map_pow, AdjoinRoot.mk_X]

variable {p : UInt64}

/-- The residue of no bits. -/
@[simp] theorem residue_zero : residue p 0 = 0 := by simp [residue, ofWord]

/-- The residue of the polynomial `1`. -/
theorem residue_one : residue p one = 1 := by
  have top : ofWord one = 1 := (mirrored_two_pow_mul 63 1 1).trans mirrored_one_one
  rw [residue, top, map_one]

/-- Adding words without carry adds their residues. -/
theorem residue_xor (s t : UInt64) : residue p (s ^^^ t) = residue p s + residue p t := by
  rw [residue, ofWord_xor, map_add, residue, residue]

/-- Words that have one residue are one word, since the degree of a modulus is above that of a
word. -/
theorem residue_inj {s t : UInt64} (same : residue p s = residue p t) : s = t := by
  have divides : divisor p ∣ ofWord s - ofWord t := AdjoinRoot.mk_eq_mk.1 same
  exact ofWord_inj (sub_eq_zero.1 (eq_zero_of_divisor_dvd divides (degree_ofWord_sub_lt s t)))

/-- What is carried above a word leaves the word of the modulus behind. -/
theorem root_pow_64 : root p ^ 64 = residue p p := by
  rw [residue, ← mk_X_pow, AdjoinRoot.mk_eq_mk, CharTwo.sub_eq_add, divisor]

/-- The residue of a word multiplied by a power of `x`. -/
theorem root_pow_mul_residue {k : Nat} (few : k < 64) (t : UInt64) :
    root p ^ k * residue p t =
      root p ^ 64 * AdjoinRoot.mk _ (mirrored k (t.toNat % 2 ^ k)) +
        residue p (t >>> k.toUInt64) := by
  have product := congrArg (AdjoinRoot.mk (divisor p)) (X_pow_mul_ofWord few t)
  rwa [map_add, map_mul, map_mul, mk_X_pow, mk_X_pow] at product

end SeenStates.Polynomial
