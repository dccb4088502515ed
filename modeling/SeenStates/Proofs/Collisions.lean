import SeenStates.Hasher
import SeenStates.Proofs.CoprimeModuli
import SeenStates.Proofs.TableReduction

/-!
# Collisions of fingerprints

What a string leaves in a lane is the value that the lane started from, multiplied by a power of
`x`, and the polynomial of the string, multiplied by `x ^ 64` (`residue_foldl`). No modulus has a
divisor in common with `x`. So lanes that differ stay apart, and two strings of one length leave the
same value only if the modulus divides their difference. For up to 8 bytes that difference is of
lower degree than a modulus (`Hasher.separates_narrow`), and for up to 16 bytes it is of lower
degree than the product of the two coprime moduli of a wide hasher (`Hasher.separates_wide`). Two
strings that differ in length, but by less than a word, are told apart by some lane
(`Polynomial.exists_foldl_serialByte_ne`).
-/
open Polynomial

namespace SeenStates

/-! ## Strings as polynomials -/

namespace Polynomial

variable {p : UInt64}

/-- The polynomial of a string: the first byte in the highest powers, and in each byte the lowest
bit. -/
noncomputable def message (bytes : Bytes) : (ZMod 2)[X] :=
  mirrored (8 * bytes.length) (ofLittleEndian bytes)

/-- A byte comes in front of the string behind it. -/
theorem message_cons (byte : UInt8) (rest : Bytes) :
    message (byte :: rest) = X ^ (8 * rest.length) * mirrored 8 byte.toNat + message rest := by
  rw [message, List.length_cons, Nat.mul_succ, Nat.add_comm]
  exact mirrored_add byte.toNat_lt _ _

/-- Strings of one length that have one polynomial are one string. -/
theorem message_inj {bytes bytes' : Bytes} (even : bytes.length = bytes'.length)
    (same : message bytes = message bytes') : bytes = bytes' := by
  have fits (bytes : Bytes) : ofLittleEndian bytes < 2 ^ (8 * bytes.length) := by
    have below := ofLittleEndian_lt bytes
    rwa [Nat.pow_eq, show 256 = 2 ^ 8 from rfl, ← Nat.pow_mul] at below
  rw [message, message, even] at same
  have numbers := mirrored_inj (even ▸ fits bytes) (fits bytes') same
  rw [← littleEndian_ofLittleEndian bytes, numbers, even, littleEndian_ofLittleEndian]

/-- A polynomial of a degree that is not below their bits divides the difference of two strings of
one length only if they are one string. -/
theorem eq_of_dvd_message_sub {f : (ZMod 2)[X]} (monic : f.Monic) {n : Nat} (degree : f.degree = n)
    {bytes bytes' : Bytes} (even : bytes.length = bytes'.length) (short : 8 * bytes.length ≤ n)
    (divides : f ∣ message bytes - message bytes') : bytes = bytes' := by
  have bound (bytes : Bytes) (short : 8 * bytes.length ≤ n) : (message bytes).degree < n :=
    (degree_mirrored_lt _ _).trans_le (Nat.cast_le.2 short)
  have small : (message bytes - message bytes').degree < f.degree := by
    rw [degree]
    exact (degree_sub_le _ _).trans_lt (max_lt (bound bytes short) (bound bytes' (even ▸ short)))
  apply message_inj even
  apply sub_eq_zero.1
  by_contra differ
  exact monic.not_dvd_of_degree_lt differ small divides

/-- What a string leaves in a lane. -/
theorem residue_foldl (bytes : Bytes) (lane : UInt64) :
    residue p (bytes.foldl (serialByte p) lane) =
      root p ^ (8 * bytes.length) * residue p lane +
        root p ^ 64 * AdjoinRoot.mk _ (message bytes) := by
  -- The first byte changes the lane that the rest starts from, so the lane stays general.
  induction bytes generalizing lane with
  | nil => simp [message, mirrored]
  | cons byte rest ih =>
    have fed : residue p byte.toUInt64 =
        root p ^ 56 * AdjoinRoot.mk _ (mirrored 8 byte.toNat) := by
      have high : ofWord byte.toUInt64 = X ^ 56 * mirrored 8 byte.toNat :=
        mirrored_of_lt byte.toNat_lt 56
      rw [residue, high, map_mul, mk_X_pow]
    rw [List.foldl_cons, ih, residue_serialByte, residue_xor, fed, message_cons, map_add, map_mul,
      mk_X_pow, List.length_cons]
    ring

section Coprime

variable (coprime : IsCoprime X (divisor p))
include coprime

/-- A power of `x` is cancelled. -/
theorem divisor_dvd_of_root_pow_mul {n : Nat} {f g : (ZMod 2)[X]}
    (same : root p ^ n * AdjoinRoot.mk (divisor p) f =
      root p ^ n * AdjoinRoot.mk (divisor p) g) : divisor p ∣ f - g := by
  rw [← mk_X_pow, ← map_mul, ← map_mul, AdjoinRoot.mk_eq_mk, ← mul_sub] at same
  exact (coprime.pow_left (m := n)).symm.dvd_of_dvd_mul_left same

/-- Lanes that differ are not merged by what they take in. -/
theorem foldl_serialByte_inj {bytes : Bytes} {lane lane' : UInt64}
    (same : bytes.foldl (serialByte p) lane = bytes.foldl (serialByte p) lane') :
    lane = lane' := by
  have residues := congrArg (residue p) same
  rw [residue_foldl, residue_foldl, add_left_inj] at residues
  exact residue_inj (AdjoinRoot.mk_eq_mk.2 (divisor_dvd_of_root_pow_mul coprime residues))

/-- Strings that leave one lane are equal modulo the polynomial of the modulus. -/
theorem divisor_dvd_of_foldl_eq {bytes bytes' : Bytes} (even : bytes.length = bytes'.length)
    {lane : UInt64}
    (same : bytes.foldl (serialByte p) lane = bytes'.foldl (serialByte p) lane) :
    divisor p ∣ message bytes - message bytes' := by
  have residues := congrArg (residue p) same
  rw [residue_foldl, residue_foldl, even, add_right_inj] at residues
  exact divisor_dvd_of_root_pow_mul coprime residues

/-- Some lane tells two byte strings apart if one is longer by less than a word: else the lanes that
start from `0` and `1` would show a power of `x` below the degree of the modulus to be `1`. -/
theorem exists_foldl_serialByte_ne {bytes bytes' : Bytes} (shorter : bytes.length < bytes'.length)
    (near : bytes'.length < bytes.length + 8) :
    ∃ lane, bytes.foldl (serialByte p) lane ≠ bytes'.foldl (serialByte p) lane := by
  by_contra all
  simp only [not_exists, not_not] at all
  have zero := congrArg (residue p) (all 0)
  have unit := congrArg (residue p) (all one)
  rw [residue_foldl, residue_foldl, residue_zero, mul_zero, mul_zero, zero_add, zero_add] at zero
  rw [residue_foldl, residue_foldl, residue_one, zero, add_left_inj, mul_one, mul_one] at unit
  obtain ⟨d, longer⟩ : ∃ d, 8 * bytes'.length = 8 * bytes.length + d :=
    Nat.exists_eq_add_of_le (by omega)
  have few : d < 64 := by omega
  have product : root p ^ (8 * bytes.length) * AdjoinRoot.mk (divisor p) 1 =
      root p ^ (8 * bytes.length) * AdjoinRoot.mk (divisor p) (X ^ d) := by
    rw [map_one, mul_one, mk_X_pow, ← pow_add, ← longer, unit]
  have small : (1 - X ^ d : (ZMod 2)[X]).degree < 64 := by
    apply (degree_sub_le _ _).trans_lt
    rw [degree_one, degree_X_pow]
    exact max_lt (by decide) (Nat.cast_lt.2 few)
  have power : (1 : (ZMod 2)[X]) = X ^ d :=
    sub_eq_zero.1 (eq_zero_of_divisor_dvd (divisor_dvd_of_root_pow_mul coprime product) small)
  have degrees := congrArg natDegree power
  rw [natDegree_one, natDegree_X_pow] at degrees
  omega

end Coprime

end Polynomial

open Polynomial

/-! ## Hashers -/

namespace Hasher

variable {w : Width}

/-- Each lane takes in the bytes, reduced by the modulus of its own family. -/
theorem getElem_lanes_extendBytes (h : Hasher w) (bytes : Bytes) {k : Nat} (inside : k < w.words) :
    (h.extendBytes bytes).lanes[k] =
      bytes.foldl (serialByte (h.family.ahead k).modulus) h.lanes[k] := by
  rw [← foldl_tableByte]
  exact Vector.getElem_mapIdx ..

/-- Fingerprints that are equal come from equal lanes. -/
theorem lanes_of_finish_eq {h h' : Hasher w} (same : h.finish = h'.finish) :
    h.lanes = h'.lanes := by
  have words := congrArg Fingerprint.toWords same
  rw [finish, finish, Fingerprint.toWords_ofWords (by simp), Fingerprint.toWords_ofWords (by simp),
    List.reverse_inj] at words
  exact Vector.toList_inj.1 words

/-- Hashers of one family that differ are told apart whatever both take in. -/
theorem extendBytes_inj {h h' : Hasher w} (family : h.family = h'.family) {bytes : Bytes}
    (same : (h.extendBytes bytes).finish = (h'.extendBytes bytes).finish) : h = h' := by
  have lanes : h.lanes = h'.lanes := by
    apply Vector.ext
    intro k inside
    have lane := congrArg (fun lanes => lanes[k]) (lanes_of_finish_eq same)
    simp only [getElem_lanes_extendBytes, ← family] at lane
    exact foldl_serialByte_inj (isCoprime_X_divisor _) lane
  cases h
  cases h'
  exact (mk.injEq ..).mpr ⟨family, lanes⟩

/-- The modulus of each lane divides the difference of two strings of one length that give one
fingerprint. -/
theorem divisor_dvd_of_finish_eq {h : Hasher w} {bytes bytes' : Bytes}
    (even : bytes.length = bytes'.length)
    (same : (h.extendBytes bytes).finish = (h.extendBytes bytes').finish) {k : Nat}
    (inside : k < w.words) :
    divisor (h.family.ahead k).modulus ∣ message bytes - message bytes' := by
  have lane := congrArg (fun lanes => lanes[k]) (lanes_of_finish_eq same)
  simp only [getElem_lanes_extendBytes] at lane
  exact divisor_dvd_of_foldl_eq (isCoprime_X_divisor _) even lane

/-! ## Narrow hashers -/

/-- Two strings of one length up to 8 bytes are told apart. -/
theorem finish_ne_of_le_eight (h : Hasher .bits64) {bytes bytes' : Bytes}
    (even : bytes.length = bytes'.length) (short : bytes.length ≤ 8) (differ : bytes ≠ bytes') :
    (h.extendBytes bytes).finish ≠ (h.extendBytes bytes').finish := by
  intro same
  have divides := divisor_dvd_of_finish_eq even same Nat.zero_lt_one
  exact differ (eq_of_dvd_message_sub (monic_divisor _) (degree_divisor _) even
    (Nat.mul_le_mul_left 8 short) divides)

/-- So are two numbers that fit the bytes they are written in, up to 8 of them. -/
theorem finish_ne_of_fits (h : Hasher .bits64) {k : Nat} (positive : 0 < k) (short : k ≤ 8)
    {m n : Int} (inside : Input.fits k m = true) (inside' : Input.fits k n = true)
    (differ : m ≠ n) :
    (h.extendBytes (Input.twosComplement k m)).finish ≠
      (h.extendBytes (Input.twosComplement k n)).finish := by
  apply h.finish_ne_of_le_eight
  · rw [Input.twosComplement, Input.twosComplement, length_littleEndian, length_littleEndian]
  · rwa [Input.twosComplement, length_littleEndian]
  · exact fun same => differ (Input.twosComplement_inj positive inside inside' same)

/-- Narrow hashers of one family that differ are told apart whatever both take in, and from one
hasher on, two different strings of one length up to 8 bytes, and so two different numbers of 32 or
of 64 bits, give different fingerprints. -/
theorem separates_narrow :
    (∀ h h' : Hasher .bits64, h.family = h'.family → ∀ bytes,
      (h.extendBytes bytes).finish = (h'.extendBytes bytes).finish → h = h') ∧
    (∀ h : Hasher .bits64, ∀ bytes bytes' : Bytes, bytes.length = bytes'.length →
      bytes.length ≤ 8 → bytes ≠ bytes' →
      (h.extendBytes bytes).finish ≠ (h.extendBytes bytes').finish) ∧
    (∀ h : Hasher .bits64, ∀ m n, Input.fits 4 m = true → Input.fits 4 n = true → m ≠ n →
      (h.extend (.int32 m)).finish ≠ (h.extend (.int32 n)).finish) ∧
    (∀ h : Hasher .bits64, ∀ m n, Input.fits 8 m = true → Input.fits 8 n = true → m ≠ n →
      (h.extend (.int64 m)).finish ≠ (h.extend (.int64 n)).finish) := by
  refine ⟨?_, ?_, ?_, ?_⟩
  · exact fun h h' family bytes same => extendBytes_inj family same
  · exact fun h bytes bytes' even short differ => h.finish_ne_of_le_eight even short differ
  · exact fun h m n inside inside' differ =>
      h.finish_ne_of_fits (by decide) (by decide) inside inside' differ
  · exact fun h m n inside inside' differ =>
      h.finish_ne_of_fits (by decide) (by decide) inside inside' differ

/-- The last family: two lanes that differ in the bit that is reduced first, two strings that differ
in the bit that is reduced last, and the least and the greatest number of each size. -/
theorem separates_narrow_extremes :
    let family : Family := ⟨130, by decide⟩
    let h := start .bits64 family
    ((⟨family, #v[0]⟩ : Hasher .bits64).extendBytes [7]).finish ≠
      ((⟨family, #v[1]⟩ : Hasher .bits64).extendBytes [7]).finish ∧
    (h.extendBytes [0, 0, 0, 0, 0, 0, 0, 0]).finish ≠
      (h.extendBytes [0, 0, 0, 0, 0, 0, 0, 0x80]).finish ∧
    (h.extend (.int32 (-0x80000000))).finish ≠ (h.extend (.int32 0x7FFFFFFF)).finish ∧
    (h.extend (.int64 (-0x8000000000000000))).finish ≠
      (h.extend (.int64 0x7FFFFFFFFFFFFFFF)).finish := by
  intro family h
  obtain ⟨lanes, strings, short, long⟩ := separates_narrow
  refine ⟨?_, strings h _ _ rfl (by decide) (by decide),
    short h _ _ (by decide) (by decide) (by decide),
    long h _ _ (by decide) (by decide) (by decide)⟩
  intro same
  have merged := lanes ⟨family, #v[0]⟩ ⟨family, #v[1]⟩ rfl [7] same
  exact absurd (congrArg Hasher.lanes merged) (by decide)

/-! ## Wide hashers -/

/-- From one wide hasher on, two different strings of one length up to 16 bytes give different
fingerprints. -/
theorem separates_wide (h : Hasher .bits128) {bytes bytes' : Bytes}
    (even : bytes.length = bytes'.length) (short : bytes.length ≤ 16) (differ : bytes ≠ bytes') :
    (h.extendBytes bytes).finish ≠ (h.extendBytes bytes').finish := by
  intro same
  have low := divisor_dvd_of_finish_eq even same (k := 0) (by decide)
  have high := divisor_dvd_of_finish_eq even same (k := 1) (by decide)
  have first : h.family.ahead 0 = h.family := Fin.ext (Nat.mod_eq_of_lt h.family.isLt)
  rw [first] at low
  have both := (isCoprime_divisor_next h.family).mul_dvd low high
  have degree : (divisor h.family.modulus * divisor (h.family.ahead 1).modulus).degree =
      (128 : Nat) := by
    rw [(monic_divisor _).degree_mul, degree_divisor, degree_divisor]
    rfl
  exact differ (eq_of_dvd_message_sub ((monic_divisor _).mul (monic_divisor _)) degree even
    (Nat.mul_le_mul_left 8 short) both)

/-- Two strings of 16 bytes whose difference is the modulus of the first family. The narrow hasher
of that family gives both one fingerprint, but the wide one does not. -/
theorem separates_wide_collided :
    let family : Family := ⟨0, by decide⟩
    let bytes : Bytes := [0, 0, 0, 0, 0, 0, 0, 0, 0, 0, 0, 0, 0, 0, 0, 0]
    let bytes' : Bytes :=
      [0, 0, 0, 0, 0, 0, 0, 0x80, 0xD6, 0xBA, 0x66, 0x0E, 0xAE, 0x98, 0x14, 0x91]
    ((start .bits64 family).extendBytes bytes).finish =
      ((start .bits64 family).extendBytes bytes').finish ∧
    ((start .bits128 family).extendBytes bytes).finish ≠
      ((start .bits128 family).extendBytes bytes').finish := by
  intro family bytes bytes'
  refine ⟨?_, separates_wide (start .bits128 family) rfl (by decide) (by decide)⟩
  have lanes : ((start .bits64 family).extendBytes bytes).lanes =
      ((start .bits64 family).extendBytes bytes').lanes := by
    apply Vector.ext
    intro k inside
    obtain rfl : k = 0 := Nat.lt_one_iff.1 inside
    simp only [getElem_lanes_extendBytes, start, Vector.getElem_ofFn]
    decide +kernel
  rw [finish, finish, lanes]

end Hasher

end SeenStates
