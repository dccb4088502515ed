import SeenStates.Bytes
import SeenStates.Proofs.WordPolynomials

/-!
# Reduction by tables

A lane takes in a byte by one look-up in a table that is made from the powers of `x`. Whatever the
modulus, that is the same as adding the byte and multiplying by `x` eight times, one bit after the
other (`tableByte_eq`): both leave the residue of the lane and the byte times `x ^ 8`. So a lane
depends linearly on where it starts and on the bytes it takes in (`bitwise_of_tables`).
-/
open Polynomial

namespace SeenStates.Polynomial

variable {p : UInt64}

/-! ## Bit by bit -/

/-- One step multiplies by `x`: the bit that is shifted out comes back as the modulus. -/
theorem residue_timesX (t : UInt64) : residue p (timesX p t) = root p * residue p t := by
  have product := root_pow_mul_residue (p := p) (k := 1) (by decide) t
  rw [pow_one, root_pow_64, pow_one] at product
  have bit : (t &&& 1).toNat = t.toNat % 2 := by
    rw [UInt64.toNat_and]
    exact Nat.and_one_is_mod _
  rw [product, timesX, residue_xor, add_comm]
  congr 1
  rcases Nat.mod_two_eq_zero_or_one t.toNat with even | odd
  · have clear : ¬ t &&& 1 = 1 := by
      rw [← UInt64.toNat_inj, bit, even]
      decide
    rw [if_neg clear, even, mirrored_zero, map_zero, mul_zero, residue_zero]
  · have set : t &&& 1 = 1 := by
      rw [← UInt64.toNat_inj, bit, odd]
      rfl
    rw [if_pos set, odd, mirrored_one_one, map_one, mul_one]

/-- `n` steps multiply by `x ^ n`. -/
theorem residue_timesPower (n : Nat) (t : UInt64) :
    residue p (timesPower p n t) = root p ^ n * residue p t := by
  induction n generalizing t with
  | zero => rw [timesPower, pow_zero, one_mul]
  | succ n ih => rw [timesPower, ih, residue_timesX, pow_succ, mul_assoc]

/-- A byte is added and the sum multiplied by `x ^ 8`. -/
theorem residue_serialByte (lane : UInt64) (byte : UInt8) :
    residue p (serialByte p lane byte) = root p ^ 8 * residue p (lane ^^^ byte.toUInt64) :=
  residue_timesPower 8 _

/-- Taking in a byte is a product of polynomials, reduced by the modulus. -/
theorem ofWord_serialByte (lane : UInt64) (byte : UInt8) :
    ofWord (serialByte p lane byte) =
      X ^ 8 * (ofWord lane + ofWord byte.toUInt64) %ₘ divisor p := by
  have same := residue_serialByte (p := p) lane byte
  rw [residue, residue, ← mk_X_pow, ← map_mul, AdjoinRoot.mk_eq_mk, ofWord_xor] at same
  rw [← modByMonic_eq_of_dvd_sub (monic_divisor p) same, eq_comm,
    modByMonic_eq_self_iff (monic_divisor p), degree_divisor]
  exact degree_ofWord_lt _

/-- Lanes and bytes that are added beforehand are added afterwards. -/
theorem serialByte_xor (s t : UInt64) (a b : UInt8) :
    serialByte p (s ^^^ t) (a ^^^ b) = serialByte p s a ^^^ serialByte p t b := by
  apply residue_inj (p := p)
  simp only [residue_xor, residue_serialByte, UInt8.toUInt64_xor]
  ring

/-! ## By the table -/

/-- The powers of `x` are listed in order. -/
theorem getElem?_powersFrom {i n : Nat} (inside : i < n) (t : UInt64) :
    (powersFrom p n t)[i]? = some (timesPower p i t) := by
  induction n generalizing i t with
  | zero => exact absurd inside (Nat.not_lt_zero i)
  | succ n ih =>
    cases i with
    | zero => rfl
    | succ i =>
      rw [powersFrom, List.getElem?_cons_succ, timesPower]
      exact ih (Nat.lt_of_succ_lt_succ inside) _

/-- The residue of a power that a table is made from. -/
theorem residue_getD_powersFrom {i n : Nat} (inside : i < n) :
    residue p ((powersFrom p n one).toArray.getD i 0) = root p ^ i := by
  rw [Array.getD_eq_getD_getElem?, List.getElem?_toArray, getElem?_powersFrom inside,
    Option.getD_some, residue_timesPower, residue_one, mul_one]

/-- An entry of the table is what the bits of its byte leave behind when they are carried out of a
word. -/
theorem residue_remainder (byte : Nat) :
    residue p (remainder (powersFrom p 72 one).toArray byte) =
      root p ^ 64 * AdjoinRoot.mk _ (mirrored 8 byte) := by
  -- The pass over the bits and the sum of the coefficients, both cut off after `n` bits.
  have firstBits (n : Nat) (few : n ≤ 8) :
      residue p ((List.range n).foldl (fun sum k => if byte.testBit k then
        sum ^^^ (powersFrom p 72 one).toArray.getD (71 - k) 0 else sum) 0) =
      root p ^ 64 * AdjoinRoot.mk _
        (∑ k ∈ Finset.range n, if byte.testBit k then X ^ (8 - 1 - k) else 0) := by
    induction n with
    | zero => simp
    | succ n ih =>
      rw [List.range_succ, List.foldl_append, Finset.sum_range_succ, map_add, mul_add,
        ← ih (by omega), List.foldl_cons, List.foldl_nil]
      split
      · have place : 71 - n = 64 + (8 - 1 - n) := by omega
        rw [residue_xor, residue_getD_powersFrom (by omega), mk_X_pow, place, pow_add]
      · rw [map_zero, mul_zero, add_zero]
  exact firstBits 8 (Nat.le_refl 8)

/-- The table has the entry of a byte at the place of the byte. -/
theorem get_byteTable (p : UInt64) (place : Fin 256) :
    (byteTable p).get place = remainder (powersFrom p 72 one).toArray place.val := by
  change (byteTable p)[place.val] = _
  rw [byteTable, Vector.getElem_ofFn]

/-- A look-up in the table multiplies by `x ^ 8` as well. The byte reaches only the bits that are
carried out, and the entry is for these. -/
theorem residue_tableByte (lane : UInt64) (byte : UInt8) :
    residue p (tableByte (byteTable p) lane byte) =
      root p ^ 8 * residue p (lane ^^^ byte.toUInt64) := by
  have low : ((byte.toUInt64 ^^^ lane) &&& 0xFF).toNat % 256 =
      (lane ^^^ byte.toUInt64).toNat % 2 ^ 8 := by
    rw [UInt64.toNat_and, UInt64.xor_comm]
    exact (congrArg (· % 256) (Nat.and_two_pow_sub_one_eq_mod _ 8)).trans (Nat.mod_mod _ _)
  have high : lane >>> 8 = (lane ^^^ byte.toUInt64) >>> 8 := by
    have beyond : byte.toUInt64 >>> 8 = 0 := by
      rw [← UInt64.toNat_inj, UInt64.toNat_shiftRight, Nat.shiftRight_eq_div_pow]
      exact Nat.div_eq_of_lt byte.toNat_lt
    rw [UInt64.shiftRight_xor, beyond, UInt64.xor_zero]
  have product := root_pow_mul_residue (p := p) (k := 8) (by decide) (lane ^^^ byte.toUInt64)
  rw [product, tableByte, residue_xor, get_byteTable, residue_remainder, add_comm, high]
  simp only [low]
  rfl

/-- One look-up is eight steps. -/
theorem tableByte_eq (lane : UInt64) (byte : UInt8) :
    tableByte (byteTable p) lane byte = serialByte p lane byte :=
  residue_inj ((residue_tableByte lane byte).trans (residue_serialByte lane byte).symm)

/-! ## Strings -/

/-- A string is taken in by look-ups as it is bit by bit. -/
theorem foldl_tableByte (bytes : Bytes) (lane : UInt64) :
    bytes.foldl (tableByte (byteTable p)) lane = bytes.foldl (serialByte p) lane := by
  rw [funext₂ tableByte_eq]

/-- Strings of one length that are added byte by byte leave the sum of what each of them leaves. -/
theorem foldl_serialByte_xor {bytes bytes' : Bytes} (even : bytes.length = bytes'.length)
    (lane lane' : UInt64) :
    (List.zipWith (· ^^^ ·) bytes bytes').foldl (serialByte p) (lane ^^^ lane') =
      bytes.foldl (serialByte p) lane ^^^ bytes'.foldl (serialByte p) lane' := by
  induction bytes generalizing bytes' lane lane' with
  | nil =>
    obtain rfl : bytes' = [] := List.length_eq_zero_iff.1 even.symm
    rfl
  | cons byte rest ih =>
    cases bytes' with
    | nil => exact absurd even (Nat.succ_ne_zero _)
    | cons byte' rest' =>
      rw [List.zipWith_cons_cons, List.foldl_cons, List.foldl_cons, List.foldl_cons,
        serialByte_xor]
      exact ih (Nat.succ.inj even) _ _

/-- Whatever the modulus, the table takes a string into a lane as the serial steps do, byte after
byte a product with `x ^ 8` reduced by the modulus, and the lane that comes out is linear in the
string and in the lane that it started from. -/
theorem bitwise_of_tables (p : UInt64) :
    (∀ lane (bytes : Bytes),
      bytes.foldl (tableByte (byteTable p)) lane = bytes.foldl (serialByte p) lane) ∧
    ((divisor p).degree = 64 ∧ ∀ lane byte, ofWord (serialByte p lane byte) =
      X ^ 8 * (ofWord lane + ofWord byte.toUInt64) %ₘ divisor p) ∧
    ∀ lane lane' (bytes bytes' : Bytes), bytes.length = bytes'.length →
      (List.zipWith (· ^^^ ·) bytes bytes').foldl (tableByte (byteTable p)) (lane ^^^ lane') =
        bytes.foldl (tableByte (byteTable p)) lane ^^^
          bytes'.foldl (tableByte (byteTable p)) lane' := by
  refine ⟨fun lane bytes => foldl_tableByte bytes lane, ⟨degree_divisor p, ofWord_serialByte⟩, ?_⟩
  intro lane lane' bytes bytes' even
  rw [foldl_tableByte, foldl_tableByte, foldl_tableByte]
  exact foldl_serialByte_xor even lane lane'

/-- A word without the coefficient of `x ^ 0`, which no family has, and two strings of two bytes:
their sum leaves the sum of what they leave. -/
theorem bitwise_of_tables_other :
    ([0x12, 0x34] : Bytes).length = ([0xAB, 0xCD] : Bytes).length ∧
    [0xB9, 0xF9].foldl (tableByte (byteTable 0x123456789ABCDEF0)) 3 = 0x199B56ED402C219A ∧
    [0xB9, 0xF9].foldl (tableByte (byteTable 0x123456789ABCDEF0)) 3 =
      [0x12, 0x34].foldl (tableByte (byteTable 0x123456789ABCDEF0)) 1 ^^^
        [0xAB, 0xCD].foldl (tableByte (byteTable 0x123456789ABCDEF0)) 2 := by
  obtain ⟨serial, -, linear⟩ := bitwise_of_tables 0x123456789ABCDEF0
  exact ⟨rfl, (serial 3 [0xB9, 0xF9]).trans (by decide), linear 1 2 [0x12, 0x34] [0xAB, 0xCD] rfl⟩

end SeenStates.Polynomial
