import SeenStates.Family
import SeenStates.Fingerprint
import SeenStates.Text.Units

/-!
# Hashing

A hasher has a lane for each word of its fingerprints. Lane `0` gives the least significant word
and belongs to the hasher's family; each further lane belongs to the next family on. All lanes
take in the same bytes, so what a hasher holds depends on the bytes fed so far and on nothing else.
`Input` lists what can be fed and the bytes that it stands for.
-/
namespace SeenStates

/-- What can be fed to a hasher. -/
inductive Input where
  /-- One byte. -/
  | byte (b : UInt8)
  /-- Bytes in order. -/
  | bytes (bs : Bytes)
  /-- A character. -/
  | char (c : Char)
  /-- A text. -/
  | text (s : String)
  /-- A signed number of 32 bits. -/
  | int32 (n : Int)
  /-- A signed number of 64 bits. -/
  | int64 (n : Int)
  /-- A signed number of any size. -/
  | integer (n : Int)

namespace Input

/-- Whether a signed number fits `k` bytes in two's complement. -/
def fits (k : Nat) (n : Int) : Bool :=
  let half : Int := Nat.pow 2 (8 * k - 1)
  decide (-half ≤ n ∧ n < half)

/-- The two's complement of a signed number in `k` bytes, least significant first. -/
def twosComplement (k : Nat) (n : Int) : Bytes :=
  littleEndian k (n % (Nat.pow 2 (8 * k) : Int)).toNat

/-- A signed number that fits some bytes is read back from them when the upper half of their range
is taken as negative. -/
theorem bmod_ofLittleEndian_twosComplement {k : Nat} (positive : 0 < k) {n : Int}
    (inside : fits k n = true) :
    Int.bmod (ofLittleEndian (twosComplement k n)) (Nat.pow 2 (8 * k)) = n := by
  have bytes : Nat.pow 256 k = Nat.pow 2 (8 * k) := (Nat.pow_mul 2 8 k).symm
  have halves : Nat.pow 2 (8 * k) = 2 * Nat.pow 2 (8 * k - 1) := by
    obtain ⟨bits, size⟩ : ∃ bits, 8 * k = bits + 1 := ⟨8 * k - 1, by omega⟩
    rw [size, Nat.add_sub_cancel, Nat.pow_eq, Nat.pow_succ, Nat.mul_comm]
    rfl
  have nonempty : 0 < Nat.pow 2 (8 * k - 1) := Nat.two_pow_pos _
  simp only [fits, decide_eq_true_eq] at inside
  rw [twosComplement, ofLittleEndian_littleEndian, bytes, halves]
  generalize Nat.pow 2 (8 * k - 1) = half at *
  rw [Int.natCast_emod, Int.toNat_of_nonneg (Int.emod_nonneg n (by omega)), Int.emod_emod,
    Int.emod_bmod]
  exact Int.bmod_eq_of_le (by omega) (by omega)

/-- Signed numbers that fit some bytes and are written alike in them are one number. -/
theorem twosComplement_inj {k : Nat} (positive : 0 < k) {m n : Int} (inside : fits k m = true)
    (inside' : fits k n = true) (same : twosComplement k m = twosComplement k n) : m = n := by
  rw [← bmod_ofLittleEndian_twosComplement positive inside, same,
    bmod_ofLittleEndian_twosComplement positive inside']

/-- The bits of a number without its leading zeros. -/
def bitLength (n : Nat) : Nat := if n = 0 then 0 else Nat.log2 n + 1

/-- A number is below a power of two when it has no more bits than the exponent. -/
theorem bitLength_le {n k : Nat} : bitLength n ≤ k ↔ n < Nat.pow 2 k := by
  unfold bitLength
  split
  · next zero =>
    subst zero
    exact ⟨fun _ => Nat.two_pow_pos k, fun _ => Nat.zero_le k⟩
  · next positive =>
    rw [Nat.add_one_le_iff, Nat.log2_lt positive]
    rfl

/-- The least count of bytes that a signed number fits: one bit for the sign, and those of the
number, or of its complement if it is negative. -/
def leastBytes (n : Int) : Nat := bitLength (if 0 ≤ n then n else -n - 1).toNat / 8 + 1

/-- A signed number fits that many bytes and more, and no fewer. -/
theorem fits_iff {k : Nat} (positive : 0 < k) (n : Int) : fits k n ↔ leastBytes n ≤ k := by
  have bits : leastBytes n ≤ k ↔
      bitLength (if 0 ≤ n then n else -n - 1).toNat ≤ 8 * k - 1 := by
    unfold leastBytes
    omega
  rw [bits, bitLength_le]
  simp only [fits, decide_eq_true_eq]
  generalize Nat.pow 2 (8 * k - 1) = half
  split <;> omega

/-- The bytes of a signed number of any size: four if it fits, else eight if it fits, else the
shortest two's complement. -/
def integerBytes (n : Int) : Bytes :=
  if fits 4 n then twosComplement 4 n
  else if fits 8 n then twosComplement 8 n
  else twosComplement (leastBytes n) n

/-- The bytes that an input feeds. Of a UTF-16 unit only the low byte is fed. -/
def toBytes : Input → Bytes
  | byte b => [b]
  | bytes bs => bs
  | char c => (Units.ofChar c).map UInt8.ofNat
  | text s => (Units.ofString s).map UInt8.ofNat
  | int32 n => twosComplement 4 n
  | int64 n => twosComplement 8 n
  | integer n => integerBytes n

end Input

/-- The lanes of a hash in progress. -/
structure Hasher (w : Width) where
  /-- The family of the first lane. -/
  family : Family
  /-- The lanes, that of the least significant word first. -/
  lanes : Vector UInt64 w.words

namespace Hasher

variable {w : Width}

/-- A hasher that has taken in nothing. -/
def start (w : Width) (family : Family) : Hasher w :=
  ⟨family, Vector.ofFn fun k => (family.ahead k.val).seed⟩

/-- Take in bytes in order. -/
def extendBytes (h : Hasher w) (bytes : Bytes) : Hasher w :=
  { h with lanes := h.lanes.mapIdx fun k lane =>
      bytes.foldl (Polynomial.tableByte (h.family.ahead k).table) lane }

/-- Take in an input. -/
def extend (h : Hasher w) (input : Input) : Hasher w := h.extendBytes input.toBytes

/-- The fingerprint of everything taken in so far. -/
def finish (h : Hasher w) : Fingerprint w := Fingerprint.ofWords w h.lanes.toList.reverse

/-- The hasher as messages show it. -/
def shown (h : Hasher w) : String :=
  let lane (k : Nat) : String := Hex.word (h.lanes.toList.getD k 0).toNat
  match w with
  | .bits64 =>
    "Fp64Hasher \x7b state: " ++ lane 0 ++ ", family: " ++ toString h.family.val ++ " \x7d"
  | .bits128 =>
    "Fp128Hasher \x7b lower: " ++ lane 0 ++ ", higher: " ++ lane 1 ++ ", family: " ++
      toString h.family.val ++ " \x7d"

end Hasher

end SeenStates
