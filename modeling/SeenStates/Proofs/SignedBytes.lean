import SeenStates.Proofs.Collisions
import SeenStates.Proofs.Lanes

/-!
# Signed numbers as bytes

A signed number is read back from two's complement bytes by extending the sign, which is the top
bit of the last byte (`ofTwosComplement`). A number and a count of bytes that it fits determine the
bytes and the other way round, so each number has one shortest form (`IsShortest.unique`). The bytes
of a number of any size are four, eight or the shortest form of nine and more: they decode to the
number whatever it is, so no two numbers feed the same bytes.
-/
namespace SeenStates

namespace Input

/-! ## Reading two's complement -/

/-- The signed number that two's complement bytes stand for, least significant first: the number
that they stand for without a sign, less the range of so many bytes if the top bit of the last one
is set. -/
def ofTwosComplement (bytes : Bytes) : Int :=
  ofLittleEndian bytes - if bytes.getLastD 0 < 0x80 then 0 else Nat.pow 2 (8 * bytes.length)

/-- Bytes stand for a number below the power of two of their bits. -/
theorem ofLittleEndian_lt_two_pow (bytes : Bytes) :
    ofLittleEndian bytes < Nat.pow 2 (8 * bytes.length) :=
  Nat.lt_of_lt_of_eq (ofLittleEndian_lt bytes) (Nat.pow_mul 2 8 _).symm

/-- The top bit of the last byte is set in the upper half of the range of the bytes. -/
theorem ofTwosComplement_eq_bmod {bytes : Bytes} (nonempty : bytes ≠ []) :
    ofTwosComplement bytes = Int.bmod (ofLittleEndian bytes) (Nat.pow 2 (8 * bytes.length)) := by
  obtain ⟨low, top, rfl⟩ : ∃ low top, bytes = low ++ [top] :=
    ⟨_, _, (List.dropLast_append_getLast nonempty).symm⟩
  have range : Nat.pow 2 (8 * (low ++ [top]).length) = Nat.pow 256 low.length * 256 := by
    rw [List.length_append, List.length_singleton]
    exact Nat.pow_mul 2 8 (low.length + 1)
  have value : ofLittleEndian (low ++ [top]) =
      ofLittleEndian low + Nat.pow 256 low.length * top.toNat := by
    rw [ofLittleEndian_append, show ofLittleEndian [top] = top.toNat from ofBigEndian_singleton top]
  have below := ofLittleEndian_lt low
  have inside := Int.ofNat_lt.2 (ofLittleEndian_lt_two_pow (low ++ [top]))
  rw [ofTwosComplement, List.getLastD_concat, Int.bmod_def,
    Int.emod_eq_of_lt (Int.natCast_nonneg _) inside, range, value]
  generalize Nat.pow 256 low.length = unit at below
  by_cases positive : top < 0x80
  · have digit : top.toNat < 128 := UInt8.lt_iff_toNat_lt.1 positive
    have high : unit * top.toNat ≤ unit * 127 := Nat.mul_le_mul_left unit (by omega)
    rw [if_pos positive, if_pos (by omega)]
    omega
  · have digit : 128 ≤ top.toNat := UInt8.le_iff_toNat_le.1 (UInt8.not_lt.1 positive)
    have high : unit * 128 ≤ unit * top.toNat := Nat.mul_le_mul_left unit digit
    rw [if_neg positive, if_neg (by omega)]

/-- A signed number is written in exactly the count of bytes that was asked for. -/
@[simp] theorem length_twosComplement (k : Nat) (n : Int) : (twosComplement k n).length = k :=
  length_littleEndian ..

/-- There is a byte if one was asked for. -/
theorem twosComplement_ne_nil {k : Nat} (positive : 0 < k) (n : Int) : twosComplement k n ≠ [] := by
  apply List.ne_nil_of_length_pos
  rwa [length_twosComplement]

/-- A signed number is read back from bytes that it fits. -/
theorem ofTwosComplement_twosComplement {k : Nat} (positive : 0 < k) {n : Int}
    (inside : fits k n = true) : ofTwosComplement (twosComplement k n) = n := by
  have nonempty := twosComplement_ne_nil positive n
  rw [ofTwosComplement_eq_bmod nonempty, length_twosComplement,
    bmod_ofLittleEndian_twosComplement positive inside]

/-- A number that was read from bytes fits as many. -/
theorem fits_ofTwosComplement {bytes : Bytes} (nonempty : bytes ≠ []) :
    fits bytes.length (ofTwosComplement bytes) = true := by
  have positive : 0 < bytes.length := List.length_pos_of_ne_nil nonempty
  have halves : Nat.pow 2 (8 * bytes.length) = 2 * Nat.pow 2 (8 * bytes.length - 1) := by
    rw [Nat.mul_comm 2]
    exact (Nat.two_pow_pred_mul_two (by omega)).symm
  have range : 0 < Nat.pow 2 (8 * bytes.length) := Nat.two_pow_pos _
  have low := Int.le_bmod (x := ofLittleEndian bytes) range
  have high := Int.bmod_lt (x := ofLittleEndian bytes) range
  rw [ofTwosComplement_eq_bmod nonempty, fits, decide_eq_true_eq]
  omega

/-- Bytes are the form of the number that they stand for in as many bytes. -/
theorem twosComplement_ofTwosComplement {bytes : Bytes} (nonempty : bytes ≠ []) :
    twosComplement bytes.length (ofTwosComplement bytes) = bytes := by
  have bound := Int.ofNat_lt.2 (ofLittleEndian_lt_two_pow bytes)
  rw [twosComplement, ofTwosComplement_eq_bmod nonempty, Int.bmod_emod,
    Int.emod_eq_of_lt (Int.natCast_nonneg _) bound, Int.toNat_natCast,
    littleEndian_ofLittleEndian]

/-! ## The shortest form -/

/-- Bytes that are the shortest two's complement form of a signed number. -/
structure IsShortest (bytes : Bytes) (n : Int) : Prop where
  /-- There is a byte, for the sign. -/
  ne_nil : bytes ≠ []
  /-- The bytes stand for the number. -/
  reads : ofTwosComplement bytes = n
  /-- No fewer bytes do. -/
  length_le : ∀ other : Bytes, other ≠ [] → ofTwosComplement other = n →
    bytes.length ≤ other.length

/-- A signed number in the least count of bytes that it fits is in its shortest form. -/
theorem isShortest_twosComplement (n : Int) : IsShortest (twosComplement (leastBytes n) n) n := by
  have positive : 0 < leastBytes n := Nat.succ_pos _
  constructor
  · exact twosComplement_ne_nil positive n
  · exact ofTwosComplement_twosComplement positive ((fits_iff positive n).2 (Nat.le_refl _))
  · intro other nonempty reads
    rw [length_twosComplement, ← fits_iff (List.length_pos_of_ne_nil nonempty), ← reads]
    exact fits_ofTwosComplement nonempty

/-- A signed number has one shortest form. -/
theorem IsShortest.unique {bytes bytes' : Bytes} {n : Int} (shortest : IsShortest bytes n)
    (shortest' : IsShortest bytes' n) : bytes = bytes' := by
  have length : bytes.length = bytes'.length :=
    Nat.le_antisymm (shortest.length_le _ shortest'.ne_nil shortest'.reads)
      (shortest'.length_le _ shortest.ne_nil shortest.reads)
  rw [← twosComplement_ofTwosComplement shortest.ne_nil, shortest.reads, length, ← shortest'.reads,
    twosComplement_ofTwosComplement shortest'.ne_nil]

/-! ## Numbers of any size -/

/-- The numbers of 32 bits. -/
theorem fits_four (n : Int) : fits 4 n = true ↔ -0x80000000 ≤ n ∧ n < 0x80000000 := by
  rw [fits, decide_eq_true_eq]
  rfl

/-- The numbers of 64 bits. -/
theorem fits_eight (n : Int) :
    fits 8 n = true ↔ -0x8000000000000000 ≤ n ∧ n < 0x8000000000000000 := by
  rw [fits, decide_eq_true_eq]
  rfl

/-- A number that does not fit eight bytes takes nine or more. -/
theorem nine_le_leastBytes {n : Int} (large : ¬ fits 8 n = true) : 9 ≤ leastBytes n := by
  rw [fits_iff (by decide)] at large
  omega

/-- The bytes of a number of any size are read back as the number. -/
theorem ofTwosComplement_integerBytes (n : Int) : ofTwosComplement (integerBytes n) = n := by
  unfold integerBytes
  split
  · next short => exact ofTwosComplement_twosComplement (by decide) short
  · split
    · next long => exact ofTwosComplement_twosComplement (by decide) long
    · exact (isShortest_twosComplement n).reads

/-- A number of any size takes four bytes, eight, or as many as the shortest form. -/
theorem length_integerBytes (n : Int) :
    (integerBytes n).length = if fits 4 n then 4 else if fits 8 n then 8 else leastBytes n := by
  unfold integerBytes
  split
  · exact length_twosComplement ..
  · split <;> exact length_twosComplement ..

/-- Each of these counts of bytes is that of the numbers of its range. -/
theorem length_integerBytes_iff (n : Int) :
    ((integerBytes n).length = 4 ↔ fits 4 n = true) ∧
      ((integerBytes n).length = 8 ↔ fits 8 n = true ∧ ¬ fits 4 n = true) ∧
      (9 ≤ (integerBytes n).length ↔ ¬ fits 8 n = true) := by
  rw [length_integerBytes]
  by_cases short : fits 4 n = true
  · have long : fits 8 n = true := by
      rw [fits_iff (by decide)] at short ⊢
      omega
    simp [short, long]
  · by_cases long : fits 8 n = true
    · simp [short, long]
    · have nine := nine_le_leastBytes long
      rw [if_neg short, if_neg long]
      exact ⟨⟨fun four => absurd four (by omega), fun fit => absurd fit short⟩,
        ⟨fun eight => absurd eight (by omega), fun fit => absurd fit.1 long⟩,
        ⟨fun _ => long, fun _ => nine⟩⟩

/-- A number that fits eight bytes feeds those bytes unless it fits four. -/
theorem integerBytes_eq_long_iff {n : Int} (long : fits 8 n = true) :
    integerBytes n = twosComplement 8 n ↔ ¬ fits 4 n = true := by
  constructor
  · intro same short
    have four := (length_integerBytes_iff n).1.2 short
    rw [same, length_twosComplement] at four
    omega
  · intro large
    rw [integerBytes, if_neg large, if_pos long]

end Input

namespace Hasher

/-- Some hasher tells two byte strings apart if one is longer by less than a word. -/
theorem exists_extendBytes_ne (w : Width) (bytes bytes' : Bytes)
    (shorter : bytes.length < bytes'.length) (near : bytes'.length < bytes.length + 8) :
    ∃ h : Hasher w, h.extendBytes bytes ≠ h.extendBytes bytes' := by
  let family : Family := ⟨0, by decide⟩
  obtain ⟨value, apart⟩ := Polynomial.exists_foldl_serialByte_ne
    (Polynomial.isCoprime_X_divisor (family.ahead 0)) shorter near
  refine ⟨filled w family value, fun same => apart ?_⟩
  have inside := w.words_pos
  have lanes := congrArg (fun h => h.lanes[0]) same
  simp only [getElem_lanes_extendBytes _ _ inside] at lanes
  simpa [filled] using lanes

/-- Hashers take in a number that fits eight bytes as those bytes unless it fits four. -/
theorem extend_eq_long_iff (w : Width) {n : Int} (long : Input.fits 8 n = true) :
    (∀ h : Hasher w, h.extend (.integer n) = h.extend (.int64 n)) ↔
      ¬ Input.fits 4 n = true := by
  constructor
  · intro same short
    have four := (Input.length_integerBytes_iff n).1.2 short
    have eight := Input.length_twosComplement 8 n
    obtain ⟨h, apart⟩ := exists_extendBytes_ne w (Input.integerBytes n)
      (Input.twosComplement 8 n) (by omega) (by omega)
    exact apart (same h)
  · intro large h
    exact congrArg h.extendBytes ((Input.integerBytes_eq_long_iff long).2 large)

end Hasher

namespace Input

/-- The bytes of a number of any size, where those beyond 64 bits are written by any function that
gives the shortest two's complement form. They are those of a number of 32 bits if it is one, else
those of a number of 64 bits if it is one, else the shortest form. Extending the sign reads them
back as the number, so different numbers feed different bytes; they are four, eight, or nine and
more, each exactly for the numbers of its range. Hashers take in a number of 32 bits as such, and a
number of 64 bits as such exactly if it is not one of 32. -/
theorem decoded_of_shortest {shortest : Int → Bytes}
    (isShortest : ∀ n, ¬ fits 8 n = true → IsShortest (shortest n) n) :
    (∀ n, fits 4 n = true ↔ -0x80000000 ≤ n ∧ n < 0x80000000) ∧
    (∀ n, fits 8 n = true ↔ -0x8000000000000000 ≤ n ∧ n < 0x8000000000000000) ∧
    (∀ n, (integer n).toBytes =
      if fits 4 n then (int32 n).toBytes else if fits 8 n then (int64 n).toBytes
      else shortest n) ∧
    (∀ n, ofTwosComplement (integer n).toBytes = n) ∧
    (∀ m n, (integer m).toBytes = (integer n).toBytes → m = n) ∧
    (∀ n, ((integer n).toBytes.length = 4 ↔ fits 4 n = true) ∧
      ((integer n).toBytes.length = 8 ↔ fits 8 n = true ∧ ¬ fits 4 n = true) ∧
      (9 ≤ (integer n).toBytes.length ↔ ¬ fits 8 n = true)) ∧
    (∀ n, fits 4 n = true → ∀ {w : Width} (h : Hasher w),
      h.extend (integer n) = h.extend (int32 n)) ∧
    ∀ n, fits 8 n = true → ((integer n).toBytes = (int64 n).toBytes ↔ ¬ fits 4 n = true) ∧
      ∀ w, (∀ h : Hasher w, h.extend (integer n) = h.extend (int64 n)) ↔ ¬ fits 4 n = true := by
  refine ⟨fits_four, fits_eight, fun n => ?_, ofTwosComplement_integerBytes, fun m n same => ?_,
    length_integerBytes_iff, fun n short w h => ?_,
    fun n long => ⟨integerBytes_eq_long_iff long, fun w => Hasher.extend_eq_long_iff w long⟩⟩
  · show integerBytes n = _
    unfold integerBytes
    split
    · rfl
    · split
      · rfl
      · next large => exact (isShortest_twosComplement n).unique (isShortest n large)
  · rw [← ofTwosComplement_integerBytes m, ← ofTwosComplement_integerBytes n]
    exact congrArg ofTwosComplement same
  · have bytes : integerBytes n = twosComplement 4 n := by rw [integerBytes, if_pos short]
    exact congrArg h.extendBytes bytes

/-- The numbers at the ends of the ranges, where the bytes change in length. -/
theorem decoded_of_shortest_borders :
    (integer 0x7FFFFFFF).toBytes = [0xFF, 0xFF, 0xFF, 0x7F] ∧
    (integer 0x80000000).toBytes = [0, 0, 0, 0x80, 0, 0, 0, 0] ∧
    (integer (-0x8000000000000000)).toBytes = [0, 0, 0, 0, 0, 0, 0, 0x80] ∧
    (integer 0x8000000000000000).toBytes = [0, 0, 0, 0, 0, 0, 0, 0x80, 0] ∧
    ofTwosComplement [0, 0, 0, 0, 0, 0, 0, 0x80, 0] = 0x8000000000000000 ∧
    ¬ ∀ h : Hasher .bits128, h.extend (integer (-1)) = h.extend (int64 (-1)) := by
  obtain ⟨_, _, written, back, _, _, _, longer⟩ :=
    @decoded_of_shortest (fun n => twosComplement (leastBytes n) n)
      fun n _ => isShortest_twosComplement n
  refine ⟨(written _).trans (by decide), (written _).trans (by decide),
    (written _).trans (by decide), (written _).trans (by decide), ?_, ?_⟩
  · exact (congrArg ofTwosComplement (by decide)).trans (back 0x8000000000000000)
  · exact fun same => ((longer (-1) (by decide)).2 .bits128).1 same (by decide)

end Input

end SeenStates
