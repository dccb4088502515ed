import SeenStates.Digits

/-!
# Numbers as bytes

A byte string is a list of bytes. A number is written in a given count of them, least significant
byte first (`littleEndian`) or last (`bigEndian`), and read back by the matching reader. A text is
written in UTF-8.
-/
namespace SeenStates

/-- A byte string. -/
abbrev Bytes := List UInt8

/-- The `n` low bytes of a number, least significant first. -/
def littleEndian (n v : Nat) : Bytes := (digits 256 n v).map UInt8.ofNat

/-- The number that bytes stand for, least significant first. -/
def ofLittleEndian (bytes : Bytes) : Nat := ofDigits 256 (bytes.map UInt8.toNat)

/-- The `n` low bytes of a number, most significant first. -/
def bigEndian (n v : Nat) : Bytes := (littleEndian n v).reverse

/-- The number that bytes stand for, most significant first. -/
def ofBigEndian (bytes : Bytes) : Nat := ofLittleEndian bytes.reverse

/-- A number is written in exactly the count of bytes that was asked for. -/
@[simp] theorem length_littleEndian (n v : Nat) : (littleEndian n v).length = n := by
  simp [littleEndian]

/-- A number is written in exactly the count of bytes that was asked for. -/
@[simp] theorem length_bigEndian (n v : Nat) : (bigEndian n v).length = n := by
  simp [bigEndian]

/-- Taking a byte's number of each of the bytes made of small numbers gives the numbers back. -/
theorem map_toNat_ofNat (ds : List Nat) (below : ∀ d ∈ ds, d < 256) :
    (ds.map UInt8.ofNat).map UInt8.toNat = ds := by
  induction ds with
  | nil => rfl
  | cons d rest ih =>
    have small : d < 256 := below d List.mem_cons_self
    simp only [List.map_cons, List.cons.injEq]
    exact ⟨by simp [UInt8.toNat_ofNat', Nat.mod_eq_of_lt small],
      ih fun x member => below x (List.mem_cons_of_mem d member)⟩

/-- The bytes of a number read back as its remainder by the range of that many bytes. -/
theorem ofLittleEndian_littleEndian (n v : Nat) :
    ofLittleEndian (littleEndian n v) = v % Nat.pow 256 n := by
  rw [ofLittleEndian, littleEndian,
    map_toNat_ofNat _ fun d member => lt_of_mem_digits (by decide) member, ofDigits_digits]

/-- The bytes of a number read back as its remainder by the range of that many bytes. -/
theorem ofBigEndian_bigEndian (n v : Nat) : ofBigEndian (bigEndian n v) = v % Nat.pow 256 n := by
  rw [ofBigEndian, bigEndian, List.reverse_reverse, ofLittleEndian_littleEndian]

/-- Bytes stand for a number in the range of their count. -/
theorem ofLittleEndian_lt (bytes : Bytes) : ofLittleEndian bytes < Nat.pow 256 bytes.length := by
  have bound := ofDigits_lt (bytes.map UInt8.toNat) (b := 256) (by decide) (by
    intro d member
    obtain ⟨byte, _, rfl⟩ := List.mem_map.1 member
    exact byte.toNat_lt)
  simpa [ofLittleEndian] using bound

/-- Bytes stand for a number in the range of their count. -/
theorem ofBigEndian_lt (bytes : Bytes) : ofBigEndian bytes < Nat.pow 256 bytes.length := by
  simpa [ofBigEndian] using ofLittleEndian_lt bytes.reverse

/-- The digits of two groups stand for those of the low group and, above them, the high one. -/
theorem ofLittleEndian_append (low high : Bytes) :
    ofLittleEndian (low ++ high) =
      ofLittleEndian low + Nat.pow 256 low.length * ofLittleEndian high := by
  induction low with
  | nil => simp [ofLittleEndian, ofDigits]
  | cons byte rest ih =>
    simp only [ofLittleEndian, List.cons_append, List.map_cons, ofDigits, List.length_cons,
      Nat.pow_eq] at ih ⊢
    rw [ih, Nat.pow_succ, Nat.mul_add, Nat.add_assoc, Nat.mul_comm (256 ^ rest.length) 256,
      Nat.mul_assoc]

/-- The bytes of two groups stand for those of the low group and, above them, the high one. -/
theorem ofBigEndian_append (high low : Bytes) :
    ofBigEndian (high ++ low) =
      ofBigEndian high * Nat.pow 256 low.length + ofBigEndian low := by
  rw [ofBigEndian, List.reverse_append, ofLittleEndian_append, List.length_reverse,
    Nat.add_comm, Nat.mul_comm]
  rfl

/-- A single byte stands for its number. -/
theorem ofBigEndian_singleton (byte : UInt8) : ofBigEndian [byte] = byte.toNat := by
  simp [ofBigEndian, ofLittleEndian, ofDigits]

/-- The high bytes of a number come before the low ones. -/
theorem bigEndian_add (m n v : Nat) :
    bigEndian (m + n) v = bigEndian m (v / Nat.pow 256 n) ++ bigEndian n v := by
  simp [bigEndian, littleEndian, Nat.add_comm m n, digits_add]

/-- The low bytes of a number are those of its remainder. -/
theorem bigEndian_mod (n v : Nat) : bigEndian n (v % Nat.pow 256 n) = bigEndian n v := by
  simp only [bigEndian, littleEndian, digits_mod]

/-- A byte string is the writing of the number that it stands for. -/
theorem littleEndian_ofLittleEndian (bytes : Bytes) :
    littleEndian bytes.length (ofLittleEndian bytes) = bytes := by
  have back := digits_ofDigits (b := 256) (bytes.map UInt8.toNat) (by
    intro d member
    obtain ⟨byte, _, rfl⟩ := List.mem_map.1 member
    exact byte.toNat_lt)
  rw [List.length_map] at back
  rw [littleEndian, ofLittleEndian, back, List.map_map]
  simp [Function.comp_def]

namespace Bytes

/-- The bytes of a text in UTF-8. -/
def ofText (s : String) : Bytes := s.toUTF8.data.toList

/-- Bytes written over others from a position on. Zeros fill the gap if the position is beyond the
end. -/
def patch (bytes : Bytes) (position : Nat) (new : Bytes) : Bytes :=
  bytes.take position ++ List.replicate (position - bytes.length) 0 ++ new ++
    bytes.drop (position + new.length)

end Bytes

end SeenStates
