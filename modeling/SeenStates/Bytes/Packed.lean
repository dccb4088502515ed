import SeenStates.Bytes

/-!
# Packed bytes

The contents of a file are packed bytes. Words are written at their end and read by position, most
significant byte first. The laws here say both in terms of the byte string
`contents.data.toList`.
-/
namespace SeenStates

/-- Packed bytes with those of a word behind them. -/
def pushWord (contents : ByteArray) (x : UInt64) : ByteArray :=
  let upper := (((contents.push (x >>> 56).toUInt8).push (x >>> 48).toUInt8).push
    (x >>> 40).toUInt8).push (x >>> 32).toUInt8
  (((upper.push (x >>> 24).toUInt8).push (x >>> 16).toUInt8).push (x >>> 8).toUInt8).push x.toUInt8

/-- A word that is pushed stands at the end. -/
@[simp] theorem toList_pushWord (contents : ByteArray) (x : UInt64) :
    (pushWord contents x).data.toList = contents.data.toList ++ bigEndian 8 x.toNat := by
  simp only [pushWord, ByteArray.data_push, Array.toList_push, List.append_assoc,
    List.cons_append, List.nil_append, bigEndian, littleEndian, digits, List.map_cons,
    List.map_nil, List.reverse_cons, List.reverse_nil, Nat.div_div_eq_div_mul, Nat.reduceMul,
    List.append_cancel_left_eq, List.cons.injEq, and_true, ← UInt8.toNat_inj,
    UInt64.toNat_toUInt8, UInt64.toNat_shiftRight, UInt8.toNat_ofNat', Nat.mod_mod,
    Nat.shiftRight_eq_div_pow]
  simp

/-- The byte at a position. -/
theorem getElem?_packed (contents : ByteArray) (position : Nat) :
    contents[position]? = (contents.data.toList.drop position).head? := by
  rw [List.head?_drop, Array.getElem?_toList]
  by_cases within : position < contents.size
  · rw [getElem?_pos contents position within,
      getElem?_pos contents.data position (by simpa using within),
      ByteArray.getElem_eq_getElem_data]
  · rw [getElem?_neg contents position within,
      getElem?_neg contents.data position (by simpa using within)]

/-- A part of packed bytes is the same part of the byte string. -/
theorem toList_extract (contents : ByteArray) (start stop : Nat) :
    (contents.extract start stop).data.toList =
      (contents.data.toList.drop start).take (stop - start) := by
  simp [ByteArray.data_extract, List.extract_eq_take_drop]

/-- The low word of the number whose digits are those of `high` and, behind them, up to `n` bytes
from a position on. -/
def wordFrom (contents : ByteArray) (high : UInt64) (position : Nat) : Nat → UInt64
  | 0 => high
  | n + 1 =>
    match contents[position]? with
    | none => high
    | some byte => wordFrom contents (high * 256 + byte.toUInt64) (position + 1) n

/-- The word in the eight bytes from a position on. -/
def wordAt (contents : ByteArray) (position : Nat) : UInt64 := wordFrom contents 0 position 8

/-- Reading on from a word takes the bytes from a position on. -/
theorem toNat_wordFrom (contents : ByteArray) (high : UInt64) (position n : Nat) :
    (wordFrom contents high position n).toNat =
      (high.toNat * Nat.pow 256 ((contents.data.toList.drop position).take n).length +
        ofBigEndian ((contents.data.toList.drop position).take n)) % Nat.pow 2 64 := by
  induction n generalizing high position with
  | zero => simp [wordFrom, ofBigEndian, ofLittleEndian, ofDigits]
  | succ n ih =>
    rw [wordFrom, getElem?_packed]
    have behind : contents.data.toList.drop (position + 1) =
        (contents.data.toList.drop position).tail := by simp
    cases window : contents.data.toList.drop position with
    | nil => simp [ofBigEndian, ofLittleEndian, ofDigits]
    | cons byte rest =>
      have first := ofBigEndian_append [byte] (rest.take n)
      rw [List.singleton_append, ofBigEndian_singleton] at first
      simp only [List.head?_cons, ih, behind, window, List.tail_cons, List.take_succ_cons,
        first, List.length_cons, Nat.pow_eq, UInt64.toNat_add, UInt64.toNat_mul,
        UInt8.toNat_toUInt64]
      rw [Nat.mod_add_mod, Nat.add_mod, Nat.mod_mul_mod, ← Nat.add_mod, Nat.pow_succ,
        Nat.add_mul, Nat.mul_assoc, Nat.mul_comm (UInt64.toNat 256), Nat.add_assoc]
      rfl

/-- A word is read from the eight bytes of its position. -/
theorem toNat_wordAt (contents : ByteArray) (position : Nat) :
    (wordAt contents position).toNat =
      ofBigEndian ((contents.data.toList.drop position).take 8) := by
  have bound := ofBigEndian_lt ((contents.data.toList.drop position).take 8)
  have few : ((contents.data.toList.drop position).take 8).length ≤ 8 := List.length_take_le ..
  have fits := Nat.lt_of_lt_of_le bound (Nat.pow_le_pow_right (by decide : 0 < 256) few)
  rw [wordAt, toNat_wordFrom, UInt64.toNat_zero, Nat.zero_mul, Nat.zero_add,
    Nat.mod_eq_of_lt (Nat.lt_of_lt_of_le fits (by decide))]

/-- A text is read back from its bytes in UTF-8. -/
@[simp] theorem fromUTF8?_toUTF8 (s : String) : String.fromUTF8? s.toUTF8 = some s := by
  rw [String.toUTF8_eq_toByteArray]
  exact dif_pos s.isValidUTF8

end SeenStates
