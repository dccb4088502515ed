import SeenStates.Bytes.Packed
import SeenStates.Sorting
import SeenStates.Text.Hex
import SeenStates.Width

/-!
# Fingerprints

A fingerprint is a number below `2 ^ bits`. Everything else is a view of the number: the address
word (its 64 most significant bits, which pick shard and bucket), the words it is made of, the
big-endian bytes that a file stores, and the texts that messages show. Fingerprints are compared
word by word, which orders them as numbers (`Fingerprint.compare_eq`).
-/
namespace SeenStates

/-- A number of as many bits as the width has. -/
structure Fingerprint (w : Width) where
  /-- The number. -/
  value : Nat
  /-- The number fits the width. -/
  isLt : value < Nat.pow 2 w.bits
deriving DecidableEq

namespace Fingerprint

variable {w : Width}

/-- Fingerprints with one number are one fingerprint. -/
@[ext] theorem ext {a b : Fingerprint w} (same : a.value = b.value) : a = b := by
  cases a
  cases b
  simp_all

/-- The most significant word. -/
def address (fp : Fingerprint w) : Nat := fp.value / Nat.pow 2 (w.bits - wordBits)

/-- The least significant word. -/
def lowWord (fp : Fingerprint w) : Nat := fp.value % Nat.pow 2 wordBits

/-- Fingerprints are compared word by word, the most significant word first. -/
instance : Ord (Fingerprint w) where
  compare a b :=
    match w with
    | .bits64 => compare a.value b.value
    | .bits128 =>
      (compare (a.value >>> wordBits) (b.value >>> wordBits)).then (compare a.lowWord b.lowWord)

/-- Comparing fingerprints compares their numbers. -/
theorem compare_eq (a b : Fingerprint w) : compare a b = compare a.value b.value := by
  cases w with
  | bits64 => rfl
  | bits128 =>
    have high (n : Nat) : n >>> wordBits = n / Nat.pow 2 wordBits := Nat.shiftRight_eq_div_pow ..
    show (compare (a.value >>> wordBits) (b.value >>> wordBits)).then
      (compare a.lowWord b.lowWord) = compare a.value b.value
    rw [high, high]
    exact compare_div_then_mod (Nat.pow 2 wordBits) a.value b.value

/-- Fingerprints are ordered as they compare. -/
instance : LT (Fingerprint w) := ltOfOrd

/-- Fingerprints are ordered as they compare. -/
instance : LE (Fingerprint w) := leOfOrd

instance (a b : Fingerprint w) : Decidable (a < b) :=
  inferInstanceAs (Decidable (compare a b = .lt))

instance (a b : Fingerprint w) : Decidable (a ≤ b) :=
  inferInstanceAs (Decidable ((compare a b).isLE = true))

/-- The order is the order of the numbers. -/
theorem lt_iff {a b : Fingerprint w} : a < b ↔ a.value < b.value := by
  rw [← Nat.compare_eq_lt, ← compare_eq]
  rfl

/-- The order is the order of the numbers. -/
theorem le_iff {a b : Fingerprint w} : a ≤ b ↔ a.value ≤ b.value := by
  rw [← Nat.isLE_compare, ← compare_eq]
  rfl

/-- Fingerprints are ordered linearly, as numbers are. -/
instance : Std.IsLinearOrder (Fingerprint w) where
  le_refl _ := le_iff.2 (Nat.le_refl _)
  le_trans _ _ _ first second := le_iff.2 (Nat.le_trans (le_iff.1 first) (le_iff.1 second))
  le_antisymm _ _ above below := ext (Nat.le_antisymm (le_iff.1 above) (le_iff.1 below))
  le_total _ _ := (Nat.le_total _ _).imp le_iff.2 le_iff.2

instance : Std.LawfulOrderLT (Fingerprint w) where
  lt_iff _ _ := by rw [le_iff, le_iff, lt_iff, Nat.lt_iff_le_and_not_ge]

instance : Std.TransOrd (Fingerprint w) := by
  have same : (compare : Fingerprint w → Fingerprint w → Ordering) = compareOn value :=
    funext fun a => funext (compare_eq a)
  unfold Std.TransOrd
  rw [same]
  infer_instance

instance : Std.LawfulEqOrd (Fingerprint w) where
  eq_of_compare {a b} same := ext (Nat.compare_eq_eq.1 (compare_eq a b ▸ same))

/-- The fingerprint that compares as less is the lesser one. -/
theorem compare_eq_lt {a b : Fingerprint w} : compare a b = .lt ↔ a < b := Iff.rfl

/-- The fingerprint of a number's low bits. -/
def ofNat (w : Width) (n : Nat) : Fingerprint w :=
  ⟨n % w.limit, by
    rw [w.limit_eq]
    exact Nat.mod_lt _ (Nat.two_pow_pos _)⟩

instance : Inhabited (Fingerprint w) := ⟨ofNat w 0⟩

/-- A number that fits is the value of its fingerprint. -/
theorem value_ofNat {n : Nat} (fits : n < Nat.pow 2 w.bits) : (ofNat w n).value = n :=
  Nat.mod_eq_of_lt (w.limit_eq.symm ▸ fits)

/-- The fingerprint of a fingerprint's number is that fingerprint. -/
@[simp] theorem ofNat_value (fp : Fingerprint w) : ofNat w fp.value = fp := by
  ext
  exact value_ofNat fp.isLt

/-- The address is a word. -/
theorem address_lt (fp : Fingerprint w) : fp.address < Nat.pow 2 wordBits := by
  have split : Nat.pow 2 w.bits = Nat.pow 2 wordBits * Nat.pow 2 (w.bits - wordBits) := by
    simp only [Nat.pow_eq]
    rw [← Nat.pow_add]
    congr 1
    have := w.le_bits
    omega
  exact (Nat.div_lt_iff_lt_mul (Nat.two_pow_pos _)).2 (split ▸ fp.isLt)

/-- The words of a fingerprint, most significant first. -/
def toWords (fp : Fingerprint w) : List UInt64 :=
  ((digits (Nat.pow 2 wordBits) w.words fp.value).map UInt64.ofNat).reverse

/-- The fingerprint whose words are given, most significant first. -/
def ofWords (w : Width) (words : List UInt64) : Fingerprint w :=
  ofNat w (ofDigits (Nat.pow 2 wordBits) (words.reverse.map UInt64.toNat))

/-- The narrow fingerprint of a word. -/
def ofWord (x : UInt64) : Fingerprint .bits64 := ⟨x.toNat, x.toNat_lt⟩

/-- The wide fingerprint of two words, the most significant one first. -/
def ofTwoWords (high low : UInt64) : Fingerprint .bits128 :=
  ⟨high.toNat * Nat.pow 2 wordBits + low.toNat, by
    have := high.toNat_lt
    have := low.toNat_lt
    simp only [Width.bits, Width.words, wordBits, Nat.pow_eq]
    omega⟩

/-- A single word makes a narrow fingerprint. -/
theorem ofWords_singleton (x : UInt64) : ofWords .bits64 [x] = ofWord x := by
  have same : ofDigits (Nat.pow 2 wordBits) ([x].reverse.map UInt64.toNat) =
      (ofWord x).value := by
    simp [ofWord, ofDigits]
  rw [ofWords, same, ofNat_value]

/-- Two words make a wide fingerprint. -/
theorem ofWords_pair (high low : UInt64) : ofWords .bits128 [high, low] = ofTwoWords high low := by
  have same : ofDigits (Nat.pow 2 wordBits) ([high, low].reverse.map UInt64.toNat) =
      (ofTwoWords high low).value := by
    simp [ofTwoWords, ofDigits, Nat.mul_comm, Nat.add_comm]
  rw [ofWords, same, ofNat_value]

/-- A word is made of the low bits of a number. -/
theorem ofNat_mod_word (n : Nat) : UInt64.ofNat (n % Nat.pow 2 wordBits) = UInt64.ofNat n :=
  UInt64.toNat_inj.1 (by simp [wordBits])

/-- A narrow fingerprint has a single word. -/
theorem toWords_narrow (fp : Fingerprint .bits64) : fp.toWords = [UInt64.ofNat fp.value] := by
  simp only [toWords, Width.words, digits, List.map_cons, List.map_nil, ofNat_mod_word]
  rfl

/-- A wide fingerprint has two words, the high one first. -/
theorem toWords_wide (fp : Fingerprint .bits128) :
    fp.toWords = [UInt64.ofNat (fp.value >>> wordBits), UInt64.ofNat fp.value] := by
  simp only [toWords, Width.words, digits, List.map_cons, List.map_nil, ofNat_mod_word,
    Nat.shiftRight_eq_div_pow]
  rfl

/-- Words that are as many as the width has are the words of their fingerprint. -/
theorem toWords_ofWords {words : List UInt64} (many : words.length = w.words) :
    (ofWords w words).toWords = words := by
  have below : ∀ d ∈ words.reverse.map UInt64.toNat, d < Nat.pow 2 wordBits := by
    intro d member
    obtain ⟨word, _, rfl⟩ := List.mem_map.1 member
    exact word.toNat_lt
  have count : (words.reverse.map UInt64.toNat).length = w.words := by simp [many]
  have fits := ofDigits_lt _ (Nat.two_pow_pos wordBits) below
  have back := digits_ofDigits _ below
  rw [count] at fits back
  rw [toWords, ofWords, value_ofNat (w.pow_words ▸ fits), back]
  simp [Function.comp_def]

/-- A fingerprint is that of its words. -/
@[simp] theorem ofWords_toWords (fp : Fingerprint w) : ofWords w fp.toWords = fp := by
  have words : (digits (Nat.pow 2 wordBits) w.words fp.value).map
      (UInt64.toNat ∘ UInt64.ofNat) = digits (Nat.pow 2 wordBits) w.words fp.value := by
    refine (List.map_congr_left fun d member => ?_).trans (List.map_id _)
    exact UInt64.toNat_ofNat_of_lt' (lt_of_mem_digits (by decide) member)
  rw [ofWords, toWords, List.reverse_reverse, List.map_map, words, ofDigits_digits, w.pow_words,
    Nat.mod_eq_of_lt fp.isLt, ofNat_value]

/-- The bytes of a fingerprint in a file, most significant first. -/
def toBytes (fp : Fingerprint w) : Bytes := bigEndian w.bytes fp.value

/-- The contents of a file with a fingerprint behind them, word by word. -/
def pushTo (contents : ByteArray) (fp : Fingerprint w) : ByteArray :=
  match w with
  | .bits64 => pushWord contents (UInt64.ofNat fp.value)
  | .bits128 =>
    pushWord (pushWord contents (UInt64.ofNat (fp.value >>> wordBits))) (UInt64.ofNat fp.value)

/-- A fingerprint is written at the end as its bytes. -/
@[simp] theorem toList_pushTo (contents : ByteArray) (fp : Fingerprint w) :
    (pushTo contents fp).data.toList = contents.data.toList ++ fp.toBytes := by
  have word (n : Nat) : bigEndian 8 (UInt64.ofNat n).toNat = bigEndian 8 n := bigEndian_mod 8 n
  cases w with
  | bits64 =>
    rw [pushTo, toList_pushWord, word]
    rfl
  | bits128 =>
    simp only [pushTo, toBytes, toList_pushWord, word, Nat.shiftRight_eq_div_pow,
      List.append_assoc]
    rw [show Width.bits128.bytes = 8 + 8 from rfl, bigEndian_add]
    rfl

/-- The fingerprint whose bytes are given, most significant first. -/
def ofBytes (w : Width) (bytes : Bytes) : Fingerprint w := ofNat w (ofBigEndian bytes)

/-- The fingerprint in the contents of a file from a position on, word by word. -/
def readAt (w : Width) (contents : ByteArray) (position : Nat) : Fingerprint w :=
  match w with
  | .bits64 => ofWord (wordAt contents position)
  | .bits128 => ofTwoWords (wordAt contents position) (wordAt contents (position + 8))

/-- A fingerprint is read from the bytes of its position. -/
theorem readAt_eq {contents : ByteArray} {position : Nat}
    (within : position + w.bytes ≤ contents.size) :
    readAt w contents position =
      ofBytes w ((contents.data.toList.drop position).take w.bytes) := by
  cases w with
  | bits64 =>
    rw [ofBytes, readAt, ← ofNat_value (ofWord _)]
    congr 1
    exact toNat_wordAt ..
  | bits128 =>
    rw [ofBytes, readAt, ← ofNat_value (ofTwoWords _ _)]
    congr 1
    rw [show Width.bits128.bytes = 8 + 8 from rfl, List.take_add, ofBigEndian_append,
      List.drop_drop]
    have low : ((contents.data.toList.drop (position + 8)).take 8).length = 8 := by
      simp [Width.bytes, Width.words] at within ⊢
      omega
    simp only [ofTwoWords, toNat_wordAt, low]
    rfl

/-- The fingerprint at the front of a byte string, if the string is long enough to hold one. -/
def ofPrefix? (w : Width) (bytes : Bytes) : Option (Fingerprint w) :=
  if w.bytes ≤ bytes.length then some (ofBytes w (bytes.take w.bytes)) else none

/-- A fingerprint is stored in as many bytes as its width has. -/
@[simp] theorem length_toBytes (fp : Fingerprint w) : fp.toBytes.length = w.bytes := by
  simp [toBytes]

/-- The fingerprint in hexadecimal, every digit shown. -/
def text (fp : Fingerprint w) : String := Hex.padded (w.bits / 4) fp.value

/-- The mark of a width in front of a fingerprint in a message. -/
def mark : Width → String
  | .bits64 => "FP"
  | .bits128 => "FP128"

/-- The fingerprint as messages show it. -/
def shown (fp : Fingerprint w) : String := mark w ++ "(" ++ fp.text ++ ")"

/-- The bit mixer of a 64-bit word that gives a second word of its own. -/
def mix (k : UInt64) : UInt64 :=
  let k := (k ^^^ (k >>> 33)) * 0xFF51AFD7ED558CCD
  let k := (k ^^^ (k >>> 33)) * 0xC4CEB9FE1A85EC53
  k ^^^ (k >>> 33)

/-- The two words that pick the probes of a Bloom filter: the two words of a wide fingerprint,
or the one word of a narrow one and that word mixed. -/
def probeLanes (fp : Fingerprint w) : Nat × Nat :=
  match w with
  | .bits64 => (fp.lowWord, (mix (UInt64.ofNat fp.lowWord)).toNat)
  | .bits128 => (fp.lowWord, fp.address)

end Fingerprint

/-! ## Sorting -/

variable {w : Width}

/-- Fingerprints in ascending order, equal ones kept. -/
def sortFingerprints (fps : List (Fingerprint w)) : List (Fingerprint w) :=
  fps.mergeSort fun a b => decide (a ≤ b)

/-- A few fingerprints in ascending order, equal ones kept. -/
def sortFew (fps : List (Fingerprint w)) : List (Fingerprint w) :=
  sorted (fun a b => decide (a ≤ b)) fps

/-- Of two fingerprints one may come after the other one. -/
theorem Fingerprint.decide_le_total (a b : Fingerprint w) : decide (a ≤ b) ∨ decide (b ≤ a) := by
  simpa using (Std.le_total : a ≤ b ∨ b ≤ a)

/-- What may come after a fingerprint may come after those before it. -/
theorem Fingerprint.decide_le_trans (a b c : Fingerprint w) (first : decide (a ≤ b))
    (second : decide (b ≤ c)) : decide (a ≤ c) :=
  decide_eq_true (Std.le_trans (of_decide_eq_true first) (of_decide_eq_true second))

/-- Sorting keeps the fingerprints. -/
theorem perm_sortFingerprints (fps : List (Fingerprint w)) : (sortFingerprints fps).Perm fps :=
  List.mergeSort_perm ..

/-- Sorting keeps the fingerprints. -/
theorem perm_sortFew (fps : List (Fingerprint w)) : (sortFew fps).Perm fps := perm_sorted fps

/-- Sorted fingerprints are in order. -/
theorem ordered_sortFingerprints (fps : List (Fingerprint w)) :
    (sortFingerprints fps).Pairwise (· ≤ ·) := by
  have total (a b : Fingerprint w) : (decide (a ≤ b) || decide (b ≤ a)) = true :=
    Bool.or_eq_true_iff.2 (Fingerprint.decide_le_total a b)
  exact (List.pairwise_mergeSort Fingerprint.decide_le_trans total fps).imp of_decide_eq_true

/-- Sorted fingerprints are in order. -/
theorem ordered_sortFew (fps : List (Fingerprint w)) : (sortFew fps).Pairwise (· ≤ ·) :=
  (sorted_ordered Fingerprint.decide_le_total Fingerprint.decide_le_trans fps).imp
    of_decide_eq_true

end SeenStates
