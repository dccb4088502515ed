import Mathlib.Data.UInt
import SeenStates.Arena
import SeenStates.Proofs.AddressOrder
import SeenStates.Proofs.RunFormat

/-!
# The order of encodings

A fingerprint is stored as words in a table and as bytes in a file. Neither loses anything
(`Fingerprint.RoundTrips`), and both are in the order of the numbers, because both are digits with
the most significant one first (`Fingerprint.KeepsOrder`). So the entries of a file can be compared
and sorted without being decoded.
-/
namespace SeenStates

variable {w : Width}

/-! ## Comparing bytes and words -/

/-- Numbers compare as their bytes do. -/
theorem compare_bigEndian (n u v : Nat) :
    compare (bigEndian n u) (bigEndian n v) =
      compare (u % Nat.pow 256 n) (v % Nat.pow 256 n) := by
  refine compare_spelled (by decide) (fun c small d small' => ?_) n u v
  rw [UInt8.compare_eq_toNat_compare_toNat, UInt8.toNat_ofNat_of_lt' small,
    UInt8.toNat_ofNat_of_lt' small']

/-- Byte strings are in the order in which they compare. -/
theorem compare_bytes_eq_lt (xs ys : Bytes) : compare xs ys = .lt ↔ xs < ys := by
  induction xs generalizing ys with
  | nil => cases ys <;> simp
  | cons x xs ih =>
    cases ys with
    | nil => simp
    | cons y ys =>
      rw [List.compare_cons_cons, Ordering.then_eq_lt, ih, List.cons_lt_cons_iff,
        Std.compare_eq_lt, Std.LawfulEqOrd.compare_eq_iff_eq]

/-- Lists compare as their fronts do, and as what is behind if the fronts are equal. -/
theorem compare_append {α : Type} [Ord α] {front front' : List α}
    (same : front.length = front'.length) (back back' : List α) :
    compare (front ++ back) (front' ++ back') =
      (compare front front').then (compare back back') := by
  induction front generalizing front' with
  | nil =>
    obtain rfl := List.eq_nil_of_length_eq_zero same.symm
    rfl
  | cons x front ih =>
    cases front' with
    | nil => contradiction
    | cons y front' =>
      rw [List.cons_append, List.cons_append, List.compare_cons_cons, List.compare_cons_cons,
        ih (Nat.succ.inj same), Ordering.then_assoc]

namespace Fingerprint

/-! ## Round trips -/

/-- A byte string of the right length is that of its fingerprint. -/
theorem toBytes_ofBytes {bytes : Bytes} (long : bytes.length = w.bytes) :
    (ofBytes w bytes).toBytes = bytes := by
  have fits : ofBigEndian bytes < Nat.pow 2 w.bits := w.pow_bytes ▸ long ▸ ofBigEndian_lt bytes
  have back := littleEndian_ofLittleEndian bytes.reverse
  rw [List.length_reverse, long] at back
  rw [toBytes, ofBytes, value_ofNat fits, bigEndian, ofBigEndian, back, List.reverse_reverse]

/-- A byte string of the right length has a fingerprint at its front. -/
theorem ofPrefix?_eq {bytes : Bytes} (long : bytes.length = w.bytes) :
    ofPrefix? w bytes = some (ofBytes w bytes) := by
  rw [ofPrefix?, if_pos (Nat.le_of_eq long.symm), List.take_of_length_le (Nat.le_of_eq long)]

/-- The bytes of a fingerprint are those of its words. -/
theorem toBytes_eq_flatMap (a : Fingerprint w) :
    a.toBytes = a.toWords.flatMap fun x => bigEndian 8 x.toNat := by
  have word (n : Nat) : bigEndian 8 (UInt64.ofNat n).toNat = bigEndian 8 n := bigEndian_mod 8 n
  cases w with
  | bits64 =>
    rw [toWords_narrow, List.flatMap_singleton, word]
    rfl
  | bits128 =>
    rw [toWords_wide, List.flatMap_cons, List.flatMap_singleton, word, word,
      Nat.shiftRight_eq_div_pow, toBytes, show Width.bits128.bytes = 8 + 8 from rfl, bigEndian_add]
    rfl

/-- The address is the first word. -/
theorem head?_toWords (a : Fingerprint w) : a.toWords.head? = some (UInt64.ofNat a.address) := by
  cases w with
  | bits64 =>
    rw [toWords_narrow, address, show Width.bits64.bits - wordBits = 0 from rfl, Nat.pow_eq,
      Nat.pow_zero, Nat.div_one]
    rfl
  | bits128 =>
    rw [toWords_wide, Nat.shiftRight_eq_div_pow]
    rfl

/-- Nothing is lost when fingerprints are stored. -/
structure RoundTrips (w : Width) : Prop where
  /-- The bytes of a fingerprint are decoded to it. -/
  decoded : ∀ a : Fingerprint w, ofPrefix? w a.toBytes = some a
  /-- Every byte string of the right length is that of what it is decoded to. -/
  encoded : ∀ bytes : Bytes, bytes.length = w.bytes →
    ∃ a : Fingerprint w, ofPrefix? w bytes = some a ∧ a.toBytes = bytes
  /-- The words of a fingerprint make it. -/
  made : ∀ a : Fingerprint w, ofWords w a.toWords = a
  /-- Words that are as many as the width has are those of what they make. -/
  spelled : ∀ words : List UInt64, words.length = w.words → (ofWords w words).toWords = words
  /-- A fingerprint that is stored between other words is loaded again. -/
  loaded : ∀ (a : Fingerprint w) (words : SparseArray (0 : UInt64)) (start : Nat),
    start + w.words ≤ words.size → loadFrom w (a.storeIn words start) start = a
  /-- A fingerprint that is written at the end of a file is read again. -/
  read : ∀ (contents : ByteArray) (a : Fingerprint w),
    readAt w (pushTo contents a) contents.size = a
  /-- What is read from a file has the bytes that are there. -/
  written : ∀ (contents : ByteArray) (position : Nat), position + w.bytes ≤ contents.size →
    (readAt w contents position).toBytes = (contents.data.toList.drop position).take w.bytes

/-- Nothing is lost at either width. -/
theorem roundTrips (w : Width) : RoundTrips w := by
  constructor
  case decoded => exact fun a => by rw [ofPrefix?_eq a.length_toBytes, ofBytes_toBytes]
  case encoded => exact fun bytes long => ⟨_, ofPrefix?_eq long, toBytes_ofBytes long⟩
  case made => exact ofWords_toWords
  case spelled => exact fun words many => toWords_ofWords many
  case loaded => exact fun a words start within => loadFrom_storeIn a within
  case read =>
    intro contents a
    have front : contents.data.toList.length = contents.size := by simp
    have size : (pushTo contents a).size = contents.size + w.bytes := by
      rw [← ByteArray.size_data, ← Array.length_toList, toList_pushTo, List.length_append, front,
        length_toBytes]
    rw [readAt_eq (Nat.le_of_eq size.symm), toList_pushTo, List.drop_left' front,
      List.take_of_length_le (Nat.le_of_eq a.length_toBytes), ofBytes_toBytes]
  case written =>
    intro contents position within
    rw [readAt_eq within, toBytes_ofBytes]
    rw [List.length_take, List.length_drop, Array.length_toList, ByteArray.size_data]
    omega

/-! ## Order -/

/-- Fingerprints compare as their bytes do. -/
theorem compare_toBytes (a b : Fingerprint w) : compare a.toBytes b.toBytes = compare a b := by
  rw [toBytes, toBytes, compare_bigEndian, w.pow_bytes, Nat.mod_eq_of_lt a.isLt,
    Nat.mod_eq_of_lt b.isLt, compare_eq]

/-- Fingerprints compare as their words do. -/
theorem compare_toWords (a b : Fingerprint w) : compare a.toWords b.toWords = compare a b := by
  rw [toWords, toWords, compare_spelled (by decide), w.pow_words, Nat.mod_eq_of_lt a.isLt,
    Nat.mod_eq_of_lt b.isLt, compare_eq]
  intro c small d small'
  rw [UInt64.compare_eq_toNat_compare_toNat, UInt64.toNat_ofNat_of_lt' small,
    UInt64.toNat_ofNat_of_lt' small']

/-- The bytes of a lesser fingerprint are in front of those of a greater one. -/
theorem toBytes_lt_iff {a b : Fingerprint w} : a.toBytes < b.toBytes ↔ a < b := by
  rw [← compare_bytes_eq_lt, compare_toBytes, compare_eq_lt]

/-- Byte strings are in order if their fingerprints are. -/
theorem toBytes_le_iff {a b : Fingerprint w} : a.toBytes ≤ b.toBytes ↔ a ≤ b := by
  rw [← List.not_lt, toBytes_lt_iff, Std.not_lt]

/-- The entries of files compare as the fingerprints in them do. -/
theorem compare_flatMap_toBytes (fps more : List (Fingerprint w)) :
    compare (fps.flatMap toBytes) (more.flatMap toBytes) = compare fps more := by
  -- No fingerprint is without bytes, so the shorter one of two lists is not taken for an equal one.
  have filled (fp : Fingerprint w) (rest : Bytes) :
      ∃ first others, fp.toBytes ++ rest = first :: others := by
    have positive := w.bytes_pos
    exact List.exists_cons_of_length_pos (by simp; omega)
  induction fps generalizing more with
  | nil =>
    cases more with
    | nil => rfl
    | cons b more =>
      obtain ⟨first, others, entries⟩ := filled b (more.flatMap toBytes)
      rw [List.flatMap_cons, entries]
      rfl
  | cons a fps ih =>
    cases more with
    | nil =>
      obtain ⟨first, others, entries⟩ := filled a (fps.flatMap toBytes)
      rw [List.flatMap_cons, entries]
      rfl
    | cons b more =>
      rw [List.flatMap_cons, List.flatMap_cons, compare_append (by simp), compare_toBytes, ih,
        List.compare_cons_cons]

/-! ## Sorting -/

/-- Two orders of one list in which nothing is in front of anything less are equal. -/
theorem eq_of_ordered {fps more : List (Fingerprint w)} (ordered : fps.Pairwise (· ≤ ·))
    (ordered' : more.Pairwise (· ≤ ·)) (same : fps.Perm more) : fps = more :=
  same.eq_of_pairwise (fun _ _ _ _ => Std.le_antisymm) ordered ordered'

/-- A few fingerprints are sorted as many are. -/
theorem sortFew_eq (fps : List (Fingerprint w)) : sortFew fps = sortFingerprints fps :=
  eq_of_ordered (ordered_sortFew fps) (ordered_sortFingerprints fps)
    ((perm_sortFew fps).trans (perm_sortFingerprints fps).symm)

/-- Lists of byte strings are in order if the fingerprints are. -/
theorem pairwise_map_toBytes {fps : List (Fingerprint w)} :
    (fps.map toBytes).Pairwise (· ≤ ·) ↔ fps.Pairwise (· ≤ ·) := by
  simp only [List.pairwise_map, toBytes_le_iff]

/-- The sorted byte strings are those of the sorted fingerprints. -/
theorem eq_map_sortFingerprints_iff (fps : List (Fingerprint w)) (strings : List Bytes) :
    strings = (sortFingerprints fps).map toBytes ↔
      strings.Perm (fps.map toBytes) ∧ strings.Pairwise (· ≤ ·) := by
  have perm := (perm_sortFingerprints fps).map toBytes
  have ordered := pairwise_map_toBytes.2 (ordered_sortFingerprints fps)
  constructor
  · rintro rfl
    exact ⟨perm, ordered⟩
  · rintro ⟨same, ascends⟩
    exact (same.trans perm.symm).eq_of_pairwise (fun _ _ _ _ => Std.le_antisymm) ascends ordered

/-- All views of fingerprints are in one order. -/
structure KeepsOrder (w : Width) : Prop where
  /-- Fingerprints compare as their numbers. -/
  numbers : ∀ a b : Fingerprint w, compare a b = compare a.value b.value
  /-- They compare as their words. -/
  words : ∀ a b : Fingerprint w, compare a b = compare a.toWords b.toWords
  /-- They compare as their bytes. -/
  bytes : ∀ a b : Fingerprint w, compare a b = compare a.toBytes b.toBytes
  /-- The lesser one has the lesser number. -/
  less : ∀ a b : Fingerprint w, a < b ↔ a.value < b.value
  /-- Its bytes are in front of those of the greater one. -/
  inFront : ∀ a b : Fingerprint w, a < b ↔ a.toBytes < b.toBytes
  /-- Each word is written with its most significant byte first. -/
  spelled : ∀ a : Fingerprint w, a.toBytes = a.toWords.flatMap fun x => bigEndian 8 x.toNat
  /-- The address is the first word. -/
  address : ∀ a : Fingerprint w, a.toWords.head? = some (UInt64.ofNat a.address)
  /-- Fingerprints in order have addresses in order. -/
  addresses : ∀ a b : Fingerprint w, a ≤ b → a.address ≤ b.address
  /-- The entries of files compare as the fingerprints in them. -/
  entries : ∀ fps more : List (Fingerprint w),
    compare fps more = compare (fps.flatMap toBytes) (more.flatMap toBytes)
  /-- Fingerprints are in order when their byte strings are. -/
  ordered : ∀ fps : List (Fingerprint w),
    fps.Pairwise (· ≤ ·) ↔ (fps.map toBytes).Pairwise (· ≤ ·)
  /-- The one way to sort the byte strings is to sort the fingerprints. -/
  sorted : ∀ (fps : List (Fingerprint w)) (strings : List Bytes),
    strings.Perm (fps.map toBytes) ∧ strings.Pairwise (· ≤ ·) ↔
      strings = (sortFingerprints fps).map toBytes
  /-- A few fingerprints are sorted as many are. -/
  few : ∀ fps : List (Fingerprint w), sortFew fps = sortFingerprints fps

/-- There is one order at either width. -/
theorem keepsOrder (w : Width) : KeepsOrder w where
  numbers := compare_eq
  words a b := (compare_toWords a b).symm
  bytes a b := (compare_toBytes a b).symm
  less _ _ := lt_iff
  inFront _ _ := toBytes_lt_iff.symm
  spelled := toBytes_eq_flatMap
  address := head?_toWords
  addresses _ _ := address_le
  entries fps more := (compare_flatMap_toBytes fps more).symm
  ordered _ := pairwise_map_toBytes.symm
  sorted fps strings := (eq_map_sortFingerprints_iff fps strings).symm
  few := sortFew_eq

/-- Fingerprints can be stored, and compared and sorted as they are stored. -/
theorem encodings_agree (w : Width) : RoundTrips w ∧ KeepsOrder w := ⟨roundTrips w, keepsOrder w⟩

/-- The greatest wide fingerprint without a high word, the least one with a high word, and their
byte strings sorted; a narrow fingerprint in the middle of a file. -/
theorem encodings_agree_carry :
    let low := ofTwoWords 0 0xFFFFFFFFFFFFFFFF
    let high := ofTwoWords 1 0
    let lowBytes : Bytes := List.replicate 8 0 ++ List.replicate 8 255
    let highBytes : Bytes := [0, 0, 0, 0, 0, 0, 0, 1] ++ List.replicate 8 0
    let file : ByteArray := ⟨#[7, 1, 2, 3, 4, 5, 6, 7, 8, 9]⟩
    (∃ a, ofPrefix? .bits128 highBytes = some a ∧ a.toBytes = highBytes ∧ a = high) ∧
      (ofWords .bits128 [1, 0]).toWords = [1, 0] ∧
      loadFrom .bits128 (low.storeIn (.blank 6) 3) 3 = low ∧
      (readAt .bits64 file 1).toBytes = [1, 2, 3, 4, 5, 6, 7, 8] ∧
      low.address ≤ high.address ∧ lowBytes < highBytes ∧
      [lowBytes, lowBytes, highBytes] = (sortFingerprints [low, high, low]).map toBytes := by
  intro low high lowBytes highBytes file
  obtain ⟨trips, order⟩ := encodings_agree .bits128
  obtain ⟨a, decoded, encoded⟩ := trips.encoded highBytes (by decide)
  have isHigh : ofPrefix? .bits128 highBytes = some high := by decide
  have less : low < high := (order.less low high).2 (by decide)
  have lowIs : low.toBytes = lowBytes := by decide
  have highIs : high.toBytes = highBytes := by decide
  refine ⟨⟨a, decoded, encoded, Option.some.inj (decoded.symm.trans isHigh)⟩, ?_, ?_, ?_, ?_, ?_,
    ?_⟩
  · exact trips.spelled _ (by decide)
  · exact trips.loaded low _ 3 (by decide)
  · exact (encodings_agree .bits64).1.written file 1 (by decide)
  · exact order.addresses low high (Std.le_of_lt less)
  · exact lowIs ▸ highIs ▸ (order.inFront low high).1 less
  · refine (order.sorted [low, high, low] _).1 ⟨?_, by decide⟩
    rw [List.map_cons, List.map_cons, List.map_cons, lowIs, highIs]
    exact (List.Perm.swap ..).cons _

end Fingerprint

end SeenStates
