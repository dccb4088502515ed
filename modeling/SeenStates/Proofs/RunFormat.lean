import SeenStates.Run

/-!
# Reading a run back

A run file that was written is read as the same header and the same entries, as long as every
number in its header and its length fit their fields (`parseRun_encodeRun`).
-/
namespace SeenStates

variable {w : Width}

/-! ## The header -/

/-- A number is read back from where it stands, if it fits its bytes. -/
theorem fieldAt_eq {bytes front back : Bytes} {position n v : Nat}
    (spelled : bytes = front ++ (littleEndian n v ++ back)) (there : front.length = position)
    (fits : v < Nat.pow 256 n) : RunHeader.fieldAt bytes position n = v := by
  rw [RunHeader.fieldAt, spelled, List.drop_left' there, List.take_left' (by simp),
    ofLittleEndian_littleEndian, Nat.mod_eq_of_lt fits]

namespace RunHeader

/-- Every number of a header fits its field, and a block has an entry. -/
structure Fits (h : RunHeader) : Prop where
  /-- The bytes of an entry. -/
  entryBytes : h.entryBytes < smallLimit
  /-- The count of entries. -/
  count : h.count < countLimit
  /-- The entries of a block. -/
  blockEntries : h.blockEntries < smallLimit
  /-- A block has an entry. -/
  filled : 0 < h.blockEntries

/-- A header has its size. -/
theorem length_encode (h : RunHeader) : h.encode.length = size := by
  simp only [encode, List.length_append, length_littleEndian]
  decide

/-- A header that fits is read back. -/
theorem decode_encode {h : RunHeader} (fits : h.Fits) (rest : Bytes) :
    decode (h.encode ++ rest) = .ok h := by
  have long : ¬ (h.encode ++ rest).length < size := by
    rw [List.length_append, length_encode]
    omega
  have front : (h.encode ++ rest).take 8 = magic := by
    simp only [encode, List.append_assoc]
    exact List.take_left' (by decide)
  have spelled : h.encode ++ rest = magic ++ (littleEndian 4 version ++
      (littleEndian 4 h.entryBytes ++ (littleEndian 8 h.count ++
        (littleEndian 4 h.blockEntries ++ (littleEndian 4 0 ++ rest))))) := by
    simp [encode]
  have written : fieldAt (h.encode ++ rest) 8 4 = version :=
    fieldAt_eq spelled (by decide) (by decide)
  rw [← List.append_assoc] at spelled
  have entryBytes : fieldAt (h.encode ++ rest) 12 4 = h.entryBytes :=
    fieldAt_eq spelled (by simp; decide) fits.entryBytes
  rw [← List.append_assoc] at spelled
  have count : fieldAt (h.encode ++ rest) 16 8 = h.count :=
    fieldAt_eq spelled (by simp; decide) fits.count
  rw [← List.append_assoc] at spelled
  have blockEntries : fieldAt (h.encode ++ rest) 24 4 = h.blockEntries :=
    fieldAt_eq spelled (by simp; decide) fits.blockEntries
  have filled : h.blockEntries ≠ 0 := Nat.pos_iff_ne_zero.1 fits.filled
  simp only [decode, long, front, written, entryBytes, count, blockEntries, filled, if_false,
    ne_eq, not_true_eq_false]

/-- The length of a file is that of its header and its entries. -/
theorem eq_of_fileLength? {h : RunHeader} {n : Nat} (length : h.fileLength? = some n) :
    n = size + h.count * h.entryBytes := by
  unfold fileLength? inRange? at length
  split at length
  · simp only [Option.bind_some] at length
    split at length
    · rw [← Option.some.inj length, Nat.add_comm]
    · contradiction
  · contradiction

end RunHeader

/-! ## The entries -/

/-- The bytes of a fingerprint give it back. -/
@[simp] theorem Fingerprint.ofBytes_toBytes (fp : Fingerprint w) :
    Fingerprint.ofBytes w fp.toBytes = fp := by
  rw [Fingerprint.ofBytes, Fingerprint.toBytes, ofBigEndian_bigEndian, w.pow_bytes,
    Nat.mod_eq_of_lt fp.isLt, Fingerprint.ofNat_value]

/-- The bytes of fingerprints give them back. -/
theorem decodeEntries_flatMap (fps : List (Fingerprint w)) (rest : Bytes) :
    decodeEntries w fps.length (fps.flatMap Fingerprint.toBytes ++ rest) = fps := by
  induction fps with
  | nil => rfl
  | cons fp more ih =>
    rw [List.length_cons, decodeEntries, List.flatMap_cons, List.append_assoc,
      List.take_left' fp.length_toBytes, List.drop_left' fp.length_toBytes,
      Fingerprint.ofBytes_toBytes, ih]

/-- Fingerprints have as many bytes as there are in all of them. -/
theorem length_flatMap_toBytes (fps : List (Fingerprint w)) :
    (fps.flatMap Fingerprint.toBytes).length = fps.length * w.bytes := by
  induction fps with
  | nil => simp
  | cons fp more ih => simp [ih, Nat.add_mul, Nat.add_comm]

/-! ## The file -/

/-- A run file has the bytes of its header and of its entries. -/
theorem size_encodeRun (blockEntries : Nat) (entries : Array (Fingerprint w)) :
    (encodeRun blockEntries entries).size = RunHeader.size + entries.size * w.bytes := by
  rw [← ByteArray.size_data, ← Array.length_toList, toList_encodeRun, List.length_append,
    RunHeader.length_encode, length_flatMap_toBytes, Array.length_toList]

/-- A run file that fits is read back. -/
theorem parseRun_encodeRun {blockEntries : Nat} {entries : Array (Fingerprint w)}
    (filled : 0 < blockEntries) (blocks : blockEntries < smallLimit)
    (length : RunHeader.size + entries.size * w.bytes < countLimit) :
    parseRun w (encodeRun blockEntries entries) =
      .ok (⟨w.bytes, entries.size, blockEntries⟩, entries) := by
  have narrow : w.bytes < smallLimit := by cases w <;> decide
  have count : entries.size < countLimit := by
    have each : entries.size * 1 ≤ entries.size * w.bytes := Nat.mul_le_mul_left _ w.bytes_pos
    omega
  have fits : (RunHeader.mk w.bytes entries.size blockEntries).Fits :=
    ⟨narrow, count, blocks, filled⟩
  have header : RunHeader.decode
      ((encodeRun blockEntries entries).extract 0 RunHeader.size).data.toList =
        .ok ⟨w.bytes, entries.size, blockEntries⟩ := by
    rw [decode_extract, toList_encodeRun, RunHeader.decode_encode fits]
  have expected : (RunHeader.mk w.bytes entries.size blockEntries).fileLength? =
      some (encodeRun blockEntries entries).size := by
    rw [RunHeader.fileLength?, inRange?, if_pos (by simp only; omega), Option.bind_some, inRange?,
      if_pos (by simp only; omega), size_encodeRun, Nat.add_comm]
  have read : readEntries (encodeRun blockEntries entries) #[] RunHeader.size entries.size =
      entries := by
    have behind := decodeEntries_flatMap entries.toList []
    rw [Array.length_toList, List.append_nil] at behind
    rw [readEntries_eq _ (Nat.le_of_eq (size_encodeRun ..).symm), toList_encodeRun,
      List.drop_left' (RunHeader.length_encode _), behind, Array.empty_append]
  rw [parseRun, header]
  simp only [bind, Except.bind, ne_eq, not_true_eq_false, if_false, expected, read]

end SeenStates
