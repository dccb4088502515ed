import SeenStates.Error
import SeenStates.Limits

/-!
# Run headers

A run starts with 32 bytes: a magic, the version of the format, the bytes of an entry, the count of
entries, the entries of a block of the sparse index, and a reserved word of zero. Numbers are
little-endian. A reader ignores the reserved word.
-/
namespace SeenStates

/-- What the header of a run says. -/
structure RunHeader where
  /-- The bytes of an entry. -/
  entryBytes : Nat
  /-- The count of entries. -/
  count : Nat
  /-- The entries of a block. -/
  blockEntries : Nat
deriving DecidableEq

namespace RunHeader

/-- The first bytes of a run. -/
def magic : Bytes := Bytes.ofText "TLAFPRUN"

/-- The version of the format. -/
def version : Nat := 1

/-- The bytes of a header. -/
def size : Nat := 32

/-- A header as bytes. -/
def encode (h : RunHeader) : Bytes :=
  magic ++ littleEndian 4 version ++ littleEndian 4 h.entryBytes ++ littleEndian 8 h.count ++
    littleEndian 4 h.blockEntries ++ littleEndian 4 0

/-- The number in the `n` bytes from a position on. -/
def fieldAt (bytes : Bytes) (position n : Nat) : Nat :=
  ofLittleEndian ((bytes.drop position).take n)

/-- The header at the front of a file. -/
def decode (bytes : Bytes) : Except RunFault RunHeader :=
  if bytes.length < size then .error .noHeader
  else if bytes.take 8 ≠ magic then .error .badMagic
  else if fieldAt bytes 8 4 ≠ version then .error (.version (fieldAt bytes 8 4))
  else if fieldAt bytes 24 4 = 0 then .error .noBlocks
  else .ok ⟨fieldAt bytes 12 4, fieldAt bytes 16 8, fieldAt bytes 24 4⟩

/-- A header is read from the first bytes of a file. -/
theorem decode_take (bytes : Bytes) : decode (bytes.take size) = decode bytes := by
  by_cases short : bytes.length < size
  · rw [List.take_of_length_le (Nat.le_of_lt short)]
  · have long : min size bytes.length = size := by omega
    simp only [decode, fieldAt, List.length_take, long, Nat.lt_irrefl, short, if_false,
      List.drop_take, List.take_take]
    rfl

/-- The bytes of a file with this header, unless they are too many. -/
def fileLength? (h : RunHeader) : Option Nat :=
  (inRange? (h.count * h.entryBytes)).bind fun entries => inRange? (entries + size)

/-- The count of blocks. The last one may be short. -/
def blockCount (h : RunHeader) : Nat := (h.count + h.blockEntries - 1) / h.blockEntries

end RunHeader

end SeenStates
