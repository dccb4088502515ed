/-!
# Fingerprint widths

A fingerprint has one or two 64-bit words. Every size that depends on the width is derived from
the count of words.
-/
namespace SeenStates

/-- The bits of a word. -/
abbrev wordBits : Nat := 64

/-- How many bits a fingerprint has. -/
inductive Width where
  /-- One 64-bit word. -/
  | bits64
  /-- Two 64-bit words. -/
  | bits128
deriving DecidableEq, Repr, Inhabited

namespace Width

/-- The 64-bit words of a fingerprint. -/
def words : Width → Nat
  | bits64 => 1
  | bits128 => 2

/-- The bits of a fingerprint. -/
def bits (w : Width) : Nat := wordBits * w.words

/-- The least number that is too large for a fingerprint. -/
def limit : Width → Nat
  | bits64 => Nat.pow 2 64
  | bits128 => Nat.pow 2 128

/-- A fingerprint has a number of as many bits as the width. -/
theorem limit_eq (w : Width) : w.limit = Nat.pow 2 w.bits := by cases w <;> rfl

/-- The bytes of a fingerprint in a file. -/
def bytes (w : Width) : Nat := 8 * w.words

/-- The bytes that a slot of a table counts for: its fingerprint and a byte for its state. -/
def slotBytes (w : Width) : Nat := w.bytes + 1

/-- The width in words for people. -/
def describe (w : Width) : String := s!"{w.bits}-bit"

/-- A fingerprint has at least one word. -/
theorem words_pos (w : Width) : 0 < w.words := by cases w <;> decide

/-- A fingerprint has at least one byte. -/
theorem bytes_pos (w : Width) : 0 < w.bytes := by cases w <;> decide

/-- So many words hold any number of as many bits as the width. -/
theorem pow_words (w : Width) : Nat.pow (Nat.pow 2 wordBits) w.words = Nat.pow 2 w.bits :=
  (Nat.pow_mul 2 wordBits w.words).symm

/-- So do so many bytes. -/
theorem pow_bytes (w : Width) : Nat.pow 256 w.bytes = Nat.pow 2 w.bits := by cases w <;> decide

/-- A fingerprint has at least the bits of a word. -/
theorem le_bits (w : Width) : wordBits ≤ w.bits := by cases w <;> decide

end Width

end SeenStates
