import SeenStates.Family.Json
import SeenStates.Fingerprint.Json
import SeenStates.Run

/-!
# Checkpoint headers

What is kept of a run beside its copy: its format, the hash family of its fingerprints, its counts
and its sparse index. A header is written as a JSON object over several lines and read from a
record with all fields present. `Format` is the part of a header that does not depend on the
width of the fingerprints; it is read first.
-/
namespace SeenStates

/-- What a checkpoint says of its run. -/
structure CheckpointHeader (w : Width) where
  /-- The version of the format. -/
  version : Nat
  /-- The bits of a fingerprint. -/
  widthBits : Nat
  /-- The hash family of the fingerprints. -/
  family : Family
  /-- The count of entries. -/
  count : Nat
  /-- The entries of a block. -/
  blockEntries : Nat
  /-- The last entry of each block. -/
  index : List (Fingerprint w)
deriving DecidableEq

namespace CheckpointHeader

variable {w : Width}

/-- The version of the format. -/
def currentVersion : Nat := 1

/-- The header of a run. -/
def ofRun (r : Run w) (family : Family) : CheckpointHeader w :=
  ⟨currentVersion, w.bits, family, r.size, r.header.blockEntries, r.index.toList⟩

/-- The fields that do not depend on the width of the fingerprints. -/
def formatNames : List String := ["version", "width_bits", "fp_index"]

/-- The fields of a header. -/
def fieldNames : List String := formatNames ++ ["count", "block_entries", "index"]

/-- A header as JSON. -/
def toJson (h : CheckpointHeader w) : Json :=
  .object [
    Json.member "version" (.nat h.version),
    Json.member "width_bits" (.nat h.widthBits),
    Json.member "fp_index" h.family.toJson,
    Json.member "count" (.nat h.count),
    Json.member "block_entries" (.nat h.blockEntries),
    Json.member "index" (.array (h.index.map Fingerprint.toJson))]

/-- A header as text. -/
def text (h : CheckpointHeader w) : String := h.toJson.pretty

/-- The version, the bits of a fingerprint and the hash family. -/
structure Format where
  /-- The version of the format. -/
  version : Nat
  /-- The bits of a fingerprint. -/
  widthBits : Nat
  /-- The hash family of the fingerprints. -/
  family : Family
deriving DecidableEq

/-- The format that three fields give. -/
def format? (version widthBits family : Json) : Option Format := do
  let version ← version.natBelow? smallLimit
  let widthBits ← widthBits.natBelow? smallLimit
  let family ← Family.ofJson? family
  return ⟨version, widthBits, family⟩

/-- The format of a header from JSON. -/
def Format.ofJson? (v : Json) : Option Format := do
  match ← v.record? formatNames with
  | [some version, some widthBits, some family] => format? version widthBits family
  | _ => none

/-- A header from JSON. -/
def ofJson? (w : Width) (v : Json) : Option (CheckpointHeader w) := do
  match ← v.record? fieldNames with
  | [some version, some widthBits, some family, some count, some blockEntries, some index] => do
    let format ← format? version widthBits family
    let count ← count.natBelow? countLimit
    let blockEntries ← blockEntries.natBelow? smallLimit
    let elements ← index.array?
    let index ← elements.mapM (Fingerprint.ofJson? w)
    return ⟨format.version, format.widthBits, format.family, count, blockEntries, index⟩
  | _ => none

/-- A header from a JSON text. -/
def parse? (w : Width) (s : String) : Option (CheckpointHeader w) :=
  (Json.parse? s).bind (ofJson? w)

/-- The header in a text, if it is of the current version, of the width `w` and of a hash family.
The format is checked before anything that depends on the width is read. -/
def read (w : Width) (family : Family) (s : String) : Except Error (CheckpointHeader w) :=
  match (Json.parse? s).bind Format.ofJson? with
  | none => .error .header
  | some format =>
    if format.version ≠ currentVersion then .error (.checkpoint (.version format.version))
    else if format.widthBits ≠ w.bits then .error (.widthMismatch w.bits format.widthBits)
    else if format.family ≠ family then
      .error (.checkpoint (.family format.family.val family.val))
    else
      match parse? w s with
      | none => .error .header
      | some h => .ok h

end CheckpointHeader

end SeenStates
