import SeenStates.Files.Fault
import SeenStates.Fingerprint
import SeenStates.Text.Quoted

/-!
# Errors

What can go wrong, by cause, and the text of each cause. Texts of a caller's own have a case in
every family of causes.
-/
namespace SeenStates

/-- Why a configuration gives no usable set. -/
inductive ConfigFault where
  /-- Too many routing bits. -/
  | prefixBits (bits limit : Nat)
  /-- A memory ratio outside `(0, 1]`, as it is written in full. -/
  | ratio (written : String)
  /-- A budget of nothing. -/
  | noMemory
  /-- A name that is no file stem. -/
  | name (name : String)
  /-- A count of locks that is not a power of two. -/
  | lockCount (n : Nat)
  /-- A count of probes out of range. -/
  | bloomHashes (n : Nat)
  /-- A collision ratio that is not positive and finite, as it is written in full. -/
  | collisionRatio (written : String)
  /-- A table of no slots. -/
  | noSlots
  /-- A count of table regions that is not a power of two. -/
  | regions (n : Nat)
  /-- A Bloom filter of less than a word. -/
  | noFilter (bytes : Nat)
  /-- A ratio of an unknown amount of memory. -/
  | unknownMemory
  /-- A caller's own words. -/
  | stated (words : String)
deriving DecidableEq

/-- The text of a cause. -/
def ConfigFault.message : ConfigFault → String
  | prefixBits bits limit => s!"prefix_bits {bits} exceeds the maximum of {limit}"
  | ratio written => s!"memory ratio {written} must be in (0, 1]"
  | noMemory => "memory budget must be non-zero"
  | name n => s!"set name {Text.quoted n} must be a non-empty file stem"
  | lockCount n => s!"lock_count {n} must be a non-zero power of two"
  | bloomHashes n => s!"bloom_hashes {n} must be between 1 and 32"
  | collisionRatio written => s!"collision_ratio {written} must be positive"
  | noSlots => "memory budget too small for a single fingerprint"
  | regions n => s!"lock region count {n} must be a non-zero power of two"
  | noFilter bytes => s!"bloom filter needs at least 8 bytes, budget is {bytes}"
  | unknownMemory => "cannot determine available system memory for a ratio budget"
  | stated words => words

/-- Why a file is not a run. -/
inductive RunFault where
  /-- The file is shorter than a header. -/
  | noHeader
  /-- The file does not start as a run does. -/
  | badMagic
  /-- The format is of another version. -/
  | version (n : Nat)
  /-- The sparse index would have blocks of no entries. -/
  | noBlocks
  /-- The entries are of another width. -/
  | entryBytes (found expected : Nat)
  /-- The entries would not fit any file. -/
  | tooMany (count : Nat)
  /-- The file has another length than its header says. -/
  | length (found expected : Nat)
  /-- The index has another count of blocks than the run. -/
  | indexLength (found expected : Nat)
  /-- The index does not end in the last entry. -/
  | indexEnd
  /-- The header is not the one that the run had before. -/
  | changed
  /-- A caller's own words. -/
  | stated (words : String)
deriving DecidableEq

/-- The text of a cause. -/
def RunFault.message : RunFault → String
  | noHeader => "file shorter than run header"
  | badMagic => "bad magic"
  | version n => s!"unsupported format version {n}"
  | noBlocks => "zero block size"
  | entryBytes found expected => s!"run stores {found}-byte fingerprints, expected {expected}"
  | tooMany count => s!"entry count {count} overflows the file size"
  | length found expected => s!"file is {found} bytes, header implies {expected}"
  | indexLength found expected => s!"index has {found} blocks, run needs {expected}"
  | indexEnd => "index does not match run contents"
  | changed => "run changed while unmapped"
  | stated words => words

/-- Why a checkpoint cannot be committed or read. -/
inductive CheckpointFault where
  /-- No checkpoint of the run was begun. -/
  | notBegun (run : String)
  /-- No checkpoint was committed. -/
  | notCommitted (header : String)
  /-- The header is of another version. -/
  | version (n : Nat)
  /-- The fingerprints are of another hash family. -/
  | family (held used : Nat)
  /-- The run is not the one that the header describes. -/
  | mismatch (described found : Nat)
  /-- A caller's own words. -/
  | stated (words : String)
deriving DecidableEq

/-- The text of a cause. -/
def CheckpointFault.message : CheckpointFault → String
  | notBegun run => s!"no checkpoint in progress for {run}"
  | notCommitted header => s!"no committed checkpoint at {header}"
  | version n => s!"unsupported checkpoint version {n}"
  | family held used =>
    s!"checkpoint holds hash family {held} fingerprints, set uses family {used}"
  | mismatch described found =>
    s!"checkpoint header describes {described} entries, run has {found}"
  | stated words => words

/-- What should never have come about. Fingerprints are given as messages show them. -/
inductive InvariantFault where
  /-- A run was written out of order. -/
  | unordered (entry last : String)
  /-- A fingerprint was recovered twice. -/
  | recoveredTwice (fp : String)
  /-- A caller's own words. -/
  | stated (words : String)
deriving DecidableEq

/-- The text of a cause. -/
def InvariantFault.message : InvariantFault → String
  | unordered entry last => s!"run entries out of order: {entry} after {last}"
  | recoveredTwice fp => s!"recovered fingerprint {fp} was already present"
  | stated words => words

/-- What went wrong. -/
inductive Error where
  /-- The memory of a table or filter is not to be had. -/
  | allocation (bytes : Nat)
  /-- More locks were asked for than a block of memory can ever hold. -/
  | tooManyLocks (n : Nat)
  /-- A file operation failed. -/
  | file (path : String) (fault : FileFault)
  /-- The configuration is not usable. -/
  | config (fault : ConfigFault)
  /-- Fingerprints of another width were asked for than the configured one. -/
  | widthMismatch (configured requested : Nat)
  /-- A file is not a run. -/
  | corruptRun (path : String) (fault : RunFault)
  /-- A checkpoint is missing or does not fit. -/
  | checkpoint (fault : CheckpointFault)
  /-- A checkpoint header does not read. -/
  | header
  /-- Something that should never come about. -/
  | invariant (fault : InvariantFault)
  /-- The set is closed. -/
  | closed
deriving DecidableEq

namespace Error

/-- The text of an error without the reason of a failed file operation. -/
def summary : Error → String
  | allocation bytes => s!"failed to allocate {bytes} bytes for fingerprint storage"
  | tooManyLocks _ => "capacity overflow"
  | file path _ => s!"I/O error on {path}"
  | config fault => s!"invalid fingerprint set configuration: {fault.message}"
  | widthMismatch configured requested =>
    s!"fingerprint width mismatch: configured {configured} bits, requested {requested} bits"
  | corruptRun path fault => s!"corrupt fingerprint run {path}: {fault.message}"
  | checkpoint fault => s!"checkpoint error: {fault.message}"
  | header => "checkpoint header"
  | invariant fault => s!"invariant violated: {fault.message}"
  | closed => "fingerprint set has been closed"

/-- The text of an error. -/
def message : Error → String
  | file path fault => summary (file path fault) ++ ": " ++ fault.name
  | e => e.summary

/-- Whether the set can no longer be trusted after an error. -/
def isFatal : Error → Bool
  | allocation _ => true
  | tooManyLocks _ => true
  | corruptRun _ _ => true
  | invariant _ => true
  | _ => false

end Error

end SeenStates
