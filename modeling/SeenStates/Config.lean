import SeenStates.Decimal.Shortest
import SeenStates.Error
import SeenStates.Family
import SeenStates.Limits
import SeenStates.Path

/-!
# Configurations

How a set is to be set up. A configuration can hold unusable values; `validate` finds the first
of them. The memory budget is a share of the machine's memory, a count of bytes or a count of
fingerprints, and is resolved to bytes or to table slots; a shard gets an equal share of it.
-/
namespace SeenStates

/-- How much memory a set may use. -/
inductive Budget where
  /-- A share of the memory that is available. -/
  | ratio (share : Float)
  /-- A count of bytes. -/
  | bytes (n : Nat)
  /-- A count of fingerprints. -/
  | fingerprints (n : Nat)

/-- How a set stores fingerprints. -/
inductive Kind where
  /-- A table that spills to a sorted run. -/
  | disk
  /-- A Bloom filter. -/
  | bloom
deriving DecidableEq

namespace Kind

/-- The name of a kind in configurations. -/
def name : Kind → String
  | disk => "disk_backed"
  | bloom => "bloom_filter"

/-- The name of a kind in the log. -/
def logName : Kind → String
  | disk => "DiskBacked"
  | bloom => "BloomFilter"

/-- Whether a set of this kind never takes a new fingerprint for a seen one. -/
def isExact : Kind → Bool
  | disk => true
  | bloom => false

end Kind

/-- How a set is to be set up. -/
structure Config where
  /-- The memory of the whole set. -/
  memory : Budget
  /-- The width of its fingerprints. -/
  width : Width
  /-- The address bits that pick a shard; none for a set without shards. -/
  prefixBits : Nat
  /-- The hash family of its fingerprints. -/
  family : Family
  /-- How it stores them. -/
  kind : Kind
  /-- The directory of its files. -/
  metadir : String
  /-- The stem of its file names. -/
  name : String
  /-- The regions of its table, if given. -/
  lockCount : Option Nat
  /-- The probes of a Bloom filter. -/
  bloomHashes : Nat
  /-- The share of the fingerprints in memory that overflow may have before a flush. -/
  collisionRatio : Float

namespace Config

/-- The largest count of routing bits. -/
def maxPrefixBits : Nat := 30

/-- The configuration of a directory and a name, all else left open. -/
def named (metadir name : String) : Config where
  memory := .ratio 0.25
  width := .bits64
  prefixBits := 0
  family := ⟨0, by decide⟩
  kind := .disk
  metadir := metadir
  name := name
  lockCount := none
  bloomHashes := 3
  collisionRatio := 0.025

instance : Inhabited Config := ⟨named "" ""⟩

/-- Whether a number is a power of two. -/
def isPowerOfTwo (n : Nat) : Bool := decide (0 < n ∧ Nat.pow 2 (Nat.log2 n) = n)

/-- What is wrong with a budget. -/
def budgetFault? : Budget → Option ConfigFault
  | .ratio share =>
    if 0 < share && share ≤ 1 then none else some (.ratio (plainText share))
  | .bytes n => if n = 0 then some .noMemory else none
  | .fingerprints n => if n = 0 then some .noMemory else none

/-- Whether a name can be the stem of a file name. -/
def isStem (name : String) : Bool :=
  !name.isEmpty && !name.toList.any fun c => c = '/' || c = '\\'

/-- What is wrong with a configuration: the first of its faults. -/
def fault? (c : Config) : Option ConfigFault :=
  if maxPrefixBits < c.prefixBits then some (.prefixBits c.prefixBits maxPrefixBits)
  else
    match budgetFault? c.memory with
    | some fault => some fault
    | none =>
      if !isStem c.name then some (.name c.name)
      else if c.lockCount.any fun n => !isPowerOfTwo n then
        some (.lockCount (c.lockCount.getD 0))
      else if c.bloomHashes < 1 || 32 < c.bloomHashes then some (.bloomHashes c.bloomHashes)
      else if c.collisionRatio.isFinite && 0 < c.collisionRatio then none
      else some (.collisionRatio (plainText c.collisionRatio))

/-- Refuse a configuration that is not usable. -/
def validate (c : Config) : Except Error Unit :=
  match c.fault? with
  | some fault => .error (.config fault)
  | none => .ok ()

/-- What is known of a configuration without a fault. -/
structure Usable (c : Config) : Prop where
  /-- There are not too many shards. -/
  prefixBits : c.prefixBits ≤ maxPrefixBits
  /-- There is memory. -/
  memory : budgetFault? c.memory = none
  /-- The name is a stem. -/
  name : isStem c.name = true
  /-- The regions are a power of two. -/
  lockCount : ∀ n, c.lockCount = some n → isPowerOfTwo n = true
  /-- A fingerprint has a probe. -/
  one_le_hashes : 1 ≤ c.bloomHashes
  /-- It has not too many. -/
  hashes_le : c.bloomHashes ≤ 32
  /-- The ratio is a finite number above zero. -/
  ratio : (c.collisionRatio.isFinite && 0 < c.collisionRatio) = true

/-- A configuration without a fault is usable. -/
theorem usable_of_fault? {c : Config} (sound : c.fault? = none) : c.Usable := by
  unfold fault? at sound
  split at sound
  · contradiction
  next few =>
  split at sound
  · contradiction
  next memory =>
  split at sound
  · contradiction
  next stem =>
  split at sound
  · contradiction
  next regions =>
  split at sound
  · contradiction
  next hashes =>
  split at sound
  next ratio =>
    simp only [Bool.or_eq_true, decide_eq_true_eq, not_or, Nat.not_lt] at hashes
    exact ⟨Nat.not_lt.1 few, memory, by simpa using stem, fun n given => by
      simpa [given] using regions, hashes.1, hashes.2, ratio⟩
  · contradiction

/-- A valid configuration is usable. -/
theorem usable_of_validate {c : Config} (valid : c.validate = .ok ()) : c.Usable := by
  unfold validate at valid
  split at valid
  · contradiction
  next sound => exact usable_of_fault? sound

/-- The budget in bytes, where a ratio is of the given amount of available memory. -/
def memoryBytes (available : Nat) (c : Config) : Except Error Nat :=
  match c.memory with
  | .bytes n => .ok n
  | .fingerprints n => .ok (saturatingMul n c.width.slotBytes)
  | .ratio share =>
    if available = 0 then .error (.config .unknownMemory)
    else .ok (Float.ofNat available * share).toUInt64.toNat

/-- The budget in table slots. -/
def memorySlots (available : Nat) (c : Config) : Except Error Nat :=
  match c.memory with
  | .fingerprints n => .ok n
  | _ => (c.memoryBytes available).map (· / c.width.slotBytes)

/-- The count of shards. -/
def shardCount (c : Config) : Nat := Nat.pow 2 c.prefixBits

/-- The configuration of a shard: a name of its own and an equal share of the budget. -/
def shard (available : Nat) (c : Config) (index : Nat) : Except Error Config := do
  let memory ← match c.memory with
    | .fingerprints n => pure (Budget.fingerprints (n / c.shardCount))
    | _ => (c.memoryBytes available).map fun n => Budget.bytes (n / c.shardCount)
  return { c with memory, name := s!"{c.name}_{index}" }

/-- The path of a file of the set. -/
def filePath (c : Config) (extension : String) : String :=
  Path.join c.metadir (c.name ++ "." ++ extension)

/-- The path of the run. -/
def runPath (c : Config) : String := c.filePath "fp"

end Config

end SeenStates
