import SeenStates.Bloom
import SeenStates.DiskSet

/-!
# Shards

A set without shards of its own, of either kind. A Bloom filter has neither files nor flushes:
those operations succeed without doing anything, even when it is closed.
-/
namespace SeenStates

/-- A set of either kind. -/
inductive Shard (w : Width) where
  /-- A disk-backed set. -/
  | disk (s : DiskSet w)
  /-- A Bloom filter. -/
  | bloom (f : BloomFilter w)

namespace Shard

variable {w : Width}

/-- Open the empty set of a configuration. -/
def «open» (w : Width) (machine : Machine) (c : Config) (h : Host) :
    Except Error (Shard w) × Host :=
  match c.kind with
  | .disk =>
    let (s, h) := DiskSet.open w machine c h
    (s.map .disk, h)
  | .bloom =>
    let (f, h) := BloomFilter.open w machine c h
    (f.map .bloom, h)

/-- A shard that holds nothing and is closed. -/
def vacant : Shard w := bloom ⟨"", .zeros 0, 0, 0, 0, true⟩

/-- An operation that Bloom filters do without. -/
def onDisk (op : DiskSet w → Host → Outcome (DiskSet w) Unit) :
    Shard w → Host → Outcome (Shard w) Unit
  | disk s, h => (op s h).onSet disk
  | bloom f, h => .ok () (bloom f) h

/-- Put a fingerprint into the set. The answer is whether it was there already. -/
def put (fp : Fingerprint w) : Shard w → Host → Outcome (Shard w) Bool
  | disk s, h => (s.put fp h).onSet disk
  | bloom f, h => (f.put fp h).onSet bloom

/-- Whether a fingerprint is in the set. -/
def contains (fp : Fingerprint w) : Shard w → Host → Outcome (Shard w) Bool
  | disk s, h => (s.contains fp h).onSet disk
  | bloom f, h => (f.contains fp h).onSet bloom

/-- Put a fingerprint into the set that was not there. -/
def recoverFingerprint (fp : Fingerprint w) (s : Shard w) (h : Host) : Outcome (Shard w) Unit :=
  (s.put fp h).asNew fp.shown

/-- The count of fingerprints in the set. -/
def size : Shard w → Nat
  | disk s => s.size
  | bloom f => f.size

/-- The counters of the set. -/
def statistics : Shard w → Statistics
  | disk s => s.statistics
  | bloom f => f.statistics

/-- The kind of the set. -/
def kind : Shard w → Kind
  | disk _ => .disk
  | bloom _ => .bloom

/-- The probability that two states had one fingerprint, or minus one if the set cannot tell. -/
def collisionProbability : Shard w → Float
  | disk s => s.collisionProbability
  | bloom _ => -1

/-- Flush now. -/
def flush : Shard w → Host → Outcome (Shard w) Unit := onDisk DiskSet.flush

/-- Ask for a flush after the next new fingerprint. -/
def requestFlush : Shard w → Shard w
  | disk s => disk s.requestFlush
  | bloom f => bloom f

/-- Flush, and write a checkpoint aside. -/
def beginCheckpoint : Shard w → Host → Outcome (Shard w) Unit := onDisk DiskSet.beginCheckpoint

/-- Put the checkpoint that was written aside in place. -/
def commitCheckpoint : Shard w → Host → Outcome (Shard w) Unit := onDisk DiskSet.commitCheckpoint

/-- Go back to the committed checkpoint. -/
def recover : Shard w → Host → Outcome (Shard w) Unit := onDisk DiskSet.recover

/-- Close the set, and with `cleanup` delete its run. -/
def close (cleanup : Bool) : Shard w → Host → Outcome (Shard w) Unit
  | disk s, h => (s.close cleanup h).onSet disk
  | bloom f, h => (f.close h).onSet bloom

end Shard

end SeenStates
