import SeenStates.ShardedSet

/-!
# Fingerprint sets

The set of a configuration: a single set of the configured kind, or one cut into shards when the
configuration has routing bits.
-/
namespace SeenStates

/-- A set, cut into shards or not. -/
inductive FingerprintSet (w : Width) where
  /-- A set without shards. -/
  | single (s : Shard w)
  /-- A set cut into shards. -/
  | sharded (prefixBits : Nat) (s : ShardedSet w prefixBits)

namespace FingerprintSet

variable {w : Width} {α : Type}

/-- Open the empty set of a configuration. -/
def «open» (w : Width) (machine : Machine) (c : Config) (h : Host) :
    Except Error (FingerprintSet w) × Host :=
  match c.validate with
  | .error e => (.error e, h)
  | .ok () =>
    if c.width ≠ w then (.error (.widthMismatch c.width.bits w.bits), h)
    else if 0 < c.prefixBits then
      let (s, h) := ShardedSet.open w machine c h
      (s.map (.sharded c.prefixBits), h)
    else
      let (s, h) := Shard.open w machine c h
      (s.map .single, h)

/-- An operation on whichever set it is. -/
def apply (onSingle : Shard w → Host → Outcome (Shard w) α)
    (onSharded : {p : Nat} → ShardedSet w p → Host → Outcome (ShardedSet w p) α) :
    FingerprintSet w → Host → Outcome (FingerprintSet w) α
  | single s, h => (onSingle s h).onSet single
  | sharded p s, h => (onSharded s h).onSet (sharded p)

/-- Put a fingerprint into the set. The answer is whether it was there already. -/
def put (fp : Fingerprint w) : FingerprintSet w → Host → Outcome (FingerprintSet w) Bool :=
  apply (Shard.put fp) (ShardedSet.put fp)

/-- Whether a fingerprint is in the set. -/
def contains (fp : Fingerprint w) : FingerprintSet w → Host → Outcome (FingerprintSet w) Bool :=
  apply (Shard.contains fp) (ShardedSet.contains fp)

/-- Put each fingerprint of a block into the set. -/
def putBlock (fps : List (Fingerprint w)) :
    FingerprintSet w → Host → Outcome (FingerprintSet w) (List Bool) :=
  apply (Outcome.each Shard.put fps) (ShardedSet.putBlock fps)

/-- Whether each fingerprint of a block is in the set. -/
def containsBlock (fps : List (Fingerprint w)) :
    FingerprintSet w → Host → Outcome (FingerprintSet w) (List Bool) :=
  apply (Outcome.each Shard.contains fps) (ShardedSet.containsBlock fps)

/-- Put a fingerprint into the set that was not there. -/
def recoverFingerprint (fp : Fingerprint w) :
    FingerprintSet w → Host → Outcome (FingerprintSet w) Unit :=
  apply (Shard.recoverFingerprint fp) (ShardedSet.recoverFingerprint fp)

/-- The count of fingerprints in the set. -/
def size : FingerprintSet w → Nat
  | single s => s.size
  | sharded _ s => s.size

/-- The counters of the set. -/
def statistics : FingerprintSet w → Statistics
  | single s => s.statistics
  | sharded _ s => s.statistics

/-- Whether the set never takes a new fingerprint for a seen one. -/
def isExact : FingerprintSet w → Bool
  | single s => s.kind.isExact
  | sharded _ s => s.isExact

/-- Whether the set can be checkpointed: exact sets can. -/
def supportsCheckpoint (s : FingerprintSet w) : Bool := s.isExact

/-- The probability that two states had one fingerprint, or minus one if the set cannot tell. -/
def collisionProbability : FingerprintSet w → Float
  | single s => s.collisionProbability
  | sharded _ s => s.collisionProbability

/-- Flush now. -/
def flush : FingerprintSet w → Host → Outcome (FingerprintSet w) Unit :=
  apply Shard.flush ShardedSet.flush

/-- Ask for a flush after the next new fingerprint. -/
def requestFlush : FingerprintSet w → FingerprintSet w
  | single s => single s.requestFlush
  | sharded p s => sharded p s.requestFlush

/-- Flush, and write a checkpoint aside. -/
def beginCheckpoint : FingerprintSet w → Host → Outcome (FingerprintSet w) Unit :=
  apply Shard.beginCheckpoint ShardedSet.beginCheckpoint

/-- Put the checkpoint that was written aside in place. -/
def commitCheckpoint : FingerprintSet w → Host → Outcome (FingerprintSet w) Unit :=
  apply Shard.commitCheckpoint ShardedSet.commitCheckpoint

/-- Go back to the committed checkpoint. -/
def recover : FingerprintSet w → Host → Outcome (FingerprintSet w) Unit :=
  apply Shard.recover ShardedSet.recover

/-- Close the set, and with `cleanup` delete its runs. -/
def close (cleanup : Bool) : FingerprintSet w → Host → Outcome (FingerprintSet w) Unit :=
  apply (Shard.close cleanup) (ShardedSet.close cleanup)

end FingerprintSet

end SeenStates
