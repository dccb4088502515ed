import SeenStates.Shard

/-!
# Sharded sets

A set cut into shards by the leading bits of the address word. Each shard is a set of its own with
its own files. Blocks of fingerprints are handed to the shards in the order of the shards, each
getting its fingerprints in the order of the block, and the answers are put back where their
fingerprints stood. An operation on all shards stops at the first that fails.
-/
namespace SeenStates

/-- An address word has a shard, whatever the count of routing bits. -/
theorem shardIndex_lt {word : Nat} (prefixBits : Nat) (isWord : word < Nat.pow 2 wordBits) :
    shardIndex word prefixBits < Nat.pow 2 prefixBits := by
  unfold shardIndex
  simp only [Nat.pow_eq] at isWord ⊢
  rw [Nat.div_lt_iff_lt_mul (Nat.two_pow_pos _), ← Nat.pow_add]
  exact Nat.lt_of_lt_of_le isWord (Nat.pow_le_pow_right (by decide) (by omega))

/-- The shard of a fingerprint. -/
def Fingerprint.shard {w : Width} (prefixBits : Nat) (fp : Fingerprint w) :
    Fin (Nat.pow 2 prefixBits) :=
  ⟨shardIndex fp.address prefixBits, shardIndex_lt prefixBits fp.address_lt⟩

/-- A set cut into shards. -/
structure ShardedSet (w : Width) (prefixBits : Nat) where
  /-- The shards. -/
  shards : Vector (Shard w) (Nat.pow 2 prefixBits)

namespace ShardedSet

variable {w : Width} {p : Nat}

/-- Open the shards of a configuration in order: `left` more behind the first `k`, which are open
already. The first shard that does not open ends it. -/
def openShards (w : Width) (machine : Machine) (c : Config) {total : Nat} :
    (left : Nat) → {k : Nat} → Vector (Shard w) k → k + left = total → Host →
      Except Error (Vector (Shard w) total) × Host
  | 0, _, opened, complete, h => (.ok (opened.cast complete), h)
  | left + 1, k, opened, complete, h =>
    match c.shard machine.available k with
    | .error e => (.error e, h)
    | .ok part =>
      match Shard.open w machine part h with
      | (.error e, h) => (.error e, h)
      | (.ok shard, h) => openShards w machine c left (opened.push shard) (by omega) h

/-- Open the empty set of a configuration. -/
def «open» (w : Width) (machine : Machine) (c : Config) (h : Host) :
    Except Error (ShardedSet w c.prefixBits) × Host :=
  match c.validate with
  | .error e => (.error e, h)
  | .ok () =>
    match openShards w machine c (Nat.pow 2 c.prefixBits) #v[] (Nat.zero_add _) h with
    | (.error e, h) => (.error e, h)
    | (.ok shards, h) =>
      (.ok ⟨shards⟩, h.report (.shardsOpened c.shardCount c.name c.kind.logName))

/-- An operation on one shard. The shard is taken out of the set, so that it can be changed in
place. -/
def onShard {α : Type} (op : Shard w → Host → Outcome (Shard w) α) (i : Fin (Nat.pow 2 p))
    (s : ShardedSet w p) (h : Host) : Outcome (ShardedSet w p) α :=
  let shard := s.shards.get i
  let others := s.shards.set i .vacant
  (op shard h).onSet fun shard => ⟨others.set i shard⟩

/-- An operation on one shard replaces that shard and no other. -/
theorem onShard_eq {α : Type} (op : Shard w → Host → Outcome (Shard w) α)
    (i : Fin (Nat.pow 2 p)) (s : ShardedSet w p) (h : Host) :
    onShard op i s h = (op (s.shards.get i) h).onSet fun shard => ⟨s.shards.set i shard⟩ := by
  simp [onShard]

/-- An operation on each shard in turn, up to the first failure. -/
def onEach (op : Shard w → Host → Outcome (Shard w) Unit) (s : ShardedSet w p) (h : Host) :
    Outcome (ShardedSet w p) Unit :=
  (Outcome.each (onShard op) (List.finRange (Nat.pow 2 p)) s h).map fun _ => ()

/-- Put a fingerprint into the set. The answer is whether it was there already. -/
def put (fp : Fingerprint w) : ShardedSet w p → Host → Outcome (ShardedSet w p) Bool :=
  onShard (Shard.put fp) (fp.shard p)

/-- Whether a fingerprint is in the set. -/
def contains (fp : Fingerprint w) : ShardedSet w p → Host → Outcome (ShardedSet w p) Bool :=
  onShard (Shard.contains fp) (fp.shard p)

/-- Put a fingerprint into the set that was not there. -/
def recoverFingerprint (fp : Fingerprint w) :
    ShardedSet w p → Host → Outcome (ShardedSet w p) Unit :=
  onShard (Shard.recoverFingerprint fp) (fp.shard p)

/-- Fingerprints and their positions in a block, by shard. -/
abbrev Batches (w : Width) (p : Nat) := Vector (List (Fingerprint w × Nat)) (Nat.pow 2 p)

/-- A fingerprint put in front of those of its shard. -/
def addToBatch (entry : Fingerprint w × Nat) (parts : Batches w p) : Batches w p :=
  let i := entry.1.shard p
  parts.set i (entry :: parts.get i)

/-- The fingerprints of a block with their positions in it, by shard. -/
def batches (fps : List (Fingerprint w)) : Batches w p :=
  fps.zipIdx.foldr addToBatch (Vector.replicate _ [])

/-- Setting an element changes that element and no other. -/
theorem get_set {α : Type} {n : Nat} (xs : Vector α n) (i j : Fin n) (a : α) :
    (xs.set i a).get j = if i = j then a else xs.get j := by
  change (xs.set i.val a i.isLt)[j.val] = if i = j then a else xs[j.val]
  rw [Vector.getElem_set]
  simp only [Fin.ext_iff]

/-- A shard gets its fingerprints in the order of the block. -/
theorem get_batches (fps : List (Fingerprint w)) (i : Fin (Nat.pow 2 p)) :
    (batches fps).get i = fps.zipIdx.filter fun entry => entry.1.shard p = i := by
  unfold batches
  induction fps.zipIdx with
  | nil =>
    change (Vector.replicate _ [])[i.val] = []
    exact Vector.getElem_replicate _
  | cons entry rest ih =>
    rw [List.foldr_cons, addToBatch, List.filter_cons, ← ih, get_set]
    by_cases same : entry.1.shard p = i
    · simp only [same, decide_true, if_true]
    · simp only [same, decide_false, if_false, Bool.false_eq_true]

/-- The answers for `n` positions, from pairs of a position and its answer. -/
def scatter (n : Nat) (answers : List (Nat × Bool)) : List Bool :=
  (answers.foldl (fun found answer => found.setIfInBounds answer.1 answer.2)
    (Array.replicate n false)).toList

/-- An operation on each fingerprint of a block, shard by shard. -/
def onBlock (op : Fingerprint w → Shard w → Host → Outcome (Shard w) Bool)
    (fps : List (Fingerprint w)) (s : ShardedSet w p) (h : Host) :
    Outcome (ShardedSet w p) (List Bool) :=
  let parts := batches fps
  (Outcome.each (fun i s h =>
      let part := parts.get i
      (onShard (Outcome.each op (part.map Prod.fst)) i s h).map ((part.map Prod.snd).zip ·))
    (List.finRange (Nat.pow 2 p)) s h).map fun parts => scatter fps.length parts.flatten

/-- Put each fingerprint of a block into the set. -/
def putBlock :
    List (Fingerprint w) → ShardedSet w p → Host → Outcome (ShardedSet w p) (List Bool) :=
  onBlock Shard.put

/-- Whether each fingerprint of a block is in the set. -/
def containsBlock :
    List (Fingerprint w) → ShardedSet w p → Host → Outcome (ShardedSet w p) (List Bool) :=
  onBlock Shard.contains

/-- The count of fingerprints in the set. -/
def size (s : ShardedSet w p) : Nat :=
  s.shards.toList.foldl (fun n shard => n + shard.size) 0

/-- The counters of all shards together. -/
def statistics (s : ShardedSet w p) : Statistics :=
  (s.shards.toList.map Shard.statistics).foldl Statistics.add .zero

/-- Whether no shard ever takes a new fingerprint for a seen one. -/
def isExact (s : ShardedSet w p) : Bool := s.shards.toList.all fun shard => shard.kind.isExact

/-- The probability that two states had one fingerprint, or minus one if a shard cannot tell. -/
def collisionProbability (s : ShardedSet w p) : Float :=
  if s.isExact then birthdayProbability s.size w.bits else -1

/-- Flush every shard. -/
def flush : ShardedSet w p → Host → Outcome (ShardedSet w p) Unit := onEach Shard.flush

/-- Ask every shard for a flush after its next new fingerprint. -/
def requestFlush (s : ShardedSet w p) : ShardedSet w p := ⟨s.shards.map Shard.requestFlush⟩

/-- Flush every shard, and write its checkpoint aside. -/
def beginCheckpoint : ShardedSet w p → Host → Outcome (ShardedSet w p) Unit :=
  onEach Shard.beginCheckpoint

/-- Put the checkpoint of every shard in place. -/
def commitCheckpoint : ShardedSet w p → Host → Outcome (ShardedSet w p) Unit :=
  onEach Shard.commitCheckpoint

/-- Take every shard back to its committed checkpoint. -/
def recover : ShardedSet w p → Host → Outcome (ShardedSet w p) Unit := onEach Shard.recover

/-- Close every shard, and with `cleanup` delete its run. -/
def close (cleanup : Bool) : ShardedSet w p → Host → Outcome (ShardedSet w p) Unit :=
  onEach (Shard.close cleanup)

end ShardedSet

end SeenStates
