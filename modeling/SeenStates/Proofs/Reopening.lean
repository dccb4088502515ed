import SeenStates.Proofs.Snapshots

/-!
# Checkpoints under other configurations

The header of a checkpoint says which width and hash family its fingerprints are of, and a set of
another one does not go back to it. It does not say with how many routing bits they were put into
shards: a set with another count of shards goes back to the checkpoints of those shards that have
the same number, and does not fail. It looks for most fingerprints in other shards then than they
are in, so all it has are those of the first shard (`reopened_of_lives`).
-/
namespace SeenStates

variable {v w : Width} {p q : Nat}

/-! ## Routing bits -/

/-- The shard of a word with fewer routing bits is given by its shard with more of them. -/
theorem shardIndex_of_le (fewer : p ≤ q) (few : q ≤ wordBits) (word : Nat) :
    shardIndex word p = shardIndex word q / Nat.pow 2 (q - p) := by
  have split : wordBits - p = wordBits - q + (q - p) := by omega
  simp only [shardIndex, Nat.pow_eq]
  rw [Nat.div_div_eq_div_mul, ← Nat.pow_add, split]

/-- A word is in the same shard with fewer routing bits only if it is in the first one. -/
theorem shardIndex_eq_iff_of_lt (fewer : p < q) (few : q ≤ wordBits) (word : Nat) :
    shardIndex word p = shardIndex word q ↔ shardIndex word q = 0 := by
  rw [shardIndex_of_le fewer.le few]
  have parts : 1 < Nat.pow 2 (q - p) := Nat.one_lt_two_pow (by omega)
  constructor
  · intro same
    by_contra some
    exact absurd same (Nat.div_lt_self (Nat.pos_of_ne_zero some) parts).ne
  · intro none
    rw [none, Nat.zero_div]

/-- A word is in the same shard with another count of routing bits only if it is in the first one
with both of them. -/
theorem shardIndex_eq_iff (differ : p ≠ q) (few : p ≤ wordBits) (few' : q ≤ wordBits) (word : Nat) :
    shardIndex word p = shardIndex word q ↔ shardIndex word p = 0 ∧ shardIndex word q = 0 := by
  rcases Nat.lt_or_gt_of_ne differ with fewer | more
  · constructor
    · intro same
      have none := (shardIndex_eq_iff_of_lt fewer few' word).1 same
      exact ⟨same.trans none, none⟩
    · exact fun both => both.1.trans both.2.symm
  · constructor
    · intro same
      have none := (shardIndex_eq_iff_of_lt more few word).1 same.symm
      exact ⟨none, same.symm.trans none⟩
    · exact fun both => both.1.trans both.2.symm

/-- A valid configuration asks for no more routing bits than a word has. -/
theorem Config.prefixBits_le {c : Config} (valid : c.validate = .ok ()) :
    c.prefixBits ≤ wordBits :=
  Nat.le_trans (usable_of_validate valid).prefixBits (by decide)

/-- Configurations of the same directory and name have the same files of each shard. -/
theorem Config.paths_part_eq {a b : Config} (metadir : b.metadir = a.metadir)
    (name : b.name = a.name) (k : Nat) : (b.part k).paths = (a.part k).paths := by
  simp [paths, part, runPath, filePath, metadir, name]

namespace ShardedSet

variable {a b : Config} {s u : ShardedSet w p} {h : Host}

/-! ## Checkpoints in place -/

/-- A stored checkpoint that all shards put in place is stored there for each of them. -/
theorem Each.stores_commitCheckpoint (valid : a.validate = .ok ())
    (each : Each (fun i d t => d.Whole (a.part i) t ∧
      StoresOf u a .pendingCopy .pendingHeader i t) s h.files)
    (committed : (s.commitCheckpoint h).answer = .ok ()) :
    Each (fun i d t => d.Whole (a.part i) t ∧ StoresOf u a .copy .header i t)
      (s.commitCheckpoint h).set (s.commitCheckpoint h).host.files := by
  refine Each.run (fun j t u => (a.part j).Keeps setFiles t u) (c := .commitCheckpoint)
    each (fun part among d h ⟨whole, stores⟩ isOk => ?_)
    (fun i absent => absurd (Call.mem_parts rfl i) absent)
    (fun i j differ d t u keeps =>
      ⟨stored_of_keeps valid differ keeps, stored_of_keeps valid differ keeps⟩)
    (Outcome.isOk_map_of_eq_ok committed)
  rw [(Call.part_eq_iff rfl among).2 rfl] at isOk ⊢
  have isOpen := DiskSet.isOpen_of_isOk rfl isOk
  obtain ⟨_, faithful⟩ := whole.of_open isOpen
  obtain ⟨e, here, wasOpen, sound, stored⟩ := stores
  obtain ⟨placed, keeps⟩ := DiskSet.stores_commitCheckpoint faithful.valid isOpen whole.shares
    (DiskSet.eq_ok_of_isOk_map isOk) stored
  exact ⟨⟨whole.perform (k := .commitCheckpoint) nofun, e, here, wasOpen, sound, placed⟩,
    keeps.mono (List.map_subset _ (subset_setFiles _))⟩

/-! ## Shards of the same number -/

/-- What is stored for a shard is a checkpoint of it also after a set was opened that has the same
files of a shard of that number. -/
theorem StoresOf.pairsOf_of_opens {i : Fin (Nat.pow 2 p)} {t t' : Files}
    (stores : StoresOf u a .copy .header i t) {opened : Nat → Prop} (opens : b.Opens opened t t')
    (paths : (b.part i).paths = (a.part i).paths) :
    t'.PairsOf (b.part i).paths.copy (b.part i).paths.header a.family (MembersOf [u] i) := by
  obtain ⟨d, here, isOpen, sound, stores⟩ := stores
  have still : StoresOf u a .copy .header i t' :=
    ⟨d, here, isOpen, sound, stores.of_opens opens paths (by decide) (by decide)⟩
  rw [paths]
  exact still.pairsOf

/-- Where checkpoints of a set are stored, another one of the same directory and name that was
opened there and goes back to checkpoints is of the same width and family, and each of its shards
has what the shard of the same number had, if there is one. -/
theorem sameMembers_of_reopened {machine : Machine} {b : Config} {u : ShardedSet w a.prefixBits}
    {s : ShardedSet w a.prefixBits} {t : ShardedSet v b.prefixBits} {before after : Host}
    (stored : Each (fun i d t => d.Whole (a.part i) t ∧ StoresOf u a .copy .header i t) s
      before.files)
    (metadir : b.metadir = a.metadir) (name : b.name = a.name) (disk : b.kind = .disk)
    (reopened : ShardedSet.open v machine b before = (.ok t, after))
    (recovered : (t.recover after).answer = .ok ()) :
    ∃ same : v = w, b.family = a.family ∧
      ∀ (i : Fin (Nat.pow 2 b.prefixBits)) (j : Fin (Nat.pow 2 a.prefixBits)), i.val = j.val →
        Shard.SameMembers (same ▸ (t.recover after).set.shards.get i) (u.shards.get j) := by
  obtain ⟨valid, _, opens⟩ := fresh_of_open reopened
  have each : Each (fun i d _ => ∀ j : Fin (Nat.pow 2 a.prefixBits), i.val = j.val →
      ∃ same : v = w, b.family = a.family ∧ d.closed = false ∧ d.Sound ∧
        ∃ members, MembersOf [u] j members ∧ ∀ fp, fp ∈ d.members ↔ same ▸ fp ∈ members)
      (t.recover after).set (t.recover after).host.files := by
    have start : Each (fun i d t => d.Whole (b.part i) t ∧
        ∀ j : Fin (Nat.pow 2 a.prefixBits), i.val = j.val →
          t.PairsOf (b.part i).paths.copy (b.part i).paths.header a.family (MembersOf [u] j))
        t after.files := fun i => by
      obtain ⟨d, here, whole, _⟩ := whole_of_open reopened disk i
      refine ⟨d, here, whole, fun j same => ?_⟩
      obtain ⟨_, _, _, stores⟩ := stored j
      rw [same]
      exact stores.pairsOf_of_opens opens (Config.paths_part_eq metadir name j)
    refine start.run_call (k := .recover) valid rfl (Outcome.isOk_map_of_eq_ok recovered)
      (fun i d t holds => holds.1) (fun i d t t' unwritten => ⟨fun ⟨whole, pairs⟩ =>
        ⟨whole.of_find (unwritten .run), fun j same => (pairs j same).of_find ?_⟩, id⟩)
      fun i d h ⟨whole, pairs⟩ isOk j same => ?_
    · intro path among contents
      rcases List.mem_pair.1 among with rfl | rfl
      · exact unwritten .copy contents
      · exact unwritten .header contents
    · exact whole.members_recover_of_pairs (pairs j same) (DiskSet.eq_ok_of_isOk_map isOk)
  have some : 0 < Nat.pow 2 a.prefixBits := Nat.two_pow_pos _
  obtain ⟨_, _, first⟩ := each ⟨0, Nat.two_pow_pos _⟩
  obtain ⟨rfl, family, _⟩ := first ⟨0, some⟩ rfl
  refine ⟨rfl, family, fun i j number => ?_⟩
  obtain ⟨d, there, all⟩ := each i
  obtain ⟨_, _, isOpen, sound, members, is, same⟩ := all j number
  obtain ⟨e, only, same⟩ := is.sameMembers sound isOpen same
  rw [List.mem_singleton.1 only] at same
  exact there ▸ same

/-- A fingerprint that a shard of a backed set has is one of that shard. -/
theorem Backed.shard_of_contains {sets : List (ShardedSet w p)} {t : Files}
    (backed : s.Backed a sets t) {i : Fin (Nat.pow 2 p)} {fp : Fingerprint w}
    (found : ((s.shards.get i).contains fp h).answer = .ok true) : fp.shard p = i := by
  obtain ⟨d, here, backed⟩ := backed i
  rw [here] at found
  change (d.contains fp h).answer = .ok true at found
  cases closed : d.closed with
  | true => simp [DiskSet.contains, DiskSet.whenOpen, Outcome.fail, closed] at found
  | false =>
    obtain ⟨sound, _⟩ := backed.whole.of_open closed
    rw [sound.contains closed] at found
    exact backed.members closed fp (of_decide_eq_true (Except.ok.inj found))

/-- Sets of which the shards of the same number have the same size have the same size. -/
theorem size_eq_of_shards {s : ShardedSet w p} {t : ShardedSet v q} (count : p = q)
    (same : ∀ (i : Fin (Nat.pow 2 p)) (j : Fin (Nat.pow 2 q)), i.val = j.val →
      (s.shards.get i).size = (t.shards.get j).size) : s.size = t.size := by
  subst count
  rw [size_eq_sum, size_eq_sum]
  exact Finset.sum_congr rfl fun i _ => same i i rfl

end ShardedSet

/-- When a set wrote a checkpoint and put it in place, and another one of the same directory and
name is opened then and goes back to checkpoints, the other one is of the same width and family.
With as many routing bits it has what the first one had when the checkpoint was begun. With another
count of them, of all fingerprints that it looks for in a shard of which the first one has the
number, it has those that were in the first shard and are looked for there, and no others. -/
theorem reopened_of_lives {machine machine' : Machine} {a b : Config}
    {first start last after : Host} {s : ShardedSet w a.prefixBits} {t : ShardedSet v b.prefixBits}
    (opened : ShardedSet.open w machine a first = (.ok s, start)) (disk : a.kind = .disk)
    {begun : List (ShardedSet w a.prefixBits)} {u : ShardedSet w a.prefixBits} {g : Host}
    (lives : s.Lives a (fun _ => True) start begun u g)
    (written : (u.beginCheckpoint g).answer = .ok ())
    (committed : ((u.beginCheckpoint g).set.commitCheckpoint (u.beginCheckpoint g).host).answer =
      .ok ())
    (untouched : last.files =
      ((u.beginCheckpoint g).set.commitCheckpoint (u.beginCheckpoint g).host).host.files)
    (metadir : b.metadir = a.metadir) (name : b.name = a.name) (disk' : b.kind = .disk)
    (reopened : ShardedSet.open v machine' b last = (.ok t, after))
    (recovered : (t.recover after).answer = .ok ()) :
    ∃ same : v = w, b.family = a.family ∧
      (b.prefixBits = a.prefixBits → (t.recover after).set.size = u.size ∧ ∀ fp h h',
        ((t.recover after).set.contains fp h).answer = (u.contains (same ▸ fp) h').answer) ∧
      (b.prefixBits ≠ a.prefixBits → ShardedSet.Bare a a.prefixBits start.files →
        ∀ fp : Fingerprint v, (fp.shard b.prefixBits).val < Nat.pow 2 a.prefixBits → ∀ h h',
          (((t.recover after).set.contains fp h).answer = .ok true ↔
            (u.contains (same ▸ fp) h').answer = .ok true ∧ (fp.shard b.prefixBits).val = 0 ∧
              (fp.shard a.prefixBits).val = 0)) := by
  have valid := (ShardedSet.fresh_of_open opened).1
  have valid' := (ShardedSet.fresh_of_open reopened).1
  have whole := lives.whole valid
    ((ShardedSet.whole_of_open opened disk).mono fun _ _ holds => holds.1)
  have stored := ShardedSet.Each.stores_commitCheckpoint valid
    (ShardedSet.Each.stores_beginCheckpoint valid whole written) committed
  rw [← untouched] at stored
  obtain ⟨rfl, family, each⟩ :=
    ShardedSet.sameMembers_of_reopened stored metadir name disk' reopened recovered
  -- A fingerprint is found in the shard that the other set asks for it if that has it in the first.
  have found (fp : Fingerprint v) (j : Fin (Nat.pow 2 a.prefixBits))
      (number : (fp.shard b.prefixBits).val = j.val) (h h' : Host) :
      ((t.recover after).set.contains fp h).answer = ((u.shards.get j).contains fp h').answer := by
    rw [ShardedSet.contains, ShardedSet.onShard_eq]
    exact (each _ j number).answers fp h h'
  refine ⟨rfl, family, fun same => ⟨?_, fun fp h h' => ?_⟩,
    fun differ bare fp asked h h' => ⟨fun inside => ?_, fun both => ?_⟩⟩
  · exact ShardedSet.size_eq_of_shards same fun i j number => (each i j number).size
  · rw [ShardedSet.contains, ShardedSet.onShard_eq]
    exact found fp _ (by simp only [Fingerprint.shard, same]) h h'
  · have backed := lives.backed valid (ShardedSet.backed_of_open opened disk bare)
    rw [found fp ⟨_, asked⟩ rfl h h'] at inside
    have routed := backed.shard_of_contains inside
    have number : shardIndex fp.address b.prefixBits = shardIndex fp.address a.prefixBits :=
      (congrArg Fin.val routed).symm
    refine ⟨?_, (shardIndex_eq_iff differ (Config.prefixBits_le valid')
      (Config.prefixBits_le valid) _).1 number⟩
    rw [ShardedSet.contains, ShardedSet.onShard_eq, routed]
    exact inside
  · obtain ⟨inside, first, first'⟩ := both
    rw [found fp (fp.shard a.prefixBits) (first.trans first'.symm) h h']
    rw [ShardedSet.contains, ShardedSet.onShard_eq] at inside
    exact inside

/-! ## Sets to reopen -/

/-- The configuration of a set of four shards of four slots. -/
def quarteredConfig : Config := { sampleConfig with prefixBits := 2 }

/-- The set can be opened where there is nothing. -/
theorem isSome_open_quartered :
    (ShardedSet.open .bits64 sampleMachine quarteredConfig .empty).1.toOption.isSome := by
  decide +kernel

/-- The set, just opened. -/
def quarteredSet : ShardedSet .bits64 quarteredConfig.prefixBits :=
  (ShardedSet.open .bits64 sampleMachine quarteredConfig .empty).1.toOption.get
    isSome_open_quartered

/-- The surroundings of the set. -/
def quarteredHost : Host := (ShardedSet.open .bits64 sampleMachine quarteredConfig .empty).2

/-- The set with a fingerprint of the first shard and one of the second. -/
def quarteredPut : Outcome (ShardedSet .bits64 quarteredConfig.prefixBits) (List Bool) :=
  quarteredSet.putBlock [.ofNat _ 1, .ofNat _ 0x4000000000000001] quarteredHost

/-- The set with a checkpoint aside. -/
def quarteredBegun : Outcome (ShardedSet .bits64 quarteredConfig.prefixBits) Unit :=
  quarteredPut.set.beginCheckpoint quarteredPut.host

/-- The set with the checkpoint in place. -/
def quarteredPlaced : Outcome (ShardedSet .bits64 quarteredConfig.prefixBits) Unit :=
  quarteredBegun.set.commitCheckpoint quarteredBegun.host

/-- What comes of opening two shards there. -/
def halvedOpen : Except Error (ShardedSet .bits64 shardedConfig.prefixBits) × Host :=
  ShardedSet.open .bits64 sampleMachine shardedConfig quarteredPlaced.host

/-- A pair whose first part succeeds with something that is as asked is that and its second part. -/
theorem eq_ok_of_map_eq_some {α β γ : Type} {x : Except Error α × β} {f : α → γ} {c : γ}
    (mapped : x.1.toOption.map f = some c) : ∃ a, x = (.ok a, x.2) ∧ f a = c := by
  obtain ⟨answer, rest⟩ := x
  cases answer with
  | error e => contradiction
  | ok a => exact ⟨a, rfl, Option.some.inj mapped⟩

/-- The four shards are opened where there are no copies and nothing fails, neither do the two
shards that are opened then and go back to the checkpoint, and the four shards had what was put. -/
theorem quartered_answers :
    (∀ i : Fin (Nat.pow 2 quarteredConfig.prefixBits), ∀ f ∈ [SetFile.copy, .pendingCopy],
      (quarteredHost.files.find ((quarteredConfig.part i).paths.path f)).isOk = false) ∧
        quarteredBegun.answer = .ok () ∧ quarteredPlaced.answer = .ok () ∧
        halvedOpen.1.toOption.map (fun t => (t.recover halvedOpen.2).answer) = some (.ok ()) ∧
        (quarteredPut.set.contains (.ofNat _ 1) .empty).answer = .ok true ∧
        (quarteredPut.set.contains (.ofNat _ 0x4000000000000001) .empty).answer = .ok true := by
  decide +kernel

/-- Two shards that go back to a checkpoint of four, and do not fail, have the fingerprint of the
first shard but not that of the second. -/
theorem reopened_of_lives_halved :
    ∃ t : ShardedSet .bits64 shardedConfig.prefixBits, halvedOpen = (.ok t, halvedOpen.2) ∧
      (t.recover halvedOpen.2).answer = .ok () ∧
      (quarteredPut.set.contains (.ofNat _ 1) .empty).answer = .ok true ∧
      ((t.recover halvedOpen.2).set.contains (.ofNat _ 1) .empty).answer = .ok true ∧
      (quarteredPut.set.contains (.ofNat _ 0x4000000000000001) .empty).answer = .ok true ∧
      ((t.recover halvedOpen.2).set.contains (.ofNat _ 0x4000000000000001) .empty).answer ≠
        .ok true := by
  obtain ⟨bare, begun, committed, recovered, first, second⟩ := quartered_answers
  obtain ⟨t, reopened, recovered⟩ := eq_ok_of_map_eq_some recovered
  have opened : ShardedSet.open .bits64 sampleMachine quarteredConfig .empty =
      (.ok quarteredSet, quarteredHost) := eq_ok_get isSome_open_quartered
  have lives : quarteredSet.Lives quarteredConfig (fun _ => True) quarteredHost [] quarteredPut.set
      quarteredPut.host := ShardedSet.Lives.start.putBlock _
  have placed : quarteredPlaced = (quarteredPut.set.beginCheckpoint
      quarteredPut.host).set.commitCheckpoint (quarteredPut.set.beginCheckpoint
        quarteredPut.host).host := rfl
  obtain ⟨same, _, _, fewer⟩ := reopened_of_lives (a := quarteredConfig) (b := shardedConfig) opened
    rfl lives begun (placed ▸ committed) (congrArg (fun o => o.host.files) placed) rfl rfl rfl
    reopened recovered
  have kept (fp : Fingerprint .bits64) := fewer (by decide) bare fp
  refine ⟨t, reopened, recovered, first, ?_, second, fun inside => ?_⟩
  · exact (kept _ (by decide) .empty .empty).2 ⟨first, by decide, by decide⟩
  · exact absurd ((kept _ (by decide) .empty .empty).1 inside).2.2 (by decide)

end SeenStates
