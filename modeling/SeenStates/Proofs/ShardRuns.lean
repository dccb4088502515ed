import SeenStates.Proofs.CanonicalRuns
import SeenStates.Proofs.ShardedExactness

/-!
# Runs of shards

The leading bits of a fingerprint say which shard it is in, and the order of fingerprints is first
of all that of their leading bits. So the runs of the shards, one behind the other, are in order,
and hold what the run of a set without shards holds that was put the same fingerprints
(`concatenated_of_fed`). For that each shard keeps exactly its own fingerprints and its run in
place, whatever the other shards do to their files (`DiskSet.Stocked`).
-/
namespace SeenStates

variable {w : Width} {p : Nat}

/-! ## Fingerprints of shards in order -/

/-- A fingerprint of a shard is smaller than one of a later shard. -/
theorem Fingerprint.lt_of_shard_lt {a b : Fingerprint w} (before : a.shard p < b.shard p) :
    a < b :=
  Fingerprint.lt_of_shardIndex_lt before

/-- Ascending fingerprints of one shard behind those of the one before it ascend. -/
theorem ascending_flatMap {runs : Fin (Nat.pow 2 p) → List (Fingerprint w)}
    (ascending : ∀ i, Ascending (runs i)) (routed : ∀ i, ∀ fp ∈ runs i, fp.shard p = i) :
    Ascending ((List.finRange (Nat.pow 2 p)).flatMap runs) := by
  rw [Ascending, List.pairwise_flatMap]
  refine ⟨fun i _ => ascending i, (List.pairwise_lt_finRange _).imp fun {i j} before => ?_⟩
  intro a among b among'
  apply Fingerprint.lt_of_shard_lt (p := p)
  rw [routed i a among, routed j b among']
  exact before

namespace DiskSet

/-! ## Sets with their fingerprints and their run -/

/-- An open set with the files of a configuration that has exactly the fingerprints of a kind and
its run in place. -/
structure Stocked (c : Config) (kind : Fingerprint w → Prop) (s : DiskSet w) (t : Files) :
    Prop where
  /-- It has the files of the configuration. -/
  shares : c.SharesFiles s.config
  /-- It is open. -/
  isOpen : s.closed = false
  /-- It is sound. -/
  sound : s.Sound
  /-- It is faithful to its files. -/
  faithful : s.Faithful t
  /-- Its run is in place. -/
  inPlace : s.InPlace t
  /-- It has the fingerprints of the kind. -/
  members : ∀ fp, fp ∈ s.members ↔ kind fp

namespace Stocked

variable {c : Config} {kind : Fingerprint w → Prop} {s : DiskSet w} {h : Host}

/-- A set that was opened has nothing. -/
theorem of_opened {d : Config} {before after : Files} (opened : Opened d before s after)
    (shares : c.SharesFiles d) (none : ∀ fp, ¬ kind fp) : s.Stocked c kind after := by
  refine ⟨opened.config ▸ shares, opened.isOpen, opened.sound, opened.faithful, opened.inPlace,
    fun fp => ?_⟩
  rw [opened.members]
  exact ⟨fun member => absurd member List.not_mem_nil, fun is => absurd is (none fp)⟩

/-- A kind of the same fingerprints is as good. -/
theorem congr {other : Fingerprint w → Prop} {t : Files} (stocked : s.Stocked c kind t)
    (same : ∀ fp, kind fp ↔ other fp) : s.Stocked c other t :=
  { stocked with members := fun fp => (stocked.members fp).trans (same fp) }

/-- A plain call that succeeds adds what it puts, and changes no file but the run. -/
theorem perform (stocked : s.Stocked c kind h.files) {k : Call w} (isPlain : k.isPlain)
    (isOk : (k.perform s h).answer.isOk) :
    (k.perform s h).set.Stocked c (fun fp => fp ∈ k.puts ∨ kind fp) (k.perform s h).host.files ∧
      c.Keeps [.run] h.files (k.perform s h).host.files := by
  have goesOn := Call.goesOn_of_isPlain isPlain
  have goes := stocked.faithful.goes_perform stocked.isOpen isPlain
  obtain ⟨_, grown, all⟩ := stocked.sound.perform stocked.isOpen goesOn h
  obtain rfl := all (Call.putsAll_of_isOk isOk)
  have inPlace := stocked.inPlace.perform stocked.sound stocked.faithful stocked.isOpen goesOn
    fun is => by simp [is, Call.isPlain] at isPlain
  refine ⟨⟨goes.config ▸ stocked.shares, grown.isOpen, grown.sound, goes.faithful, inPlace,
    fun fp => ?_⟩, stocked.shares.keeps_iff.1 goes.keeps⟩
  rw [grown.members, stocked.members]

/-- A set stays as it is where its run stays. -/
theorem of_find {t u : Files} (stocked : s.Stocked c kind t)
    (same : ∀ contents, t.find c.paths.run = .ok (.file contents) →
      u.find c.paths.run = .ok (.file contents)) : s.Stocked c kind u := by
  have there := stocked.inPlace
  rw [InPlace, stocked.shares.paths] at there
  have still := same _ there
  refine { stocked with faithful := ?_, inPlace := ?_ }
  · refine stocked.faithful.of_find fun e found => ?_
    rw [stocked.shares.paths] at found ⊢
    rw [there, ← still, found]
  · rw [InPlace, stocked.shares.paths]
    exact still

/-- A set stays as it is when other shards change their files. -/
theorem of_keeps_part {c : Config} (valid : c.validate = .ok ()) {i j : Nat} (differ : i ≠ j)
    {t u : Files} {fs : List SetFile} (stocked : s.Stocked (c.part i) kind t)
    (keeps : (c.part j).Keeps fs t u) : s.Stocked (c.part i) kind u := by
  refine stocked.of_find fun contents found => ?_
  obtain ⟨l, located⟩ := Files.locate_of_find found
  exact Files.find_of_locate (Config.locate_of_keeps_part valid differ keeps .run located)

/-- After a flush that succeeds the run has all fingerprints, in order. -/
theorem flush (stocked : s.Stocked c kind h.files) (flushed : (s.flush h).answer = .ok ()) :
    (s.flush h).set.Stocked c kind (s.flush h).host.files ∧
      ∀ fp, fp ∈ (s.flush h).set.disk.stored.toList ↔ kind fp := by
  have isOk : (Call.flush.perform s h).answer.isOk := by
    simp only [Call.perform, Outcome.map, flushed]
    rfl
  have after : (s.flush h).set.Stocked c kind (s.flush h).host.files :=
    (stocked.perform (k := .flush) rfl isOk).1.congr fun fp => by simp [Call.puts]
  have now : s.flush h = s.flushNow h := flush_eq stocked.isOpen h
  have only := (stocked.sound.members_flushNow (now ▸ flushed)).1
  rw [← now] at only
  refine ⟨after, fun fp => ?_⟩
  rw [← only]
  exact after.members fp

/-- The file of the run reads as the entries of the run. -/
theorem reads {t : Files} (stocked : s.Stocked c kind t) :
    ∃ header, Run.map w t c.paths.run = .ok (header, s.disk.stored) := by
  have there := stocked.inPlace
  rw [InPlace, stocked.shares.paths] at there
  exact ⟨_, Run.map_of_find (isRun_encodeRun stocked.sound.storable) there⟩

end Stocked

end DiskSet

/-- Any configuration, and plain calls that succeed. -/
def plainCalls (w : Width) : Setting w where
  starts := fun _ _ => True
  allows := fun c s h => c.isPlain ∧ (c.perform s h).answer.isOk
  outside := fun _ _ _ => False

/-- A set that went through plain calls that succeeded has what was put, and its run in place. -/
theorem stocked_of_plainCalls {puts : List (Fingerprint w)} {s : DiskSet w} {h : Host}
    (reached : Reached (plainCalls w) puts s h) :
    s.Stocked s.config (fun fp => fp ∈ puts) h.files := by
  induction reached with
  | opened opened starts =>
    have start := DiskSet.opened_of_open opened
    exact .of_opened start (start.config ▸ .refl _) fun _ => List.not_mem_nil
  | @call puts s h reached c allowed ih =>
    obtain ⟨isPlain, isOk⟩ := allowed
    have config : (c.perform s h).set.config = s.config :=
      (ih.faithful.goes_perform ih.isOpen isPlain).config
    rw [config]
    exact (ih.perform isPlain isOk).1.congr fun fp => by rw [List.mem_append, or_comm]
  | outside reached files allowed ih => exact allowed.elim

/-! ## Sets cut into shards -/

namespace ShardedSet

/-- A disk-backed set of a configuration that was opened and went through plain calls that
succeeded, with the fingerprints that were put, in order. -/
inductive Fed (c : Config) :
    List (Fingerprint w) → ShardedSet w c.prefixBits → Host → Prop where
  /-- The set was opened. -/
  | opened {machine : Machine} {before after : Host} {s : ShardedSet w c.prefixBits}
    (disk : c.kind = .disk)
    (opened : ShardedSet.open w machine c before = (.ok s, after)) : Fed c [] s after
  /-- A plain call was made and succeeded. -/
  | call {puts : List (Fingerprint w)} {s : ShardedSet w c.prefixBits} {h : Host}
    (fed : Fed c puts s h) (k : Call w) (isPlain : k.isPlain)
    (isOk : (k.onShards s h).answer.isOk) :
    Fed c (puts ++ k.puts) (k.onShards s h).set (k.onShards s h).host

/-- Every shard has those of some fingerprints that are of the shard, and its run in place. -/
def Stocked (c : Config) (puts : List (Fingerprint w)) : ShardedSet w p → Files → Prop :=
  Each fun i d t => d.Stocked (c.part i) (fun fp => fp ∈ puts ∧ fp.shard p = i) t

variable {c : Config} {puts : List (Fingerprint w)}

/-- A set that was opened has nothing. -/
theorem stocked_of_open {machine : Machine} {before after : Host} {s : ShardedSet w c.prefixBits}
    (disk : c.kind = .disk)
    (opened : ShardedSet.open w machine c before = (.ok s, after)) :
    s.Stocked c [] after.files := by
  have valid := (fresh_of_open opened).1
  unfold ShardedSet.open at opened
  split at opened
  · simp at opened
  · split at opened
    · simp at opened
    · next shards g result =>
      obtain ⟨rfl, rfl⟩ : (⟨shards⟩ : ShardedSet w c.prefixBits) = s ∧ _ = after := by
        simpa using opened
      have each := openShards_induct (fun {k} opened t => ∀ i : Fin k, ∃ d,
        opened.get i = .disk d ∧ d.Stocked (c.part i) (fun _ => False) t)
        (fun {k opened d shard h h'} all cut opens i => ?_) (fun i => i.elim0) result
      · intro i
        obtain ⟨d, here, stocked⟩ := each i
        exact ⟨d, here, stocked.congr fun fp => by simp⟩
      · obtain ⟨shares, kind⟩ := Config.shard_eq_ok cut
        obtain ⟨e, rfl, begun⟩ := Shard.open_eq_ok (kind.trans disk) opens
        have start := DiskSet.opened_of_open begun
        rcases get_push opened (.disk e) i with ⟨last, here⟩ | ⟨inFront, here⟩
        · rw [here, last]
          exact ⟨e, rfl, .of_opened start shares fun _ => id⟩
        · obtain ⟨d, there, stocked⟩ := all ⟨i, inFront⟩
          rw [here]
          refine ⟨d, there, stocked.of_find fun contents found => ?_⟩
          obtain ⟨l, located⟩ := Files.locate_of_find found
          exact Files.find_of_locate ((start.opens valid shares).locate i .run
            (fun _ => Nat.ne_of_lt inFront) l contents located)

variable {s : ShardedSet w p} {h : Host}

/-- A plain call that succeeds adds what it puts. -/
theorem Stocked.perform (stocked : s.Stocked c puts h.files) (valid : c.validate = .ok ())
    {k : Call w} (isPlain : k.isPlain) (isOk : (k.onShards s h).answer.isOk) :
    (k.onShards s h).set.Stocked c (puts ++ k.puts) (k.onShards s h).host.files := by
  refine Each.run (fun j t u => (c.part j).Keeps [.run] t u) stocked
    (fun part among d h stocked isOk => ?_) (fun i absent d t stocked => ?_)
    (fun i j differ d t u keeps => ?_) isOk
  · have isPlain' := Call.isPlain_of_mem_parts among isPlain
    obtain ⟨after, keeps⟩ := stocked.perform isPlain' isOk
    refine ⟨after.congr fun fp => ?_, keeps⟩
    rw [Call.mem_puts_part among, List.mem_append, or_comm, or_and_right]
  · refine stocked.congr fun fp => ?_
    rw [List.mem_append, or_and_right]
    have none : ¬ (fp ∈ k.puts ∧ fp.shard p = i) := fun both =>
      absent (both.2 ▸ Call.shard_mem_parts both.1)
    simp only [none, or_false]
  · have apart : i.val ≠ j.val := fun same => differ (Fin.ext same)
    exact ⟨fun stocked => stocked.of_keeps_part valid apart keeps,
      fun stocked => stocked.of_keeps_part valid apart keeps⟩

/-- After a flush that succeeds the run of each shard has all of its fingerprints, in order. -/
theorem Stocked.flush (stocked : s.Stocked c puts h.files) (valid : c.validate = .ok ())
    (flushed : (s.flush h).answer = .ok ()) :
    Each (fun i d t => d.Stocked (c.part i) (fun fp => fp ∈ puts ∧ fp.shard p = i) t ∧
      ∀ fp, fp ∈ d.disk.stored.toList ↔ fp ∈ puts ∧ fp.shard p = i)
      (s.flush h).set (s.flush h).host.files := by
  have isOk : (Call.flush.onShards s h).answer.isOk := by
    simp only [Call.onShards, Outcome.map, flushed]
    rfl
  refine Each.run (fun j t u => (c.part j).Keeps [.run] t u) (c := .flush) stocked
    (fun part among d h stocked isOk => ?_) (fun i absent => ?_)
    (fun i j differ d t u keeps => ?_) isOk
  · obtain ⟨i, _, rfl⟩ := List.mem_map.1 among
    exact ⟨stocked.flush (DiskSet.eq_ok_of_isOk_map isOk), (stocked.perform rfl isOk).2⟩
  · exact absurd (by simp [Call.parts]) absent
  · have apart : i.val ≠ j.val := fun same => differ (Fin.ext same)
    exact ⟨fun stocked => stocked.of_keeps_part valid apart keeps,
      fun both => ⟨both.1.of_keeps_part valid apart keeps, both.2⟩⟩

/-- A set that is fed has a valid configuration, and each of its shards has its fingerprints. -/
theorem stocked_of_fed {s : ShardedSet w c.prefixBits} (fed : Fed c puts s h) :
    c.validate = .ok () ∧ s.Stocked c puts h.files := by
  induction fed with
  | opened disk opened => exact ⟨(fresh_of_open opened).1, stocked_of_open disk opened⟩
  | call fed k isPlain isOk ih => exact ⟨ih.1, ih.2.perform ih.1 isPlain isOk⟩

end ShardedSet

/-- The runs of the shards of a set, one behind the other, are the run of a set without shards of
whatever size that was put the same fingerprints, as long as no call fails: after a flush the files
read as entries that ascend, shard after shard, and are the fingerprints that were put. In the run
of a shard are those of which the leading bits are the number of the shard. -/
theorem concatenated_of_fed {c : Config} {puts others : List (Fingerprint w)}
    {s : ShardedSet w c.prefixBits} {t : DiskSet w} {h g : Host} (fed : ShardedSet.Fed c puts s h)
    (reached : Reached (plainCalls w) others t g) (same : ∀ fp, fp ∈ puts ↔ fp ∈ others)
    (flushed : (s.flush h).answer = .ok ()) (flushed' : (t.flush g).answer = .ok ()) :
    ∃ runs : Fin (Nat.pow 2 c.prefixBits) → List (Fingerprint w),
      (∀ i : Fin (Nat.pow 2 c.prefixBits), ∃ header,
        Run.map w (s.flush h).host.files (c.part i).paths.run =
          .ok (header, (runs i).toArray)) ∧
      (∃ header, Run.map w (t.flush g).host.files t.config.paths.run =
        .ok (header, ((List.finRange (Nat.pow 2 c.prefixBits)).flatMap runs).toArray)) ∧
      ((List.finRange (Nat.pow 2 c.prefixBits)).flatMap runs).Pairwise (· < ·) ∧
      (∀ fp, fp ∈ (List.finRange (Nat.pow 2 c.prefixBits)).flatMap runs ↔ fp ∈ puts) ∧
      ∀ i, ∀ fp ∈ runs i, shardIndex fp.address c.prefixBits = i.val := by
  obtain ⟨valid, stocked⟩ := ShardedSet.stocked_of_fed fed
  have each := stocked.flush valid flushed
  obtain ⟨single, stored⟩ := (stocked_of_plainCalls reached).flush flushed'
  choose shards here all using each
  have routed (i : Fin (Nat.pow 2 c.prefixBits)) (fp : Fingerprint w)
      (among : fp ∈ (shards i).disk.stored.toList) : fp.shard c.prefixBits = i :=
    (((all i).2 fp).1 among).2
  have ascending := ascending_flatMap (fun i => (all i).1.sound.ascending) routed
  have members (fp : Fingerprint w) :
      fp ∈ (List.finRange (Nat.pow 2 c.prefixBits)).flatMap
        (fun i => (shards i).disk.stored.toList) ↔ fp ∈ puts := by
    rw [List.mem_flatMap]
    constructor
    · rintro ⟨i, _, among⟩
      exact (((all i).2 fp).1 among).1
    · intro put
      exact ⟨fp.shard c.prefixBits, List.mem_finRange _, ((all _).2 fp).2 ⟨put, rfl⟩⟩
  have whole : (t.flush g).set.disk.stored.toList = (List.finRange (Nat.pow 2 c.prefixBits)).flatMap
      fun i => (shards i).disk.stored.toList :=
    single.sound.ascending.eq_of_mem_iff ascending fun fp => by
      rw [stored, members, same]
  refine ⟨fun i => (shards i).disk.stored.toList, fun i => ?_, ?_, ascending, members,
    fun i fp among => congrArg Fin.val (routed i fp among)⟩
  · simpa using (all i).1.reads
  · rw [← whole]
    simpa using single.reads

/-- Two shards that were put a block and a set of four slots that was put the same two fingerprints,
the other way round and with a flush between: the runs of the shards are one fingerprint each, and
make up the run of the other set. -/
theorem concatenated_of_fed_block :
    let o := (Call.putBlock shardedBlock).onShards shardedSet shardedHost
    let one := (Call.put (.ofNat .bits64 1)).perform sampleSet sampleHost
    let flushed := Call.flush.perform one.set one.host
    let both := (Call.put (.ofNat .bits64 0x8000000000000001)).perform flushed.set flushed.host
    ShardedSet.Fed shardedConfig shardedBlock o.set o.host ∧
      ∃ runs : Fin (Nat.pow 2 shardedConfig.prefixBits) → List (Fingerprint .bits64),
        (∀ i : Fin (Nat.pow 2 shardedConfig.prefixBits), ∃ header,
          Run.map .bits64 (o.set.flush o.host).host.files (shardedConfig.part i).paths.run =
            .ok (header, (runs i).toArray)) ∧
        (List.finRange _).flatMap runs = [.ofNat _ 1, .ofNat _ 0x8000000000000001] ∧
        ∃ header, Run.map .bits64 (both.set.flush both.host).host.files both.set.config.paths.run =
          .ok (header, #[.ofNat _ 1, .ofNat _ 0x8000000000000001]) := by
  intro o one flushed both
  have answers : o.answer.isOk ∧ one.answer.isOk ∧ flushed.answer.isOk ∧ both.answer.isOk ∧
      (o.set.flush o.host).answer = .ok () ∧ (both.set.flush both.host).answer = .ok () := by
    decide +kernel
  obtain ⟨putBlock, putOne, flush, putOther, last, last'⟩ := answers
  have fed : ShardedSet.Fed shardedConfig shardedBlock o.set o.host :=
    (ShardedSet.Fed.opened rfl open_sharded).call (.putBlock shardedBlock) rfl putBlock
  have start : Reached (plainCalls .bits64) [] sampleSet sampleHost := .opened open_sample trivial
  have reached : Reached (plainCalls .bits64) [.ofNat _ 1, .ofNat _ 0x8000000000000001] both.set
      both.host :=
    ((start.call (.put _) ⟨rfl, putOne⟩).call .flush ⟨rfl, flush⟩).call (.put _) ⟨rfl, putOther⟩
  have same (fp : Fingerprint .bits64) :
      fp ∈ shardedBlock ↔ fp ∈ [.ofNat _ 1, .ofNat .bits64 0x8000000000000001] := by
    simp only [shardedBlock, List.mem_cons, List.not_mem_nil, or_false]
    grind
  obtain ⟨runs, shards, ⟨header, single⟩, ascending, members, _⟩ :=
    concatenated_of_fed fed reached same last last'
  have listed : (List.finRange _).flatMap runs = [.ofNat _ 1, .ofNat _ 0x8000000000000001] :=
    Ascending.eq_of_mem_iff ascending (by decide) fun fp => (members fp).trans (same fp)
  exact ⟨fed, runs, shards, listed, header, by rw [single, listed]⟩

end SeenStates
