import SeenStates.Proofs.Copies
import SeenStates.Proofs.ShardedExactness

/-!
# Snapshots of sharded sets

The shards of a set write their checkpoints aside one after the other, and so they put them in
place and go back to them. Where one of them fails the others may be ahead, so a set can go back to
checkpoints that its shards began at different times; each shard by itself goes back to what it was
when one was begun, and all of them to the same time if none failed (`snapshot_of_lives`).
-/
namespace SeenStates

variable {w : Width} {p : Nat}

/-! ## Shards of the same fingerprints -/

/-- Two shards that answer the same whatever they are asked for, and have the same size. -/
structure Shard.SameMembers (a b : Shard w) : Prop where
  /-- They answer the same. -/
  answers : ∀ fp h g, (a.contains fp h).answer = (b.contains fp g).answer
  /-- They have the same size. -/
  size : a.size = b.size

/-- Sound sets that are open and have the same members answer the same. -/
theorem DiskSet.Sound.sameMembers {s t : DiskSet w} (sound : s.Sound) (sound' : t.Sound)
    (isOpen : s.closed = false) (isOpen' : t.closed = false)
    (same : ∀ fp, fp ∈ s.members ↔ fp ∈ t.members) :
    Shard.SameMembers (.disk s) (.disk t) := by
  constructor
  · intro fp h g
    change (s.contains fp h).answer = (t.contains fp g).answer
    rw [sound.contains isOpen, sound'.contains isOpen']
    simp only [Outcome.ok, same]
  · change s.inserted = t.inserted
    rw [sound.counted, sound'.counted]
    exact ((List.perm_ext_iff_of_nodup sound.distinct sound'.distinct).2 same).length_eq

/-! ## Runs with failures -/

/-- No file of a set is written from one tree to another, though it may be removed. -/
def Config.Unwritten (c : Config) (t u : Files) : Prop :=
  ∀ f contents, u.find (c.paths.path f) = .ok (.file contents) →
    t.find (c.paths.path f) = .ok (.file contents)

/-- What one shard does to its files writes to none of another one. -/
theorem Config.unwritten_of_alters_part {c : Config} (valid : c.validate = .ok ())
    {i j : Fin (Nat.pow 2 p)} (differ : i ≠ j) {fs : List SetFile} {t u : Files}
    (alters : (c.part j).Alters fs t u) : (c.part i).Unwritten t u :=
  fun f _ found => find_of_alters_part valid (fun same => differ (Fin.ext same)) alters f found

/-- Where a shard would take the copy in place for its own, or for that of the header in place, the
two are those of one checkpoint. -/
def ShardedSet.Matched (c : Config) (s : ShardedSet w p) (t : Files) : Prop :=
  ∀ i d, s.shards.get i = .disk d → (c.part i).Matched d.disk.header w t

/-- A mapped outcome is one that succeeds if the outcome does. -/
theorem Outcome.isOk_map_of_eq_ok {σ α β : Type} {o : Outcome σ α} {a : α}
    (succeeds : o.answer = .ok a) {f : α → β} : (o.map f).answer.isOk := by
  rw [map, succeeds]
  rfl

/-- The set, if a checkpoint of it is begun by a call. -/
def Call.begins (k : Call w) (s : ShardedSet w p) : List (ShardedSet w p) :=
  match k with
  | .beginCheckpoint => [s]
  | _ => []

/-- What comes of a sharded set and its surroundings by calls of an allowed kind, with any outcome,
and by changes of files between them that write to no file of a shard; with the sets of which a
checkpoint was begun, in order. No shard takes a copy for another one when it goes back to it. -/
inductive ShardedSet.Lives (c : Config) (allows : Call w → Prop) (s : ShardedSet w p) (h : Host) :
    List (ShardedSet w p) → ShardedSet w p → Host → Prop where
  /-- Nothing has come of it yet. -/
  | start : Lives c allows s h [] s h
  /-- A call was made. -/
  | call {begun : List (ShardedSet w p)} {u : ShardedSet w p} {g : Host}
    (lives : Lives c allows s h begun u g) (k : Call w) (allowed : allows k)
    (matched : k = .recover → u.Matched c g.files) :
    Lives c allows s h (begun ++ k.begins u) (k.onShards u g).set (k.onShards u g).host
  /-- The files changed between two calls. -/
  | outside {begun : List (ShardedSet w p)} {u : ShardedSet w p} {g : Host}
    (lives : Lives c allows s h begun u g) (files : Files)
    (unwritten : ∀ i : Fin (Nat.pow 2 p), (c.part i).Unwritten g.files files) :
    Lives c allows s h begun u (g.withFiles files)

/-- A call that is not plain is a part exactly of itself. -/
theorem Call.part_eq_iff {k l : Call w} (special : l.isPlain = false)
    {part : Fin (Nat.pow 2 p) × Call w} (among : part ∈ k.parts p) : part.2 = l ↔ k = l := by
  rcases eq_or_isPlain among with same | ⟨isPlain, isPlain'⟩
  · rw [same]
  · constructor
    · rintro rfl
      rw [isPlain] at special
      contradiction
    · rintro rfl
      rw [isPlain'] at special
      contradiction

/-- The parts of a call may alter what the call may. -/
theorem Call.altered_of_mem_parts {k : Call w} {part : Fin (Nat.pow 2 p) × Call w}
    (among : part ∈ k.parts p) : part.2.altered = k.altered := by
  rcases eq_or_isPlain among with same | ⟨isPlain, isPlain'⟩
  · rw [same]
  · rw [altered_of_isPlain isPlain, altered_of_isPlain isPlain']

/-- A call that is not plain is one of every shard. -/
theorem Call.mem_parts {k : Call w} (special : k.isPlain = false) (i : Fin (Nat.pow 2 p)) :
    i ∈ (k.parts p).map Prod.fst := by
  cases k with
  | beginCheckpoint => simp [parts]
  | commitCheckpoint => simp [parts]
  | recover => simp [parts]
  | close cleanup => simp [parts]
  | _ => contradiction

namespace ShardedSet

variable {c : Config} {s u : ShardedSet w p} {h g : Host} {begun : List (ShardedSet w p)}
  {allows : Call w → Prop} {holds before after : Fin (Nat.pow 2 p) → DiskSet w → Files → Prop}

/-- What each shard is kept in by its part of a call, with any outcome, all shards are kept in by
the call, if it depends on no more than which files of the shard are written. -/
theorem Each.keeps_call (valid : c.validate = .ok ()) (each : Each holds s h.files) {k : Call w}
    (matched : k = .recover → s.Matched c h.files)
    (whole : ∀ i d t, holds i d t → d.Whole (c.part i) t)
    (kept : ∀ i d t u, holds i d t → (c.part i).Unwritten t u → holds i d u)
    (own : ∀ part ∈ k.parts p, ∀ d h, holds part.1 d h.files →
      (part.2 = .recover → (c.part part.1).Matched d.disk.header w h.files) →
        holds part.1 (part.2.perform d h).set (part.2.perform d h).host.files) :
    Each holds (k.onShards s h).set (k.onShards s h).host.files := by
  have start : Each (fun i d t => holds i d t ∧
      (k = .recover → (c.part i).Matched d.disk.header w t)) s h.files :=
    fun i => (each i).imp fun d ⟨here, holds⟩ => ⟨here, holds, fun is => matched is i d here⟩
  refine start.keeps (fun j t u => (c.part j).Alters setFiles t u)
    (fun i d t both => both.1) (fun part among d h ⟨holds, matched⟩ => ⟨?_, ?_⟩)
    fun i j differ d t u alters => ⟨fun both => ⟨?_, fun is => ?_⟩, fun holds => ?_⟩
  · exact own part among d h holds fun is => matched ((Call.part_eq_iff rfl among).1 is)
  · exact ((whole _ d _ holds).alters_perform part.2).mono (List.map_subset _ (subset_setFiles _))
  · exact kept i d t u both.1 (Config.unwritten_of_alters_part valid differ alters)
  · have apart : i.val ≠ j.val := fun same => differ (Fin.ext same)
    exact (both.2 is).of_alters (Config.validate_part valid _) alters
      (Config.fileName_part_not_mem apart .copy _) (Config.fileName_part_not_mem apart .header _)
  · exact kept i d t u holds (Config.unwritten_of_alters_part valid differ alters)

/-- A call of all shards that succeeds takes them where it takes each, if it depends on no more than
which files of the shard are written where they are. -/
theorem Each.run_call (valid : c.validate = .ok ()) (each : Each before s h.files) {k : Call w}
    (special : k.isPlain = false) (isOk : (k.onShards s h).answer.isOk)
    (whole : ∀ i d t, before i d t → d.Whole (c.part i) t)
    (kept : ∀ (i : Fin (Nat.pow 2 p)) d t u, (c.part i).Unwritten t u →
      (before i d t → before i d u) ∧ (after i d t → after i d u))
    (own : ∀ i d h, before i d h.files → (k.perform d h).answer.isOk →
      after i (k.perform d h).set (k.perform d h).host.files) :
    Each after (k.onShards s h).set (k.onShards s h).host.files := by
  refine Each.run (fun j t u => (c.part j).Alters setFiles t u) each
    (fun part among d h holds isOk => ?_) (fun i absent => absurd (Call.mem_parts special i) absent)
    (fun i j differ d t u alters =>
      kept i d t u (Config.unwritten_of_alters_part valid differ alters)) isOk
  rw [(Call.part_eq_iff special among).2 rfl] at isOk ⊢
  exact ⟨own _ d h holds isOk,
    ((whole _ d _ holds).alters_perform k).mono (List.map_subset _ (subset_setFiles _))⟩

/-- What each shard is kept in by every call of an allowed kind, a run keeps all shards in. -/
theorem Lives.each (lives : s.Lives c allows h begun u g) (valid : c.validate = .ok ())
    (start : Each holds s h.files) (whole : ∀ i d t, holds i d t → d.Whole (c.part i) t)
    (kept : ∀ i d t u, holds i d t → (c.part i).Unwritten t u → holds i d u)
    (own : ∀ k, allows k → ∀ part ∈ k.parts p, ∀ d h, holds part.1 d h.files →
      (part.2 = .recover → (c.part part.1).Matched d.disk.header w h.files) →
        holds part.1 (part.2.perform d h).set (part.2.perform d h).host.files) :
    Each holds u g.files := by
  induction lives with
  | start => exact start
  | call lives k allowed matched ih => exact ih.keeps_call valid matched whole kept (own k allowed)
  | outside lives files unwritten ih =>
    exact fun i => (ih i).imp fun d ⟨here, holds⟩ => ⟨here, kept i d _ _ holds (unwritten i)⟩

/-- What comes of a set whose shards are whole has whole shards. -/
theorem Lives.whole (lives : s.Lives c allows h begun u g) (valid : c.validate = .ok ())
    (start : Each (fun i d t => d.Whole (c.part i) t) s h.files) :
    Each (fun i d t => d.Whole (c.part i) t) u g.files :=
  lives.each valid start (fun _ _ _ whole => whole)
    (fun _ _ _ _ whole unwritten => whole.of_find (unwritten .run))
    fun _ _ _ _ _ _ whole matched => whole.perform matched

/-! ## Copies of what the shards were -/

/-- Members that a shard had in one of some sets, where it was open and sound. -/
def MembersOf (sets : List (ShardedSet w p)) (i : Fin (Nat.pow 2 p))
    (members : List (Fingerprint w)) : Prop :=
  ∃ e ∈ sets, ∃ b, e.shards.get i = .disk b ∧ b.closed = false ∧ b.Sound ∧
    ∀ fp, fp ∈ members ↔ fp ∈ b.members

/-- A sound set with such members is the shard as it was. -/
theorem MembersOf.sameMembers {sets : List (ShardedSet w p)} {i : Fin (Nat.pow 2 p)}
    {members : List (Fingerprint w)} (is : MembersOf sets i members) {d : DiskSet w}
    (sound : d.Sound) (isOpen : d.closed = false) (same : ∀ fp, fp ∈ d.members ↔ fp ∈ members) :
    ∃ e ∈ sets, Shard.SameMembers (.disk d) (e.shards.get i) := by
  obtain ⟨e, among, b, here, stillOpen, sound', same'⟩ := is
  exact ⟨e, among, here ▸ sound.sameMembers sound' isOpen stillOpen fun fp =>
    (same fp).trans (same' fp)⟩

/-- Every shard has no fingerprints but its own, and is backed by copies of what it was when a
checkpoint of one of some sets was begun. -/
def Backed (c : Config) (sets : List (ShardedSet w p)) : ShardedSet w p → Files → Prop :=
  Each fun i d t => d.Backed (c.part i)
    (fun members => MembersOf sets i members ∧ ∀ fp ∈ members, fp.shard p = i)
    (fun fp => fp.shard p = i) t

/-- A call with any outcome leaves a set backed, also by itself if a checkpoint of it is begun. -/
theorem Backed.onShards (backed : s.Backed c begun h.files) (valid : c.validate = .ok ())
    {k : Call w} (matched : k = .recover → s.Matched c h.files) :
    (k.onShards s h).set.Backed c (begun ++ k.begins s) (k.onShards s h).host.files := by
  -- While a checkpoint is begun, each shard has the members that it had before.
  let same (i : Fin (Nat.pow 2 p)) (d : DiskSet w) : Prop :=
    k = .beginCheckpoint → d.closed = false → MembersOf [s] i d.members
  have start : Each (fun i d t => d.Backed (c.part i)
      (fun members => MembersOf (begun ++ k.begins s) i members ∧ ∀ fp ∈ members, fp.shard p = i)
      (fun fp => fp.shard p = i) t ∧ same i d) s h.files := fun i => by
    obtain ⟨d, here, backed⟩ := backed i
    refine ⟨d, here, backed.mono ?_, fun _ isOpen => ?_⟩
    · rintro members ⟨⟨e, among, b⟩, routed⟩
      exact ⟨⟨e, List.mem_append_left _ among, b⟩, routed⟩
    · exact ⟨s, List.mem_cons_self, d, here, isOpen, (backed.whole.of_open isOpen).1,
        fun _ => .rfl⟩
  refine Each.mono (start.keeps_call valid matched (fun i d t holds => holds.1.whole)
    (fun i d t u holds unwritten => ⟨holds.1.of_find unwritten, holds.2⟩)
    fun part among d h holds matched => ?_) fun i d holds => holds.1
  obtain ⟨backed, same⟩ := holds
  have begins : part.2 = .beginCheckpoint ↔ k = .beginCheckpoint := Call.part_eq_iff rfl among
  refine ⟨backed.perform (Config.validate_part valid _) matched
    (fun fp puts => ((Call.mem_puts_part among fp).1 puts).2) (fun is isOpen _ => ?_)
    (fun members is => is.2), fun is isOpen' => ?_⟩
  · obtain ⟨e, only, b⟩ := same (begins.1 is) isOpen
    rw [begins.1 is]
    exact ⟨⟨e, List.mem_append_right _ only, b⟩, backed.members isOpen⟩
  · rw [begins.2 is] at isOpen' ⊢
    have closed := DiskSet.isOpen_of_perform isOpen'
    obtain ⟨e, only, b, here, stillOpen, sound', equal⟩ := same is closed
    obtain ⟨sound, _⟩ := backed.whole.of_open closed
    have kept := (sound.of_flushed (DiskSet.flushed_flushNow sound.mapped h)).2.1
    rw [← DiskSet.set_beginCheckpoint closed] at kept
    exact ⟨e, only, b, here, stillOpen, sound', fun fp => kept.mem_iff.trans (equal fp)⟩

/-- What comes of a backed set is backed. -/
theorem Lives.backed (lives : s.Lives c allows h begun u g) (valid : c.validate = .ok ())
    (start : s.Backed c [] h.files) : u.Backed c begun g.files := by
  induction lives with
  | start => exact start
  | call lives k allowed matched ih => exact ih.onShards valid matched
  | outside lives files unwritten ih =>
    exact fun i => (ih i).imp fun d ⟨here, backed⟩ => ⟨here, backed.of_find (unwritten i)⟩

/-- Shards of a backed set that all go back to copies are what they were in the sets that these are
of. -/
theorem Backed.sameMembers_recover {sets : List (ShardedSet w p)} (backed : s.Backed c sets h.files)
    (valid : c.validate = .ok ()) (matched : s.Matched c h.files)
    (recovered : (s.recover h).answer = .ok ()) (i : Fin (Nat.pow 2 p)) :
    ∃ e ∈ sets, ((s.recover h).set.shards.get i).SameMembers (e.shards.get i) := by
  have each : Each (fun i d _ => d.closed = false ∧ d.Sound ∧
      ∃ members, MembersOf sets i members ∧ ∀ fp, fp ∈ d.members ↔ fp ∈ members)
      (s.recover h).set (s.recover h).host.files := by
    have start : Each (fun i d t => d.Whole (c.part i) t ∧
        (c.part i).CopiesOf .copy (MembersOf sets i) t ∧ (c.part i).Matched d.disk.header w t)
        s h.files := fun i => (backed i).imp fun d ⟨here, backed⟩ =>
      ⟨here, backed.whole, backed.committed.mono fun _ is => is.1, matched i d here⟩
    refine start.run (fun j t u => (c.part j).Alters setFiles t u) (c := .recover)
      (fun part among d h ⟨whole, copies, matched⟩ isOk => ?_)
      (fun i absent => absurd (Call.mem_parts rfl i) absent)
      (fun i j differ d t u alters => ⟨fun ⟨whole, copies, matched⟩ => ?_, id⟩)
      (Outcome.isOk_map_of_eq_ok recovered)
    · rw [(Call.part_eq_iff rfl among).2 rfl] at isOk ⊢
      exact ⟨whole.members_recover matched copies (DiskSet.eq_ok_of_isOk_map isOk),
        (whole.alters_perform .recover).mono (List.map_subset _ (subset_setFiles _))⟩
    · have apart : i.val ≠ j.val := fun same => differ (Fin.ext same)
      have unwritten := Config.unwritten_of_alters_part valid differ alters
      exact ⟨whole.of_find (unwritten .run), copies.of_find (unwritten .copy),
        matched.of_alters (Config.validate_part valid _) alters
          (Config.fileName_part_not_mem apart .copy _)
          (Config.fileName_part_not_mem apart .header _)⟩
  obtain ⟨d, there, isOpen, sound, members, is, same⟩ := each i
  exact there ▸ is.sameMembers sound isOpen same

/-! ## Checkpoints of all shards -/

/-- A shard was open and sound in a set, and a checkpoint of what it had then is stored. -/
def StoresOf (s : ShardedSet w p) (c : Config) (f g : SetFile) (i : Fin (Nat.pow 2 p))
    (t : Files) : Prop :=
  ∃ d, s.shards.get i = .disk d ∧ d.closed = false ∧ d.Sound ∧
    (c.part i).Stores f g d.members.toFinset t

/-- What is stored for a shard is a checkpoint of what it was. -/
theorem StoresOf.pairsOf {f f' : SetFile} {i : Fin (Nat.pow 2 p)} {t : Files}
    (stores : StoresOf s c f f' i t) :
    t.PairsOf ((c.part i).paths.path f) ((c.part i).paths.path f') (c.part i).family
      (MembersOf [s] i) := by
  obtain ⟨d, here, isOpen, sound, stored⟩ := stores
  refine stored.pairsOf.mono fun members same => ?_
  exact ⟨s, List.mem_cons_self, d, here, isOpen, sound, fun fp =>
    (same fp).trans List.mem_toFinset⟩

/-- A whole shard and its stored checkpoint stay so where other shards change their files. -/
theorem stored_of_keeps {f f' : SetFile} {i j : Fin (Nat.pow 2 p)} {d : DiskSet w} {t t' : Files}
    (valid : c.validate = .ok ()) (differ : i ≠ j) (keeps : (c.part j).Keeps setFiles t t')
    (stored : d.Whole (c.part i) t ∧ StoresOf s c f f' i t) :
    d.Whole (c.part i) t' ∧ StoresOf s c f f' i t' := by
  obtain ⟨whole, e, here, isOpen, sound, stores⟩ := stored
  have apart : i.val ≠ j.val := fun same => differ (Fin.ext same)
  exact ⟨whole.of_find (Config.unwritten_of_alters_part valid differ keeps.alters .run),
    e, here, isOpen, sound, stores.of_keeps (Config.validate_part valid _) keeps
      (Config.fileName_part_not_mem apart f _) (Config.fileName_part_not_mem apart f' _)⟩

/-- A checkpoint that all shards wrote aside is stored for each of them. -/
theorem Each.stores_beginCheckpoint (valid : c.validate = .ok ())
    (each : Each (fun i d t => d.Whole (c.part i) t) s h.files)
    (begun : (s.beginCheckpoint h).answer = .ok ()) :
    Each (fun i d t => d.Whole (c.part i) t ∧ StoresOf s c .pendingCopy .pendingHeader i t)
      (s.beginCheckpoint h).set (s.beginCheckpoint h).host.files := by
  have start : Each (fun i d t => d.Whole (c.part i) t ∧ s.shards.get i = .disk d) s h.files :=
    fun i => (each i).imp fun d ⟨here, whole⟩ => ⟨here, whole, here⟩
  refine start.run (fun j t u => (c.part j).Keeps setFiles t u) (c := .beginCheckpoint)
    (fun part among d h ⟨whole, here⟩ isOk => ?_)
    (fun i absent => absurd (Call.mem_parts rfl i) absent)
    (fun i j differ d t u keeps => ⟨fun ⟨whole, here⟩ => ⟨whole.of_find
      (Config.unwritten_of_alters_part valid differ keeps.alters .run), here⟩,
        stored_of_keeps valid differ keeps⟩) (Outcome.isOk_map_of_eq_ok begun)
  rw [(Call.part_eq_iff rfl among).2 rfl] at isOk ⊢
  have isOpen := DiskSet.isOpen_of_isOk rfl isOk
  obtain ⟨sound, faithful⟩ := whole.of_open isOpen
  have keeps := whole.shares.keeps_iff.1 (faithful.beginCheckpoint isOpen).2.2.2
  have stores : (c.part part.1).Stores .pendingCopy .pendingHeader d.members.toFinset
      (d.beginCheckpoint h).host.files :=
    sound.stores_beginCheckpoint faithful isOpen whole.shares (DiskSet.eq_ok_of_isOk_map isOk)
      fun fp => List.mem_toFinset.symm
  exact ⟨⟨whole.perform (k := .beginCheckpoint) nofun, d, here, isOpen, sound, stores⟩,
    keeps.mono (List.map_subset _ (subset_setFiles _))⟩

/-- Every shard is whole, and what two of its files are is a checkpoint of what it was in a set. -/
def Saves (u : ShardedSet w p) (c : Config) (f f' : SetFile) : ShardedSet w p → Files → Prop :=
  Each fun i d t => d.Whole (c.part i) t ∧
    t.PairsOf ((c.part i).paths.path f) ((c.part i).paths.path f') (c.part i).family
      (MembersOf [u] i)

/-- Files of a shard that are checkpoints of it stay so where they are not written. -/
theorem pairsOf_of_unwritten {f f' : SetFile} {i : Fin (Nat.pow 2 p)} {d : DiskSet w} {t v : Files}
    (holds : d.Whole (c.part i) t ∧ t.PairsOf ((c.part i).paths.path f) ((c.part i).paths.path f')
      (c.part i).family (MembersOf [u] i)) (unwritten : (c.part i).Unwritten t v) :
    d.Whole (c.part i) v ∧ v.PairsOf ((c.part i).paths.path f) ((c.part i).paths.path f')
      (c.part i).family (MembersOf [u] i) := by
  refine ⟨holds.1.of_find (unwritten .run), holds.2.of_find fun path among contents => ?_⟩
  rcases List.mem_pair.1 among with rfl | rfl
  · exact unwritten f contents
  · exact unwritten f' contents

/-- A checkpoint that all shards wrote aside is one of the set. -/
theorem saves_beginCheckpoint (valid : c.validate = .ok ())
    (each : Each (fun i d t => d.Whole (c.part i) t) s h.files)
    (begun : (s.beginCheckpoint h).answer = .ok ()) :
    Saves s c .pendingCopy .pendingHeader (s.beginCheckpoint h).set
      (s.beginCheckpoint h).host.files :=
  (each.stores_beginCheckpoint valid begun).mono fun _ _ stored => ⟨stored.1, stored.2.pairsOf⟩

/-- Checkpoints of a set stay what they are through calls that may not alter their files. -/
theorem Lives.saves {v : ShardedSet w p} (lives : s.Lives c allows h begun u g)
    (valid : c.validate = .ok ()) {f f' : SetFile}
    (unaltered : ∀ k, allows k → f ∉ k.altered ∧ f' ∉ k.altered)
    (start : Saves v c f f' s h.files) : Saves v c f f' u g.files := by
  refine lives.each valid start (fun i d t holds => holds.1)
    (fun i d t v holds unwritten => pairsOf_of_unwritten holds unwritten)
    fun k allowed part among d h holds matched => ⟨holds.1.perform matched, ?_⟩
  have valid' := Config.validate_part valid part.1
  have alters := holds.1.alters_perform (h := h) part.2
  rw [Call.altered_of_mem_parts among] at alters
  obtain ⟨copy, header⟩ := unaltered k allowed
  refine holds.2.of_find fun path among contents found => ?_
  rcases List.mem_pair.1 among with rfl | rfl
  · exact alters.find (Config.leads valid' f) (Config.fileName_not_mem _ copy) found
  · exact alters.find (Config.leads valid' f') (Config.fileName_not_mem _ header) found

/-- Checkpoints of a set that all shards put in place are what was aside. -/
theorem saves_commitCheckpoint (valid : c.validate = .ok ())
    (saves : Saves u c .pendingCopy .pendingHeader s h.files)
    (committed : (s.commitCheckpoint h).answer = .ok ()) :
    Saves u c .copy .header (s.commitCheckpoint h).set (s.commitCheckpoint h).host.files := by
  refine Each.run_call (k := .commitCheckpoint) valid saves rfl
    (Outcome.isOk_map_of_eq_ok committed) (fun i d t holds => holds.1)
    (fun i d t v unwritten => ⟨fun holds => pairsOf_of_unwritten holds unwritten,
      fun holds => pairsOf_of_unwritten holds unwritten⟩)
    fun i d h ⟨whole, pairs⟩ isOk => ⟨whole.perform (k := .commitCheckpoint) nofun, ?_⟩
  have placed := DiskSet.commitCheckpoint_eq_ok (DiskSet.isOpen_of_isOk rfl isOk)
    (DiskSet.eq_ok_of_isOk_map isOk)
  rw [whole.shares.paths] at placed
  obtain ⟨copied, written, _⟩ := SetPaths.find_of_commit (Config.validate_part valid _) placed
  exact fun copy header pair => pairs copy header
    ⟨copied _ pair.copied, written _ pair.written⟩

/-- Where the checkpoints of a set are in place no shard takes a copy for another one. -/
theorem Saves.matched {t : Files} (saves : Saves u c .copy .header s t) : s.Matched c t := by
  intro i d _ copy header pair text own spelled read shape entries isRun _
  obtain ⟨_, _, _, pairs⟩ := saves i
  obtain ⟨others, checkpoint, _⟩ := pairs copy header pair
  obtain rfl := (Prod.mk.inj (Except.ok.inj (Eq.trans (Eq.symm checkpoint.copy) isRun))).2
  exact checkpoint

/-- Shards that all go back to checkpoints of a set are what they were in it. -/
theorem Saves.sameMembers_recover (saves : Saves u c .copy .header s h.files)
    (valid : c.validate = .ok ()) (recovered : (s.recover h).answer = .ok ())
    (i : Fin (Nat.pow 2 p)) :
    ((s.recover h).set.shards.get i).SameMembers (u.shards.get i) := by
  have each : Each (fun i d _ => d.closed = false ∧ d.Sound ∧
      ∃ members, MembersOf [u] i members ∧ ∀ fp, fp ∈ d.members ↔ fp ∈ members)
      (s.recover h).set (s.recover h).host.files := by
    refine Each.run_call (k := .recover) valid saves rfl (Outcome.isOk_map_of_eq_ok recovered)
      (fun i d t holds => holds.1)
      (fun i d t v unwritten => ⟨fun holds => pairsOf_of_unwritten holds unwritten, id⟩)
      fun i d h ⟨whole, pairs⟩ isOk => ?_
    obtain ⟨same, _, isOpen, sound, all⟩ :=
      whole.members_recover_of_pairs pairs (DiskSet.eq_ok_of_isOk_map isOk)
    exact ⟨isOpen, sound, all⟩
  obtain ⟨d, there, isOpen, sound, members, is, same⟩ := each i
  obtain ⟨e, only, same⟩ := is.sameMembers sound isOpen same
  rw [List.mem_singleton.1 only] at same
  exact there ▸ same

/-! ## From the opening on -/

/-- Every shard of a set that was opened is whole. -/
theorem whole_of_open {machine : Machine} {c : Config} {before start : Host}
    {s : ShardedSet w c.prefixBits}
    (opened : ShardedSet.open w machine c before = (.ok s, start)) (disk : c.kind = .disk) :
    Each (fun i d t => d.Whole (c.part i) t ∧ d.members = []) s start.files := by
  intro i
  have fresh := (fresh_of_open opened).2.1 i
  cases shard : s.shards.get i with
  | bloom f =>
    rw [shard] at fresh
    have bloom : c.kind = .bloom := fresh
    rw [disk] at bloom
    contradiction
  | disk d =>
    rw [shard] at fresh
    have fresh := fresh.2
    exact ⟨d, rfl, ⟨fresh.shares, .inr ⟨fresh.isOpen, fresh.sound, fresh.faithful⟩⟩,
      fresh.members⟩

/-- There is no copy of a checkpoint of a shard. -/
def Bare (c : Config) (p : Nat) (t : Files) : Prop :=
  ∀ i : Fin (Nat.pow 2 p), ∀ f ∈ [SetFile.copy, .pendingCopy],
    (t.find ((c.part i).paths.path f)).isOk = false

/-- A set that was opened where there are no copies is backed by no set. -/
theorem backed_of_open {machine : Machine} {c : Config} {before start : Host}
    {s : ShardedSet w c.prefixBits}
    (opened : ShardedSet.open w machine c before = (.ok s, start)) (disk : c.kind = .disk)
    (bare : Bare c c.prefixBits start.files) : s.Backed c [] start.files := by
  refine fun i => (whole_of_open opened disk i).imp fun d ⟨here, whole, nothing⟩ => ⟨here, whole,
    .of_absent (bare i .copy (by simp)), .of_absent (bare i .pendingCopy (by simp)), ?_⟩
  intro _ fp member
  rw [nothing] at member
  contradiction

end ShardedSet

/-- Whatever fails, a set that goes back to checkpoints has in each shard what that shard had when
some checkpoint of the run was begun, which need not be the same for all shards. If a checkpoint was
begun without a failure and put in place without a failure, before another one was begun, it has in
all shards what they had when that was begun, until another one is put in place. -/
theorem snapshot_of_lives {machine : Machine} {c : Config} {before start : Host}
    {s : ShardedSet w c.prefixBits}
    (opened : ShardedSet.open w machine c before = (.ok s, start)) (disk : c.kind = .disk)
    {begun : List (ShardedSet w c.prefixBits)} {u : ShardedSet w c.prefixBits} {g : Host}
    (lives : s.Lives c (fun _ => True) start begun u g) :
    (ShardedSet.Bare c c.prefixBits start.files →
      u.Matched c g.files → (u.recover g).answer = .ok () →
        ∀ i, ∃ e ∈ begun, ((u.recover g).set.shards.get i).SameMembers (e.shards.get i)) ∧
    ((u.beginCheckpoint g).answer = .ok () → ∀ begun₁ u₁ g₁,
      (u.beginCheckpoint g).set.Lives c (fun k => k ≠ .beginCheckpoint ∧ k ≠ .commitCheckpoint)
        (u.beginCheckpoint g).host begun₁ u₁ g₁ →
      (u₁.commitCheckpoint g₁).answer = .ok () → ∀ begun₂ u₂ g₂,
      (u₁.commitCheckpoint g₁).set.Lives c (fun k => k ≠ .commitCheckpoint)
        (u₁.commitCheckpoint g₁).host begun₂ u₂ g₂ →
      (u₂.recover g₂).answer = .ok () →
        ∀ i, ((u₂.recover g₂).set.shards.get i).SameMembers (u.shards.get i)) := by
  have valid := (ShardedSet.fresh_of_open opened).1
  constructor
  · intro bare matched recovered
    have backed := lives.backed valid (ShardedSet.backed_of_open opened disk bare)
    exact backed.sameMembers_recover valid matched recovered
  · intro answer begun₁ u₁ g₁ first committed begun₂ u₂ g₂ second recovered i
    have whole := lives.whole valid
      ((ShardedSet.whole_of_open opened disk).mono fun _ _ holds => holds.1)
    have aside := ShardedSet.saves_beginCheckpoint valid whole answer
    have still := first.saves valid (fun k allowed =>
      Call.pending_not_mem_altered allowed.1 allowed.2) aside
    have placed := ShardedSet.saves_commitCheckpoint valid still committed
    have kept := second.saves valid (fun k allowed => Call.committed_not_mem_altered allowed) placed
    exact kept.sameMembers_recover valid recovered i

/-! ## Snapshots to look at -/

/-- A run goes on with a block of fingerprints that are put. -/
theorem ShardedSet.Lives.putBlock {c : Config} {s u : ShardedSet w p} {h g : Host}
    {begun : List (ShardedSet w p)} (lives : s.Lives c (fun _ => True) h begun u g)
    (fps : List (Fingerprint w)) :
    s.Lives c (fun _ => True) h begun (u.putBlock fps g).set (u.putBlock fps g).host := by
  have put := lives.call (.putBlock fps) trivial nofun
  rwa [show begun ++ (Call.putBlock fps).begins u = begun from List.append_nil begun] at put

/-- A run goes on with a checkpoint that is begun and put in place. -/
theorem ShardedSet.Lives.checkpoint {c : Config} {s u : ShardedSet w p} {h g : Host}
    {begun : List (ShardedSet w p)} (lives : s.Lives c (fun _ => True) h begun u g) :
    let aside := u.beginCheckpoint g
    let placed := aside.set.commitCheckpoint aside.host
    s.Lives c (fun _ => True) h (begun ++ [u]) placed.set placed.host := by
  intro aside placed
  have committed := (lives.call .beginCheckpoint trivial nofun).call .commitCheckpoint trivial nofun
  rwa [show begun ++ Call.beginCheckpoint.begins u ++ Call.commitCheckpoint.begins _ =
    begun ++ [u] from List.append_nil _] at committed

/-- A fingerprint of the first of two shards and one of the second. -/
def mixedBlock : List (Fingerprint .bits64) := [.ofNat _ 1, .ofNat _ 0x8000000000000001]

/-- Two shards with a checkpoint of nothing in place. -/
def mixedPlaced : Outcome (ShardedSet .bits64 shardedConfig.prefixBits) Unit :=
  let begun := shardedSet.beginCheckpoint shardedHost
  begun.set.commitCheckpoint begun.host

/-- The two shards with a fingerprint each. -/
def mixedPut : Outcome (ShardedSet .bits64 shardedConfig.prefixBits) (List Bool) :=
  mixedPlaced.set.putBlock mixedBlock mixedPlaced.host

/-- The files of the two shards, with a directory where the second one writes its copy. -/
def mixedFiles : Except FileFault Files :=
  mixedPut.host.files.makeDirectory (shardedConfig.part 1).paths.pendingCopy

/-- The surroundings of the two shards, with that directory. -/
def mixedHost : Host := mixedPut.host.withFiles (mixedFiles.toOption.getD mixedPut.host.files)

/-- The two shards after another checkpoint, of which the second one could write nothing. -/
def mixedStopped : Outcome (ShardedSet .bits64 shardedConfig.prefixBits) Unit :=
  let begun := mixedPut.set.beginCheckpoint mixedHost
  begun.set.commitCheckpoint begun.host

/-- The two shards gone back to what is in place. -/
def mixedBack : Outcome (ShardedSet .bits64 shardedConfig.prefixBits) Unit :=
  mixedStopped.set.recover mixedStopped.host

/-- The directory can be made, the two shards do not fail to go back, and then the first one has
its fingerprint, unlike before it was put, and the second one has not, unlike before it failed. -/
theorem mixed_answers :
    mixedFiles.isOk ∧ mixedBack.answer = .ok () ∧
      ((mixedBack.set.shards.get ⟨0, by decide⟩).contains (.ofNat _ 1) .empty).answer =
        .ok true ∧
      ((shardedSet.shards.get ⟨0, by decide⟩).contains (.ofNat _ 1) .empty).answer =
        .ok false ∧
      ((mixedBack.set.shards.get ⟨1, by decide⟩).contains (.ofNat _ 0x8000000000000001)
        .empty).answer = .ok false ∧
      ((mixedPut.set.shards.get ⟨1, by decide⟩).contains (.ofNat _ 0x8000000000000001)
        .empty).answer = .ok true := by
  decide +kernel

/-- Two shards that go back to checkpoints without a failure are then not what both of them were at
any time when a checkpoint was begun: the second one could not write its part of the later
checkpoint, and the first one put its part in place before the second one failed to. -/
theorem mixed_snapshot :
    ∃ (begun : List (ShardedSet .bits64 shardedConfig.prefixBits))
      (u : ShardedSet .bits64 shardedConfig.prefixBits) (g : Host),
      ShardedSet.open .bits64 sampleMachine shardedConfig .empty = (.ok shardedSet, shardedHost) ∧
        shardedSet.Lives shardedConfig (fun _ => True) shardedHost begun u g ∧
          (u.recover g).answer = .ok () ∧ ¬ ∃ e ∈ begun, ∀ i,
            ((u.recover g).set.shards.get i).SameMembers (e.shards.get i) := by
  obtain ⟨isOk, recovered, first, before, second, after⟩ := mixed_answers
  have valid := (ShardedSet.fresh_of_open open_sharded).1
  obtain ⟨files, made⟩ := Except.exists_eq_ok isOk
  have placed : shardedSet.Lives shardedConfig (fun _ => True) shardedHost [shardedSet]
      mixedPlaced.set mixedPlaced.host := ShardedSet.Lives.start.checkpoint
  have put : shardedSet.Lives shardedConfig (fun _ => True) shardedHost [shardedSet]
      mixedPut.set mixedPut.host := placed.putBlock mixedBlock
  have changed : shardedSet.Lives shardedConfig (fun _ => True) shardedHost [shardedSet]
      mixedPut.set mixedHost := by
    refine put.outside _ fun i f contents found => ?_
    rw [made] at found
    exact Files.find_of_makeDirectory (Config.leads (Config.validate_part valid 1) .pendingCopy)
      (Config.leads (Config.validate_part valid i) f) made found
  have stopped : shardedSet.Lives shardedConfig (fun _ => True) shardedHost
      [shardedSet, mixedPut.set] mixedStopped.set mixedStopped.host := changed.checkpoint
  refine ⟨_, _, _, open_sharded, stopped, recovered, fun one => ?_⟩
  obtain ⟨e, among, same⟩ := one
  rcases List.mem_pair.1 among with is | is
  · rw [is] at same
    have differ := (same ⟨0, by decide⟩).answers (.ofNat _ 1) .empty .empty
    exact absurd (first.symm.trans (differ.trans before)) (by decide)
  · rw [is] at same
    have differ := (same ⟨1, by decide⟩).answers (.ofNat _ 0x8000000000000001) .empty .empty
    exact absurd (second.symm.trans (differ.trans after)) (by decide)

/-- Two shards that got a block. -/
def savedPut : Outcome (ShardedSet .bits64 shardedConfig.prefixBits) (List Bool) :=
  shardedSet.putBlock mixedBlock shardedHost

/-- The two shards with a checkpoint of the block aside. -/
def savedBegun : Outcome (ShardedSet .bits64 shardedConfig.prefixBits) Unit :=
  savedPut.set.beginCheckpoint savedPut.host

/-- The two shards with the checkpoint in place. -/
def savedPlaced : Outcome (ShardedSet .bits64 shardedConfig.prefixBits) Unit :=
  savedBegun.set.commitCheckpoint savedBegun.host

/-- The two shards gone back to the checkpoint. -/
def savedBack : Outcome (ShardedSet .bits64 shardedConfig.prefixBits) Unit :=
  savedPlaced.set.recover savedPlaced.host

/-- The two shards are opened where there are no copies, and nothing fails. -/
theorem saved_answers :
    (∀ i : Fin (Nat.pow 2 shardedConfig.prefixBits), ∀ f ∈ [SetFile.copy, .pendingCopy],
      (shardedHost.files.find ((shardedConfig.part i).paths.path f)).isOk = false) ∧
        savedBegun.answer = .ok () ∧ savedPlaced.answer = .ok () ∧ savedBack.answer = .ok () := by
  decide +kernel

/-- Two shards that got a block, wrote a checkpoint and put it in place go back to what they were
with the block. -/
theorem snapshot_of_lives_block :
    (∀ i, ∃ e ∈ [savedPut.set], (savedBack.set.shards.get i).SameMembers (e.shards.get i)) ∧
      ∀ i, (savedBack.set.shards.get i).SameMembers (savedPut.set.shards.get i) := by
  obtain ⟨bare, begun, committed, recovered⟩ := saved_answers
  have valid := (ShardedSet.fresh_of_open open_sharded).1
  have lives : shardedSet.Lives shardedConfig (fun _ => True) shardedHost [] savedPut.set
      savedPut.host := ShardedSet.Lives.start.putBlock mixedBlock
  have placed : shardedSet.Lives shardedConfig (fun _ => True) shardedHost [savedPut.set]
      savedPlaced.set savedPlaced.host := lives.checkpoint
  have whole := lives.whole valid
    ((ShardedSet.whole_of_open open_sharded rfl).mono fun _ _ holds => holds.1)
  have saves : ShardedSet.Saves savedPut.set shardedConfig .copy .header savedPlaced.set
      savedPlaced.host.files := ShardedSet.saves_commitCheckpoint valid
    (ShardedSet.saves_beginCheckpoint valid whole begun) committed
  have one := (snapshot_of_lives open_sharded rfl placed).1 bare saves.matched recovered
  have whole := (snapshot_of_lives open_sharded rfl lives).2 begun [] savedBegun.set
    savedBegun.host .start committed [] savedPlaced.set savedPlaced.host .start recovered
  exact ⟨one, whole⟩

end SeenStates
