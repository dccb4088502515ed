import Mathlib.Algebra.BigOperators.Fin
import SeenStates.Proofs.Blocks
import SeenStates.Proofs.ExactSets

/-!
# Exactness of sharded sets

Each shard of a disk-backed sharded set tracks its own part of the set as it is meant
(`ExactSet.part`), and together they are that set: as long as no call fails, a sharded set answers
as one without shards would, and it takes a block as it takes its fingerprints from left to right
(`exact_of_unfailing`).
-/
namespace SeenStates

variable {w : Width} {p : Nat}

/-! ## Parts of a set -/

namespace ExactSet

/-- The fingerprints of one shard. -/
def part (p : Nat) (exact : ExactSet w) (i : Fin (Nat.pow 2 p)) : ExactSet w where
  members := exact.members.filter fun fp => fp.shard p = i
  pending := exact.pending.map (Finset.filter fun fp => fp.shard p = i)
  committed := exact.committed.map (Finset.filter fun fp => fp.shard p = i)

/-- A fingerprint of the shard is in the part if it is in the set. -/
theorem mem_members_part {exact : ExactSet w} {i : Fin (Nat.pow 2 p)} {fp : Fingerprint w} :
    fp ∈ (exact.part p i).members ↔ fp ∈ exact.members ∧ fp.shard p = i :=
  Finset.mem_filter

/-- A new fingerprint is new in the part of its shard and in no other one. -/
theorem part_insert (exact : ExactSet w) (fp : Fingerprint w) (i : Fin (Nat.pow 2 p)) :
    ({ exact with members := insert fp exact.members } : ExactSet w).part p i =
      if fp.shard p = i then
        { exact.part p i with members := insert fp (exact.part p i).members }
      else exact.part p i := by
  unfold part
  rw [Finset.filter_insert]
  split <;> rfl

/-- A part gets those of some fingerprints that are of its shard. -/
theorem part_putAll (exact : ExactSet w) (fps : List (Fingerprint w)) (i : Fin (Nat.pow 2 p)) :
    ({ exact with members := (putAll fps exact.members).2 } : ExactSet w).part p i =
      { exact.part p i with
        members := (putAll (fps.filter fun fp => fp.shard p = i) (exact.part p i).members).2 } := by
  have members : ((putAll fps exact.members).2.filter fun fp => fp.shard p = i) =
      (putAll (fps.filter fun fp => fp.shard p = i) (exact.part p i).members).2 := by
    ext fp
    rw [Finset.mem_filter, mem_putAll, mem_putAll, mem_members_part, List.mem_filter]
    simp only [decide_eq_true_eq, or_and_right]
  exact congrArg (fun members => (⟨members, _, _⟩ : ExactSet w)) members

/-- What a call makes of a set, the part of the call for a shard makes of the part of the set. -/
theorem perform_part {exact after : ExactSet w} {k : Call w} {answers : List Bool}
    (performed : exact.perform k = some (answers, after)) {part : Fin (Nat.pow 2 p) × Call w}
    (among : part ∈ k.parts p) :
    ∃ answers', (exact.part p part.1).perform part.2 = some (answers', after.part p part.1) := by
  cases k with
  | put fp =>
    obtain rfl := List.mem_singleton.1 among
    obtain rfl := (Prod.mk.inj (Option.some.inj performed)).2
    rw [part_insert, if_pos rfl]
    exact ⟨_, rfl⟩
  | recoverFingerprint fp =>
    obtain rfl := List.mem_singleton.1 among
    simp only [perform] at performed
    split at performed
    · contradiction
    · next fresh =>
      obtain rfl := (Prod.mk.inj (Option.some.inj performed)).2
      have fresh' : fp ∉ (exact.part p (fp.shard p)).members := fun member =>
        fresh (mem_members_part.1 member).1
      rw [part_insert, if_pos rfl]
      exact ⟨[], if_neg fresh'⟩
  | contains fp =>
    obtain rfl := List.mem_singleton.1 among
    obtain rfl := (Prod.mk.inj (Option.some.inj performed)).2
    exact ⟨_, rfl⟩
  | putBlock fps =>
    obtain ⟨i, _, rfl⟩ := List.mem_map.1 among
    obtain rfl := (Prod.mk.inj (Option.some.inj performed)).2
    rw [part_putAll]
    exact ⟨_, rfl⟩
  | commitCheckpoint =>
    obtain ⟨i, _, rfl⟩ := List.mem_map.1 among
    obtain ⟨fps, pending, placed⟩ := Option.map_eq_some_iff.1 performed
    obtain rfl := (Prod.mk.inj placed).2
    refine ⟨[], ?_⟩
    simp only [perform, ExactSet.part, pending, Option.map_some, Option.map_none]
  | recover =>
    obtain ⟨i, _, rfl⟩ := List.mem_map.1 among
    obtain ⟨fps, committed, back⟩ := Option.map_eq_some_iff.1 performed
    obtain rfl := (Prod.mk.inj back).2
    refine ⟨[], ?_⟩
    simp only [perform, ExactSet.part, committed, Option.map_some]
  | close cleanup => contradiction
  | _ =>
    obtain ⟨i, _, rfl⟩ := List.mem_map.1 among
    obtain rfl := (Prod.mk.inj (Option.some.inj performed)).2
    exact ⟨_, rfl⟩

/-- A call changes nothing of the part of a shard that it does not call. -/
theorem part_of_not_mem {exact after : ExactSet w} {k : Call w} {answers : List Bool}
    (performed : exact.perform k = some (answers, after)) {i : Fin (Nat.pow 2 p)}
    (absent : i ∉ (k.parts p).map Prod.fst) : after.part p i = exact.part p i := by
  have all (call : Fin (Nat.pow 2 p) → Call w) :
      i ∈ ((List.finRange (Nat.pow 2 p)).map fun i => (i, call i)).map Prod.fst := by
    simp
  cases k with
  | put fp =>
    obtain rfl := (Prod.mk.inj (Option.some.inj performed)).2
    rw [part_insert, if_neg fun same => absent (by simp [Call.parts, same])]
  | recoverFingerprint fp =>
    simp only [perform] at performed
    split at performed
    · contradiction
    · obtain rfl := (Prod.mk.inj (Option.some.inj performed)).2
      rw [part_insert, if_neg fun same => absent (by simp [Call.parts, same])]
  | contains fp =>
    obtain rfl := (Prod.mk.inj (Option.some.inj performed)).2
    rfl
  | close cleanup => contradiction
  | _ => exact absurd (all _) absent

/-- An empty set with the checkpoints that are found among files: each shard of a configuration has
its part of one, or some shard lacks it. -/
structure Found (first : ExactSet w) (c : Config) (t : Files) : Prop where
  /-- It is empty. -/
  members : first.members = ∅
  /-- The checkpoint in progress is stored. -/
  pending : ∀ (i : Fin (Nat.pow 2 c.prefixBits)) fps,
    (first.part c.prefixBits i).pending = some fps →
      (c.part i).Stores .pendingCopy .pendingHeader fps t
  /-- The committed checkpoint is stored. -/
  committed : ∀ (i : Fin (Nat.pow 2 c.prefixBits)) fps,
    (first.part c.prefixBits i).committed = some fps → (c.part i).Stores .copy .header fps t
  /-- If none is in progress one cannot be put in place. -/
  noPending : ∃ i : Fin (Nat.pow 2 c.prefixBits), first.pending = none →
    (c.part i).Lacks .pendingCopy .pendingHeader t
  /-- If none is committed the set cannot go back to one. -/
  noCommitted : ∃ i : Fin (Nat.pow 2 c.prefixBits), first.committed = none →
    (c.part i).Lacks .copy .header t

/-- The empty set without checkpoints is found where the first shard has no copy of one. -/
theorem found_empty {c : Config} {t : Files}
    (pending : (t.find (c.part 0).paths.pendingCopy).isOk = false)
    (committed : (t.find (c.part 0).paths.copy).isOk = false) :
    (empty : ExactSet w).Found c t := by
  have without {fps : Finset (Fingerprint w)} (held : none = some fps) : False :=
    Option.some_ne_none fps held.symm
  have some : 0 < Nat.pow 2 c.prefixBits := Nat.two_pow_pos _
  exact ⟨rfl, fun _ _ held => (without held).elim, fun _ _ held => (without held).elim,
    ⟨⟨0, some⟩, fun _ => .inl (Files.find_ne_ok pending)⟩,
    ⟨0, some⟩, fun _ => .inl (Files.find_ne_ok committed)⟩

end ExactSet

/-! ## Shards that track their parts -/

namespace DiskSet

/-- What other shards do to their files leaves a set tracking another one. -/
theorem Tracks.of_keeps_part {c : Config} (valid : c.validate = .ok ()) {j k : Nat}
    (differ : j ≠ k) {exact : ExactSet w} {s : DiskSet w} {t u : Files} {fs : List SetFile}
    (tracks : s.Tracks exact (c.part j) t) (keeps : (c.part k).Keeps fs t u) :
    s.Tracks exact (c.part j) u := by
  have valid' := Config.validate_part valid j
  have other (f : SetFile) := Config.fileName_part_not_mem (c := c) differ f fs
  have faithful : s.Faithful u := tracks.faithful.of_find fun e found => by
    rw [tracks.shares.paths] at found ⊢
    exact Config.find_of_alters_part valid differ keeps.alters .run found
  exact ⟨tracks.shares, tracks.isOpen, tracks.sound, faithful, tracks.alike.of_keeps valid' keeps,
    tracks.members,
    fun fps is => (tracks.pending fps is).of_keeps valid' keeps (other _) (other _),
    fun fps is => (tracks.committed fps is).of_keeps valid' keeps (other _) (other _)⟩

/-- A fresh set tracks an empty one whose checkpoints are stored. -/
theorem Fresh.tracks {c : Config} {s : DiskSet w} {t : Files} (fresh : s.Fresh c t)
    {exact : ExactSet w} (members : exact.members = ∅)
    (pending : ∀ fps, exact.pending = some fps → c.Stores .pendingCopy .pendingHeader fps t)
    (committed : ∀ fps, exact.committed = some fps → c.Stores .copy .header fps t) :
    s.Tracks exact c t := by
  obtain ⟨l, contents, located⟩ := fresh.located
  obtain ⟨here, entered⟩ := fresh.canDraft.enter_directory
  have takes := (Files.locate_eq_file_iff.1 located).1
  refine ⟨fresh.shares, fresh.isOpen, fresh.sound, fresh.faithful,
    ⟨rfl, rfl, ⟨here, entered, entered⟩, l, takes, takes⟩, fun fp => ?_, pending, committed⟩
  rw [fresh.members, members]
  simp

end DiskSet

namespace ShardedSet

/-- Every shard tracks its part of a set as it is meant. -/
def Tracks (exact : ExactSet w) (c : Config) (s : ShardedSet w p) (t : Files) : Prop :=
  Each (fun i d t => d.Tracks (exact.part p i) (c.part i) t) s t

variable {c : Config} {exact after : ExactSet w} {s : ShardedSet w p} {h : Host}

/-- Every shard tracks its part, and as long as the set as it is meant has no checkpoint in progress
a given shard lacks one, and another given shard the committed one as long as it has none. -/
def Follows (exact : ExactSet w) (c : Config) (i j : Fin (Nat.pow 2 p)) (s : ShardedSet w p)
    (t : Files) : Prop :=
  Each (fun k d t => d.Tracks (exact.part p k) (c.part k) t ∧
    (k = i → (exact.part p k).pending = none →
      (c.part k).Lacks .pendingCopy .pendingHeader t) ∧
    (k = j → (exact.part p k).committed = none → (c.part k).Lacks .copy .header t)) s t

variable {i j : Fin (Nat.pow 2 p)}

/-- A set that follows another tracks it. -/
theorem Follows.tracks {t : Files} (follows : s.Follows exact c i j t) : s.Tracks exact c t :=
  follows.mono fun _ _ holds => holds.1

/-- A call that neither set refuses leaves the one following the other. -/
theorem Follows.perform (follows : s.Follows exact c i j h.files) (valid : c.validate = .ok ())
    {k : Call w} (isOk : (k.onShards s h).answer.isOk) {answers : List Bool}
    (performed : exact.perform k = some (answers, after)) :
    (k.onShards s h).set.Follows after c i j (k.onShards s h).host.files := by
  have frame {l m : Fin (Nat.pow 2 p)} (differ : l ≠ m) {f g : SetFile}
      {t u : Files} (keeps : (c.part m).Keeps setFiles t u) (lacks : (c.part l).Lacks f g t) :
      (c.part l).Lacks f g u := by
    have apart : l.val ≠ m.val := fun same => differ (Fin.ext same)
    exact lacks.of_alters (Config.validate_part valid _) keeps.alters
      (Config.fileName_part_not_mem apart f _) (Config.fileName_part_not_mem apart g _)
  refine Each.run (fun i t u => (c.part i).Keeps setFiles t u) follows
    (fun part among d h holds isOk => ?_) (fun k absent d t holds => ?_)
    (fun k l differ d t u keeps => ⟨fun holds => ?_, fun holds => ?_⟩) isOk
  · obtain ⟨tracks, pending, committed⟩ := holds
    have valid' := Config.validate_part valid part.1
    obtain ⟨_, performed'⟩ := ExactSet.perform_part performed among
    obtain ⟨tracks', keeps⟩ := tracks.perform valid' isOk performed'
    exact ⟨⟨tracks', fun here => tracks.lacks_pending valid' isOk performed' (pending here),
      fun here => tracks.lacks_committed valid' performed' (committed here)⟩, keeps⟩
  · rw [ExactSet.part_of_not_mem performed absent]
    exact holds
  · exact ⟨holds.1.of_keeps_part valid (fun same => differ (Fin.ext same)) keeps,
      fun here none => frame differ keeps (holds.2.1 here none),
      fun here none => frame differ keeps (holds.2.2 here none)⟩
  · exact ⟨holds.1.of_keeps_part valid (fun same => differ (Fin.ext same)) keeps,
      fun here none => frame differ keeps (holds.2.1 here none),
      fun here none => frame differ keeps (holds.2.2 here none)⟩

/-- A set that was opened follows the empty one with the checkpoints that are found then. -/
theorem follows_of_open {machine : Machine} {c : Config} {before : Host}
    {s : ShardedSet w c.prefixBits} {first : ExactSet w}
    (opened : ShardedSet.open w machine c before = (.ok s, h)) (disk : c.kind = .disk)
    (found : first.Found c h.files) : ∃ i j, s.Follows first c i j h.files := by
  obtain ⟨i, noPending⟩ := found.noPending
  obtain ⟨j, noCommitted⟩ := found.noCommitted
  refine ⟨i, j, fun k => ?_⟩
  have fresh := (fresh_of_open opened).2.1 k
  cases shard : s.shards.get k with
  | bloom f =>
    rw [shard] at fresh
    have bloom : c.kind = .bloom := fresh
    rw [disk] at bloom
    contradiction
  | disk d =>
    rw [shard] at fresh
    refine ⟨d, rfl, fresh.2.tracks ?_ (found.pending k) (found.committed k), ?_, ?_⟩
    · rw [ExactSet.part, found.members, Finset.filter_empty]
    · rintro rfl none
      exact noPending (Option.map_eq_none_iff.1 none)
    · rintro rfl none
      exact noCommitted (Option.map_eq_none_iff.1 none)

/-- Where the set as it is meant has no checkpoint in progress one shard lacks one. -/
theorem Follows.noPending {t : Files} (follows : s.Follows exact c i j t) :
    ∃ i : Fin (Nat.pow 2 p), exact.pending = none →
      (c.part i).Lacks .pendingCopy .pendingHeader t := by
  obtain ⟨_, _, _, lacks, _⟩ := follows i
  exact ⟨i, fun none => lacks rfl (Option.map_eq_none_iff.2 none)⟩

/-- Where the set as it is meant has no committed checkpoint one shard lacks one. -/
theorem Follows.noCommitted {t : Files} (follows : s.Follows exact c i j t) :
    ∃ i : Fin (Nat.pow 2 p), exact.committed = none → (c.part i).Lacks .copy .header t := by
  obtain ⟨_, _, _, _, lacks⟩ := follows j
  exact ⟨j, fun none => lacks rfl (Option.map_eq_none_iff.2 none)⟩

/-! ## Calls that succeed -/

/-- A call of all shards fails that needs a checkpoint which one of them lacks. -/
theorem not_isOk_of_lacks (tracks : s.Tracks exact c h.files) (valid : c.validate = .ok ())
    {k : Call w} {i : Fin (Nat.pow 2 p)} {f g : SetFile} (lacks : (c.part i).Lacks f g h.files)
    (called : ∀ i, (i, k) ∈ k.parts p) (same : ∀ part ∈ k.parts p, part.2 = k)
    (fails : ∀ {d : DiskSet w} {h : Host}, d.Faithful h.files → d.closed = false →
      (c.part i).SharesFiles d.config → (c.part i).Lacks f g h.files →
        ¬ (k.perform d h).answer.isOk) :
    ¬ (k.onShards s h).answer.isOk := by
  have start : Each (fun j d t => (c.part j).SharesFiles d.config ∧ d.closed = false ∧
      d.Faithful t ∧ (j = i → (c.part i).Lacks f g t)) s h.files :=
    tracks.mono fun j d holds => ⟨holds.shares, holds.isOpen, holds.faithful, fun _ => lacks⟩
  refine start.not_isOk (fun j t u => (c.part j).Alters setFiles t u)
    (List.mem_map.2 ⟨_, called i, rfl⟩) (fun part among d h holds => ?_)
    (fun j l differ d t u holds alters => ?_) fun part among here d h holds => ?_
  · obtain ⟨shares, isOpen, faithful, _⟩ := holds
    exact (shares.alters_iff.1 (faithful.alters_perform isOpen part.2)).mono
      (List.map_subset _ (subset_setFiles _))
  · obtain ⟨shares, isOpen, faithful, lacks⟩ := holds
    have apart : j.val ≠ l.val := fun same => differ (Fin.ext same)
    refine ⟨shares, isOpen, faithful.of_find fun e found => ?_, fun here => ?_⟩
    · rw [shares.paths] at found ⊢
      exact Config.find_of_alters_part valid apart alters .run found
    · subst here
      exact (lacks rfl).of_alters (Config.validate_part valid _) alters
        (Config.fileName_part_not_mem apart f _) (Config.fileName_part_not_mem apart g _)
  · obtain ⟨shares, isOpen, faithful, lacks⟩ := holds
    rw [same part among]
    rw [here] at shares
    exact fails faithful isOpen shares (lacks here)

/-- A fingerprint that is put into a set that tracks another is answered for as in that. -/
theorem Tracks.answer_put (tracks : s.Tracks exact c h.files) (fp : Fingerprint w)
    (isOk : (s.put fp h).answer.isOk) :
    (s.put fp h).answer = .ok (decide (fp ∈ exact.members)) := by
  obtain ⟨d, here, holds⟩ := tracks (fp.shard p)
  have same : (s.put fp h).answer = (d.put fp h).answer := by
    rw [ShardedSet.put, onShard_eq, here]
    rfl
  rw [same] at isOk ⊢
  rw [holds.sound.answer_put holds.isOpen isOk]
  simp only [holds.members, ExactSet.mem_members_part, and_true]

/-- A fingerprint that a set that tracks another is asked for is answered for as in that. -/
theorem Tracks.answer_contains (tracks : s.Tracks exact c h.files) (fp : Fingerprint w) :
    (s.contains fp h).answer = .ok (decide (fp ∈ exact.members)) := by
  obtain ⟨d, here, holds⟩ := tracks (fp.shard p)
  have same : (s.contains fp h).answer = (d.contains fp h).answer := by
    rw [ShardedSet.contains, onShard_eq, here]
    rfl
  rw [same, holds.sound.contains holds.isOpen]
  simp only [Outcome.ok, holds.members, ExactSet.mem_members_part, and_true]

/-- A call that succeeds is not refused by the set that is followed. -/
theorem Follows.accepts (follows : s.Follows exact c i j h.files) (valid : c.validate = .ok ())
    {k : Call w} (goesOn : ∀ cleanup, k ≠ .close cleanup)
    (isOk : (k.onShards s h).answer.isOk) :
    ∃ answers after, exact.perform k = some (answers, after) := by
  have tracks := follows.tracks
  cases k with
  | recoverFingerprint fp =>
    have isOk := DiskSet.isOk_of_isOk_map isOk
    have isNew : fp ∉ exact.members := by
      intro member
      have seen := tracks.answer_put fp
      rw [recoverFingerprint, onShard_eq] at isOk
      rw [ShardedSet.put, onShard_eq] at seen
      simp only [Outcome.onSet, Shard.recoverFingerprint, Outcome.asNew,
        Outcome.andThen] at isOk seen
      split at isOk
      · next found answer =>
        rw [answer] at seen
        obtain rfl := Except.ok.inj (seen rfl)
        simp only [member, decide_true, if_true] at isOk
        contradiction
      · contradiction
    exact ⟨[], _, if_neg isNew⟩
  | commitCheckpoint =>
    cases started : exact.pending with
    | some fps => exact ⟨[], _, by rw [ExactSet.perform, started]; rfl⟩
    | none =>
      obtain ⟨_, lacks⟩ := follows.noPending
      refine absurd isOk (not_isOk_of_lacks tracks valid (lacks started)
        (fun i => List.mem_map_of_mem (List.mem_finRange i)) (fun part among => ?_)
        fun faithful isOpen shares lacks isOk => ?_)
      · obtain ⟨_, _, rfl⟩ := List.mem_map.1 among
        rfl
      · exact DiskSet.commitCheckpoint_of_lacks faithful.valid isOpen shares lacks
          (DiskSet.eq_ok_of_isOk_map isOk)
  | recover =>
    cases placed : exact.committed with
    | some fps => exact ⟨[], _, by rw [ExactSet.perform, placed]; rfl⟩
    | none =>
      obtain ⟨_, lacks⟩ := follows.noCommitted
      refine absurd isOk (not_isOk_of_lacks tracks valid (lacks placed)
        (fun i => List.mem_map_of_mem (List.mem_finRange i)) (fun part among => ?_)
        fun faithful isOpen shares lacks isOk => ?_)
      · obtain ⟨_, _, rfl⟩ := List.mem_map.1 among
        rfl
      · exact faithful.recover_of_lacks isOpen shares lacks (DiskSet.eq_ok_of_isOk_map isOk)
  | close cleanup => exact absurd rfl (goesOn cleanup)
  | _ => exact ⟨_, _, rfl⟩

/-- Shards that track their parts are ready for blocks. -/
theorem Tracks.ready {t : Files} (tracks : s.Tracks exact c t) (i : Fin (Nat.pow 2 p)) :
    (s.shards.get i).Ready (c.part i) t := by
  obtain ⟨d, here, holds⟩ := tracks i
  rw [here]
  exact ⟨holds.shares, holds.isOpen, holds.faithful, holds.alike⟩

/-- Fingerprints that are put one after the other are answered for as in the set that is
followed. -/
theorem Follows.answer_puts (follows : s.Follows exact c i j h.files) (valid : c.validate = .ok ())
    (fps : List (Fingerprint w)) (isOk : (Outcome.each ShardedSet.put fps s h).answer.isOk) :
    (Outcome.each ShardedSet.put fps s h).answer =
      .ok (ExactSet.putAll fps exact.members).1 := by
  induction fps generalizing exact s h with
  | nil => rfl
  | cons fp rest ih =>
    have first := follows.tracks.answer_put fp
    have performed : exact.perform (.put fp) = some ([decide (fp ∈ exact.members)],
        { exact with members := insert fp exact.members }) := rfl
    simp only [Outcome.each, Outcome.andThen] at isOk ⊢
    split at isOk
    · next seen answer =>
      rw [answer] at first
      obtain rfl := Except.ok.inj (first rfl)
      have put : ((Call.put fp).onShards s h).answer.isOk := by
        simp only [Call.onShards, Outcome.map, answer]
        rfl
      have rest := ih (follows.perform valid put performed) (DiskSet.isOk_of_isOk_map isOk)
      simp only [Outcome.map]
      exact congrArg (Except.map _) rest
    · contradiction

/-- Fingerprints that are asked for one after the other are answered for as in the set that is
followed. -/
theorem Follows.answer_queries (follows : s.Follows exact c i j h.files)
    (valid : c.validate = .ok ()) (fps : List (Fingerprint w)) :
    (Outcome.each ShardedSet.contains fps s h).answer =
      .ok (fps.map fun fp => decide (fp ∈ exact.members)) := by
  induction fps generalizing s h with
  | nil => rfl
  | cons fp rest ih =>
    have first := follows.tracks.answer_contains fp
    have asked : ((Call.contains fp).onShards s h).answer.isOk := by
      simp only [Call.onShards, Outcome.map, first]
      rfl
    have rest := ih (follows.perform valid (k := .contains fp) asked rfl)
    simp only [Outcome.each, Outcome.andThen, first, Outcome.map]
    exact congrArg (Except.map _) rest

/-- A call that succeeds is answered as by the set that is followed. -/
theorem Follows.answer (follows : s.Follows exact c i j h.files) (valid : c.validate = .ok ())
    {k : Call w} (isOk : (k.onShards s h).answer.isOk) {answers : List Bool}
    (performed : exact.perform k = some (answers, after)) :
    (k.onShards s h).answer = .ok answers := by
  cases k with
  | put fp =>
    obtain rfl := (Prod.mk.inj (Option.some.inj performed)).1
    have answer := follows.tracks.answer_put fp (DiskSet.isOk_of_isOk_map isOk)
    simp only [Call.onShards, Outcome.map, answer, Except.map]
  | contains fp =>
    obtain rfl := (Prod.mk.inj (Option.some.inj performed)).1
    simp only [Call.onShards, Outcome.map, follows.tracks.answer_contains fp, Except.map]
  | putBlock fps =>
    obtain rfl := (Prod.mk.inj (Option.some.inj performed)).1
    have inTurn := block_inTurn isLocal_put valid follows.tracks.ready fps
    exact (inTurn.answer isOk).trans (follows.answer_puts valid fps (inTurn.succeeds.1 isOk))
  | containsBlock fps =>
    obtain rfl := (Prod.mk.inj (Option.some.inj performed)).1
    have inTurn := block_inTurn isLocal_contains valid follows.tracks.ready fps
    exact (inTurn.answer isOk).trans (follows.answer_queries valid fps)
  | recoverFingerprint fp =>
    simp only [ExactSet.perform] at performed
    split at performed
    · contradiction
    · obtain rfl := (Prod.mk.inj (Option.some.inj performed)).1
      simp only [Call.onShards, Outcome.map, DiskSet.eq_ok_of_isOk_map isOk, Except.map]
  | requestFlush =>
    obtain rfl := (Prod.mk.inj (Option.some.inj performed)).1
    rfl
  | commitCheckpoint =>
    obtain ⟨_, _, placed⟩ := Option.map_eq_some_iff.1 performed
    obtain rfl := (Prod.mk.inj placed).1
    simp only [Call.onShards, Outcome.map, DiskSet.eq_ok_of_isOk_map isOk, Except.map]
  | recover =>
    obtain ⟨_, _, back⟩ := Option.map_eq_some_iff.1 performed
    obtain rfl := (Prod.mk.inj back).1
    simp only [Call.onShards, Outcome.map, DiskSet.eq_ok_of_isOk_map isOk, Except.map]
  | close cleanup => contradiction
  | _ =>
    obtain rfl := (Prod.mk.inj (Option.some.inj performed)).1
    simp only [Call.onShards, Outcome.map, DiskSet.eq_ok_of_isOk_map isOk, Except.map]

/-! ## Size -/

/-- The size of a set is the sum of those of its shards. -/
theorem size_eq_sum (s : ShardedSet w p) : s.size = ∑ i, (s.shards.get i).size := by
  have listed : s.shards.toList = (List.finRange (Nat.pow 2 p)).map s.shards.get :=
    List.ext_getElem (by simp) fun n _ _ => by
      simp [Vector.get]
  rw [size, Fin.sum_univ_def, ← List.foldl_map, ← List.sum_eq_foldl, listed, List.map_map]
  rfl

/-- A set of which each shard has its own of some fingerprints has as many as there are. -/
theorem size_eq_card {members : Finset (Fingerprint w)} {t : Files}
    (each : Each (fun i d _ => d.Sound ∧ ∀ fp, fp ∈ d.members ↔ fp ∈ members ∧ fp.shard p = i) s
      t) : s.size = members.card := by
  rw [size_eq_sum, Finset.card_eq_sum_card_fiberwise (f := fun fp => fp.shard p)
    (t := Finset.univ) (fun _ _ => Finset.mem_coe.2 (Finset.mem_univ _))]
  refine Finset.sum_congr rfl fun i _ => ?_
  obtain ⟨d, here, sound, all⟩ := each i
  have same : d.members.toFinset = members.filter fun fp => fp.shard p = i := by
    ext fp
    rw [List.mem_toFinset, all, Finset.mem_filter]
  rw [here, ← same, List.toFinset_card_of_nodup sound.distinct]
  exact sound.counted

/-! ## Runs -/

/-- A sharded set that was opened and went through calls that succeeded, with the calls in order.
`first` is an empty set with the checkpoints that were found when it was opened. -/
inductive Unfailing (c : Config) (first : ExactSet w) :
    List (Call w) → ShardedSet w c.prefixBits → Host → Prop where
  /-- The set was opened. -/
  | opened {machine : Machine} {before after : Host} {s : ShardedSet w c.prefixBits}
    (opened : ShardedSet.open w machine c before = (.ok s, after))
    (found : c.kind = .disk → first.Found c after.files) : Unfailing c first [] s after
  /-- A call succeeded. -/
  | call {calls : List (Call w)} {s : ShardedSet w c.prefixBits} {h : Host}
    (before : Unfailing c first calls s h) (k : Call w) (goesOn : ∀ cleanup, k ≠ .close cleanup)
    (isOk : (k.onShards s h).answer.isOk) :
    Unfailing c first (calls ++ [k]) (k.onShards s h).set (k.onShards s h).host

/-- The configuration of an opened set is valid. -/
theorem Unfailing.valid {c : Config} {first : ExactSet w} {calls : List (Call w)}
    {s : ShardedSet w c.prefixBits} (unfailing : Unfailing c first calls s h) :
    c.validate = .ok () := by
  induction unfailing with
  | opened opened found => exact (fresh_of_open opened).1
  | call before k goesOn isOk ih => exact ih

/-- A disk-backed set none of whose calls failed follows what the calls make of the first set. -/
theorem Unfailing.follows {c : Config} {first : ExactSet w} {calls : List (Call w)}
    {s : ShardedSet w c.prefixBits} (unfailing : Unfailing c first calls s h)
    (disk : c.kind = .disk) :
    ∃ exact i j, ExactSet.after calls first = some exact ∧ s.Follows exact c i j h.files := by
  induction unfailing with
  | opened opened found =>
    obtain ⟨i, j, follows⟩ := follows_of_open opened disk (found disk)
    exact ⟨first, i, j, rfl, follows⟩
  | call before k goesOn isOk ih =>
    obtain ⟨exact, i, j, is, follows⟩ := ih
    obtain ⟨answers, after, performed⟩ := follows.accepts before.valid goesOn isOk
    refine ⟨after, i, j, ?_, follows.perform before.valid isOk performed⟩
    rw [ExactSet.after_concat, is, Option.bind_some, performed, Option.map_some]

/-- Every shard of a set of Bloom filters is one. -/
theorem Unfailing.bloom {c : Config} {first : ExactSet w} {calls : List (Call w)}
    {s : ShardedSet w c.prefixBits} (unfailing : Unfailing c first calls s h)
    (bloom : c.kind = .bloom) : ∀ i, ∃ f, s.shards.get i = .bloom f := by
  induction unfailing with
  | @opened _ _ _ s opened found =>
    intro i
    have fresh := (fresh_of_open opened).2.1 i
    cases shard : s.shards.get i with
    | bloom f => exact ⟨f, rfl⟩
    | disk d =>
      rw [shard] at fresh
      exact absurd (bloom.symm.trans fresh.1) (by decide)
  | @call _ s h before k goesOn isOk ih =>
    refine keeps_onShards (fun s _ => ∀ i, ∃ f, s.shards.get i = .bloom f) k
      (fun part among s h all i => ?_) ih
    obtain ⟨f, here⟩ := all part.1
    obtain ⟨g, still⟩ := part.2.onShard_bloom f h
    rw [onShard_eq, here]
    change ∃ f, (s.shards.set part.1 _).get i = .bloom f
    rw [get_set, still]
    split
    · exact ⟨g, rfl⟩
    · exact all i

/-- All shards of a set none of whose calls failed are ready for blocks. -/
theorem Unfailing.ready {c : Config} {first : ExactSet w} {calls : List (Call w)}
    {s : ShardedSet w c.prefixBits} (unfailing : Unfailing c first calls s h)
    (i : Fin (Nat.pow 2 c.prefixBits)) : (s.shards.get i).Ready (c.part i) h.files := by
  cases kind : c.kind with
  | disk =>
    obtain ⟨_, _, _, _, follows⟩ := unfailing.follows kind
    exact follows.tracks.ready i
  | bloom =>
    obtain ⟨f, here⟩ := unfailing.bloom kind i
    rw [here]
    trivial

end ShardedSet

/-- As long as no call fails, a disk-backed sharded set is one set: no call that succeeds is refused
by the set as it is meant that went through the same calls, every answer is that set's, and so is
the size. Whatever the kind of the shards, a block of fingerprints comes to the fingerprints one
after the other. -/
theorem exact_of_unfailing {c : Config} {first : ExactSet w} {calls : List (Call w)}
    {s : ShardedSet w c.prefixBits} {h : Host}
    (unfailing : ShardedSet.Unfailing c first calls s h) :
    (c.kind = .disk → ∃ exact, ExactSet.after calls first = some exact ∧
      s.size = exact.members.card ∧
      ∀ k : Call w, (∀ cleanup, k ≠ .close cleanup) → (k.onShards s h).answer.isOk →
        ∃ answers after, exact.perform k = some (answers, after) ∧
          (k.onShards s h).answer = .ok answers) ∧
    ∀ fps, (s.putBlock fps h).ComesTo (Outcome.each ShardedSet.put fps s h) ∧
      (s.containsBlock fps h).ComesTo (Outcome.each ShardedSet.contains fps s h) := by
  have valid := unfailing.valid
  refine ⟨fun disk => ?_, fun fps => ⟨?_, ?_⟩⟩
  · obtain ⟨exact, i, j, is, follows⟩ := unfailing.follows disk
    have size : s.size = exact.members.card := ShardedSet.size_eq_card <|
      follows.tracks.mono fun i d holds => ⟨holds.sound, fun fp => by
        rw [holds.members, ExactSet.mem_members_part]⟩
    refine ⟨exact, is, size, fun k goesOn isOk => ?_⟩
    obtain ⟨answers, after, performed⟩ := follows.accepts valid goesOn isOk
    exact ⟨answers, after, performed, follows.answer valid isOk performed⟩
  · exact ShardedSet.block_inTurn isLocal_put valid unfailing.ready fps
  · exact ShardedSet.block_inTurn isLocal_contains valid unfailing.ready fps

/-! ## Shards to look at -/

/-- The configuration of a set of two shards of four slots. -/
def shardedConfig : Config := { sampleConfig with prefixBits := 1 }

/-- The set can be opened where there is nothing. -/
theorem isSome_open_sharded :
    (ShardedSet.open .bits64 sampleMachine shardedConfig .empty).1.toOption.isSome := by
  decide +kernel

/-- The set, just opened. -/
def shardedSet : ShardedSet .bits64 shardedConfig.prefixBits :=
  (ShardedSet.open .bits64 sampleMachine shardedConfig .empty).1.toOption.get isSome_open_sharded

/-- The surroundings of the set. -/
def shardedHost : Host := (ShardedSet.open .bits64 sampleMachine shardedConfig .empty).2

/-- The set is what is opened. -/
theorem open_sharded :
    ShardedSet.open .bits64 sampleMachine shardedConfig .empty = (.ok shardedSet, shardedHost) :=
  eq_ok_get isSome_open_sharded

/-- A block with one fingerprint of each shard, one of them twice. -/
def shardedBlock : List (Fingerprint .bits64) :=
  [.ofNat _ 0x8000000000000001, .ofNat _ 1, .ofNat _ 0x8000000000000001]

/-- Two shards that were put a block with two different fingerprints have these two, and answer for
the block as for one fingerprint after the other. -/
theorem exact_of_unfailing_block :
    let o := (Call.putBlock shardedBlock).onShards shardedSet shardedHost
    ShardedSet.Unfailing shardedConfig .empty [.putBlock shardedBlock] o.set o.host ∧
      o.answer = .ok [false, false, true] ∧ o.set.size = 2 ∧
      (o.set.containsBlock shardedBlock o.host).ComesTo
        (Outcome.each ShardedSet.contains shardedBlock o.set o.host) := by
  intro o
  have start : ShardedSet.Unfailing shardedConfig .empty [] shardedSet shardedHost :=
    .opened open_sharded fun _ => ExactSet.found_empty (by decide +kernel) (by decide +kernel)
  have answer : o.answer = .ok [false, false, true] := by decide +kernel
  have reached := start.call (.putBlock shardedBlock) nofun (answer ▸ rfl)
  obtain ⟨onDisk, blocks⟩ := exact_of_unfailing reached
  obtain ⟨exact, is, size, _⟩ := onDisk rfl
  refine ⟨reached, answer, size.trans ?_, (blocks shardedBlock).2⟩
  obtain rfl := Option.some.inj is
  decide

end SeenStates
