import SeenStates.Proofs.ShardedExactness

/-!
# Closing

A closed set refuses every put and every query, and no call opens it again. A set without shards is
closed by `close` whether or not its run can be deleted. A set cut into shards closes them one after
the other, and stops at the first one of which the run cannot be deleted: that one and those before
it are closed for good, and those behind it go on as they were (`close_ends`).
-/
namespace SeenStates

variable {w : Width} {p : Nat}

/-! ## Closed shards -/

namespace Shard

variable {s : Shard w} {h : Host}

/-- Whether a set of either kind is closed. -/
def isClosed : Shard w → Bool
  | disk s => s.closed
  | bloom f => f.closed

/-- A closed shard refuses puts. -/
theorem put_of_isClosed (closed : s.isClosed) (fp : Fingerprint w) (h : Host) :
    s.put fp h = .fail .closed s h := by
  cases s with
  | disk d =>
    have refused : d.put fp h = .fail .closed d h := if_pos closed
    simp only [put, refused]
    rfl
  | bloom f =>
    have refused : f.put fp h = .fail .closed f h := if_pos closed
    simp only [put, refused]
    rfl

/-- A closed shard refuses queries. -/
theorem contains_of_isClosed (closed : s.isClosed) (fp : Fingerprint w) (h : Host) :
    s.contains fp h = .fail .closed s h := by
  cases s with
  | disk d =>
    have refused : d.contains fp h = .fail .closed d h := if_pos closed
    simp only [contains, refused]
    rfl
  | bloom f =>
    have refused : f.contains fp h = .fail .closed f h := if_pos closed
    simp only [contains, refused]
    rfl

/-- An open shard answers queries. -/
theorem isOk_contains (isOpen : s.isClosed = false) (fp : Fingerprint w) (h : Host) :
    (s.contains fp h).answer.isOk := by
  cases s with
  | disk d =>
    have isOpen : d.closed = false := isOpen
    simp only [contains, DiskSet.contains, DiskSet.whenOpen, isOpen, Bool.false_eq_true, if_false]
    rfl
  | bloom f =>
    have isOpen : f.closed = false := isOpen
    simp only [contains, BloomFilter.contains, isOpen, Bool.false_eq_true, if_false]
    rfl

/-- A call of a closed shard leaves it closed. -/
theorem isClosed_onShard (closed : s.isClosed) (c : Call w) :
    (c.onShard s h).set.isClosed := by
  have each (op : Fingerprint w → Shard w → Host → Outcome (Shard w) Bool)
      (refused : ∀ {u : Shard w}, Shard.isClosed u → ∀ fp g, op fp u g = .fail .closed u g)
      (fps : List (Fingerprint w)) : (Outcome.each op fps s h).set.isClosed := by
    refine Outcome.each_keeps (fun (u : Shard w) _ => u.isClosed) (fun fp _ u g closed => ?_) closed
    rw [refused closed fp g]
    exact closed
  cases s with
  | disk d =>
    rw [Call.onShard_disk]
    exact (DiskSet.perform_of_closed closed c).1
  | bloom f =>
    cases c with
    | put fp =>
      simp only [Call.onShard, put_of_isClosed closed]
      exact closed
    | contains fp =>
      simp only [Call.onShard, contains_of_isClosed closed]
      exact closed
    | recoverFingerprint fp =>
      simp only [Call.onShard, Shard.recoverFingerprint, put_of_isClosed closed]
      exact closed
    | putBlock fps => exact each _ put_of_isClosed fps
    | containsBlock fps => exact each _ contains_of_isClosed fps
    | close cleanup =>
      have already : f.close h = .ok () f h := if_pos closed
      simp only [Call.onShard, Shard.close, already]
      exact closed
    | _ => exact closed

/-- How closing a shard ends, from the host before it: with what answer, and which host. -/
inductive CloseEnds (s : Shard w) (cleanup : Bool) : Except Error Unit → Files → Prop where
  /-- It succeeds. -/
  | closed (t : Files) : CloseEnds s cleanup (.ok ()) t
  /-- The shard is disk-backed and was open, and there is something in the place of its run that
  cannot be deleted. -/
  | undeleted (d : DiskSet w) (fault : FileFault) (t : Files) (disk : s = .disk d)
    (isOpen : d.closed = false) (asked : cleanup)
    (fails : t.removeFile d.config.paths.run = .error fault) (differs : fault ≠ .notFound) :
    CloseEnds s cleanup (.error (.file d.config.paths.run fault)) t

/-- Closing a shard closes it, and fails only if its run is to be deleted and cannot be. -/
theorem close_ends (s : Shard w) (cleanup : Bool) (h : Host) :
    (s.close cleanup h).set.isClosed ∧
      s.CloseEnds cleanup (s.close cleanup h).answer (s.close cleanup h).host.files := by
  cases s with
  | bloom f =>
    simp only [close, BloomFilter.close, Outcome.onSet]
    split
    · next closed => exact ⟨closed, .closed _⟩
    · exact ⟨rfl, .closed _⟩
  | disk d =>
    simp only [close, DiskSet.close, Outcome.onSet]
    split
    · next closed => exact ⟨closed, .closed _⟩
    · next isOpen =>
      split
      · exact ⟨rfl, .closed _⟩
      · exact ⟨rfl, .closed _⟩
      · next fault differs fails =>
        refine ⟨rfl, ?_⟩
        cases cleanup with
        | false => contradiction
        | true => exact .undeleted d fault _ rfl (by simpa using isOpen) rfl fails differs

end Shard

/-! ## Closed shards of a sharded set -/

namespace ShardedSet

variable {s : ShardedSet w p} {h : Host}

/-- A call of a sharded set leaves its closed shards closed. -/
theorem isClosed_onShards {i : Fin (Nat.pow 2 p)} (closed : (s.shards.get i).isClosed)
    (c : Call w) : ((c.onShards s h).set.shards.get i).isClosed := by
  apply keeps_onShards (fun u _ => (u.shards.get i).isClosed) c _ closed
  intro part _ u g closed
  rw [onShard_eq]
  change ((u.shards.set part.1 _).get i).isClosed
  rw [get_set]
  by_cases same : part.1 = i
  · rw [if_pos same, same]
    exact Shard.isClosed_onShard closed part.2
  · rw [if_neg same]
    exact closed

/-- How closing shards in turn ends: all of them are closed, or those up to one that fails. -/
inductive CloseEnds (s : ShardedSet w p) (cleanup : Bool) (is : List (Fin (Nat.pow 2 p)))
    (u : ShardedSet w p) (t : Files) : Except Error Unit → Prop where
  /-- All of them are closed. -/
  | closed (all : ∀ i ∈ is, (u.shards.get i).isClosed) : CloseEnds s cleanup is u t (.ok ())
  /-- One fails. It is closed and so are those before it; those behind it are as they were. -/
  | stopped {e : Error} (k : Fin (Nat.pow 2 p)) (among : k ∈ is)
    (fails : (s.shards.get k).CloseEnds cleanup (.error e) t)
    (upTo : ∀ i ∈ is, i ≤ k → (u.shards.get i).isClosed)
    (behind : ∀ i, k < i → u.shards.get i = s.shards.get i) :
    CloseEnds s cleanup is u t (.error e)

/-- How closing shards ends after one more shard in front of them was closed. -/
theorem CloseEnds.cons {cleanup : Bool} {i : Fin (Nat.pow 2 p)} {rest : List (Fin (Nat.pow 2 p))}
    {u v : ShardedSet w p} {t : Files} {answer : Except Error Unit}
    (turn : u.CloseEnds cleanup rest v t answer) (before : ∀ j ∈ rest, i < j)
    (others : ∀ j ≠ i, u.shards.get j = s.shards.get j) (shut : (v.shards.get i).isClosed) :
    s.CloseEnds cleanup (i :: rest) v t answer := by
  cases turn with
  | closed all =>
    refine .closed fun j among => ?_
    rcases List.mem_cons.1 among with rfl | among
    · exact shut
    · exact all j among
  | stopped k among fails upTo behind =>
    have after : i < k := before k among
    refine .stopped k (List.mem_cons_of_mem i among) (others k after.ne' ▸ fails)
      (fun j within le => ?_) fun j later => ?_
    · rcases List.mem_cons.1 within with rfl | within
      · exact shut
      · exact upTo j within le
    · exact (behind j later).trans (others j (after.trans later).ne')

/-- Closing shards in turn leaves the others, and ends in one of the two ways. -/
theorem each_close_ends (cleanup : Bool) {is : List (Fin (Nat.pow 2 p))}
    (ordered : is.Pairwise (· < ·)) (s : ShardedSet w p) (h : Host) :
    let o := Outcome.each (onShard (Shard.close cleanup)) is s h
    (∀ i ∉ is, o.set.shards.get i = s.shards.get i) ∧
      s.CloseEnds cleanup is o.set o.host.files (o.answer.map fun _ => ()) := by
  induction is generalizing s h with
  | nil => exact ⟨fun _ _ => rfl, .closed nofun⟩
  | cons i rest ih =>
    obtain ⟨before, ordered⟩ := List.pairwise_cons.1 ordered
    obtain ⟨closed, ends⟩ := (s.shards.get i).close_ends cleanup h
    simp only [Outcome.each, onShard_eq, Outcome.andThen, Outcome.onSet]
    generalize (s.shards.get i).close cleanup h = first at closed ends
    obtain ⟨answer, shard, g⟩ := first
    -- the set after the shard, in which the others are as they were
    let u : ShardedSet w p := ⟨s.shards.set i shard⟩
    have here : u.shards.get i = shard := by rw [get_set, if_pos rfl]
    have others (j : Fin (Nat.pow 2 p)) (differ : j ≠ i) : u.shards.get j = s.shards.get j := by
      rw [get_set, if_neg differ.symm]
    cases answer with
    | error e =>
      refine ⟨fun j absent => others j fun same => absent (same ▸ List.mem_cons_self), ?_⟩
      refine .stopped i List.mem_cons_self ends (fun j among le => ?_)
        fun j behind => others j behind.ne'
      rcases List.mem_cons.1 among with rfl | later
      · exact here.symm ▸ closed
      · exact absurd (before j later) le.not_gt
    | ok _ =>
      obtain ⟨unchanged, turn⟩ := ih ordered u g
      have fresh : i ∉ rest := fun again => lt_irrefl i (before i again)
      have shut : ((Outcome.each (onShard (Shard.close cleanup)) rest u g).set.shards.get
          i).isClosed := by
        rw [unchanged i fresh, here]
        exact closed
      refine ⟨fun j absent => ?_, ?_⟩
      · have differ : j ≠ i := fun same => absent (same ▸ List.mem_cons_self)
        have later : j ∉ rest := fun among => absent (List.mem_cons_of_mem i among)
        exact (unchanged j later).trans (others j differ)
      · have turned := turn.cons before others shut
        generalize Outcome.each (onShard (Shard.close cleanup)) rest u g = o at turned ⊢
        obtain ⟨answer, v, last⟩ := o
        cases answer <;> exact turned

/-- Closing a sharded set closes all of its shards, or those up to one that fails. -/
theorem close_ends (s : ShardedSet w p) (cleanup : Bool) (h : Host) :
    s.CloseEnds cleanup (List.finRange _) (s.close cleanup h).set (s.close cleanup h).host.files
      (s.close cleanup h).answer :=
  (each_close_ends cleanup (List.pairwise_lt_finRange _) s h).2

end ShardedSet

/-! ## Closed sets -/

namespace FingerprintSet

/-- The shard that a fingerprint belongs to. -/
def holder (fp : Fingerprint w) : FingerprintSet w → Shard w
  | single s => s
  | sharded p s => s.shards.get (fp.shard p)

/-- What can come of a set and its surroundings: calls are made of it, whatever they come to, and
the files change between them. -/
inductive Sequel (s : FingerprintSet w) (h : Host) : FingerprintSet w → Host → Prop where
  /-- Nothing has come of it yet. -/
  | start : Sequel s h s h
  /-- A call was made. -/
  | call {u : FingerprintSet w} {g : Host} (sequel : Sequel s h u g) (c : Call w) :
    Sequel s h (c.onFingerprintSet u g).set (c.onFingerprintSet u g).host
  /-- The files changed. -/
  | outside {u : FingerprintSet w} {g : Host} (sequel : Sequel s h u g) (files : Files) :
    Sequel s h u (g.withFiles files)

/-- Whether puts and queries of a fingerprint are refused from now on because the set is closed,
whatever comes of it. -/
def Refuses (s : FingerprintSet w) (fp : Fingerprint w) (h : Host) : Prop :=
  ∀ (u : FingerprintSet w) (g : Host), s.Sequel h u g →
    (u.put fp g).answer = .error .closed ∧ (u.contains fp g).answer = .error .closed

variable {s u : FingerprintSet w} {h g : Host} {fp : Fingerprint w}

/-- A put answers what it does in the shard of the fingerprint. -/
theorem answer_put (s : FingerprintSet w) (fp : Fingerprint w) (h : Host) :
    (s.put fp h).answer = ((s.holder fp).put fp h).answer := by
  cases s with
  | single s => rfl
  | sharded p s =>
    simp only [put, apply, ShardedSet.put, ShardedSet.onShard_eq]
    rfl

/-- A query answers what it does in the shard of the fingerprint. -/
theorem answer_contains (s : FingerprintSet w) (fp : Fingerprint w) (h : Host) :
    (s.contains fp h).answer = ((s.holder fp).contains fp h).answer := by
  cases s with
  | single s => rfl
  | sharded p s =>
    simp only [contains, apply, ShardedSet.contains, ShardedSet.onShard_eq]
    rfl

/-- A call leaves the shard of a fingerprint closed. -/
theorem isClosed_onFingerprintSet (closed : (s.holder fp).isClosed) (c : Call w) :
    ((c.onFingerprintSet s h).set.holder fp).isClosed := by
  cases s with
  | single s =>
    rw [Call.onFingerprintSet_single]
    exact Shard.isClosed_onShard closed c
  | sharded p s =>
    rw [Call.onFingerprintSet_sharded]
    exact ShardedSet.isClosed_onShards closed c

/-- Whatever comes of a set leaves the shard of a fingerprint closed. -/
theorem Sequel.isClosed (sequel : s.Sequel h u g) (closed : (s.holder fp).isClosed) :
    (u.holder fp).isClosed := by
  induction sequel with
  | start => exact closed
  | call sequel c ih => exact isClosed_onFingerprintSet ih c
  | outside sequel files ih => exact ih

/-- A fingerprint is refused from now on exactly if its shard is closed. -/
theorem refuses_iff : s.Refuses fp h ↔ (s.holder fp).isClosed := by
  constructor
  · intro refuses
    have answer := (refuses _ _ .start).2
    rw [answer_contains] at answer
    cases closed : (s.holder fp).isClosed with
    | true => rfl
    | false =>
      have isOk := Shard.isOk_contains closed fp h
      rw [answer] at isOk
      contradiction
  · intro closed u g sequel
    have shut := sequel.isClosed closed
    rw [answer_put, answer_contains, Shard.put_of_isClosed shut, Shard.contains_of_isClosed shut]
    exact ⟨rfl, rfl⟩

/-- What closing a set makes of it, in any state and whatever comes after. If it succeeds, or if the
set has no shards of its own, every put and every query is refused from then on. If closing a
sharded set fails, it is because the run of one of its disk-backed shards was to be deleted and
could not be; fingerprints of that shard and of those before it are refused from then on, and the
shards behind it are as they were, so that one of their fingerprints is refused only if it was
before. -/
theorem refuses_of_close (s : FingerprintSet w) (cleanup : Bool) (h : Host) :
    let o := s.close cleanup h
    (o.answer = .ok () → ∀ fp, o.set.Refuses fp o.host) ∧
      (∀ shard, s = .single shard → ∀ fp, o.set.Refuses fp o.host) ∧
      ∀ p (shards : ShardedSet w p), s = .sharded p shards → ∀ e, o.answer = .error e →
        ∃ k, (shards.shards.get k).CloseEnds cleanup (.error e) o.host.files ∧
          ∀ fp : Fingerprint w, (fp.shard p ≤ k → o.set.Refuses fp o.host) ∧
            (k < fp.shard p → o.set.holder fp = s.holder fp ∧
              (o.set.Refuses fp o.host ↔ s.Refuses fp h)) := by
  intro o
  simp only [refuses_iff]
  cases s with
  | single shard =>
    have closed : (shard.close cleanup h).set.isClosed := (shard.close_ends cleanup h).1
    exact ⟨fun _ _ => closed, fun _ _ _ => closed, nofun⟩
  | sharded p shards =>
    have ends := shards.close_ends cleanup h
    change (o.answer = .ok () → ∀ fp : Fingerprint w,
      ((shards.close cleanup h).set.shards.get (fp.shard p)).isClosed) ∧ _
    have answer : o.answer = (shards.close cleanup h).answer := rfl
    have files : o.host.files = (shards.close cleanup h).host.files := rfl
    have holder (fp : Fingerprint w) :
        o.set.holder fp = (shards.close cleanup h).set.shards.get (fp.shard p) := rfl
    simp only [answer, files, holder]
    generalize shards.close cleanup h = after at ends
    refine ⟨fun succeeds fp => ?_, nofun, ?_⟩
    · rw [succeeds] at ends
      cases ends with
      | closed all => exact all _ (List.mem_finRange _)
    · rintro _ _ ⟨⟩ e fails
      rw [fails] at ends
      cases ends with
      | stopped k among fails upTo behind =>
        refine ⟨k, fails, fun fp => ⟨upTo _ (List.mem_finRange _), fun later => ?_⟩⟩
        have same := behind (fp.shard p) later
        exact ⟨same, by rw [same]; rfl⟩

/-! ## Two shards of which the first cannot delete its run -/

/-- The files of two shards, with a directory in the place of the first one's run. -/
def blockedFiles : Except FileFault Files := do
  let run := (shardedConfig.part 0).paths.run
  (← shardedHost.files.removeFile run).makeDirectory run

/-- The surroundings of the two shards then. -/
def blockedHost : Host := shardedHost.withFiles (blockedFiles.toOption.getD shardedHost.files)

/-- The two shards, after they were to be closed and their runs to be deleted. -/
def blockedClose : Outcome (FingerprintSet .bits64) Unit :=
  close true (.sharded _ shardedSet) blockedHost

/-- The directory can be made, and then the first run cannot be deleted. The second shard
still takes a fingerprint. -/
theorem blocked_answers :
    blockedFiles.isOk ∧
      blockedClose.answer = .error (.file (shardedConfig.part 0).paths.run .isADirectory) ∧
      (blockedClose.set.put (.ofNat _ 0x8000000000000001) blockedClose.host).answer =
        .ok false := by
  decide +kernel

/-- A fingerprint of the first shard is refused then, and one of the second shard is not. -/
theorem refuses_of_close_blocked :
    blockedClose.answer = .error (.file (shardedConfig.part 0).paths.run .isADirectory) ∧
      blockedClose.set.Refuses (.ofNat _ 1) blockedClose.host ∧
      ¬ blockedClose.set.Refuses (.ofNat _ 0x8000000000000001) blockedClose.host := by
  obtain ⟨_, fails, takes⟩ := blocked_answers
  obtain ⟨k, _, each⟩ :=
    (refuses_of_close (.sharded _ shardedSet) true blockedHost).2.2 _ shardedSet rfl _ fails
  have first : ((Fingerprint.ofNat .bits64 1).shard shardedConfig.prefixBits).val = 0 := by
    decide +kernel
  have upTo : (Fingerprint.ofNat .bits64 1).shard shardedConfig.prefixBits ≤ k := by
    rw [Fin.le_def, first]
    exact Nat.zero_le _
  have refused := (each (.ofNat _ 1)).1 upTo
  refine ⟨fails, refused, fun refuses => ?_⟩
  have both := takes.symm.trans (refuses _ _ .start).1
  exact absurd both (by simp)

end FingerprintSet

end SeenStates
