import Mathlib.Order.Fin.Basic
import SeenStates.FingerprintSet
import SeenStates.Proofs.ShardFiles

/-!
# Calls of sharded sets

A call of a sharded set comes to calls of its shards, one after the other up to the first that
fails (`Call.onShards_eq`). A call of a shard changes that shard and its files, and no shard is
called twice. So a call that succeeds takes each of them where its own part does
(`ShardedSet.Each.run`), and one that fails does so or leaves it where it was
(`ShardedSet.Each.keeps`).
-/
namespace SeenStates

variable {w : Width} {p : Nat}

namespace Outcome

variable {σ τ α β γ : Type}

/-- An answer that is mapped twice is mapped once. -/
theorem map_map (o : Outcome σ α) (f : α → β) (g : β → γ) :
    (o.map f).map g = o.map fun a => g (f a) := by
  obtain ⟨answer, set, host⟩ := o
  cases answer <;> rfl

/-- An operation on one argument of which the answer is listed. -/
theorem each_singleton (op : β → σ → Host → Outcome σ α) (b : β) (set : σ) (host : Host) :
    each op [b] set host = (op b set host).map fun a => [a] := by
  simp only [each, andThen, Outcome.map, Outcome.ok]
  cases op b set host with
  | mk answer set host => cases answer <;> rfl

/-- An operation on each of several arguments in another form. -/
theorem each_map (op : γ → σ → Host → Outcome σ α) (f : β → γ) (bs : List β) (set : σ)
    (host : Host) : each op (bs.map f) set host = each (fun b => op (f b)) bs set host := by
  induction bs generalizing set host with
  | nil => rfl
  | cons b rest ih => simp only [List.map_cons, each, ih]

/-- Mapping each answer maps the list of answers. -/
theorem each_of_map {op : β → σ → Host → Outcome σ α} {other : β → σ → Host → Outcome σ γ}
    {f : β → α → γ} {bs : List β}
    (mapped : ∀ b ∈ bs, ∀ set host, other b set host = (op b set host).map (f b)) (set : σ)
    (host : Host) : each other bs set host = (each op bs set host).map (List.zipWith f bs) := by
  induction bs generalizing set host with
  | nil => rfl
  | cons b rest ih =>
    have here := mapped b List.mem_cons_self
    have there := ih fun c member => mapped c (List.mem_cons_of_mem b member)
    simp only [each, here, there, andThen, Outcome.map]
    cases op b set host with
    | mk answer set host =>
      cases answer with
      | error e => rfl
      | ok a =>
        simp only [Except.map]
        cases each op rest set host with
        | mk answers set host => cases answers <;> rfl

/-- An operation on something that holds a set holds the outcome of the operation on the set. -/
theorem each_onSet {op : β → σ → Host → Outcome σ α} {other : β → τ → Host → Outcome τ α}
    {hold : σ → τ} (held : ∀ b set host, other b (hold set) host = (op b set host).onSet hold)
    (bs : List β) (set : σ) (host : Host) :
    each other bs (hold set) host = (each op bs set host).onSet hold := by
  induction bs generalizing set host with
  | nil => rfl
  | cons b rest ih =>
    simp only [each, held, andThen, onSet]
    cases op b set host with
    | mk answer set host =>
      cases answer with
      | error e => rfl
      | ok a =>
        simp only [ih]
        rfl

end Outcome

/-! ## Calls -/

namespace Call

/-- What a call of a shard comes to. -/
def onShard : Call w → Shard w → Host → Outcome (Shard w) (List Bool)
  | put fp, s, h => (s.put fp h).map fun seen => [seen]
  | putBlock fps, s, h => Outcome.each Shard.put fps s h
  | recoverFingerprint fp, s, h => (s.recoverFingerprint fp h).map fun _ => []
  | contains fp, s, h => (s.contains fp h).map fun seen => [seen]
  | containsBlock fps, s, h => Outcome.each Shard.contains fps s h
  | flush, s, h => (s.flush h).map fun _ => []
  | requestFlush, s, h => .ok [] s.requestFlush h
  | beginCheckpoint, s, h => (s.beginCheckpoint h).map fun _ => []
  | commitCheckpoint, s, h => (s.commitCheckpoint h).map fun _ => []
  | recover, s, h => (s.recover h).map fun _ => []
  | close cleanup, s, h => (s.close cleanup h).map fun _ => []

/-- What a call of a sharded set comes to. -/
def onShards : Call w → ShardedSet w p → Host → Outcome (ShardedSet w p) (List Bool)
  | put fp, s, h => (s.put fp h).map fun seen => [seen]
  | putBlock fps, s, h => s.putBlock fps h
  | recoverFingerprint fp, s, h => (s.recoverFingerprint fp h).map fun _ => []
  | contains fp, s, h => (s.contains fp h).map fun seen => [seen]
  | containsBlock fps, s, h => s.containsBlock fps h
  | flush, s, h => (s.flush h).map fun _ => []
  | requestFlush, s, h => .ok [] s.requestFlush h
  | beginCheckpoint, s, h => (s.beginCheckpoint h).map fun _ => []
  | commitCheckpoint, s, h => (s.commitCheckpoint h).map fun _ => []
  | recover, s, h => (s.recover h).map fun _ => []
  | close cleanup, s, h => (s.close cleanup h).map fun _ => []

/-- The shards that a call calls, in order, each with what it is called with: the shard of a
fingerprint, and for a block and any other call all shards, which get their fingerprints in the
order of the block. -/
def parts (p : Nat) : Call w → List (Fin (Nat.pow 2 p) × Call w)
  | put fp => [(fp.shard p, put fp)]
  | recoverFingerprint fp => [(fp.shard p, recoverFingerprint fp)]
  | contains fp => [(fp.shard p, contains fp)]
  | putBlock fps =>
    (List.finRange _).map fun i => (i, putBlock (fps.filter fun fp => fp.shard p = i))
  | containsBlock fps =>
    (List.finRange _).map fun i => (i, containsBlock (fps.filter fun fp => fp.shard p = i))
  | c => (List.finRange _).map fun i => (i, c)

/-- A call of a disk-backed shard is one of its set. -/
theorem onShard_disk (c : Call w) (s : DiskSet w) (h : Host) :
    c.onShard (.disk s) h = (c.perform s h).onSet .disk := by
  cases c with
  | putBlock fps => exact Outcome.each_onSet (fun _ _ _ => rfl) fps s h
  | containsBlock fps => exact Outcome.each_onSet (fun _ _ _ => rfl) fps s h
  | recoverFingerprint fp =>
    simp only [onShard, Shard.recoverFingerprint, Shard.put, perform, DiskSet.recoverFingerprint,
      Outcome.asNew, Outcome.andThen, Outcome.onSet, Outcome.map]
    cases DiskSet.put fp s h with
    | mk answer set host =>
      cases answer with
      | error e => rfl
      | ok seen => cases seen <;> rfl
  | _ => rfl

/-- A call of a Bloom filter leaves a Bloom filter. -/
theorem onShard_bloom (c : Call w) (f : BloomFilter w) (h : Host) :
    ∃ g, (c.onShard (.bloom f) h).set = .bloom g := by
  cases c with
  | putBlock fps =>
    have held : ∀ fp (g : BloomFilter w) h, Shard.put fp (.bloom g) h = (g.put fp h).onSet .bloom :=
      fun _ _ _ => rfl
    exact ⟨_, congrArg Outcome.set (Outcome.each_onSet held fps f h)⟩
  | containsBlock fps =>
    have held : ∀ fp (g : BloomFilter w) h,
        Shard.contains fp (.bloom g) h = (g.contains fp h).onSet .bloom := fun _ _ _ => rfl
    exact ⟨_, congrArg Outcome.set (Outcome.each_onSet held fps f h)⟩
  | recoverFingerprint fp =>
    simp only [onShard, Shard.recoverFingerprint, Shard.put, Outcome.asNew, Outcome.andThen,
      Outcome.onSet, Outcome.map]
    split
    · split <;> exact ⟨_, rfl⟩
    · exact ⟨_, rfl⟩
  | _ => exact ⟨_, rfl⟩

end Call

/-! ## Calls of shards in turn -/

namespace ShardedSet

variable {s : ShardedSet w p} {h : Host}

/-- A mapped operation on a shard. -/
theorem onShard_map {α β : Type} {op : Shard w → Host → Outcome (Shard w) α}
    {other : Shard w → Host → Outcome (Shard w) β} {f : α → β}
    (mapped : ∀ shard h, other shard h = (op shard h).map f) (i : Fin (Nat.pow 2 p))
    (s : ShardedSet w p) (h : Host) : onShard other i s h = (onShard op i s h).map f := by
  simp only [onShard_eq, mapped]
  rfl

/-- An operation on shards that neither fails nor does anything but change each of them does that
to every one of them. -/
theorem each_onShard_pure (f : Shard w → Shard w) {is : List (Fin (Nat.pow 2 p))}
    (distinct : is.Nodup) (s : ShardedSet w p) (h : Host) :
    ∃ u : ShardedSet w p,
      Outcome.each (onShard fun shard h => .ok ([] : List Bool) (f shard) h) is s h =
        .ok (is.map fun _ => []) u h ∧
      ∀ j, u.shards.get j = if j ∈ is then f (s.shards.get j) else s.shards.get j := by
  induction is generalizing s with
  | nil => exact ⟨s, rfl, fun j => by simp⟩
  | cons i rest ih =>
    obtain ⟨fresh, distinct⟩ := List.nodup_cons.1 distinct
    obtain ⟨u, all, each⟩ := ih distinct ⟨s.shards.set i (f (s.shards.get i))⟩
    refine ⟨u, ?_, fun j => ?_⟩
    · simp only [Outcome.each, onShard_eq, Outcome.onSet, Outcome.ok, Outcome.andThen,
        Outcome.map] at all ⊢
      rw [all]
      rfl
    · rw [each, get_set]
      by_cases same : i = j
      · subst same
        simp [fresh]
      · simp only [same, if_false, List.mem_cons, Ne.symm (a := i) same, false_or]

/-- A fingerprint that is in a batch is one of the block in that shard. -/
theorem map_fst_batches (fps : List (Fingerprint w)) (i : Fin (Nat.pow 2 p)) :
    ((batches fps).get i).map Prod.fst = fps.filter fun fp => fp.shard p = i := by
  rw [get_batches]
  have values : fps = fps.zipIdx.map Prod.fst := by simp
  conv => rhs; rw [values]
  rw [List.filter_map]
  rfl

/-- The answers to a block, put together from those of all shards. -/
def gather (p : Nat) (fps : List (Fingerprint w)) (answers : List (List Bool)) : List Bool :=
  scatter fps.length (List.zipWith
    (fun i found => (((batches fps : Batches w p).get i).map Prod.snd).zip found)
    (List.finRange (Nat.pow 2 p)) answers).flatten

/-- A block comes to the blocks of its shards, one shard after the other. -/
theorem onBlock_eq (op : Fingerprint w → Shard w → Host → Outcome (Shard w) Bool)
    (fps : List (Fingerprint w)) (s : ShardedSet w p) (h : Host) :
    onBlock op fps s h =
      (Outcome.each (fun i => onShard (Outcome.each op (fps.filter fun fp => fp.shard p = i)) i)
        (List.finRange (Nat.pow 2 p)) s h).map (gather p fps) := by
  unfold onBlock
  simp only [map_fst_batches]
  rw [Outcome.each_of_map (fun i _ s h => rfl), Outcome.map_map]
  rfl

/-- An operation on each shard in turn, in another form. -/
theorem onEach_map {op : Shard w → Host → Outcome (Shard w) Unit}
    {other : Shard w → Host → Outcome (Shard w) (List Bool)}
    (mapped : ∀ shard h, other shard h = (op shard h).map fun _ => []) (s : ShardedSet w p)
    (h : Host) :
    (onEach op s h).map (fun _ => []) =
      (Outcome.each (onShard other) (List.finRange _) s h).map fun _ => ([] : List Bool) := by
  rw [onEach, Outcome.map_map, Outcome.each_of_map (fun i _ s h => onShard_map mapped i s h),
    Outcome.map_map]

end ShardedSet

/-- A call of a sharded set comes to its parts, one after the other up to the first that fails. The
answers of the parts are put together alike whatever the set is. -/
theorem Call.onShards_eq (c : Call w) (p : Nat) :
    ∃ f : List (List Bool) → List Bool, ∀ (s : ShardedSet w p) h,
      c.onShards s h =
        (Outcome.each (fun part => ShardedSet.onShard part.2.onShard part.1) (c.parts p) s h).map
          f := by
  have one (op : Shard w → Host → Outcome (Shard w) Bool) (fp : Fingerprint w) (c : Call w)
      (mapped : ∀ shard h, c.onShard shard h = (op shard h).map fun seen => [seen])
      (s : ShardedSet w p) (h : Host) :
      (ShardedSet.onShard op (fp.shard p) s h).map (fun seen => [seen]) =
        (Outcome.each (fun part => ShardedSet.onShard part.2.onShard part.1) [(fp.shard p, c)]
          s h).map List.flatten := by
    rw [Outcome.each_singleton, Outcome.map_map, ShardedSet.onShard_map mapped, Outcome.map_map]
    rfl
  cases c with
  | put fp => exact ⟨_, one _ fp _ fun _ _ => rfl⟩
  | contains fp => exact ⟨_, one _ fp _ fun _ _ => rfl⟩
  | recoverFingerprint fp =>
    have mapped : ∀ shard h, (recoverFingerprint fp).onShard shard h =
        (Shard.recoverFingerprint fp shard h).map fun _ => [] := fun _ _ => rfl
    refine ⟨List.flatten, fun s h => ?_⟩
    simp only [parts]
    rw [Outcome.each_singleton, Outcome.map_map]
    simp only [onShards, ShardedSet.recoverFingerprint]
    rw [ShardedSet.onShard_map mapped, Outcome.map_map]
    rfl
  | putBlock fps =>
    refine ⟨ShardedSet.gather p fps, fun s h => ?_⟩
    rw [parts, Outcome.each_map]
    exact ShardedSet.onBlock_eq _ fps s h
  | containsBlock fps =>
    refine ⟨ShardedSet.gather p fps, fun s h => ?_⟩
    rw [parts, Outcome.each_map]
    exact ShardedSet.onBlock_eq _ fps s h
  | requestFlush =>
    refine ⟨fun _ => [], fun s h => ?_⟩
    obtain ⟨u, all, every⟩ :=
      ShardedSet.each_onShard_pure Shard.requestFlush (List.nodup_finRange (Nat.pow 2 p)) s h
    have same : u = s.requestFlush := by
      refine congrArg ShardedSet.mk (Vector.ext fun i inside => ?_)
      have at_i := every ⟨i, inside⟩
      rw [if_pos (List.mem_finRange _)] at at_i
      exact at_i.trans (Vector.getElem_map _ inside).symm
    simp only [parts, Outcome.each_map]
    change _ = (Outcome.each (ShardedSet.onShard fun shard h => .ok [] shard.requestFlush h) _ s
      h).map _
    rw [all, same]
    rfl
  | _ =>
    simp only [parts, Outcome.each_map]
    exact ⟨_, ShardedSet.onEach_map fun _ _ => rfl⟩

namespace Call

/-- What a call of a set comes to, cut into shards or not. -/
def onFingerprintSet : Call w → FingerprintSet w → Host → Outcome (FingerprintSet w) (List Bool)
  | put fp, s, h => (s.put fp h).map fun seen => [seen]
  | putBlock fps, s, h => s.putBlock fps h
  | recoverFingerprint fp, s, h => (s.recoverFingerprint fp h).map fun _ => []
  | contains fp, s, h => (s.contains fp h).map fun seen => [seen]
  | containsBlock fps, s, h => s.containsBlock fps h
  | flush, s, h => (s.flush h).map fun _ => []
  | requestFlush, s, h => .ok [] s.requestFlush h
  | beginCheckpoint, s, h => (s.beginCheckpoint h).map fun _ => []
  | commitCheckpoint, s, h => (s.commitCheckpoint h).map fun _ => []
  | recover, s, h => (s.recover h).map fun _ => []
  | close cleanup, s, h => (s.close cleanup h).map fun _ => []

/-- A call of a set without shards is one of the shard that it is. -/
theorem onFingerprintSet_single (c : Call w) (s : Shard w) (h : Host) :
    c.onFingerprintSet (.single s) h = (c.onShard s h).onSet .single := by
  cases c <;> rfl

/-- A call of a set cut into shards is one of the shards. -/
theorem onFingerprintSet_sharded (c : Call w) (s : ShardedSet w p) (h : Host) :
    c.onFingerprintSet (.sharded p s) h = (c.onShards s h).onSet (.sharded p) := by
  cases c <;> rfl

end Call

/-- No call calls a shard twice. -/
theorem Call.nodup_parts (c : Call w) : ((c.parts p).map Prod.fst).Nodup := by
  have all (call : Fin (Nat.pow 2 p) → Call w) :
      (((List.finRange (Nat.pow 2 p)).map fun i => (i, call i)).map Prod.fst).Nodup := by
    rw [List.map_map]
    exact (List.map_id _).symm ▸ List.nodup_finRange _
  cases c with
  | put fp => simp [parts]
  | contains fp => simp [parts]
  | recoverFingerprint fp => simp [parts]
  | _ =>
    simp only [parts]
    exact all _

/-- A part of a call is that call, or both are plain. -/
theorem Call.eq_or_isPlain {c : Call w} {part : Fin (Nat.pow 2 p) × Call w}
    (among : part ∈ c.parts p) : part.2 = c ∨ part.2.isPlain ∧ c.isPlain := by
  cases c with
  | put fp => exact .inr (by rw [List.mem_singleton.1 among]; exact ⟨rfl, rfl⟩)
  | contains fp => exact .inr (by rw [List.mem_singleton.1 among]; exact ⟨rfl, rfl⟩)
  | recoverFingerprint fp => exact .inr (by rw [List.mem_singleton.1 among]; exact ⟨rfl, rfl⟩)
  | putBlock fps =>
    obtain ⟨i, _, rfl⟩ := List.mem_map.1 among
    exact .inr ⟨rfl, rfl⟩
  | containsBlock fps =>
    obtain ⟨i, _, rfl⟩ := List.mem_map.1 among
    exact .inr ⟨rfl, rfl⟩
  | _ =>
    obtain ⟨i, _, rfl⟩ := List.mem_map.1 among
    exact .inl rfl

/-- The parts of a plain call are plain. -/
theorem Call.isPlain_of_mem_parts {c : Call w} {part : Fin (Nat.pow 2 p) × Call w}
    (among : part ∈ c.parts p) (isPlain : c.isPlain) : part.2.isPlain := by
  rcases eq_or_isPlain among with same | ⟨own, _⟩
  · rw [same]
    exact isPlain
  · exact own

/-- The part of a call for a shard puts those of its fingerprints that are of the shard. -/
theorem Call.mem_puts_part {c : Call w} {part : Fin (Nat.pow 2 p) × Call w}
    (among : part ∈ c.parts p) (fp : Fingerprint w) :
    fp ∈ part.2.puts ↔ fp ∈ c.puts ∧ fp.shard p = part.1 := by
  have one (other : Fingerprint w) (same : fp ∈ [other] ↔ fp = other) :
      fp ∈ [other] ↔ fp ∈ [other] ∧ fp.shard p = other.shard p :=
    ⟨fun own => ⟨own, congrArg _ (same.1 own)⟩, fun both => both.1⟩
  cases c with
  | put other =>
    rw [List.mem_singleton.1 among]
    exact one other List.mem_singleton
  | recoverFingerprint other =>
    rw [List.mem_singleton.1 among]
    exact one other List.mem_singleton
  | contains other =>
    rw [List.mem_singleton.1 among]
    simp [puts]
  | putBlock fps =>
    obtain ⟨i, _, rfl⟩ := List.mem_map.1 among
    simp [puts, List.mem_filter]
  | _ =>
    obtain ⟨i, _, rfl⟩ := List.mem_map.1 among
    simp [puts]

/-- A call puts fingerprints of those shards only that it calls. -/
theorem Call.shard_mem_parts {c : Call w} {fp : Fingerprint w} (puts : fp ∈ c.puts) :
    fp.shard p ∈ (c.parts p).map Prod.fst := by
  cases c with
  | put other => simp [parts, List.mem_singleton.1 puts]
  | recoverFingerprint other => simp [parts, List.mem_singleton.1 puts]
  | putBlock fps => simp [parts]
  | _ => contradiction

namespace ShardedSet

/-- What every part of a call keeps the call keeps, also when it fails. -/
theorem keeps_onShards (kept : ShardedSet w p → Host → Prop) (c : Call w)
    (step : ∀ part ∈ c.parts p, ∀ s h, kept s h →
      kept (onShard part.2.onShard part.1 s h).set (onShard part.2.onShard part.1 s h).host)
    {s : ShardedSet w p} {h : Host} (start : kept s h) :
    kept (c.onShards s h).set (c.onShards s h).host := by
  obtain ⟨f, parts⟩ := c.onShards_eq p
  rw [parts]
  exact Outcome.each_keeps kept step start

/-! ## Disk-backed shards -/

/-- Every shard is disk-backed, and holds of its set and the files what is to hold of it. -/
def Each (holds : Fin (Nat.pow 2 p) → DiskSet w → Files → Prop) (s : ShardedSet w p)
    (t : Files) : Prop :=
  ∀ i, ∃ d, s.shards.get i = .disk d ∧ holds i d t

namespace Each

variable {before after : Fin (Nat.pow 2 p) → DiskSet w → Files → Prop}
  {s : ShardedSet w p} {h : Host}

/-- What holds of each shard can be weakened. -/
theorem mono {t : Files} (each : Each before s t)
    (weaker : ∀ i d, before i d t → after i d t) : Each after s t := fun i =>
  let ⟨d, here, holds⟩ := each i
  ⟨d, here, weaker i d holds⟩

/-- A call of one shard comes to that of its set. When that takes its shard and the files, and the
other shards, from one thing that holds of each to another, the call of the shard does. -/
theorem onShard (after : Fin (Nat.pow 2 p) → DiskSet w → Files → Prop)
    (each : Each before s h.files) (i : Fin (Nat.pow 2 p)) (c : Call w) :
    ∃ d, s.shards.get i = .disk d ∧ before i d h.files ∧
      (ShardedSet.onShard c.onShard i s h).answer = (c.perform d h).answer ∧
      (ShardedSet.onShard c.onShard i s h).host = (c.perform d h).host ∧
      (after i (c.perform d h).set (c.perform d h).host.files →
        (∀ j ≠ i, ∀ e, before j e h.files → after j e (c.perform d h).host.files) →
        Each after (ShardedSet.onShard c.onShard i s h).set (c.perform d h).host.files) := by
  obtain ⟨d, here, holds⟩ := each i
  refine ⟨d, here, holds, ?_⟩
  rw [onShard_eq, here, Call.onShard_disk]
  refine ⟨rfl, rfl, fun own others j => ?_⟩
  change ∃ e, (s.shards.set i _).get j = .disk e ∧ _
  rw [get_set]
  by_cases same : i = j
  · subst same
    rw [if_pos rfl]
    exact ⟨_, rfl, own⟩
  · obtain ⟨e, there, holds⟩ := each j
    rw [if_neg same]
    exact ⟨e, there, others j (Ne.symm same) e holds⟩

-- How a call of a shard changes the files.
variable (changes : Fin (Nat.pow 2 p) → Files → Files → Prop)

/-- Of calls of different shards the first takes its shard where its own takes it, and the others
are still to be called. -/
theorem onFirst {part : Fin (Nat.pow 2 p) × Call w} {rest : List (Fin (Nat.pow 2 p) × Call w)}
    (fresh : part.1 ∉ rest.map Prod.fst)
    (each : Each (fun i d t => if i ∈ (part :: rest).map Prod.fst then before i d t
      else after i d t) s h.files)
    (others : ∀ i j, i ≠ j → ∀ d t u, changes j t u →
      (before i d t → before i d u) ∧ (after i d t → after i d u)) :
    ∃ d, before part.1 d h.files ∧
      (ShardedSet.onShard part.2.onShard part.1 s h).answer = (part.2.perform d h).answer ∧
      (after part.1 (part.2.perform d h).set (part.2.perform d h).host.files →
        changes part.1 h.files (part.2.perform d h).host.files →
        Each (fun i d t => if i ∈ rest.map Prod.fst then before i d t else after i d t)
          (ShardedSet.onShard part.2.onShard part.1 s h).set
          (ShardedSet.onShard part.2.onShard part.1 s h).host.files) := by
  obtain ⟨d, _, holds, answer, host, all⟩ := each.onShard
    (fun i d t => if i ∈ rest.map Prod.fst then before i d t else after i d t) part.1 part.2
  rw [List.map_cons, if_pos List.mem_cons_self] at holds
  rw [List.map_cons] at all
  refine ⟨d, holds, answer, fun moved changed => ?_⟩
  rw [host]
  refine all ?_ fun j differ e holds => ?_
  · rwa [if_neg fresh]
  · have kept := others j part.1 differ e _ _ changed
    by_cases left : j ∈ rest.map Prod.fst
    · rw [if_pos (List.mem_cons_of_mem _ left)] at holds
      rw [if_pos left]
      exact kept.1 holds
    · rw [if_neg fun among => (List.mem_cons.1 among).elim differ left] at holds
      rw [if_neg left]
      exact kept.2 holds

/-- Calls of different shards with any outcome take each of these where its own takes it, or leave
it where it is, which is there too. -/
theorem keeps_each {parts : List (Fin (Nat.pow 2 p) × Call w)}
    (distinct : (parts.map Prod.fst).Nodup)
    (each : Each (fun i d t => if i ∈ parts.map Prod.fst then before i d t else after i d t) s
      h.files)
    (stays : ∀ i d t, before i d t → after i d t)
    (own : ∀ part ∈ parts, ∀ d h, before part.1 d h.files →
      after part.1 (part.2.perform d h).set (part.2.perform d h).host.files ∧
        changes part.1 h.files (part.2.perform d h).host.files)
    (others : ∀ i j, i ≠ j → ∀ d t u, changes j t u →
      (before i d t → before i d u) ∧ (after i d t → after i d u)) :
    Each after (Outcome.each (fun part => ShardedSet.onShard part.2.onShard part.1) parts s h).set
      (Outcome.each (fun part => ShardedSet.onShard part.2.onShard part.1) parts s
        h).host.files := by
  have all {parts : List (Fin (Nat.pow 2 p) × Call w)} {s : ShardedSet w p} {t : Files}
      (each : Each (fun i d t => if i ∈ parts.map Prod.fst then before i d t else after i d t)
        s t) : Each after s t :=
    each.mono fun i d holds => by
      split at holds
      · exact stays i d t holds
      · exact holds
  induction parts generalizing s h with
  | nil => exact all each
  | cons part rest ih =>
    obtain ⟨fresh, distinct⟩ := List.nodup_cons.1 distinct
    obtain ⟨d, holds, answer, moves⟩ := each.onFirst changes fresh others
    obtain ⟨moved, changed⟩ := own part List.mem_cons_self d h holds
    have left := moves moved changed
    simp only [Outcome.each, Outcome.andThen, answer]
    cases (part.2.perform d h).answer with
    | error e => exact all left
    | ok found => exact ih distinct left fun part among => own part (List.mem_cons_of_mem _ among)

/-- What its part of a call takes each shard to, and the changes of the others' files keep it in,
the call takes all shards to, also when it fails, as long as they are there before. -/
theorem keeps {c : Call w} (each : Each before s h.files)
    (stays : ∀ i d t, before i d t → after i d t)
    (own : ∀ part ∈ c.parts p, ∀ d h, before part.1 d h.files →
      after part.1 (part.2.perform d h).set (part.2.perform d h).host.files ∧
        changes part.1 h.files (part.2.perform d h).host.files)
    (others : ∀ i j, i ≠ j → ∀ d t u, changes j t u →
      (before i d t → before i d u) ∧ (after i d t → after i d u)) :
    Each after (c.onShards s h).set (c.onShards s h).host.files := by
  obtain ⟨f, parts⟩ := c.onShards_eq p
  rw [parts]
  refine keeps_each changes c.nodup_parts (each.mono fun i d holds => ?_) stays own others
  split
  · exact holds
  · exact stays i d _ holds

/-- Calls of different shards that all succeed take each of these where its own takes it, and leave
the others where they are. -/
theorem run_each {parts : List (Fin (Nat.pow 2 p) × Call w)}
    (distinct : (parts.map Prod.fst).Nodup)
    (each : Each (fun i d t => if i ∈ parts.map Prod.fst then before i d t else after i d t) s
      h.files)
    (own : ∀ part ∈ parts, ∀ d h, before part.1 d h.files → (part.2.perform d h).answer.isOk →
      after part.1 (part.2.perform d h).set (part.2.perform d h).host.files ∧
        changes part.1 h.files (part.2.perform d h).host.files)
    (others : ∀ i j, i ≠ j → ∀ d t u, changes j t u →
      (before i d t → before i d u) ∧ (after i d t → after i d u))
    (succeeds : (Outcome.each (fun part => ShardedSet.onShard part.2.onShard part.1) parts s
      h).answer.isOk) :
    Each after (Outcome.each (fun part => ShardedSet.onShard part.2.onShard part.1) parts s h).set
      (Outcome.each (fun part => ShardedSet.onShard part.2.onShard part.1) parts s
        h).host.files := by
  induction parts generalizing s h with
  | nil => exact each.mono fun i d holds => by simpa using holds
  | cons part rest ih =>
    obtain ⟨fresh, distinct⟩ := List.nodup_cons.1 distinct
    obtain ⟨d, holds, answer, moves⟩ := each.onFirst changes fresh others
    simp only [Outcome.each, Outcome.andThen] at succeeds ⊢
    cases done : (part.2.perform d h).answer with
    | error e =>
      rw [answer, done] at succeeds
      contradiction
    | ok found =>
      obtain ⟨moved, changed⟩ := own part List.mem_cons_self d h holds (by rw [done]; rfl)
      simp only [answer, done] at succeeds ⊢
      exact ih distinct (moves moved changed)
        (fun part among => own part (List.mem_cons_of_mem _ among))
        (DiskSet.isOk_of_isOk_map succeeds)

/-- A call that succeeds takes each shard where its part of the call takes it. -/
theorem run {c : Call w} (each : Each before s h.files)
    (own : ∀ part ∈ c.parts p, ∀ d h, before part.1 d h.files →
      (part.2.perform d h).answer.isOk →
      after part.1 (part.2.perform d h).set (part.2.perform d h).host.files ∧
        changes part.1 h.files (part.2.perform d h).host.files)
    (rest : ∀ i, i ∉ (c.parts p).map Prod.fst → ∀ d t, before i d t → after i d t)
    (others : ∀ i j, i ≠ j → ∀ d t u, changes j t u →
      (before i d t → before i d u) ∧ (after i d t → after i d u))
    (succeeds : (c.onShards s h).answer.isOk) :
    Each after (c.onShards s h).set (c.onShards s h).host.files := by
  obtain ⟨f, parts⟩ := c.onShards_eq p
  rw [parts] at succeeds ⊢
  refine run_each changes c.nodup_parts (each.mono fun i d holds => ?_) own others
    (DiskSet.isOk_of_isOk_map succeeds)
  split
  · exact holds
  · next absent => exact rest i absent d _ holds

/-- A call fails if its part for a shard does. -/
theorem not_isOk {c : Call w} (each : Each before s h.files) {i : Fin (Nat.pow 2 p)}
    (called : i ∈ (c.parts p).map Prod.fst)
    (own : ∀ part ∈ c.parts p, ∀ d h, before part.1 d h.files →
      changes part.1 h.files (part.2.perform d h).host.files)
    (others : ∀ i j, i ≠ j → ∀ d t u, before i d t → changes j t u → before i d u)
    (fails : ∀ part ∈ c.parts p, part.1 = i → ∀ d h, before part.1 d h.files →
      ¬ (part.2.perform d h).answer.isOk) :
    ¬ (c.onShards s h).answer.isOk := by
  intro succeeds
  have none : Each (fun j _ _ => j ≠ i) (c.onShards s h).set (c.onShards s h).host.files := by
    refine run changes each
      (fun part among d h holds isOk => ⟨fun same => ?_, own part among d h holds⟩)
      (fun j absent _ _ _ same => absent (same ▸ called))
      (fun j k differ d t u changed => ⟨fun holds => others j k differ d t u holds changed, id⟩)
      succeeds
    exact fails part among same d h holds isOk
  obtain ⟨_, _, differ⟩ := none i
  exact differ rfl

end Each

end ShardedSet

end SeenStates
