import Mathlib.Algebra.Order.BigOperators.Group.List
import Mathlib.Algebra.Order.Group.Nat
import SeenStates.Proofs.CallSteps
import SeenStates.Proofs.ShardConfinement
import SeenStates.Proofs.TableLayout

/-!
# The memory budget

The tables of a disk-backed set have no more slots, and no more bytes, than the budget of its
configuration, however many shards share it, and whatever comes of the set (`budgeted_of_open`).
Every quotient on the way to a table is rounded down, and fewer slots than one of each bucket are
left over from the share of a table (`Table.Uses`).
-/
namespace SeenStates

variable {w : Width}

/-! ## Sums -/

/-- A sum is no greater where no term is. -/
theorem sum_map_le {α : Type} {f : α → Nat} {as bs : List α}
    (fewer : List.Forall₂ (fun a b => f b ≤ f a) as bs) : (bs.map f).sum ≤ (as.map f).sum := by
  apply List.Forall₂.sum_le_sum
  rw [List.forall₂_map_left_iff, List.forall₂_map_right_iff]
  exact fewer.flip

/-- Shares that are rounded down are no more together than what is shared. -/
theorem sum_map_le_of_shares {α : Type} {as : List α} {f : α → Nat} {n : Nat}
    (shares : ∀ a ∈ as, f a ≤ n / as.length) : (as.map f).sum ≤ n := by
  have each : ∀ x ∈ as.map f, x ≤ n / as.length := by simpa using shares
  calc
    _ ≤ (as.map f).length • (n / as.length) := List.sum_le_card_nsmul _ _ each
    _ = as.length * (n / as.length) := by rw [List.length_map, smul_eq_mul]
    _ ≤ n := Nat.mul_div_le n as.length

/-! ## Slots and bytes -/

/-- More slots count for no fewer bytes. -/
theorem Arena.bytes_le {a b : Arena w} (fewer : b.size ≤ a.size) : b.bytes ≤ a.bytes := by
  have product : b.size * w.slotBytes ≤ a.size * w.slotBytes := Nat.mul_le_mul_right _ fewer
  show min (b.size * w.slotBytes) _ ≤ min (a.size * w.slotBytes) _
  omega

/-- Slots whose words fit a block of memory count for bytes that can be counted. -/
theorem Arena.slotBytes_lt {n : Nat} (fits : n * w.words * 8 < blockLimit) :
    n * w.slotBytes < countLimit := by
  have split : n * w.slotBytes = n * w.words * 8 + n := by
    rw [Width.slotBytes, Width.bytes, Nat.mul_add_one, Nat.mul_comm 8, ← Nat.mul_assoc]
  have slots : n ≤ n * w.words := Nat.le_mul_of_pos_right n w.words_pos
  have limits : blockLimit + blockLimit = countLimit := by decide
  omega

namespace Table

/-- The slots of all regions. -/
def slotCount (t : Table w) : Nat := (t.regions.toList.map Arena.size).sum

/-- The bytes that the slots of all regions count for. -/
def byteCount (t : Table w) : Nat := (t.regions.toList.map Arena.bytes).sum

/-- A table has as many regions as another one, and none with more slots. -/
def Shrinks (t u : Table w) : Prop :=
  List.Forall₂ (fun a b => b.size ≤ a.size) t.regions.toList u.regions.toList

/-- A table that shrinks has no more slots and no more bytes. -/
theorem Shrinks.counts {t u : Table w} (shrinks : t.Shrinks u) :
    u.slotCount ≤ t.slotCount ∧ u.byteCount ≤ t.byteCount :=
  ⟨sum_map_le shrinks, sum_map_le (shrinks.imp fun _ _ fewer => Arena.bytes_le fewer)⟩

/-- A table does not shrink. -/
theorem Shrinks.refl (t : Table w) : t.Shrinks t := List.forall₂_same.2 fun _ _ => Nat.le_refl _

/-- A table that shrinks twice shrinks. -/
theorem Shrinks.trans {t u v : Table w} (first : t.Shrinks u) (second : u.Shrinks v) :
    t.Shrinks v := by
  obtain ⟨regions, fewer⟩ := List.forall₂_iff_get.1 first
  obtain ⟨regions', fewer'⟩ := List.forall₂_iff_get.1 second
  refine List.forall₂_iff_get.2 ⟨regions.trans regions', fun r inside inside' => ?_⟩
  exact (fewer' r (regions ▸ inside) inside').trans (fewer r inside (regions ▸ inside))

/-- A table shrinks by a change of every region that gives it no more slots. -/
theorem shrinks_map (t : Table w) {f : Arena w → Arena w} (fewer : ∀ a, (f a).size ≤ a.size) :
    t.Shrinks { t with regions := t.regions.map f } := by
  unfold Shrinks
  rw [Array.toList_map, List.forall₂_map_right_iff]
  exact List.forall₂_same.2 fun a _ => fewer a

/-- A table keeps its slots when a fingerprint is stored. -/
theorem shrinks_store (t : Table w) (fp : Fingerprint w) (position : Nat) :
    t.Shrinks (t.store fp position) := by
  refine List.forall₂_iff_get.2 ⟨by simp [store], fun r inside inside' => ?_⟩
  simp only [store, List.get_eq_getElem, Array.getElem_toList, Array.getElem_modify]
  split
  · exact Nat.le_of_eq (Arena.size_set ..)
  · exact Nat.le_refl _

end Table

/-- The table of a set shrinks at most, whatever calls make of the set. -/
theorem DiskSet.lasting_shrinks : Lasting fun s u : DiskSet w => s.table.Shrinks u.table where
  refl s := .refl s.table
  trans left right := left.trans right
  step {s u} step := by
    cases step with
    | inserted fp opening =>
      cases opening with
      | none => exact .refl s.table
      | some position => exact s.table.shrinks_store fp position
    | counted place => cases place <;> exact .refl s.table
    | requested => exact .refl s.table
    | unrequested => exact .refl s.table
    | settled entries => exact s.table.shrinks_map fun _ => Nat.le_refl _
  ending {s u} ending := by
    cases ending with
    | kept => exact .refl s.table
    | remapped disk mapped => exact .refl s.table
    | recovered disk mapped => exact s.table.shrinks_map fun _ => Nat.le_refl _
    | lost disk => exact .refl s.table
    | released => exact s.table.shrinks_map fun _ => Nat.zero_le _

/-! ## Shares -/

/-- A table that uses its share of a budget, counted in slots. -/
structure Table.Uses (share : Nat) (t : Table w) : Prop where
  /-- Its regions have the usable slots. -/
  slots : t.slotCount = t.geometry.tableLength
  /-- Fewer slots than one of each bucket are left over from the share. -/
  share : t.geometry.tableLength ≤ share ∧
    share < t.geometry.tableLength + t.geometry.bucketCount
  /-- The bytes are those of all slots, none of them cut off. -/
  bytes : t.byteCount = t.slotCount * w.slotBytes
  /-- It is laid out, and no count on the way is out of range. -/
  laidOut : t.geometry.LaidOut
  /-- The words and the bytes of a region's slots can be counted. -/
  regions : ∀ arena ∈ t.regions,
    arena.size * w.words < countLimit ∧ arena.size * w.slotBytes < countLimit

/-- A table that is laid out uses the share that its configuration has memory for. -/
theorem DiskSet.Layout.uses {machine : Machine} {share : Nat} {c : Config} {t : Table w}
    (layout : Layout machine c t) (memory : c.memorySlots machine.available = .ok share)
    (counted : share < countLimit) : t.Uses share := by
  obtain ⟨slots, resolved, geometry⟩ := layout.geometry
  obtain rfl := Except.ok.inj (resolved.symm.trans memory)
  obtain ⟨capacity, routing⟩ := Geometry.make_eq_ok geometry
  obtain ⟨same, arena⟩ := Table.make_eq_ok layout.made
  obtain ⟨_, words, fits⟩ := Arena.make_eq_ok arena
  have few : t.geometry.prefixBits < wordBits := by
    rw [routing]
    exact Nat.lt_of_le_of_lt (Config.usable_of_validate layout.valid).prefixBits (by decide)
  have regions : t.regions =
      Array.replicate t.geometry.regionCount (.blank w t.geometry.slotsPerRegion) := by
    conv => lhs; rw [same]
  have bytes : t.geometry.slotsPerRegion * w.slotBytes < countLimit :=
    Arena.slotBytes_lt fits
  have whole : t.slotCount = t.geometry.tableLength := by
    rw [Table.slotCount, regions, Array.toList_replicate, List.map_replicate, List.sum_replicate,
      smul_eq_mul]
    exact t.geometry.regionCount_mul_slots
  constructor
  case slots => exact whole
  case share =>
    rw [← capacity]
    exact ⟨t.geometry.tableLength_le, t.geometry.capacity_lt⟩
  case bytes =>
    have region : (Arena.blank w t.geometry.slotsPerRegion).bytes =
        t.geometry.slotsPerRegion * w.slotBytes := Nat.min_eq_left (Nat.le_sub_one_of_lt bytes)
    rw [whole, ← t.geometry.regionCount_mul_slots, Table.byteCount, regions,
      Array.toList_replicate, List.map_replicate, List.sum_replicate, smul_eq_mul, region,
      Nat.mul_assoc]
  case laidOut => exact t.geometry.laidOut few (capacity ▸ counted)
  case regions =>
    intro arena among
    rw [regions] at among
    obtain rfl := (Array.mem_replicate.1 among).2
    exact ⟨words, bytes⟩

/-- A shard has an equal share of the budget of the whole set. -/
theorem Config.memory_of_shard {available k : Nat} {c d : Config}
    (cut : c.shard available k = .ok d) :
    d.width = c.width ∧ (∀ n, c.memory = .bytes n → d.memory = .bytes (n / c.shardCount)) ∧
      ∀ n, c.memory = .fingerprints n → d.memory = .fingerprints (n / c.shardCount) := by
  unfold shard at cut
  split at cut
  · next n memory =>
    obtain rfl := Except.ok.inj cut
    refine ⟨rfl, fun m bytes => ?_, fun m fingerprints => ?_⟩
    · rw [memory] at bytes
      contradiction
    · rw [memory, Budget.fingerprints.injEq] at fingerprints
      rw [fingerprints]
  · next other =>
    cases resolved : c.memoryBytes available with
    | error e => simp [resolved, Except.map, bind, Except.bind] at cut
    | ok n =>
      rw [resolved] at cut
      obtain rfl := Except.ok.inj cut
      refine ⟨rfl, fun m bytes => ?_, fun m fingerprints => absurd fingerprints (other m)⟩
      rw [memoryBytes, bytes] at resolved
      rw [Except.ok.inj resolved]

/-! ## Opened sets -/

namespace Way

/-- The tables of a set of a configuration: one for each shard. -/
def tableCount (way : Way) (c : Config) : Nat := if way.cuts c then c.shardCount else 1

/-- The configurations of a set's tables: those of its shards, or its own. -/
def HasPart (way : Way) (machine : Machine) (c d : Config) : Prop :=
  if way.cuts c then ∃ k, c.shard machine.available k = .ok d else d = c

/-- A disk-backed set of a configuration, just opened with its table laid out. -/
structure Parted (way : Way) (machine : Machine) (c : Config) (d : DiskSet w) : Prop where
  /-- It is sturdy. -/
  sturdy : d.Sturdy
  /-- It is of a part of the configuration. -/
  part : way.HasPart machine c d.config
  /-- Its table was laid out for that. -/
  layout : DiskSet.Layout machine d.config d.table

/-- A disk-backed set that opens is sturdy, of its configuration and with a table for that. -/
theorem parted_of_open {way : Way} {machine : Machine} {c part : Config} {h g : Host}
    {d : DiskSet w} (has : way.HasPart machine c part)
    (opened : DiskSet.open w machine part h = (.ok d, g)) : way.Parted machine c d := by
  obtain ⟨rfl, layout, _⟩ := DiskSet.layout_of_open opened
  exact ⟨DiskSet.sturdy_of_open opened, has, layout⟩

/-- The shards of an opened set are parts of it. -/
theorem parted_of_openShards {way : Way} {machine : Machine} {c : Config} (kind : c.kind = .disk)
    (cut : way.cuts c) {h after : Host} {s : ShardedSet w c.prefixBits}
    (opened : ShardedSet.open w machine c h = (.ok s, after)) (i : Fin (Nat.pow 2 c.prefixBits)) :
    ∃ d, s.shards.get i = .disk d ∧ way.Parted machine c d := by
  let parted {k : Nat} (shards : Vector (Shard w) k) (_ : Files) : Prop :=
    ∀ i, ∃ d, shards.get i = .disk d ∧ way.Parted machine c d
  have step {k : Nat} {shards : Vector (Shard w) k} {part : Config} {shard : Shard w} {h g : Host}
      (before : parted shards h.files) (piece : c.shard machine.available k = .ok part)
      (opens : Shard.open w machine part h = (.ok shard, g)) :
      parted (shards.push shard) g.files := by
    intro i
    rcases ShardedSet.get_push shards shard i with ⟨_, here⟩ | ⟨inFront, here⟩
    · obtain ⟨d, rfl, opened⟩ := Shard.open_eq_ok ((Config.shard_eq_ok piece).2.trans kind) opens
      have has : way.HasPart machine c part := by
        rw [HasPart, if_pos cut]
        exact ⟨k, piece⟩
      exact ⟨d, here, parted_of_open has opened⟩
    · rw [here]
      exact before ⟨i, inFront⟩
  unfold ShardedSet.open at opened
  split at opened
  · cases (Prod.mk.inj opened).1
  · split at opened
    · cases (Prod.mk.inj opened).1
    · next shards g result =>
      obtain rfl := Except.ok.inj (Prod.mk.inj opened).1
      exact ShardedSet.openShards_induct parted step (fun i => i.elim0) result i

/-- The disk-backed sets of an opened one are its parts, as many as it has tables. -/
theorem disks_of_open {way : Way} {machine : Machine} {c : Config} (kind : c.kind = .disk)
    {h after : Host} {s : FingerprintSet w}
    (opened : way.open w machine c h = (.ok s, after)) :
    s.disks.length = way.tableCount c ∧ ∀ d ∈ s.disks, way.Parted machine c d := by
  rcases open_eq_ok kind opened with ⟨whole, d, rfl, opens⟩ | ⟨cut, shards, rfl, opens⟩
  · refine ⟨by simp [FingerprintSet.disks, Shard.disk?, tableCount, whole], fun e among => ?_⟩
    obtain rfl := List.mem_singleton.1 among
    exact parted_of_open (by simp [HasPart, whole]) opens
  · choose d disk parted using parted_of_openShards kind cut opens
    have disks : (FingerprintSet.sharded _ shards).disks = (List.finRange _).map d := by
      simp only [FingerprintSet.disks, disk, Shard.disk?, List.filterMap_eq_map']
    rw [disks]
    refine ⟨by simp [tableCount, cut, Config.shardCount], fun e among => ?_⟩
    obtain ⟨i, _, rfl⟩ := List.mem_map.1 among
    exact parted i

/-- A part has an equal share of a budget. -/
theorem HasPart.memory {way : Way} {machine : Machine} {c d : Config}
    (has : way.HasPart machine c d) :
    (∀ n, c.memory = .bytes n → d.memory = .bytes (n / way.tableCount c)) ∧
      ∀ n, c.memory = .fingerprints n → d.memory = .fingerprints (n / way.tableCount c) := by
  unfold HasPart at has
  unfold tableCount
  split at has
  · next cut =>
    obtain ⟨k, piece⟩ := has
    rw [if_pos cut]
    exact (Config.memory_of_shard piece).2
  · next whole =>
    rw [if_neg whole, has]
    simp only [Nat.div_one, imp_self, implies_true, and_self]

/-- The table of a part uses its share. -/
theorem Parted.uses {way : Way} {machine : Machine} {c : Config} {d : DiskSet w}
    (parted : way.Parted machine c d) {n : Nat} (counted : n < countLimit) :
    (c.memory = .bytes n → d.table.Uses (n / way.tableCount c / w.slotBytes)) ∧
      (c.memory = .fingerprints n → d.table.Uses (n / way.tableCount c)) := by
  have share : n / way.tableCount c < countLimit :=
    Nat.lt_of_le_of_lt (Nat.div_le_self ..) counted
  constructor
  · intro bytes
    have memory := parted.part.memory.1 n bytes
    refine parted.layout.uses ?_ (Nat.lt_of_le_of_lt (Nat.div_le_self ..) share)
    rw [Config.memorySlots, Config.memoryBytes, memory, parted.layout.width]
    rfl
  · intro fingerprints
    have memory := parted.part.memory.2 n fingerprints
    refine parted.layout.uses ?_ share
    rw [Config.memorySlots, memory]

end Way

/-! ## All tables of a set -/

namespace FingerprintSet

/-- The slots of all tables of a set. -/
def slotCount (s : FingerprintSet w) : Nat := (s.disks.map fun d => d.table.slotCount).sum

/-- The bytes of all tables of a set. -/
def byteCount (s : FingerprintSet w) : Nat := (s.disks.map fun d => d.table.byteCount).sum

/-- Whatever comes of a set of sturdy sets, it has no more slots and no more bytes. -/
theorem Sequel.counts {s u : FingerprintSet w} {h g : Host} (sequel : s.Sequel h u g)
    (sturdy : ∀ d ∈ s.disks, d.Sturdy) :
    u.slotCount ≤ s.slotCount ∧ u.byteCount ≤ s.byteCount := by
  have related := related_of_sequel DiskSet.lasting_shrinks sturdy sequel
  exact ⟨sum_map_le (related.imp fun _ _ both => both.2.counts.1),
    sum_map_le (related.imp fun _ _ both => both.2.counts.2)⟩

end FingerprintSet

/-- The tables of a disk-backed set that opens, whichever way, have no more bytes or slots together
than its budget, each of them uses its share, and all counts on the way are in range. Whatever
comes of the set, it has no more. -/
theorem budgeted_of_open {way : Way} {machine : Machine} {c : Config} (kind : c.kind = .disk)
    {h after : Host} {s : FingerprintSet w}
    (opened : way.open w machine c h = (.ok s, after)) :
    s.disks.length = way.tableCount c ∧
      (∀ n < countLimit, c.memory = .bytes n →
        (∀ d ∈ s.disks, d.table.Uses (n / way.tableCount c / w.slotBytes)) ∧
          ∀ u g, s.Sequel after u g → u.byteCount ≤ n) ∧
      ∀ n < countLimit, c.memory = .fingerprints n →
        (∀ d ∈ s.disks, d.table.Uses (n / way.tableCount c)) ∧
          ∀ u g, s.Sequel after u g → u.slotCount ≤ n := by
  obtain ⟨count, parts⟩ := Way.disks_of_open kind opened
  have sturdy : ∀ d ∈ s.disks, d.Sturdy := fun d among => (parts d among).sturdy
  refine ⟨count, fun n counted bytes => ?_, fun n counted fingerprints => ?_⟩
  · have uses := fun d among => ((parts d among).uses counted).1 bytes
    have share : ∀ d ∈ s.disks, d.table.byteCount ≤ n / s.disks.length := by
      intro d among
      have table := uses d among
      rw [table.bytes, table.slots, count]
      exact (Nat.le_div_iff_mul_le (Nat.succ_pos _)).1 table.share.1
    exact ⟨uses, fun u g sequel => (sequel.counts sturdy).2.trans (sum_map_le_of_shares share)⟩
  · have uses := fun d among => ((parts d among).uses counted).2 fingerprints
    have share : ∀ d ∈ s.disks, d.table.slotCount ≤ n / s.disks.length := by
      intro d among
      rw [(uses d among).slots, count]
      exact (uses d among).share.1
    exact ⟨uses, fun u g sequel => (sequel.counts sturdy).1.trans (sum_map_le_of_shares share)⟩

/-- The configuration of two shards that have a hundred bytes together. -/
def hundredConfig : Config := { shardedConfig with memory := .bytes 100 }

/-- A set of two shards can be opened with it. -/
theorem isSome_open_hundred :
    (Way.configured.open .bits64 sampleMachine hundredConfig .empty).1.toOption.isSome := by
  decide +kernel

/-- Two shards that share a hundred bytes have five slots of nine bytes each. -/
theorem budgeted_of_open_hundred :
    let s := (Way.configured.open .bits64 sampleMachine hundredConfig .empty).1.toOption.get
      isSome_open_hundred
    s.disks.length = 2 ∧ (∀ d ∈ s.disks, d.table.Uses 5) ∧ s.byteCount = 90 ∧
      ∀ u g, s.Sequel (Way.configured.open .bits64 sampleMachine hundredConfig .empty).2 u g →
        u.byteCount ≤ 100 := by
  intro s
  obtain ⟨count, bytes, _⟩ := budgeted_of_open (by rfl) (eq_ok_get isSome_open_hundred)
  obtain ⟨uses, within⟩ := bytes 100 (by decide) rfl
  exact ⟨count, uses, by decide +kernel, within⟩

end SeenStates
