import SeenStates.Proofs.LiveSlots
import SeenStates.Proofs.ScanOrder

/-!
# What a scan gives

A scan of a table, whatever is in its slots, gives the live fingerprints of all slots as often as
they are there, bucket by bucket and each bucket in order, and then nothing more
(`Table.scanGives`). If they are in their own buckets, of one shard and none is there twice, the
order is that of the fingerprints.
-/
namespace SeenStates

variable {w : Width}

namespace Table

/-- Every region has an arena, with as many slots as the geometry gives a region. -/
structure Complete (t : Table w) : Prop where
  /-- There is an arena for each region. -/
  regions : t.regions.size = t.geometry.regionCount
  /-- An arena has the slots of a region. -/
  sized : ∀ arena ∈ t.regions, arena.size = t.geometry.slotsPerRegion

/-- A table that is complete has the slots of its buckets in each region. -/
theorem Complete.shaped {t : Table w} (complete : t.Complete) :
    t.Shaped t.geometry.prefixBits :=
  ⟨rfl, fun _ arena there => complete.sized arena (Array.mem_of_getElem? there)⟩

/-- The slots of each bucket are slots of its region. -/
theorem Complete.within {t : Table w} (complete : t.Complete) {r n : Nat}
    (inTable : r < t.geometry.regionCount) (inRegion : n < t.geometry.bucketsPerRegion) :
    n * t.geometry.bucketCapacity + t.geometry.bucketCapacity ≤ (t.region r).size := by
  have there := getElem?_regions (complete.regions ▸ inTable)
  rw [complete.sized _ (Array.mem_of_getElem? there)]
  exact t.geometry.bucket_slots_le inRegion

/-- What a scan of a table gives. -/
structure ScanGives (t : Table w) (output : List (Fingerprint w)) : Prop where
  /-- The calls give the output and then nothing more. -/
  answers : ∀ n, (Stream.next (Stream.after (Scan.start t) n)).1 = output[n]?
  /-- The output has the live fingerprints of all slots, each as often as it is there. -/
  live : output.Perm t.live
  /-- No bucket goes beyond its region. -/
  within : ∀ r < t.geometry.regionCount, ∀ n < t.geometry.bucketsPerRegion,
    ((t.region r).liveIn? (n * t.geometry.bucketCapacity) t.geometry.bucketCapacity).isSome
  /-- It is cut into one part for each bucket, in the order of the buckets: the live fingerprints of
  the bucket's slots, in order. -/
  parts : ∃ part : Nat → List (Fingerprint w),
    output = (List.range t.geometry.bucketCount).flatMap part ∧
      ∀ bucket < t.geometry.bucketCount,
        (part bucket).Perm (liveIn (t.slotsOf (bucket / t.geometry.bucketsPerRegion)
          (bucket % t.geometry.bucketsPerRegion))) ∧
        (part bucket).Pairwise (· ≤ ·)
  /-- If all live fingerprints are in their own buckets, of one shard and different, the output
  ascends. -/
  ascending : t.Homed → (∀ a ∈ t.live, ∀ b ∈ t.live, SameShard t.geometry.prefixBits a b) →
    t.live.Nodup → Ascending output

/-- A scan of a complete table gives its live fingerprints. -/
theorem scanGives {t : Table w} (complete : t.Complete) :
    t.ScanGives (Stream.values (Scan.start t)) := by
  have live : t.live.Perm t.scan := perm_live complete.regions complete.shaped
  constructor
  case answers =>
    intro n
    rw [Stream.next_after, Stream.values_eq]
  case live => exact live.symm
  case within =>
    intro r inTable n inRegion
    rw [Arena.liveIn?, if_pos (complete.within inTable inRegion)]
    rfl
  case parts =>
    refine ⟨_, t.scan_eq, fun bucket _ => ?_⟩
    rw [liveAt_eq]
    exact ⟨perm_sortFew _, ordered_sortFew _⟩
  case ascending =>
    intro homed shared once
    exact homed.ascending_scan (live.nodup_iff.1 once) fun a first b second =>
      shared a (live.mem_iff.2 first) b (live.mem_iff.2 second)

/-- A table of two regions with one bucket each: in one of them two live fingerprints around an
archived one, the greater one in front, and in the other an empty slot in front of a third. -/
def sample : Table .bits64 where
  geometry := ⟨40, 0, 1, by decide⟩
  regions := #[
    (((Arena.blank _ 20).set 0 (.live (.ofNat _ 5))).set 1 (.archived (.ofNat _ 4))).set 2
      (.live (.ofNat _ 3)),
    (Arena.blank _ 20).set 1 (.live (.ofNat _ (Nat.pow 2 63)))]

/-- The three live fingerprints are given in order. -/
theorem scanGives_sample :
    sample.Complete ∧ sample.ScanGives [.ofNat _ 3, .ofNat _ 5, .ofNat _ (Nat.pow 2 63)] := by
  have complete : sample.Complete := ⟨by decide, by decide +kernel⟩
  have values : Stream.values (Scan.start sample) =
      [.ofNat _ 3, .ofNat _ 5, .ofNat _ (Nat.pow 2 63)] := by decide +kernel
  exact ⟨complete, values ▸ scanGives complete⟩

end Table

end SeenStates
