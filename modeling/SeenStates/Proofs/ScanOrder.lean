import SeenStates.Proofs.AddressOrder
import SeenStates.Proofs.Flushing
import SeenStates.Proofs.Tables

/-!
# The order of a scan

Among fingerprints of one shard the bucket of a greater one is not in front of the bucket of a
smaller one, so a scan of a tidy table ascends as a whole (`Table.Tidy.ascending_scan`).
-/
namespace SeenStates

variable {w : Width}

/-- Two fingerprints of one shard. -/
def SameShard (prefixBits : Nat) (a b : Fingerprint w) : Prop :=
  shardIndex a.address prefixBits = shardIndex b.address prefixBits

/-! ## Scans -/

namespace Table

/-- A fingerprint whose bucket is in front of that of another one of its shard is smaller. -/
theorem lt_of_bucket_lt {t : Table w} {a b : Fingerprint w}
    (shared : SameShard t.geometry.prefixBits a b)
    (before : (t.locate a).bucket < (t.locate b).bucket) : a < b :=
  t.geometry.lt_of_bucketOf_lt shared before

/-- Fingerprints that are in order and differ ascend. -/
theorem ascending_of_ordered {fps : List (Fingerprint w)} (ordered : fps.Pairwise (· ≤ ·))
    (once : fps.Nodup) : Ascending fps := by
  refine (ordered.and once).imp ?_
  rintro a b ⟨atMost, differ⟩
  exact Std.lt_of_le_of_ne atMost differ

/-- Every live fingerprint is in its own bucket. -/
def Homed (t : Table w) : Prop :=
  ∀ r n, ∀ fp ∈ liveIn (t.slotsOf r n), (t.locate fp).region = r ∧ t.home fp = n

namespace Homed

variable {t : Table w}

/-- What is scanned in a bucket has that bucket. -/
theorem bucket_of_mem (homed : t.Homed) {bucket : Nat} {fp : Fingerprint w}
    (member : fp ∈ t.liveAt (bucket / t.geometry.bucketsPerRegion)
      (bucket % t.geometry.bucketsPerRegion)) : (t.locate fp).bucket = bucket := by
  rw [liveAt_eq, (perm_sortFew _).mem_iff] at member
  obtain ⟨region, position⟩ := homed _ _ fp member
  rw [bucket_eq, region, position]
  exact Nat.div_add_mod' ..

/-- What is scanned is scanned in its bucket. -/
theorem mem_liveAt (homed : t.Homed) {fp : Fingerprint w} (member : fp ∈ t.scan) :
    fp ∈ t.liveAt ((t.locate fp).bucket / t.geometry.bucketsPerRegion)
      ((t.locate fp).bucket % t.geometry.bucketsPerRegion) := by
  rw [scan_eq, List.mem_flatMap] at member
  obtain ⟨bucket, _, inBucket⟩ := member
  rwa [homed.bucket_of_mem inBucket]

/-- A scan that finds no fingerprint twice ascends exactly if a bucket has smaller fingerprints
than every bucket behind it. -/
theorem ascending_scan_iff (homed : t.Homed) (once : t.scan.Nodup) :
    Ascending t.scan ↔ ∀ a ∈ t.scan, ∀ b ∈ t.scan,
      (t.locate a).bucket < (t.locate b).bucket → a < b := by
  constructor
  · intro ascending a first b second before
    rw [scan_eq] at ascending
    have buckets := List.pairwise_iff_getElem.1 (List.pairwise_flatMap.1 ascending).2
    have inRange (fp : Fingerprint w) :
        (t.locate fp).bucket < (List.range t.geometry.bucketCount).length := by
      rw [List.length_range]
      exact t.geometry.bucketOf_lt fp.address
    have apart := buckets _ _ (inRange a) (inRange b) before
    rw [List.getElem_range, List.getElem_range] at apart
    exact apart a (homed.mem_liveAt first) b (homed.mem_liveAt second)
  · intro ordered
    rw [scan_eq] at once ⊢
    refine List.pairwise_flatMap.2 ⟨fun bucket listed => ?_, ?_⟩
    · exact ascending_of_ordered (ordered_sortFew _)
        ((List.pairwise_flatMap.1 once).1 bucket listed)
    · refine List.pairwise_lt_range.imp_of_mem ?_
      intro i j first second before a inFirst b inSecond
      have scanned : ∀ bucket ∈ List.range t.geometry.bucketCount, ∀ fp ∈ t.liveAt
          (bucket / t.geometry.bucketsPerRegion) (bucket % t.geometry.bucketsPerRegion),
          fp ∈ t.scan := fun bucket listed fp member => by
        rw [scan_eq]
        exact List.mem_flatMap.2 ⟨bucket, listed, member⟩
      refine ordered a (scanned i first a inFirst) b (scanned j second b inSecond) ?_
      rwa [homed.bucket_of_mem inFirst, homed.bucket_of_mem inSecond]

/-- So does a scan whose fingerprints are of one shard. -/
theorem ascending_scan (homed : t.Homed) (once : t.scan.Nodup)
    (shared : ∀ a ∈ t.scan, ∀ b ∈ t.scan, SameShard t.geometry.prefixBits a b) :
    Ascending t.scan :=
  (homed.ascending_scan_iff once).2 fun a first b second =>
    lt_of_bucket_lt (shared a first b second)

end Homed

/-- Live fingerprints are held. -/
theorem sublist_liveIn (slots : List (Slot w)) : (liveIn slots).Sublist (heldIn slots) := by
  induction slots with
  | nil => exact .slnil
  | cons slot rest ih =>
    cases slot with
    | empty => exact ih
    | live fp => exact ih.cons_cons fp
    | archived fp => exact ih.cons fp

/-- In a tidy table every live fingerprint is in its own bucket. -/
theorem Tidy.homed {t : Table w} (tidy : t.Tidy) : t.Homed := fun r n fp live =>
  have held := mem_heldIn_iff.2 (.inl live)
  ⟨tidy.region r n fp held, tidy.home r n fp held⟩

/-- A scan of a tidy table finds no fingerprint twice. -/
theorem Tidy.nodup_scan {t : Table w} (tidy : t.Tidy) : t.scan.Nodup := by
  rw [scan_eq]
  refine List.pairwise_flatMap.2 ⟨fun bucket _ => ?_, ?_⟩
  · show (t.liveAt _ _).Nodup
    rw [liveAt_eq, (perm_sortFew _).nodup_iff]
    exact (tidy.orderly _ _).distinct.sublist (sublist_liveIn _)
  · refine List.nodup_range.imp ?_
    intro i j differ fp inFirst other inSecond same
    subst same
    exact differ ((tidy.homed.bucket_of_mem inFirst).symm.trans (tidy.homed.bucket_of_mem inSecond))

/-- The scan of a tidy table whose live fingerprints are of one shard ascends. -/
theorem Tidy.ascending_scan {t : Table w} (tidy : t.Tidy)
    (shared : ∀ a ∈ t.scan, ∀ b ∈ t.scan, SameShard t.geometry.prefixBits a b) :
    Ascending t.scan :=
  tidy.homed.ascending_scan tidy.nodup_scan shared

end Table

end SeenStates
