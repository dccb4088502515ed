import Mathlib.Data.List.Perm.Basic
import SeenStates.DiskSet
import SeenStates.Proofs.Tables

/-!
# The live slots of a table

A scan reads bucket by bucket and the counter of live slots region by region. They see the same
slots as long as every region has exactly the slots of its buckets (`Table.perm_live`), which no
operation on a table changes (`Table.Shaped`).
-/
namespace SeenStates

variable {w : Width}

/-- Slots cut into buckets are all slots. -/
theorem Arena.slice_mul (a : Arena w) (buckets capacity : Nat) :
    a.slice 0 (buckets * capacity) =
      (List.range buckets).flatMap fun n => a.slice (n * capacity) capacity := by
  induction buckets with
  | zero => simp [slice, window]
  | succ n ih =>
    have added : (n + 1) * capacity = n * capacity + capacity := by rw [Nat.add_mul, Nat.one_mul]
    have split : a.slice 0 (n * capacity + capacity) =
        a.slice 0 (n * capacity) ++ a.slice (0 + n * capacity) capacity :=
      window_add ..
    rw [added, split, ih, Nat.zero_add, List.range_succ]
    simp

/-- What `m` times `n` indices stand for, `n` of them at a time. -/
theorem flatMap_range_mul {α : Type} (m n : Nat) (f : Nat → List α) :
    (List.range (m * n)).flatMap f =
      (List.range m).flatMap fun i => (List.range n).flatMap fun j => f (i * n + j) := by
  induction m with
  | zero => simp
  | succ m ih =>
    rw [Nat.succ_mul, List.range_add, List.flatMap_append, ih, List.range_succ,
      List.flatMap_append, List.flatMap_map]
    simp

namespace Table

/-- The live fingerprints, slot by slot. -/
def live (t : Table w) : List (Fingerprint w) :=
  t.regions.toList.flatMap fun arena => arena.liveIn 0 arena.size

/-- Their count is that of the live slots. -/
theorem liveCount_eq (t : Table w) : t.liveCount = t.live.length := by
  have counted : ∀ (arenas : List (Arena w)) (n : Nat),
      arenas.foldl (fun n arena => n + arena.liveCount) n =
        n + (arenas.flatMap fun arena => arena.liveIn 0 arena.size).length := by
    intro arenas
    induction arenas with
    | nil => simp
    | cons arena rest ih =>
      intro n
      rw [List.foldl_cons, ih, List.flatMap_cons, List.length_append, Arena.liveCount_eq]
      omega
  rw [liveCount, ← Array.foldl_toList, counted, live, Nat.zero_add]

/-- A table that strips the given routing bits, with as many slots in each region as its buckets
have. -/
structure Shaped (prefixBits : Nat) (t : Table w) : Prop where
  /-- The routing bits are stripped. -/
  routing : t.geometry.prefixBits = prefixBits
  /-- A region has the slots of its buckets. -/
  sized : ∀ (r : Nat) (arena : Arena w), t.regions[r]? = some arena →
    arena.size = t.geometry.slotsPerRegion

namespace Shaped

variable {prefixBits : Nat} {t : Table w}

/-- Storing a fingerprint keeps the shape. -/
theorem store (shaped : t.Shaped prefixBits) (fp : Fingerprint w) (position : Nat) :
    (t.store fp position).Shaped prefixBits := by
  refine ⟨shaped.routing, fun r arena there => ?_⟩
  simp only [Table.store, Array.getElem?_modify] at there ⊢
  split at there
  · obtain ⟨before, listed, rfl⟩ := Option.map_eq_some_iff.1 there
    rw [Arena.size_set]
    exact shaped.sized r before listed
  · exact shaped.sized r arena there

/-- So does every change of all regions that keeps their sizes. -/
theorem map (shaped : t.Shaped prefixBits) {f : Arena w → Arena w}
    (kept : ∀ arena, (f arena).size = arena.size) :
    ({ t with regions := t.regions.map f } : Table w).Shaped prefixBits := by
  refine ⟨shaped.routing, fun r arena there => ?_⟩
  rw [Array.getElem?_map] at there
  obtain ⟨before, listed, rfl⟩ := Option.map_eq_some_iff.1 there
  rw [kept]
  exact shaped.sized r before listed

/-- A table that is laid out has the shape that its configuration asks for. -/
theorem of_layout {machine : Machine} {c : Config} (layout : DiskSet.Layout machine c t) :
    t.Shaped c.prefixBits := by
  obtain ⟨slots, _, made⟩ := layout.geometry
  refine ⟨(Geometry.make_eq_ok made).2, fun r arena there => ?_⟩
  rw [(Table.make_eq_ok layout.made).1] at there ⊢
  simp only [Array.getElem?_replicate] at there
  split at there
  · rw [← Option.some.inj there]
    rfl
  · contradiction

end Shaped

/-- A scan goes through the buckets of one region after the other. -/
theorem scan_eq_regions (t : Table w) :
    t.scan = (List.range t.geometry.regionCount).flatMap fun r =>
      (List.range t.geometry.bucketsPerRegion).flatMap fun n => t.liveAt r n := by
  have buckets : t.geometry.bucketCount =
      t.geometry.regionCount * t.geometry.bucketsPerRegion := by
    rw [Nat.mul_comm, t.geometry.regionCount_mul]
  rw [scan_eq, buckets, flatMap_range_mul]
  refine List.flatMap_congr fun r _ => List.flatMap_congr fun n listed => ?_
  have within := List.mem_range.1 listed
  rw [t.geometry.div_bucket within, t.geometry.mod_bucket within]

/-- The slots of a region are those of its buckets. -/
theorem Shaped.live_region {prefixBits : Nat} {t : Table w} (shaped : t.Shaped prefixBits) {r : Nat}
    (inTable : r < t.regions.size) :
    (t.region r).liveIn 0 (t.region r).size =
      (List.range t.geometry.bucketsPerRegion).flatMap fun n => liveIn (t.slotsOf r n) := by
  have size : (t.region r).size = t.geometry.slotsPerRegion :=
    shaped.sized r _ (getElem?_regions inTable)
  rw [size, Arena.liveIn_eq, Geometry.slotsPerRegion, Arena.slice_mul, List.filterMap_flatMap]
  rfl

/-- A scan lists the live fingerprints of all slots. -/
theorem perm_live {prefixBits : Nat} {t : Table w}
    (regions : t.regions.size = t.geometry.regionCount) (shaped : t.Shaped prefixBits) :
    t.live.Perm t.scan := by
  have listed : t.regions.toList = (List.range t.geometry.regionCount).map t.region := by
    apply List.ext_getElem?
    intro r
    rw [← regions, Array.getElem?_toList, List.getElem?_map]
    by_cases inTable : r < t.regions.size
    · rw [getElem?_regions inTable, List.getElem?_range (regions ▸ inTable), Option.map_some]
    · rw [Array.getElem?_eq_none (Nat.le_of_not_lt inTable),
        List.getElem?_eq_none (by simpa using inTable)]
      rfl
  rw [live, listed, List.flatMap_map, scan_eq_regions]
  refine List.Perm.flatMap_left _ fun r member => ?_
  rw [shaped.live_region (regions ▸ List.mem_range.1 member)]
  refine List.Perm.flatMap_left _ fun n _ => ?_
  rw [liveAt_eq]
  exact (perm_sortFew _).symm

end Table

end SeenStates
