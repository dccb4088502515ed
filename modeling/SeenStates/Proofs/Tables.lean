import SeenStates.Proofs.Buckets
import SeenStates.Proofs.NewTables

/-!
# Tables

A table is tidy (`Table.Tidy`) when every bucket is in order and holds only fingerprints that
belong there. A look-up in a tidy table finds what its bucket holds, and whatever is stored where a
look-up says keeps the table tidy and is one more live fingerprint (`Table.Tidy.store`). A scan
lists every live fingerprint once.
-/
namespace SeenStates

variable {w : Width}

/-! ## Slots of an arena -/

namespace Arena

/-- A slot of a slice is the slot of the arena, as far as the slice goes. -/
theorem getElem?_slice (a : Arena w) (start n k : Nat) :
    (a.slice start n)[k]? = if k < n then a.get? (start + k) else .none := by
  induction n generalizing start k with
  | zero => simp [slice, window]
  | succ n ih =>
    rw [slice_succ]
    cases here : a.get? start with
    | none =>
      have beyond : a.get? (start + k) = .none := by
        have ends := get?_eq_none_iff.1 here
        exact get?_eq_none_iff.2 (by omega)
      have behind : a.get? (start + 1) = .none := by
        have ends := get?_eq_none_iff.1 here
        exact get?_eq_none_iff.2 (by omega)
      simp [slice_of_get?_eq_none behind, beyond]
    | some slot =>
      cases k with
      | zero => simp [here]
      | succ k => simp [ih, Nat.add_assoc, Nat.add_comm 1 k]

/-- Setting a slot leaves a slice alone that it is not in. -/
theorem slice_set_of_not_mem {a : Arena w} {i start n : Nat} (apart : i < start ∨ start + n ≤ i)
    (s : Slot w) : (a.set i s).slice start n = a.slice start n := by
  apply List.ext_getElem?
  intro k
  rw [getElem?_slice, getElem?_slice]
  split
  · rw [get?_set_of_ne (by omega)]
  · rfl

/-- Setting a slot of a slice sets that slot. -/
theorem slice_set {a : Arena w} {start n k : Nat} (within : k < n) (there : start + k < a.size)
    (s : Slot w) : (a.set (start + k) s).slice start n = (a.slice start n).set k s := by
  apply List.ext_getElem?
  intro j
  rw [getElem?_slice, List.getElem?_set]
  by_cases same : k = j
  · subst same
    have inside : k < (a.slice start n).length := by
      cases here : a.get? (start + k) with
      | none => exact absurd there (Nat.not_lt.2 (get?_eq_none_iff.1 here))
      | some old =>
        have listed : (a.slice start n)[k]? = some old := by
          rw [getElem?_slice, if_pos within, here]
        exact (List.getElem?_eq_some_iff.1 listed).1
    rw [if_pos within, if_pos rfl, if_pos inside, get?_set_self there]
  · rw [if_neg same, getElem?_slice]
    split
    · rw [get?_set_of_ne (by omega)]
    · rfl

/-- Archiving an arena archives each slice. -/
theorem slice_archiveLive (a : Arena w) (start n : Nat) :
    a.archiveLive.slice start n = (a.slice start n).map Slot.archive := by
  apply List.ext_getElem?
  intro k
  rw [getElem?_slice, List.getElem?_map, getElem?_slice]
  split
  · rw [get?_archiveLive]
  · rfl

/-- No slot of an arena holds a fingerprint. -/
def IsVacant (a : Arena w) : Prop := ∀ i s, a.get? i = some s → s = .empty

/-- A new arena is vacant. -/
theorem isVacant_blank (n : Nat) : (blank w n).IsVacant := by
  intro i s here
  rw [get?_blank] at here
  split at here
  · exact (Option.some.inj here).symm
  · contradiction

/-- A cleared arena is vacant, whatever words it has. -/
theorem isVacant_clear (a : Arena w) : a.clear.IsVacant := by
  intro i s here
  rw [get?_clear] at here
  split at here
  · exact (Option.some.inj here).symm
  · contradiction

/-- Every slot of a vacant arena is empty. -/
theorem IsVacant.eq_empty {a : Arena w} (vacant : a.IsVacant) {start n : Nat} {s : Slot w}
    (member : s ∈ a.slice start n) : s = .empty := by
  obtain ⟨k, here⟩ := List.mem_iff_getElem?.1 member
  rw [getElem?_slice] at here
  split at here
  · exact vacant _ s here
  · contradiction

end Arena

/-! ## Lists of lists -/

/-- One more value in one of several lists is one more value in all of them. -/
theorem perm_flatMap_cons {ι α : Type} {indices : List ι} (once : indices.Nodup)
    {f g : ι → List α} {i : ι} (member : i ∈ indices) {a : α} (changed : (g i).Perm (a :: f i))
    (others : ∀ j ∈ indices, j ≠ i → g j = f j) :
    (indices.flatMap g).Perm (a :: indices.flatMap f) := by
  induction indices with
  | nil => contradiction
  | cons j rest ih =>
    obtain ⟨fresh, once⟩ := List.nodup_cons.1 once
    rw [List.flatMap_cons, List.flatMap_cons]
    rcases List.mem_cons.1 member with rfl | later
    · have same : rest.map g = rest.map f :=
        List.map_congr_left fun k listed =>
          others k (List.mem_cons_of_mem _ listed) fun same => fresh (same ▸ listed)
      rw [List.flatMap_def, List.flatMap_def, same]
      exact changed.append_right _
    · have first : g j = f j := others j List.mem_cons_self fun same => fresh (same ▸ later)
      have more := ih once later fun k listed => others k (List.mem_cons_of_mem _ listed)
      rw [first]
      exact (more.append_left _).trans List.perm_middle

/-! ## Tables -/

namespace Table

/-- The slots of the bucket at a position of a region. -/
def slotsOf (t : Table w) (r n : Nat) : List (Slot w) :=
  (t.region r).slice (n * t.geometry.bucketCapacity) t.geometry.bucketCapacity

/-- The position of a fingerprint's bucket in its region. -/
def home (t : Table w) (fp : Fingerprint w) : Nat :=
  (t.locate fp).bucket % t.geometry.bucketsPerRegion

/-- The bucket of a fingerprint has the slots at its position. -/
theorem bucket_locate (t : Table w) (fp : Fingerprint w) :
    t.bucket (t.locate fp) = t.slotsOf (t.locate fp).region (t.home fp) := rfl

/-- Every bucket is in order and holds fingerprints that belong there. -/
structure Tidy (t : Table w) : Prop where
  /-- There is an arena for each region. -/
  regions : t.regions.size = t.geometry.regionCount
  /-- The buckets are in order. -/
  orderly : ∀ r n, Orderly (t.slotsOf r n)
  /-- A bucket holds fingerprints of its region. -/
  region : ∀ r n, ∀ fp ∈ heldIn (t.slotsOf r n), (t.locate fp).region = r
  /-- A bucket holds fingerprints of its position. -/
  home : ∀ r n, ∀ fp ∈ heldIn (t.slotsOf r n), t.home fp = n

/-- The arena of a region that the table has. -/
theorem getElem?_regions {t : Table w} {r : Nat} (there : r < t.regions.size) :
    t.regions[r]? = some (t.region r) := by
  rw [region, Array.getD_eq_getD_getElem?, Array.getElem?_eq_getElem there, Option.getD_some]

/-- A slot is in a region that the table has. -/
theorem lt_size_of_mem {t : Table w} {r n : Nat} {s : Slot w} (member : s ∈ t.slotsOf r n) :
    r < t.regions.size := by
  apply Nat.lt_of_not_le
  intro beyond
  have nothing : t.region r = .none := by
    rw [region, Array.getD_eq_getD_getElem?, Array.getElem?_eq_none beyond, Option.getD_none]
  have vacant : (Arena.none : Arena w).get? (n * t.geometry.bucketCapacity) = .none := by
    simp [Arena.none, Arena.get?_blank]
  rw [slotsOf, nothing, Arena.slice_of_get?_eq_none vacant] at member
  contradiction

/-- A look-up in a tidy table finds exactly what the bucket of the fingerprint holds. -/
theorem Tidy.probe_found_iff {t : Table w} (tidy : t.Tidy) (fp : Fingerprint w) :
    t.probe fp = .found ↔ fp ∈ heldIn (t.bucket (t.locate fp)) := by
  rw [probe_eq]
  exact probeFrom_found_iff (tidy.orderly _ _).packed fp 0 none

/-! ### The live fingerprints -/

/-- What a scan loads is live in the bucket. -/
theorem liveAt_eq (t : Table w) (r n : Nat) : t.liveAt r n = sortFew (liveIn (t.slotsOf r n)) :=
  congrArg sortFew (Arena.liveIn_eq ..)

/-- A scan lists the live fingerprints of every bucket. -/
theorem mem_scan_iff {t : Table w} {fp : Fingerprint w} :
    fp ∈ t.scan ↔ ∃ r < t.geometry.regionCount, ∃ n < t.geometry.bucketsPerRegion,
      fp ∈ liveIn (t.slotsOf r n) := by
  simp only [scan_eq, List.mem_flatMap, List.mem_range, liveAt_eq, (perm_sortFew _).mem_iff]
  constructor
  · rintro ⟨bucket, inTable, live⟩
    refine ⟨_, Nat.div_lt_of_lt_mul ?_, _, Nat.mod_lt _ t.geometry.bucketsPerRegion_pos, live⟩
    rwa [t.geometry.regionCount_mul]
  · rintro ⟨r, inTable, n, within, live⟩
    refine ⟨r * t.geometry.bucketsPerRegion + n, t.geometry.bucket_lt inTable within, ?_⟩
    rwa [t.geometry.div_bucket within, t.geometry.mod_bucket within]

/-- A fingerprint has its bucket at a position of a region. -/
theorem home_lt (t : Table w) (fp : Fingerprint w) : t.home fp < t.geometry.bucketsPerRegion :=
  Nat.mod_lt _ (Nat.two_pow_pos _)

/-- The bucket of a fingerprint is at its position among the buckets of its region. -/
theorem bucket_eq (t : Table w) (fp : Fingerprint w) :
    (t.locate fp).bucket =
      (t.locate fp).region * t.geometry.bucketsPerRegion + t.home fp :=
  (Nat.div_add_mod' (t.locate fp).bucket t.geometry.bucketsPerRegion).symm

/-- The live fingerprints of a tidy table are those of their own buckets. -/
theorem Tidy.mem_scan_iff_live {t : Table w} (tidy : t.Tidy) {fp : Fingerprint w} :
    fp ∈ t.scan ↔ fp ∈ liveIn (t.bucket (t.locate fp)) := by
  rw [mem_scan_iff]
  constructor
  · rintro ⟨r, _, n, _, live⟩
    have held := mem_heldIn_iff.2 (.inl live)
    rwa [bucket_locate, tidy.region r n fp held, tidy.home r n fp held]
  · intro live
    obtain ⟨s, member, _⟩ := List.mem_filterMap.1 live
    rw [bucket_locate] at member live
    exact ⟨_, tidy.regions ▸ lt_size_of_mem member, _, t.home_lt fp, live⟩

/-- A look-up in a tidy table finds the live fingerprints and those archived in their bucket. -/
theorem Tidy.probe_found_iff_live {t : Table w} (tidy : t.Tidy) (fp : Fingerprint w) :
    t.probe fp = .found ↔ fp ∈ t.scan ∨ .archived fp ∈ t.bucket (t.locate fp) := by
  rw [tidy.probe_found_iff, mem_heldIn_iff, tidy.mem_scan_iff_live]

/-! ### Storing -/

/-- A slot of a bucket is one of the bucket's capacity, in a region that the table has, and one of
that region. -/
theorem within_of_lt_length {t : Table w} {r n position : Nat}
    (there : position < (t.slotsOf r n).length) :
    position < t.geometry.bucketCapacity ∧ r < t.regions.size ∧
      n * t.geometry.bucketCapacity + position < (t.region r).size := by
  obtain ⟨s, listed⟩ : ∃ s, (t.slotsOf r n)[position]? = some s :=
    ⟨_, List.getElem?_eq_getElem there⟩
  have inRegion := lt_size_of_mem (List.getElem_mem there)
  rw [slotsOf, Arena.getElem?_slice] at listed
  split at listed
  · next within =>
    refine ⟨within, inRegion, ?_⟩
    apply Nat.lt_of_not_le
    intro beyond
    have absent : (t.region r).get? (n * t.geometry.bucketCapacity + position) = .none :=
      Arena.get?_eq_none_iff.2 beyond
    rw [absent] at listed
    contradiction
  · contradiction

/-- Storing a fingerprint sets a slot of its region. -/
theorem region_store {t : Table w} {fp : Fingerprint w} (position : Nat)
    (within : (t.locate fp).region < t.regions.size) (r : Nat) :
    (t.store fp position).region r =
      if (t.locate fp).region = r then
        (t.region r).set (t.home fp * t.geometry.bucketCapacity + position) (.live fp)
      else t.region r := by
  have offset : (t.locate fp).offset = t.home fp * t.geometry.bucketCapacity := rfl
  simp only [region, store, Array.getD_eq_getD_getElem?, Array.getElem?_modify, offset]
  split
  · next same =>
    subst same
    rw [Array.getElem?_eq_getElem within]
    rfl
  · rfl

/-- Storing a fingerprint sets a slot of its bucket. -/
theorem slotsOf_store_self {t : Table w} {fp : Fingerprint w} {position : Nat}
    (there : position < (t.bucket (t.locate fp)).length) :
    (t.store fp position).slotsOf (t.locate fp).region (t.home fp) =
      (t.bucket (t.locate fp)).set position (.live fp) := by
  obtain ⟨within, inRegion, inside⟩ := within_of_lt_length there
  rw [slotsOf, region_store position inRegion, if_pos rfl]
  exact Arena.slice_set within inside _

/-- Storing a fingerprint leaves every other bucket alone. -/
theorem slotsOf_store_of_ne {t : Table w} {fp : Fingerprint w} {position r n : Nat}
    (there : position < (t.bucket (t.locate fp)).length)
    (other : ¬ (r = (t.locate fp).region ∧ n = t.home fp)) :
    (t.store fp position).slotsOf r n = t.slotsOf r n := by
  obtain ⟨within, inRegion, inside⟩ := within_of_lt_length there
  rw [slotsOf, region_store position inRegion]
  split
  · next same =>
    have apart : n ≠ t.home fp := fun position => other ⟨same.symm, position⟩
    rw [slotsOf]
    apply Arena.slice_set_of_not_mem
    show t.home fp * t.geometry.bucketCapacity + position < n * t.geometry.bucketCapacity ∨
      n * t.geometry.bucketCapacity + t.geometry.bucketCapacity ≤
        t.home fp * t.geometry.bucketCapacity + position
    rcases Nat.lt_or_gt_of_ne apart with before | behind
    · have next : (n + 1) * t.geometry.bucketCapacity ≤ t.home fp * t.geometry.bucketCapacity :=
        Nat.mul_le_mul_right _ before
      rw [Nat.add_mul] at next
      omega
    · have next : (t.home fp + 1) * t.geometry.bucketCapacity ≤ n * t.geometry.bucketCapacity :=
        Nat.mul_le_mul_right _ behind
      rw [Nat.add_mul] at next
      omega
  · rfl

/-- A slot of a fingerprint's bucket that a look-up offers: it is not live, none in front of it is
empty, and the bucket does not hold the fingerprint. -/
structure Opening (t : Table w) (fp : Fingerprint w) (front : List (Slot w)) (slot : Slot w)
    (back : List (Slot w)) : Prop where
  /-- The slot is in the bucket. -/
  bucket : t.bucket (t.locate fp) = front ++ slot :: back
  /-- It is not live. -/
  free : slot.live? = none
  /-- No slot in front of it is empty. -/
  filled : ∀ s ∈ front, s ≠ .empty
  /-- The bucket does not hold the fingerprint. -/
  absent : fp ∉ heldIn (t.bucket (t.locate fp))

/-- A look-up in a tidy table offers such a slot. -/
theorem Tidy.opening {t : Table w} (tidy : t.Tidy) {fp : Fingerprint w} {position : Nat}
    (probed : t.probe fp = .vacant position) :
    ∃ front slot back, t.Opening fp front slot back ∧ position = front.length := by
  have absent : fp ∉ heldIn (t.bucket (t.locate fp)) := by
    rw [← tidy.probe_found_iff, probed]
    simp
  rw [probe_eq] at probed
  obtain ⟨front, slot, back, bucket, offered, free, filled⟩ := probeFrom_vacant probed
  exact ⟨front, slot, back, ⟨bucket, free, filled, absent⟩, by omega⟩

namespace Opening

variable {t : Table w} {fp : Fingerprint w} {front : List (Slot w)} {slot : Slot w}
  {back : List (Slot w)}

/-- The slot is in the bucket. -/
theorem there (opening : t.Opening fp front slot back) :
    front.length < (t.bucket (t.locate fp)).length := by
  simp [opening.bucket]

/-- The bucket with the fingerprint stored. -/
theorem slotsOf_store (opening : t.Opening fp front slot back) :
    (t.store fp front.length).slotsOf (t.locate fp).region (t.home fp) =
      front ++ .live fp :: back := by
  rw [slotsOf_store_self opening.there, opening.bucket]
  simp

/-- A fingerprint that is stored in such a slot keeps a table tidy. -/
theorem tidy (opening : t.Opening fp front slot back) (tidy : t.Tidy) :
    (t.store fp front.length).Tidy := by
  have before : Orderly (front ++ slot :: back) := by
    rw [← opening.bucket, bucket_locate]
    exact tidy.orderly _ _
  have absent : fp ∉ heldIn (front ++ slot :: back) := opening.bucket ▸ opening.absent
  -- What a bucket holds is the fingerprint, in its own bucket, or was held there before.
  have held : ∀ r n, ∀ other ∈ heldIn ((t.store fp front.length).slotsOf r n),
      (other = fp ∧ r = (t.locate fp).region ∧ n = t.home fp) ∨
        other ∈ heldIn (t.slotsOf r n) := by
    intro r n other member
    by_cases own : r = (t.locate fp).region ∧ n = t.home fp
    · obtain ⟨rfl, rfl⟩ := own
      rw [opening.slotsOf_store, heldIn_append, heldIn_live_cons] at member
      rcases List.mem_cons.1 (List.perm_middle.mem_iff.1 member) with rfl | member
      · exact .inl ⟨rfl, rfl, rfl⟩
      · rw [← bucket_locate, opening.bucket]
        exact .inr ((sublist_heldIn front back slot).subset member)
    · rw [slotsOf_store_of_ne opening.there own] at member
      exact .inr member
  constructor
  case regions => simpa [store] using tidy.regions
  case orderly =>
    intro r n
    by_cases own : r = (t.locate fp).region ∧ n = t.home fp
    · obtain ⟨rfl, rfl⟩ := own
      rw [opening.slotsOf_store]
      exact before.store opening.filled absent
    · rw [slotsOf_store_of_ne opening.there own]
      exact tidy.orderly r n
  case region =>
    intro r n other member
    rcases held r n other member with ⟨rfl, region, _⟩ | member
    · exact region.symm
    · exact tidy.region r n other member
  case home =>
    intro r n other member
    rcases held r n other member with ⟨rfl, _, position⟩ | member
    · exact position.symm
    · exact tidy.home r n other member

/-- A fingerprint that is stored in such a slot is one more live fingerprint. -/
theorem perm_scan (opening : t.Opening fp front slot back) :
    (t.store fp front.length).scan.Perm (fp :: t.scan) := by
  have geometry : (t.store fp front.length).geometry = t.geometry := rfl
  rw [scan_eq, scan_eq, geometry]
  apply perm_flatMap_cons List.nodup_range
    (List.mem_range.2 (t.geometry.bucketOf_lt fp.address))
  · -- Its own bucket has the fingerprint stored.
    show ((t.store fp front.length).liveAt (t.locate fp).region (t.home fp)).Perm
      (fp :: t.liveAt (t.locate fp).region (t.home fp))
    rw [liveAt_eq, liveAt_eq, opening.slotsOf_store, ← bucket_locate, opening.bucket]
    exact (perm_sortFew _).trans ((perm_liveIn_store front back opening.free fp).trans
      ((perm_sortFew _).symm.cons fp))
  · intro bucket _ other
    rw [liveAt_eq, liveAt_eq, slotsOf_store_of_ne opening.there]
    rintro ⟨region, position⟩
    apply other
    calc
      bucket = bucket / t.geometry.bucketsPerRegion * t.geometry.bucketsPerRegion +
          bucket % t.geometry.bucketsPerRegion := (Nat.div_add_mod' ..).symm
      _ = (t.locate fp).bucket := by rw [region, position, ← t.bucket_eq]
      _ = t.geometry.bucketOf fp.address := rfl

/-- What is archived after a fingerprint is stored was archived before. -/
theorem archived (opening : t.Opening fp front slot back) {r n : Nat} {old : Fingerprint w}
    (member : .archived old ∈ (t.store fp front.length).slotsOf r n) :
    .archived old ∈ t.slotsOf r n := by
  by_cases own : r = (t.locate fp).region ∧ n = t.home fp
  · obtain ⟨rfl, rfl⟩ := own
    rw [opening.slotsOf_store] at member
    rw [← bucket_locate, opening.bucket]
    simp only [List.mem_append, List.mem_cons, reduceCtorEq, false_or] at member ⊢
    exact member.imp_right .inr
  · rwa [slotsOf_store_of_ne opening.there own] at member

end Opening

/-! ### Archiving and clearing -/

/-- Archiving a table archives each bucket. -/
theorem slotsOf_archiveLive (t : Table w) (r n : Nat) :
    t.archiveLive.slotsOf r n = (t.slotsOf r n).map Slot.archive := by
  have region : t.archiveLive.region r = (t.region r).archiveLive := by
    simp only [Table.region, archiveLive, Array.getD_eq_getD_getElem?, Array.getElem?_map]
    cases t.regions[r]? with
    | none => simp [Arena.none, Arena.blank, Arena.archiveLive, SparseArray.blank, SparseArray.map]
    | some a => rfl
  rw [slotsOf, region, Arena.slice_archiveLive]
  rfl

/-- A table stays tidy when it is archived. -/
theorem Tidy.archiveLive {t : Table w} (tidy : t.Tidy) : t.archiveLive.Tidy := by
  constructor
  case regions => simpa [Table.archiveLive] using tidy.regions
  case orderly =>
    intro r n
    rw [slotsOf_archiveLive]
    exact (tidy.orderly r n).archive
  case region =>
    intro r n fp held
    rw [slotsOf_archiveLive, heldIn_archive] at held
    exact tidy.region r n fp held
  case home =>
    intro r n fp held
    rw [slotsOf_archiveLive, heldIn_archive] at held
    exact tidy.home r n fp held

/-- Nothing in an archived table is live. -/
theorem scan_archiveLive (t : Table w) : t.archiveLive.scan = [] := by
  rw [List.eq_nil_iff_forall_not_mem]
  intro fp member
  obtain ⟨r, _, n, _, live⟩ := mem_scan_iff.1 member
  rw [slotsOf_archiveLive, liveIn_archive] at live
  contradiction

/-- What is archived in an archived table was live in it or archived before. -/
theorem Tidy.archived_archiveLive {t : Table w} (tidy : t.Tidy) {r n : Nat} {fp : Fingerprint w}
    (member : .archived fp ∈ t.archiveLive.slotsOf r n) :
    fp ∈ t.scan ∨ .archived fp ∈ t.slotsOf r n := by
  rw [slotsOf_archiveLive] at member
  have held : fp ∈ heldIn (t.slotsOf r n) := by
    rw [← heldIn_archive]
    exact mem_heldIn_iff.2 (.inr member)
  refine (mem_heldIn_iff.1 held).imp_left fun live => ?_
  rw [tidy.mem_scan_iff_live, bucket_locate, tidy.region r n fp held, tidy.home r n fp held]
  exact live

/-- A table all of whose slots are empty. -/
structure Blank (t : Table w) : Prop where
  /-- There is an arena for each region. -/
  regions : t.regions.size = t.geometry.regionCount
  /-- Every slot is empty. -/
  empty : ∀ r n, ∀ s ∈ t.slotsOf r n, s = .empty

/-- An empty table is tidy. -/
theorem Blank.tidy {t : Table w} (blank : t.Blank) : t.Tidy := by
  constructor
  case regions => exact blank.regions
  case orderly => exact fun r n => orderly_of_empty (blank.empty r n)
  case region =>
    intro r n fp held
    rw [heldIn_of_empty (blank.empty r n)] at held
    contradiction
  case home =>
    intro r n fp held
    rw [heldIn_of_empty (blank.empty r n)] at held
    contradiction

/-- Nothing in an empty table is live. -/
theorem Blank.scan_eq {t : Table w} (blank : t.Blank) : t.scan = [] := by
  rw [List.eq_nil_iff_forall_not_mem]
  intro fp member
  obtain ⟨r, _, n, _, live⟩ := mem_scan_iff.1 member
  have held := mem_heldIn_iff.2 (.inl live)
  rw [heldIn_of_empty (blank.empty r n)] at held
  contradiction

/-- Nothing in an empty table is archived. -/
theorem Blank.not_archived {t : Table w} (blank : t.Blank) {r n : Nat} {fp : Fingerprint w} :
    .archived fp ∉ t.slotsOf r n :=
  fun member => by cases blank.empty r n _ member

/-- A table of vacant arenas is empty. -/
theorem blank_of_region {t : Table w} (regions : t.regions.size = t.geometry.regionCount)
    (vacant : ∀ r, (t.region r).IsVacant) : t.Blank :=
  ⟨regions, fun r _ _ member => (vacant r).eq_empty member⟩

/-- A new table is empty. -/
theorem blank_of_make {machine : Machine} {g : Geometry} {t : Table w}
    (made : make w machine g = .ok t) : t.Blank := by
  obtain ⟨rfl, _⟩ := make_eq_ok made
  refine blank_of_region (by simp) fun r => ?_
  simp only [region, Array.getD_eq_getD_getElem?, Array.getElem?_replicate]
  split <;> exact Arena.isVacant_blank _

/-- A cleared table is empty. -/
theorem Tidy.blank_clear {t : Table w} (tidy : t.Tidy) : t.clear.Blank := by
  refine blank_of_region (by simpa [clear] using tidy.regions) fun r => ?_
  simp only [Table.region, clear, Array.getD_eq_getD_getElem?, Array.getElem?_map]
  cases t.regions[r]? with
  | none => exact Arena.isVacant_blank 0
  | some a => exact a.isVacant_clear

end Table

end SeenStates
