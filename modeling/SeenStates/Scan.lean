import SeenStates.Stream
import SeenStates.Table

/-!
# Scanning a table

A scan hands out the live fingerprints of a table one at a time. It goes through the buckets of one
region after the other; it loads a bucket in ascending order and hands all of it out before it loads
the next one that has any. What is still to come of a scan (`Scan.rest`) decides what its next call
answers and what is to come after that (`Scan.next_eq`), so a scan that is read to its end has all
that was to come at its start (`Table.scan_eq`).
-/
namespace SeenStates

variable {w : Width}

/-- The live fingerprints of the bucket at a position of a region, in ascending order. -/
def Table.liveAt (t : Table w) (region position : Nat) : List (Fingerprint w) :=
  sortFew ((t.region region).liveIn (position * t.geometry.bucketCapacity)
    t.geometry.bucketCapacity)

/-- A scan of a table. -/
structure Scan (t : Table w) where
  /-- The region of the bucket that is loaded next. -/
  region : Nat
  /-- The position of that bucket in the region. -/
  position : Nat
  /-- A region has a bucket at that position. -/
  within : position < t.geometry.bucketsPerRegion
  /-- What was loaded and not yet handed out. -/
  loaded : List (Fingerprint w)

namespace Scan

variable {t : Table w}

/-- A scan that has not loaded anything. -/
def start (t : Table w) : Scan t := ⟨0, 0, t.geometry.bucketsPerRegion_pos, []⟩

/-- Load a bucket and go on to the one behind it, which is the first of the next region if there
are no more in the region. -/
def load (s : Scan t) : Scan t :=
  let loaded := t.liveAt s.region s.position
  if more : s.position + 1 < t.geometry.bucketsPerRegion then
    ⟨s.region, s.position + 1, more, loaded⟩
  else ⟨s.region + 1, 0, t.geometry.bucketsPerRegion_pos, loaded⟩

/-- The bucket that is loaded next, counted from the first of all regions. -/
def bucket (s : Scan t) : Nat := s.region * t.geometry.bucketsPerRegion + s.position

/-- Loading goes from bucket to bucket. -/
theorem bucket_load (s : Scan t) : s.load.bucket = s.bucket + 1 := by
  unfold load bucket
  simp only
  split
  · rfl
  · next last =>
    have within := s.within
    show (s.region + 1) * t.geometry.bucketsPerRegion + 0 = _
    rw [Nat.succ_mul]
    omega

/-- What is loaded is the bucket. -/
theorem loaded_load (s : Scan t) : s.load.loaded = t.liveAt s.region s.position := by
  unfold load
  simp only
  split <;> rfl

/-- The bucket of a region that the table has is one of its buckets. -/
theorem bucket_lt {s : Scan t} (inTable : s.region < t.geometry.regionCount) :
    s.bucket < t.geometry.bucketCount :=
  t.geometry.bucket_lt inTable s.within

/-- Behind the last region there are no more buckets. -/
theorem bucketCount_le {s : Scan t} (done : ¬ s.region < t.geometry.regionCount) :
    t.geometry.bucketCount ≤ s.bucket := by
  calc
    t.geometry.bucketCount = t.geometry.regionCount * t.geometry.bucketsPerRegion := by
      rw [Nat.mul_comm, t.geometry.regionCount_mul]
    _ ≤ s.region * t.geometry.bucketsPerRegion := Nat.mul_le_mul_right _ (Nat.le_of_not_lt done)
    _ ≤ s.bucket := Nat.le_add_right ..

/-- The count of buckets that are still to be loaded. -/
def left (s : Scan t) : Nat := t.geometry.bucketCount - s.bucket

/-- Loading a bucket leaves one less. -/
theorem left_load {s : Scan t} (inTable : s.region < t.geometry.regionCount) :
    s.left = s.load.left + 1 := by
  have inside := bucket_lt inTable
  rw [left, left, bucket_load]
  omega

/-- Load the next bucket that has live fingerprints, if there is one. -/
def fill (s : Scan t) : Scan t :=
  if inTable : s.region < t.geometry.regionCount then
    let u := s.load
    have fewer : u.left < s.left := by
      rw [left_load inTable]
      exact Nat.lt_succ_self _
    if u.loaded.isEmpty then u.fill else u
  else s
termination_by s.left

/-- The next live fingerprint, if there is one, and the scan behind it. -/
def next (s : Scan t) : Option (Fingerprint w) × Scan t :=
  let s := if s.loaded.isEmpty then s.fill else s
  match s.loaded with
  | [] => (none, s)
  | fp :: rest => (some fp, { s with loaded := rest })

/-! ### What is to come -/

/-- What is still to come: what was loaded, and all buckets behind it. -/
def rest (s : Scan t) : List (Fingerprint w) :=
  s.loaded ++ (List.range' s.bucket s.left).flatMap fun bucket =>
    t.liveAt (bucket / t.geometry.bucketsPerRegion) (bucket % t.geometry.bucketsPerRegion)

/-- Once everything was handed out, loading a bucket changes nothing of what is to come. -/
theorem rest_load {s : Scan t} (inTable : s.region < t.geometry.regionCount)
    (out : s.loaded = []) : s.load.rest = s.rest := by
  have region : s.bucket / t.geometry.bucketsPerRegion = s.region :=
    t.geometry.div_bucket s.within
  have position : s.bucket % t.geometry.bucketsPerRegion = s.position :=
    t.geometry.mod_bucket s.within
  rw [rest, rest, out, left_load inTable, List.range'_succ, List.flatMap_cons, region, position,
    bucket_load, loaded_load, List.nil_append]

/-- So does loading until there is something. -/
theorem rest_fill {s : Scan t} (out : s.loaded = []) : s.fill.rest = s.rest := by
  fun_induction fill s with
  | case1 s inTable u _ nothing ih =>
    rw [ih (List.isEmpty_iff.1 nothing)]
    exact rest_load inTable out
  | case2 s inTable => exact rest_load inTable out
  | case3 s done => rfl

/-- If nothing was loaded, nothing is to come. -/
theorem rest_of_fill {s : Scan t} (out : s.loaded = []) (nothing : s.fill.loaded = []) :
    s.rest = [] := by
  fun_induction fill s with
  | case1 s inTable u _ empty ih =>
    rw [← rest_load inTable out]
    exact ih (List.isEmpty_iff.1 empty) nothing
  | case2 s inTable u _ something => exact absurd (List.isEmpty_iff.2 nothing) something
  | case3 s done =>
    rw [rest, out, left, Nat.sub_eq_zero_of_le (bucketCount_le done)]
    rfl

/-- A call hands out the first of what is to come and leaves the others. -/
theorem next_eq (s : Scan t) : s.next.1 = s.rest.head? ∧ s.next.2.rest = s.rest.tail := by
  -- Whether something had to be loaded or not, it is in front of what was to come.
  obtain ⟨u, filled, same, nothing⟩ : ∃ u, (if s.loaded.isEmpty then s.fill else s) = u ∧
      u.rest = s.rest ∧ (u.loaded = [] → u.rest = []) := by
    refine ⟨_, rfl, ?_⟩
    split
    · next out =>
      have out := List.isEmpty_iff.1 out
      exact ⟨rest_fill out, fun empty => rest_fill out ▸ rest_of_fill out empty⟩
    · next more => exact ⟨rfl, fun empty => absurd (List.isEmpty_iff.2 empty) more⟩
  unfold next
  rw [filled, ← same]
  cases here : u.loaded with
  | nil => simp [here, nothing here]
  | cons fp behind => simp [rest, here, bucket, left]

/-- A scan gives the live fingerprints that it was not past. -/
instance : Stream (Scan t) (Fingerprint w) where
  next := next
  rest := rest
  next_eq := next_eq

end Scan

/-- The live fingerprints, bucket by bucket, each bucket in ascending order. -/
def Table.scan (t : Table w) : List (Fingerprint w) := Stream.values (Scan.start t)

/-- They are what is to come of a scan that has not loaded anything. -/
@[simp] theorem Table.rest_start (t : Table w) : Stream.rest (Scan.start t) = t.scan :=
  (Stream.values_eq _).symm

/-- A scan is of all buckets in order. -/
theorem Table.scan_eq (t : Table w) :
    t.scan = (List.range t.geometry.bucketCount).flatMap fun bucket =>
      t.liveAt (bucket / t.geometry.bucketsPerRegion) (bucket % t.geometry.bucketsPerRegion) := by
  have first : (Scan.start t).bucket = 0 := by simp [Scan.start, Scan.bucket]
  have all : (Scan.start t).left = t.geometry.bucketCount := by
    rw [Scan.left, first, Nat.sub_zero]
  rw [← t.rest_start, List.range_eq_range', ← all]
  show (Scan.start t).loaded ++ _ = _
  rw [first]
  rfl

end SeenStates
