import SeenStates.Error
import SeenStates.Limits
import SeenStates.Width

/-!
# The geometry of a table

A table of `capacity` slots is cut into buckets of equal size, as many as there are powers of two
to address: the `addressBits` bits of an address word behind the routing bits pick a logical slot,
and all but the lowest four of them pick its bucket. Consecutive buckets form regions of equal
size. When the capacity is a power of two every product and quotient is a shift or a mask, and the
masked forms are used; otherwise the remainder of the capacity is spread over the buckets.
-/
namespace SeenStates

/-- The shape of a table. -/
structure Geometry where
  /-- The slots asked for. -/
  capacity : Nat
  /-- The routing bits in front of an address. -/
  prefixBits : Nat
  /-- The regions asked for are two to this power. -/
  regionBits : Nat
  /-- A table has a slot. -/
  capacity_pos : 0 < capacity

/-- Where the bucket of a fingerprint is. -/
structure BucketLocation where
  /-- The bucket. -/
  bucket : Nat
  /-- The region of the bucket. -/
  region : Nat
  /-- The first slot of the bucket, counted from the start of the region. -/
  offset : Nat
deriving DecidableEq

namespace Geometry

/-- The address bits below which addresses share a bucket. -/
def bucketGrain : Nat := 4

/-- The geometry of a table of `capacity` slots and `regions` regions. -/
def make (capacity prefixBits regions : Nat) : Except Error Geometry :=
  if h : 0 < capacity then
    if 0 < regions ∧ Nat.pow 2 (Nat.log2 regions) = regions then
      .ok ⟨capacity, prefixBits, Nat.log2 regions, h⟩
    else .error (.config (.regions regions))
  else .error (.config .noSlots)

/-- There is a geometry for every count of slots but zero and every power of two of regions. -/
theorem make_two_pow {capacity : Nat} (filled : 0 < capacity) (prefixBits bits : Nat) :
    make capacity prefixBits (Nat.pow 2 bits) = .ok ⟨capacity, prefixBits, bits, filled⟩ := by
  have log : Nat.log2 (Nat.pow 2 bits) = bits := Nat.log2_two_pow
  have positive : 0 < Nat.pow 2 bits := Nat.two_pow_pos bits
  simp only [make, log, filled, positive, and_self, if_true, dif_pos]

variable (g : Geometry)

/-- The bits of a logical address: the largest power of two of slots is addressed. -/
def addressBits : Nat := Nat.log2 g.capacity

/-- The bits of an address that do not matter to its bucket. -/
def grainBits : Nat := min bucketGrain g.addressBits

/-- The bits of an address that pick the bucket. -/
def bucketBits : Nat := g.addressBits - g.grainBits

/-- The count of buckets. -/
def bucketCount : Nat := Nat.pow 2 g.bucketBits

/-- The slots of a bucket. -/
def bucketCapacity : Nat := g.capacity >>> g.bucketBits

/-- A bucket has its share of the slots asked for, rounded down. -/
theorem bucketCapacity_eq : g.bucketCapacity = g.capacity / g.bucketCount :=
  Nat.shiftRight_eq_div_pow _ _

/-- The usable slots. -/
def tableLength : Nat := g.bucketCount * g.bucketCapacity

/-- The bits of a bucket that pick its region. -/
def regionShare : Nat := min g.regionBits g.bucketBits

/-- The count of regions: as many as asked for, and at most one for each bucket. -/
def regionCount : Nat := Nat.pow 2 g.regionShare

/-- The buckets of a region. -/
def bucketsPerRegion : Nat := Nat.pow 2 (g.bucketBits - g.regionShare)

/-- The regions share the buckets. -/
theorem bucketsPerRegion_eq : g.bucketsPerRegion = g.bucketCount / g.regionCount := by
  simp only [bucketsPerRegion, bucketCount, regionCount, Nat.pow_eq]
  exact (Nat.pow_div (Nat.min_le_right _ _) (by decide)).symm

/-- The slots of a region. -/
def slotsPerRegion : Nat := g.bucketsPerRegion * g.bucketCapacity

/-- Whether the capacity is a power of two. -/
def isMasked : Bool := decide (Nat.pow 2 g.addressBits = g.capacity)

/-- The logical address of an address word: the bits behind the routing bits. -/
def address (word : Nat) : Nat :=
  if g.addressBits = 0 then 0
  else (word <<< g.prefixBits % Nat.pow 2 wordBits) >>> (wordBits - g.addressBits)

/-- The logical address as a remainder and a quotient. -/
theorem address_eq (word : Nat) (addressed : g.addressBits ≠ 0) :
    g.address word = word * Nat.pow 2 g.prefixBits % Nat.pow 2 wordBits /
      Nat.pow 2 (wordBits - g.addressBits) := by
  simp [address, addressed, Nat.shiftRight_eq_div_pow, Nat.shiftLeft_eq]

/-- The logical address of a word, unless the routing bits leave nothing of the word. -/
def address? (word : Nat) : Option Nat :=
  if g.addressBits = 0 || decide (g.prefixBits < wordBits) then some (g.address word) else none

/-- The bucket of an address word. -/
def bucketOf (word : Nat) : Nat := g.address word >>> g.grainBits

/-- The first slot of a bucket. -/
def bucketBase (bucket : Nat) : Nat :=
  if g.isMasked then bucket <<< g.grainBits else bucket * g.bucketCapacity

/-- The first slot of the bucket of an address word. -/
def bucketBasePosition (word : Nat) : Nat := g.bucketBase (g.bucketOf word)

/-- The bits of a position that a mask leaves over. -/
def withoutMask (position mask : Nat) : Nat := position ^^^ (position &&& mask)

/-- The first slot of the bucket at a position. -/
def baseOf (position : Nat) : Nat :=
  if g.isMasked then withoutMask position (g.bucketCapacity - 1)
  else position - position % g.bucketCapacity

/-- The first slot of the bucket behind the one at a position, that of the first bucket behind the
last. There is none if a position on the way is out of range. -/
def nextBucketBase? (position : Nat) : Option Nat :=
  (inRange? (g.baseOf position + g.bucketCapacity)).map fun next =>
    if g.isMasked then next &&& (g.tableLength - 1) else next % g.tableLength

/-- The region of a bucket. -/
def regionOfBucket (bucket : Nat) : Nat := bucket / g.bucketsPerRegion

/-- The buckets of a region: the first, and the first that is no longer in it. -/
def regionBuckets? (region : Nat) : Option (Nat × Nat) := do
  let first ← inRange? (region * g.bucketsPerRegion)
  let last ← inRange? (first + g.bucketsPerRegion)
  return (first, last)

/-- The slots of a region: the first, and the first that is no longer in it. -/
def regionSlots? (region : Nat) : Option (Nat × Nat) := do
  let first ← inRange? (region * g.slotsPerRegion)
  let last ← inRange? (first + g.slotsPerRegion)
  return (first, last)

/-- Where the bucket of an address word is. -/
def locate (word : Nat) : BucketLocation :=
  let bucket := g.bucketOf word
  let share := g.bucketsPerRegion
  ⟨bucket, bucket / share, bucket % share * g.bucketCapacity⟩

/-! ### Bounds -/

/-- An address has no more bits than are addressed. -/
theorem address_lt (word : Nat) : g.address word < Nat.pow 2 g.addressBits := by
  unfold address
  split
  · exact Nat.two_pow_pos _
  · have isWord : word <<< g.prefixBits % Nat.pow 2 wordBits < Nat.pow 2 wordBits :=
      Nat.mod_lt _ (Nat.two_pow_pos _)
    have bits : wordBits ≤ wordBits - g.addressBits + g.addressBits := by omega
    rw [Nat.shiftRight_eq_div_pow]
    apply Nat.div_lt_of_lt_mul
    calc
      _ < Nat.pow 2 wordBits := isWord
      _ ≤ Nat.pow 2 (wordBits - g.addressBits + g.addressBits) :=
        Nat.pow_le_pow_right (by decide) bits
      _ = _ := Nat.pow_add ..

/-- A word has its bucket among the buckets. -/
theorem bucketOf_lt (word : Nat) : g.bucketOf word < g.bucketCount := by
  have grain : g.grainBits ≤ g.addressBits := Nat.min_le_right ..
  have whole : Nat.pow 2 g.addressBits = 2 ^ g.grainBits * g.bucketCount := by
    rw [bucketCount, bucketBits, Nat.pow_eq, Nat.pow_eq, ← Nat.pow_add, Nat.add_sub_cancel' grain]
  rw [bucketOf, Nat.shiftRight_eq_div_pow]
  exact Nat.div_lt_of_lt_mul (whole ▸ g.address_lt word)

/-- The regions have all buckets. -/
theorem regionCount_mul : g.bucketsPerRegion * g.regionCount = g.bucketCount := by
  have share : g.regionShare ≤ g.bucketBits := Nat.min_le_right ..
  rw [bucketsPerRegion, regionCount, bucketCount, Nat.pow_eq, Nat.pow_eq, Nat.pow_eq,
    ← Nat.pow_add, Nat.sub_add_cancel share]

/-- A region has a bucket. -/
theorem bucketsPerRegion_pos : 0 < g.bucketsPerRegion := Nat.two_pow_pos _

/-- A bucket of a region is one of the buckets. -/
theorem bucket_lt {region position : Nat} (inTable : region < g.regionCount)
    (within : position < g.bucketsPerRegion) :
    region * g.bucketsPerRegion + position < g.bucketCount := by
  calc
    _ < region * g.bucketsPerRegion + g.bucketsPerRegion := Nat.add_lt_add_left within _
    _ = (region + 1) * g.bucketsPerRegion := (Nat.succ_mul ..).symm
    _ ≤ g.regionCount * g.bucketsPerRegion := Nat.mul_le_mul_right _ inTable
    _ = g.bucketCount := by rw [Nat.mul_comm, g.regionCount_mul]

/-- A bucket of a region is in that region. -/
theorem div_bucket {region position : Nat} (within : position < g.bucketsPerRegion) :
    (region * g.bucketsPerRegion + position) / g.bucketsPerRegion = region := by
  rw [Nat.mul_comm, Nat.mul_add_div g.bucketsPerRegion_pos, Nat.div_eq_of_lt within, Nat.add_zero]

/-- A bucket of a region is at its position there. -/
theorem mod_bucket {region position : Nat} (within : position < g.bucketsPerRegion) :
    (region * g.bucketsPerRegion + position) % g.bucketsPerRegion = position := by
  rw [Nat.mul_comm, Nat.mul_add_mod, Nat.mod_eq_of_lt within]

/-- The slots of a bucket of a region are slots of the region. -/
theorem bucket_slots_le {position : Nat} (within : position < g.bucketsPerRegion) :
    position * g.bucketCapacity + g.bucketCapacity ≤ g.slotsPerRegion := by
  rw [← Nat.succ_mul]
  exact Nat.mul_le_mul_right _ within

/-- The bucket of a word is in one of the regions. -/
theorem region_locate_lt (word : Nat) : (g.locate word).region < g.regionCount :=
  Nat.div_lt_of_lt_mul (g.regionCount_mul.symm ▸ g.bucketOf_lt word)

/-- It is within that region. -/
theorem offset_locate_le (word : Nat) :
    (g.locate word).offset + g.bucketCapacity ≤ g.slotsPerRegion :=
  g.bucket_slots_le (Nat.mod_lt _ g.bucketsPerRegion_pos)

/-- A bucket has a slot. -/
theorem bucketCapacity_pos : 0 < g.bucketCapacity := by
  have few : g.bucketCount ≤ g.capacity :=
    Nat.le_trans (Nat.pow_le_pow_right (by decide) (Nat.sub_le ..))
      (Nat.log2_self_le (Nat.pos_iff_ne_zero.1 g.capacity_pos))
  rw [bucketCapacity_eq]
  exact Nat.div_pos few (Nat.two_pow_pos _)

end Geometry

/-- The shard of an address word: its leading routing bits. -/
def shardIndex (word prefixBits : Nat) : Nat := word / Nat.pow 2 (wordBits - prefixBits)

/-- The shard of an address word, unless more bits are asked for than a word has. -/
def shardIndex? (word prefixBits : Nat) : Option Nat :=
  if prefixBits ≤ wordBits then some (shardIndex word prefixBits) else none

end SeenStates
