import SeenStates.Config
import SeenStates.Geometry

/-!
# The layout of a table

A geometry cuts the slots of a table into buckets and the buckets into regions. However many slots
are asked for, the buckets have every usable slot exactly once, and so have the regions
(`Geometry.LaidOut`): fewer than one slot of each bucket is left over, a bucket has at least the
slots of its share of the addresses and less than twice as many, and the bucket of a word is where
`Geometry.locate` says it is. No count or position on the way is out of range.
-/
namespace SeenStates

/-- Ranges of `size` positions, from each of the first `count` bases on, have every position below
`total` in one of them only, and no other position. -/
structure Tiles (base : Nat → Nat) (size count total : Nat) : Prop where
  /-- The ranges end in time. -/
  within : ∀ k < count, base k + size ≤ total
  /-- A position is in one range. -/
  covered : ∀ position < total, ∃ k < count, base k ≤ position ∧ position < base k + size
  /-- It is in no other. -/
  apart : ∀ j < count, ∀ k < count, ∀ position, base j ≤ position → position < base j + size →
    base k ≤ position → position < base k + size → j = k

/-- Ranges of one size, one behind the other, tile the positions that there are in all of them. -/
theorem tiles_mul (size count : Nat) : Tiles (· * size) size count (count * size) := by
  -- A position is in the range of its quotient.
  have quotient {k position : Nat} (first : k * size ≤ position)
      (last : position < k * size + size) : k = position / size := by
    refine (Nat.div_eq_of_lt_le first ?_).symm
    rwa [Nat.succ_mul]
  constructor
  case within =>
    intro k inside
    calc
      k * size + size = (k + 1) * size := (Nat.succ_mul k size).symm
      _ ≤ count * size := Nat.mul_le_mul_right size inside
  case covered =>
    intro position inside
    have positive : 0 < size := Nat.pos_of_mul_pos_left (Nat.zero_lt_of_lt inside)
    refine ⟨position / size, (Nat.div_lt_iff_lt_mul positive).2 inside,
      Nat.div_mul_le_self position size, ?_⟩
    have split := Nat.div_add_mod' position size
    have rest := Nat.mod_lt position positive
    show position < position / size * size + size
    omega
  case apart =>
    intro j _ k _ position first last first' last'
    rw [quotient first last, quotient first' last']

/-- Ranges from the same bases on tile the same positions. -/
theorem Tiles.congr {base base' : Nat → Nat} {size count total : Nat}
    (tiles : Tiles base size count total) (same : ∀ k, base' k = base k) :
    Tiles base' size count total := by
  obtain rfl : base' = base := funext same
  exact tiles

namespace Geometry

variable (g : Geometry)

/-! ## Buckets -/

/-- A bucket has as many addresses as its grain, and there are sixteen of them unless there are not
so many addresses. -/
theorem two_pow_grainBits : Nat.pow 2 g.grainBits = min 16 (Nat.pow 2 g.addressBits) := by
  rw [grainBits, bucketGrain]
  rcases Nat.le_total 4 g.addressBits with many | few
  · rw [Nat.min_eq_left many]
    exact (Nat.min_eq_left (Nat.pow_le_pow_right (by decide) many)).symm
  · rw [Nat.min_eq_right few]
    exact (Nat.min_eq_right (Nat.pow_le_pow_right (by decide) few)).symm

/-- The addresses are those of all buckets. -/
theorem bucketCount_mul_grain :
    g.bucketCount * Nat.pow 2 g.grainBits = Nat.pow 2 g.addressBits := by
  have grain : g.grainBits ≤ g.addressBits := Nat.min_le_right ..
  rw [bucketCount, bucketBits, Nat.pow_eq, Nat.pow_eq, Nat.pow_eq, ← Nat.pow_add,
    Nat.sub_add_cancel grain]

/-- There is a slot for each address. -/
theorem addresses_le_capacity : Nat.pow 2 g.addressBits ≤ g.capacity :=
  Nat.log2_self_le (Nat.pos_iff_ne_zero.1 g.capacity_pos)

/-- There are not two slots for each address. -/
theorem capacity_lt_addresses : g.capacity < 2 * Nat.pow 2 g.addressBits := by
  have below : g.capacity < Nat.pow 2 (g.addressBits + 1) := Nat.lt_log2_self
  rwa [Nat.pow_eq, Nat.pow_succ, Nat.mul_comm] at below

/-- There is a bucket. -/
theorem bucketCount_pos : 0 < g.bucketCount := Nat.two_pow_pos _

/-- A bucket has a slot for each of its addresses. -/
theorem grain_le_bucketCapacity : Nat.pow 2 g.grainBits ≤ g.bucketCapacity := by
  rw [bucketCapacity_eq, Nat.le_div_iff_mul_le g.bucketCount_pos, Nat.mul_comm,
    bucketCount_mul_grain]
  exact g.addresses_le_capacity

/-- It does not have two slots for each of them. -/
theorem bucketCapacity_lt_grain : g.bucketCapacity < 2 * Nat.pow 2 g.grainBits := by
  rw [bucketCapacity_eq, Nat.div_lt_iff_lt_mul g.bucketCount_pos, Nat.mul_assoc,
    Nat.mul_comm (Nat.pow 2 g.grainBits), bucketCount_mul_grain]
  exact g.capacity_lt_addresses

/-- Not all slots asked for are usable. -/
theorem tableLength_le : g.tableLength ≤ g.capacity := by
  rw [tableLength, bucketCapacity_eq]
  exact Nat.mul_div_le ..

/-- Fewer than one of each bucket are not. -/
theorem capacity_lt : g.capacity < g.tableLength + g.bucketCount := by
  rw [tableLength, bucketCapacity_eq]
  have split := Nat.div_add_mod g.capacity g.bucketCount
  have rest := Nat.mod_lt g.capacity g.bucketCount_pos
  omega

/-- When the capacity is a power of two a bucket has no more slots than addresses. -/
theorem bucketCapacity_of_isMasked (masked : g.isMasked) :
    g.bucketCapacity = Nat.pow 2 g.grainBits := by
  have whole : Nat.pow 2 g.addressBits = g.capacity := of_decide_eq_true masked
  rw [bucketCapacity_eq, ← whole, ← bucketCount_mul_grain,
    Nat.mul_div_cancel_left _ g.bucketCount_pos]

/-- The masked form of a bucket's first slot is the general one. -/
theorem bucketBase_eq (bucket : Nat) : g.bucketBase bucket = bucket * g.bucketCapacity := by
  unfold bucketBase
  split
  · next masked =>
    rw [Nat.shiftLeft_eq, g.bucketCapacity_of_isMasked masked]
    rfl
  · rfl

/-! ## Regions -/

/-- There are as many regions as were asked for, and at most one for each bucket. -/
theorem regionCount_eq : g.regionCount = min (Nat.pow 2 g.regionBits) g.bucketCount := by
  rw [regionCount, regionShare, bucketCount]
  rcases Nat.le_total g.regionBits g.bucketBits with few | many
  · rw [Nat.min_eq_left few]
    exact (Nat.min_eq_left (Nat.pow_le_pow_right (by decide) few)).symm
  · rw [Nat.min_eq_right many]
    exact (Nat.min_eq_right (Nat.pow_le_pow_right (by decide) many)).symm

/-- The regions have all usable slots. -/
theorem regionCount_mul_slots : g.regionCount * g.slotsPerRegion = g.tableLength := by
  rw [slotsPerRegion, ← Nat.mul_assoc, Nat.mul_comm g.regionCount, regionCount_mul, tableLength]

/-- A region has its slots behind those of the ones before it, as long as all slots are in range. -/
theorem regionSlots?_eq {region : Nat} (inside : region < g.regionCount)
    (inRange : g.tableLength < countLimit) :
    g.regionSlots? region =
      some (region * g.slotsPerRegion, region * g.slotsPerRegion + g.slotsPerRegion) := by
  have last := (tiles_mul g.slotsPerRegion g.regionCount).within region inside
  rw [regionCount_mul_slots] at last
  have first : region * g.slotsPerRegion < countLimit := by
    have : region * g.slotsPerRegion + g.slotsPerRegion ≤ g.tableLength := last
    omega
  simp [regionSlots?, inRange?, first, Nat.lt_of_le_of_lt last inRange]

/-! ## Words -/

/-- Counted from the first slot of all regions it starts where its bucket does. -/
theorem region_add_offset (word : Nat) :
    (g.locate word).region * g.slotsPerRegion + (g.locate word).offset =
      g.bucketBasePosition word := by
  have split := Nat.div_add_mod' (g.bucketOf word) g.bucketsPerRegion
  calc
    _ = (g.bucketOf word / g.bucketsPerRegion * g.bucketsPerRegion +
          g.bucketOf word % g.bucketsPerRegion) * g.bucketCapacity := by
      rw [Nat.add_mul, Nat.mul_assoc]
      rfl
    _ = g.bucketBasePosition word := by rw [split, bucketBasePosition, bucketBase_eq]

/-! ## All of it -/

/-- Buckets and regions have every usable slot once, and each word has its bucket where it is
located. -/
structure LaidOut (g : Geometry) : Prop where
  /-- Every count is in range, and so is the shift that gives an address. -/
  inRange : g.addressBits < wordBits ∧ ∀ count ∈ [Nat.pow 2 g.addressBits, g.bucketCount,
    g.bucketCapacity, g.regionCount, g.bucketsPerRegion, g.slotsPerRegion, g.tableLength],
    count < countLimit
  /-- Of the slots asked for, fewer than one of each bucket are not usable. -/
  usable : g.tableLength ≤ g.capacity ∧ g.capacity < g.tableLength + g.bucketCount
  /-- A bucket has sixteen slots, or as many as there are addresses, but not twice as many. -/
  bucketCapacity : min 16 (Nat.pow 2 (Nat.log2 g.capacity)) ≤ g.bucketCapacity ∧
    g.bucketCapacity < 2 * min 16 (Nat.pow 2 (Nat.log2 g.capacity))
  /-- The regions are a power of two that divides the buckets, and share them. -/
  regions : (∃ bits, g.regionCount = Nat.pow 2 bits) ∧ g.regionCount ∣ g.bucketCount ∧
    g.bucketsPerRegion = g.bucketCount / g.regionCount
  /-- A word has an address and one of the buckets. -/
  bucketOf : ∀ word, g.address? word = some (g.address word) ∧ g.bucketOf word < g.bucketCount
  /-- Its bucket is in one of the regions, within the slots of that region. -/
  locate : ∀ word, (g.locate word).bucket = g.bucketOf word ∧
    (g.locate word).region < g.regionCount ∧
    (g.locate word).offset + g.bucketCapacity ≤ g.slotsPerRegion
  /-- It starts at its offset from the first slot of the region. -/
  base : ∀ word, ∃ first last, g.regionSlots? (g.locate word).region = some (first, last) ∧
    first + (g.locate word).offset = g.bucketBasePosition word
  /-- The slots of the buckets are the usable slots. -/
  buckets : Tiles g.bucketBase g.bucketCapacity g.bucketCount g.tableLength
  /-- So are the slots of the regions. -/
  slots : ∃ first, (∀ region < g.regionCount,
      g.regionSlots? region = some (first region, first region + g.slotsPerRegion)) ∧
    Tiles first g.slotsPerRegion g.regionCount g.tableLength

/-- A table of as many slots as can be counted is laid out. -/
theorem laidOut (few : g.prefixBits < wordBits) (counted : g.capacity < countLimit) :
    g.LaidOut := by
  have inRange : g.tableLength < countLimit := Nat.lt_of_le_of_lt g.tableLength_le counted
  -- Every other count is a factor of the usable slots, but for the addresses.
  have factor {a b : Nat} (product : a * b = g.tableLength) (positive : 0 < b) :
      a < countLimit := by
    have : a ≤ a * b := Nat.le_mul_of_pos_right a positive
    omega
  have buckets : g.bucketCount * g.bucketCapacity = g.tableLength := rfl
  have regions := g.regionCount_mul_slots
  have slots : 0 < g.slotsPerRegion := Nat.mul_pos g.bucketsPerRegion_pos g.bucketCapacity_pos
  have shares : g.bucketsPerRegion * (g.regionCount * g.bucketCapacity) = g.tableLength := by
    rw [← Nat.mul_assoc, regionCount_mul, buckets]
  have regionCount_pos : 0 < g.regionCount := Nat.two_pow_pos _
  constructor
  case inRange =>
    refine ⟨(Nat.log2_lt (Nat.pos_iff_ne_zero.1 g.capacity_pos)).2 counted, ?_⟩
    simp only [List.forall_mem_cons]
    refine ⟨Nat.lt_of_le_of_lt g.addresses_le_capacity counted,
      factor buckets g.bucketCapacity_pos, factor ((Nat.mul_comm ..).trans buckets)
      g.bucketCount_pos, factor regions slots, factor shares
      (Nat.mul_pos regionCount_pos g.bucketCapacity_pos),
      factor ((Nat.mul_comm ..).trans regions) regionCount_pos, inRange, by simp⟩
  case usable => exact ⟨g.tableLength_le, g.capacity_lt⟩
  case bucketCapacity =>
    have grain := g.two_pow_grainBits
    rw [addressBits] at grain
    rw [← grain]
    exact ⟨g.grain_le_bucketCapacity, g.bucketCapacity_lt_grain⟩
  case regions =>
    exact ⟨⟨_, rfl⟩, ⟨g.bucketsPerRegion, by rw [Nat.mul_comm, regionCount_mul]⟩,
      g.bucketsPerRegion_eq⟩
  case bucketOf => exact fun word => ⟨by simp [address?, few], g.bucketOf_lt word⟩
  case locate => exact fun word => ⟨rfl, g.region_locate_lt word, g.offset_locate_le word⟩
  case base =>
    exact fun word => ⟨_, _, g.regionSlots?_eq (g.region_locate_lt word) inRange,
      g.region_add_offset word⟩
  case buckets => exact (tiles_mul g.bucketCapacity g.bucketCount).congr g.bucketBase_eq
  case slots =>
    exact ⟨_, fun region inside => g.regionSlots?_eq inside inRange,
      regions ▸ tiles_mul g.slotsPerRegion g.regionCount⟩

/-- Every count of slots but zero, every count of regions that is a power of two and as many routing
bits as a configuration can have give a table that is laid out, with that many regions or one for
each bucket. -/
theorem laidOut_of_make {capacity prefixBits regions : Nat} (filled : 0 < capacity)
    (counted : capacity < countLimit) (few : prefixBits ≤ Config.maxPrefixBits)
    (power : ∃ bits, regions = Nat.pow 2 bits) :
    ∃ g, make capacity prefixBits regions = .ok g ∧ g.capacity = capacity ∧
      g.prefixBits = prefixBits ∧ g.regionCount = min regions g.bucketCount ∧ g.LaidOut := by
  obtain ⟨bits, rfl⟩ := power
  have log : Nat.log2 (Nat.pow 2 bits) = bits := Nat.log2_two_pow
  have positive : 0 < Nat.pow 2 bits := Nat.two_pow_pos bits
  let g : Geometry := ⟨capacity, prefixBits, bits, filled⟩
  have routed : g.prefixBits < wordBits := Nat.lt_of_le_of_lt few (by decide)
  refine ⟨g, ?_, rfl, rfl, g.regionCount_eq, g.laidOut routed counted⟩
  simp only [make, log, filled, positive, and_self, if_true, dif_pos]
  rfl

/-- A table of a hundred slots, which are no power of two, and of more regions than buckets. -/
theorem laidOut_of_make_hundred :
    ∃ g, make 100 2 8 = .ok g ∧ g.LaidOut ∧ g.bucketCount = 4 ∧ g.bucketCapacity = 25 ∧
      g.regionCount = 4 := by
  obtain ⟨g, made, capacity, prefixBits, regions, laidOut⟩ :=
    laidOut_of_make (by decide : 0 < 100) (by decide) (by decide : 2 ≤ Config.maxPrefixBits)
      ⟨3, (rfl : 8 = Nat.pow 2 3)⟩
  have buckets : g.bucketCount = 4 := by
    rw [bucketCount, bucketBits, grainBits, addressBits, capacity]
    decide
  refine ⟨g, made, laidOut, buckets, ?_, by rw [regions, buckets]; decide⟩
  rw [bucketCapacity_eq, buckets, capacity]

end Geometry

end SeenStates
