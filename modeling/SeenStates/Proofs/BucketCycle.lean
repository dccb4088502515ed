import SeenStates.Proofs.TableLayout

/-!
# From bucket to bucket

From a position of a table one steps to the first slot of the next bucket, and from the last bucket
to the first slot of all. When the capacity is a power of two, shifts and masks of words give the
positions that products and remainders give for any capacity. The steps from the first slot on visit
every bucket once, in order, and are back after as many of them as there are buckets
(`Geometry.cycles_of_make`).
-/
namespace SeenStates

namespace Geometry

/-! ## Masks -/

/-- What a mask of low bits leaves over is a multiple of a power of two. -/
theorem withoutMask_eq (position bits : Nat) :
    withoutMask position (Nat.pow 2 bits - 1) = position - position % Nat.pow 2 bits := by
  have split := Nat.div_add_mod' position (Nat.pow 2 bits)
  have whole : position - position % Nat.pow 2 bits = position >>> bits <<< bits := by
    rw [Nat.shiftLeft_eq, Nat.shiftRight_eq_div_pow]
    exact Nat.sub_eq_of_eq_add split.symm
  rw [whole]
  apply Nat.eq_of_testBit_eq
  intro i
  rw [withoutMask, Nat.testBit_xor, Nat.testBit_and, Nat.testBit_shiftLeft,
    Nat.testBit_shiftRight, Nat.pow_eq, Nat.testBit_two_pow_sub_one]
  by_cases low : i < bits
  · simp [low, Nat.not_le.2 low]
  · simp [low, Nat.le_of_not_lt low]

/-- Of a word it is picked by the complement of the mask. -/
theorem toNat_and_not (position mask : UInt64) :
    (position &&& ~~~mask).toNat = withoutMask position.toNat mask.toNat := by
  have bits : position &&& ~~~mask = position ^^^ (position &&& mask) := by
    apply UInt64.toBitVec_inj.1
    ext i inside
    simp only [UInt64.toBitVec_and, UInt64.toBitVec_not, UInt64.toBitVec_xor, BitVec.getElem_and,
      BitVec.getElem_not, BitVec.getElem_xor]
    cases position.toBitVec[i] <;> simp
  rw [bits, UInt64.toNat_xor, UInt64.toNat_and, withoutMask]

/-- The word before that of a count. -/
theorem toNat_ofNat_sub_one {n : Nat} (positive : 0 < n) (counted : n < countLimit) :
    (UInt64.ofNat n - 1).toNat = n - 1 := by
  have word : (UInt64.ofNat n).toNat = n := UInt64.toNat_ofNat_of_lt' counted
  rw [UInt64.toNat_sub_of_le, word]
  · rfl
  · rw [UInt64.le_iff_toNat_le, word]
    exact positive

variable (g : Geometry)

/-- The masks are used if the capacity is a power of two. -/
theorem isMasked_iff : g.isMasked ↔ ∃ bits, g.capacity = Nat.pow 2 bits := by
  rw [isMasked, decide_eq_true_iff]
  constructor
  · exact fun whole => ⟨_, whole.symm⟩
  · rintro ⟨bits, power⟩
    rw [addressBits, power]
    exact congrArg (Nat.pow 2) Nat.log2_two_pow

/-- Then all slots are usable. -/
theorem tableLength_of_isMasked (masked : g.isMasked) :
    g.tableLength = Nat.pow 2 g.addressBits := by
  rw [tableLength, g.bucketCapacity_of_isMasked masked, bucketCount_mul_grain]

/-! ## The next bucket -/

/-- The bucket at a position starts at a multiple of its size. -/
theorem baseOf_eq (position : Nat) :
    g.baseOf position = position - position % g.bucketCapacity := by
  unfold baseOf
  split
  · next masked => rw [g.bucketCapacity_of_isMasked masked, withoutMask_eq]
  · rfl

/-- The bucket at a position of the table ends in the table. -/
theorem baseOf_add_le {position : Nat} (inside : position < g.tableLength) :
    g.baseOf position + g.bucketCapacity ≤ g.tableLength := by
  have split := Nat.div_add_mod' position g.bucketCapacity
  have bucket : position / g.bucketCapacity < g.bucketCount :=
    (Nat.div_lt_iff_lt_mul g.bucketCapacity_pos).2 inside
  calc
    g.baseOf position + g.bucketCapacity =
        position / g.bucketCapacity * g.bucketCapacity + g.bucketCapacity := by
      rw [baseOf_eq]
      omega
    _ = (position / g.bucketCapacity + 1) * g.bucketCapacity := (Nat.succ_mul ..).symm
    _ ≤ g.tableLength := Nat.mul_le_mul_right _ bucket

/-- The next bucket starts where that one ends, or at zero. -/
theorem nextBucketBase?_eq (counted : g.capacity < countLimit) {position : Nat}
    (inside : position < g.tableLength) :
    g.nextBucketBase? position =
      some ((position - position % g.bucketCapacity + g.bucketCapacity) % g.tableLength) := by
  have inRange : g.baseOf position + g.bucketCapacity < countLimit :=
    Nat.lt_of_le_of_lt (Nat.le_trans (g.baseOf_add_le inside) g.tableLength_le) counted
  rw [nextBucketBase?, inRange?, if_pos inRange, Option.map_some, baseOf_eq]
  split
  · next masked =>
    rw [g.tableLength_of_isMasked masked]
    exact congrArg some (Nat.and_two_pow_sub_one_eq_mod ..)
  · rfl

/-- In words it is given by two masks if the capacity is a power of two. -/
theorem nextBucketBase?_of_isMasked (counted : g.capacity < countLimit) (masked : g.isMasked)
    {position : Nat} (inside : position < g.tableLength) :
    g.nextBucketBase? position =
      some (((.ofNat position &&& ~~~(.ofNat g.bucketCapacity - 1)) + .ofNat g.bucketCapacity) &&&
        (.ofNat g.tableLength - 1) : UInt64).toNat := by
  -- No sum of words wraps, because the bucket at a position of the table ends in the table.
  have length : g.tableLength < countLimit := Nat.lt_of_le_of_lt g.tableLength_le counted
  have ends := g.baseOf_add_le inside
  have size : g.bucketCapacity < countLimit := by omega
  have inRange : g.baseOf position + g.bucketCapacity < countLimit := by omega
  have start : withoutMask position (g.bucketCapacity - 1) = g.baseOf position := by
    rw [baseOf, if_pos masked]
  have slot : (UInt64.ofNat position).toNat = position :=
    UInt64.toNat_ofNat_of_lt' (Nat.lt_trans inside length)
  have grain : (UInt64.ofNat g.bucketCapacity).toNat = g.bucketCapacity :=
    UInt64.toNat_ofNat_of_lt' size
  rw [UInt64.toNat_and, UInt64.toNat_add, toNat_and_not, slot, grain,
    toNat_ofNat_sub_one g.bucketCapacity_pos size,
    toNat_ofNat_sub_one (Nat.zero_lt_of_lt inside) length, start, nextBucketBase?, inRange?,
    if_pos inRange, Option.map_some, if_pos masked]
  exact congrArg (fun next => some (next &&& (g.tableLength - 1))) (Nat.mod_eq_of_lt inRange).symm

/-- From the first slot of a bucket it is the first slot of the next one. -/
theorem nextBucketBase?_bucketBase (counted : g.capacity < countLimit) {bucket : Nat}
    (inside : bucket < g.bucketCount) :
    g.nextBucketBase? (g.bucketBase bucket) =
      some (g.bucketBase ((bucket + 1) % g.bucketCount)) := by
  have position : bucket * g.bucketCapacity < g.tableLength :=
    Nat.mul_lt_mul_of_pos_right inside g.bucketCapacity_pos
  rw [bucketBase_eq, bucketBase_eq, g.nextBucketBase?_eq counted position, Nat.mul_mod_left,
    Nat.sub_zero, ← Nat.succ_mul, tableLength, Nat.mul_mod_mul_right]

/-! ## All of them -/

/-- The position after so many steps from the first slot on. -/
def baseAfter? : Nat → Option Nat
  | 0 => some 0
  | n + 1 => (baseAfter? n).bind g.nextBucketBase?

/-- The steps go around the buckets. -/
theorem baseAfter?_eq (counted : g.capacity < countLimit) (n : Nat) :
    g.baseAfter? n = some (g.bucketBase (n % g.bucketCount)) := by
  induction n with
  | zero => rw [baseAfter?, Nat.zero_mod, bucketBase_eq, Nat.zero_mul]
  | succ n ih =>
    rw [baseAfter?, ih, Option.bind_some,
      g.nextBucketBase?_bucketBase counted (Nat.mod_lt _ g.bucketCount_pos), Nat.mod_add_mod]

/-- The positions of buckets are the same in all forms, and the steps from bucket to bucket are a
cycle. -/
structure Cycles (g : Geometry) : Prop where
  /-- Masks are used for a power of two. -/
  masked : g.isMasked ↔ ∃ bits, g.capacity = Nat.pow 2 bits
  /-- A bucket is behind all slots of those before it. -/
  base : ∀ bucket < g.bucketCount, g.bucketBase bucket = bucket * g.bucketCapacity
  /-- The next bucket starts behind the one at a position, and behind the last one is the first. -/
  next : ∀ position < g.tableLength, g.nextBucketBase? position =
    some ((position - position % g.bucketCapacity + g.bucketCapacity) % g.tableLength)
  /-- So it does when words are masked. -/
  words : g.isMasked → ∀ position < g.tableLength, g.nextBucketBase? position =
    some (((.ofNat position &&& ~~~(.ofNat g.bucketCapacity - 1)) + .ofNat g.bucketCapacity) &&&
      (.ofNat g.tableLength - 1) : UInt64).toNat
  /-- The steps from the first slot on are at each bucket in turn. -/
  visits : ∀ n < g.bucketCount, g.baseAfter? n = some (g.bucketBase n)
  /-- The later a bucket, the greater its position. -/
  ascends : ∀ m n, m < n → n < g.bucketCount → g.bucketBase m < g.bucketBase n
  /-- They are at the first slot again after as many steps as there are buckets. -/
  returns : g.baseAfter? g.bucketCount = some 0
  /-- They are not there before. -/
  away : ∀ n, 0 < n → n < g.bucketCount → g.baseAfter? n ≠ some 0

/-- A table of as many slots as can be counted has these steps. -/
theorem cycles (counted : g.capacity < countLimit) : g.Cycles := by
  have visits {n : Nat} (inside : n < g.bucketCount) : g.baseAfter? n = some (g.bucketBase n) := by
    rw [g.baseAfter?_eq counted, Nat.mod_eq_of_lt inside]
  have ascends {m n : Nat} (before : m < n) : g.bucketBase m < g.bucketBase n := by
    rw [bucketBase_eq, bucketBase_eq]
    exact Nat.mul_lt_mul_of_pos_right before g.bucketCapacity_pos
  constructor
  case masked => exact g.isMasked_iff
  case base => exact fun bucket _ => g.bucketBase_eq bucket
  case next => exact fun _ inside => g.nextBucketBase?_eq counted inside
  case words => exact fun masked _ inside => g.nextBucketBase?_of_isMasked counted masked inside
  case visits => exact fun _ inside => visits inside
  case ascends => exact fun _ _ before _ => ascends before
  case returns => rw [g.baseAfter?_eq counted, Nat.mod_self, bucketBase_eq, Nat.zero_mul]
  case away =>
    intro n positive inside back
    have behind := ascends positive
    rw [visits inside] at back
    rw [Option.some.inj back] at behind
    exact Nat.not_lt_zero _ behind

/-- Every count of slots but zero gives a table with these steps. -/
theorem cycles_of_make {capacity prefixBits regions : Nat} (filled : 0 < capacity)
    (counted : capacity < countLimit) (power : ∃ bits, regions = Nat.pow 2 bits) :
    ∃ g, make capacity prefixBits regions = .ok g ∧ g.capacity = capacity ∧ g.Cycles := by
  obtain ⟨bits, rfl⟩ := power
  exact ⟨_, make_two_pow filled prefixBits bits, rfl, cycles _ counted⟩

/-- A hundred slots, which are no power of two, eight, which are fewer than a bucket has otherwise,
and half of all that can be counted. -/
theorem cycles_of_make_sizes :
    (∃ g, make 100 0 1 = .ok g ∧ g.Cycles ∧ g.bucketCount = 4 ∧
      [1, 2, 3, 4].map g.baseAfter? = [some 25, some 50, some 75, some 0] ∧
      g.nextBucketBase? 30 = some 50) ∧
    (∃ g, make 8 0 2 = .ok g ∧ g.Cycles ∧ g.bucketCount = 1 ∧ g.nextBucketBase? 5 = some 0) ∧
    ∃ g, make (Nat.pow 2 63) 3 4 = .ok g ∧ g.Cycles ∧ g.bucketCount = Nat.pow 2 59 ∧
      g.nextBucketBase? (Nat.pow 2 63 - 1) = some 0 := by
  refine ⟨?_, ?_, ?_⟩
  · obtain ⟨g, made, _, cycles⟩ := @cycles_of_make 100 0 1 (by decide) (by decide) ⟨0, rfl⟩
    obtain rfl : ⟨100, 0, 0, by decide⟩ = g := Except.ok.inj made
    exact ⟨_, made, cycles, by decide, by decide, by decide⟩
  · obtain ⟨g, made, _, cycles⟩ := @cycles_of_make 8 0 2 (by decide) (by decide) ⟨1, rfl⟩
    obtain rfl : ⟨8, 0, 1, by decide⟩ = g := Except.ok.inj made
    exact ⟨_, made, cycles, by decide, by decide⟩
  · obtain ⟨g, made, _, cycles⟩ :=
      @cycles_of_make (Nat.pow 2 63) 3 4 (by decide) (by decide) ⟨2, rfl⟩
    obtain rfl : ⟨Nat.pow 2 63, 3, 2, by decide⟩ = g := Except.ok.inj made
    exact ⟨_, made, cycles, by decide, by decide⟩

end Geometry

end SeenStates
