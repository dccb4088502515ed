import SeenStates.Fingerprint
import SeenStates.Geometry

/-!
# The order of addresses

The shard of an address word is given by its leading routing bits and its bucket by the bits behind
them, as many as there are buckets to tell apart. So the shards are in the order of the words, and
among words of one shard the buckets are (`Geometry.ascends_with_values`). A wide fingerprint has a
second word behind its address word, which matters to its order only if the address words are equal.
-/
namespace SeenStates

variable {w : Width}

/-! ## Shards -/

/-- Two words have the same first `n` bits, the most significant one first. -/
def SameLeading (n first second : Nat) : Prop :=
  ∀ k < n, first.testBit (wordBits - 1 - k) = second.testBit (wordBits - 1 - k)

instance (n first second : Nat) : Decidable (SameLeading n first second) :=
  inferInstanceAs (Decidable (∀ k < n, _))

/-- Words that have the same routing bits are of one shard. -/
theorem shardIndex_of_sameLeading {n first second : Nat} (isWord : first < Nat.pow 2 wordBits)
    (isWord' : second < Nat.pow 2 wordBits) (same : SameLeading n first second) :
    shardIndex first n = shardIndex second n := by
  simp only [shardIndex, Nat.pow_eq, ← Nat.shiftRight_eq_div_pow]
  apply Nat.eq_of_testBit_eq
  intro i
  rw [Nat.testBit_shiftRight, Nat.testBit_shiftRight]
  by_cases inside : wordBits - n + i < wordBits
  · have place : wordBits - 1 - (wordBits - 1 - (wordBits - n + i)) = wordBits - n + i := by omega
    have routing : wordBits - 1 - (wordBits - n + i) < n := by omega
    exact place ▸ same _ routing
  · have beyond : Nat.pow 2 wordBits ≤ Nat.pow 2 (wordBits - n + i) :=
      Nat.pow_le_pow_right (by decide) (Nat.le_of_not_lt inside)
    rw [Nat.testBit_lt_two_pow (Nat.lt_of_lt_of_le isWord beyond),
      Nat.testBit_lt_two_pow (Nat.lt_of_lt_of_le isWord' beyond)]

/-- Words that are in order have their shards in order. -/
theorem shardIndex_le {first second : Nat} (ordered : first ≤ second) (n : Nat) :
    shardIndex first n ≤ shardIndex second n :=
  Nat.div_le_div_right ordered

/-- Without routing bits all words are in one shard. -/
theorem shardIndex_zero {word : Nat} (isWord : word < Nat.pow 2 wordBits) :
    shardIndex word 0 = 0 :=
  Nat.div_eq_of_lt isWord

namespace Fingerprint

/-- Fingerprints that are in order have their addresses in order. -/
theorem address_le {a b : Fingerprint w} (ordered : a ≤ b) : a.address ≤ b.address :=
  Nat.div_le_div_right (Fingerprint.le_iff.1 ordered)

/-- A fingerprint of a shard is smaller than one of a later shard. -/
theorem lt_of_shardIndex_lt {n : Nat} {a b : Fingerprint w}
    (before : shardIndex a.address n < shardIndex b.address n) : a < b := by
  apply Std.not_le.1
  intro notBefore
  exact Nat.not_le_of_lt before (shardIndex_le (address_le notBefore) n)

/-- Fingerprints of different shards compare as their shards do. -/
theorem compare_of_shardIndex_ne {n : Nat} {a b : Fingerprint w}
    (apart : shardIndex a.address n ≠ shardIndex b.address n) :
    compare a b = compare (shardIndex a.address n) (shardIndex b.address n) := by
  rcases Nat.lt_or_gt_of_ne apart with before | behind
  · rw [Nat.compare_eq_lt.2 before, compare_eq_lt.2 (lt_of_shardIndex_lt before)]
  · rw [Nat.compare_eq_gt.2 behind, compare_eq,
      Nat.compare_eq_gt.2 (lt_iff.1 (lt_of_shardIndex_lt behind))]

end Fingerprint

/-! ## Buckets -/

namespace Geometry

/-- Shifting the routing bits out of a word leaves the bits behind them. -/
theorem shifted_eq {prefixBits : Nat} (few : prefixBits ≤ wordBits) (word : Nat) :
    word * Nat.pow 2 prefixBits % Nat.pow 2 wordBits =
      word % Nat.pow 2 (wordBits - prefixBits) * Nat.pow 2 prefixBits := by
  have whole : Nat.pow 2 wordBits = Nat.pow 2 (wordBits - prefixBits) * Nat.pow 2 prefixBits := by
    simp only [Nat.pow_eq]
    rw [← Nat.pow_add, Nat.sub_add_cancel few]
  rw [whole, Nat.mul_mod_mul_right]

/-- Words of one shard keep their order when their routing bits are shifted out. -/
theorem shifted_le {prefixBits first second : Nat}
    (shared : shardIndex first prefixBits = shardIndex second prefixBits)
    (ordered : first ≤ second) :
    first * Nat.pow 2 prefixBits % Nat.pow 2 wordBits ≤
      second * Nat.pow 2 prefixBits % Nat.pow 2 wordBits := by
  unfold shardIndex at shared
  rcases Nat.le_total prefixBits wordBits with few | many
  · rw [shifted_eq few, shifted_eq few]
    apply Nat.mul_le_mul_right
    have split := Nat.div_add_mod first (Nat.pow 2 (wordBits - prefixBits))
    have split' := Nat.div_add_mod second (Nat.pow 2 (wordBits - prefixBits))
    rw [shared] at split
    omega
  · -- With more routing bits than a word has, only equal words share a shard.
    rw [Nat.sub_eq_zero_of_le many] at shared
    have same : first = second := by simpa using shared
    exact Nat.le_of_eq (by rw [same])

/-- Words of one shard that are in order have their buckets in order. -/
theorem bucketOf_le (g : Geometry) {first second : Nat}
    (shared : shardIndex first g.prefixBits = shardIndex second g.prefixBits)
    (ordered : first ≤ second) : g.bucketOf first ≤ g.bucketOf second := by
  have addresses : g.address first ≤ g.address second := by
    by_cases addressed : g.addressBits = 0
    · simp [address, addressed]
    · rw [g.address_eq _ addressed, g.address_eq _ addressed]
      exact Nat.div_le_div_right (shifted_le shared ordered)
  rw [bucketOf, bucketOf, Nat.shiftRight_eq_div_pow, Nat.shiftRight_eq_div_pow]
  exact Nat.div_le_div_right addresses

/-- Of two fingerprints of one shard the one of the earlier bucket is smaller. -/
theorem lt_of_bucketOf_lt (g : Geometry) {a b : Fingerprint w}
    (shared : shardIndex a.address g.prefixBits = shardIndex b.address g.prefixBits)
    (before : g.bucketOf a.address < g.bucketOf b.address) : a < b := by
  apply Std.not_le.1
  intro notBelow
  exact Nat.not_le_of_lt before (g.bucketOf_le shared.symm (Fingerprint.address_le notBelow))

/-- Words that differ in their routing bits only have one bucket. -/
theorem bucketOf_eq_of_sameBehind (g : Geometry) {first second : Nat}
    (same : ∀ k < wordBits - g.prefixBits, first.testBit k = second.testBit k) :
    g.bucketOf first = g.bucketOf second := by
  have shifted : first <<< g.prefixBits % Nat.pow 2 wordBits =
      second <<< g.prefixBits % Nat.pow 2 wordBits := by
    apply Nat.eq_of_testBit_eq
    intro k
    simp only [Nat.pow_eq, Nat.testBit_mod_two_pow, Nat.testBit_shiftLeft]
    by_cases inside : k < wordBits ∧ g.prefixBits ≤ k
    · rw [same (k - g.prefixBits) (by omega)]
    · by_cases below : k < wordBits
      · have routing : ¬ g.prefixBits ≤ k := fun behind => inside ⟨below, behind⟩
        simp [routing]
      · simp [below]
  rw [bucketOf, bucketOf, address, address, shifted]

/-- Among fingerprints that have the same routing bits the buckets are in the order of the values,
the shards are in the order of the values of all fingerprints, and the routing bits of a word do not
matter to its bucket. -/
theorem ascends_with_values (g : Geometry) (w : Width) :
    (∀ a b : Fingerprint w, SameLeading g.prefixBits a.address b.address → a ≤ b →
      g.bucketOf a.address ≤ g.bucketOf b.address) ∧
    (∀ a b : Fingerprint w, SameLeading g.prefixBits a.address b.address →
      g.bucketOf a.address < g.bucketOf b.address → a < b) ∧
    (∀ n, ∀ a b : Fingerprint w, a ≤ b → shardIndex a.address n ≤ shardIndex b.address n) ∧
    (∀ n, ∀ a b : Fingerprint w, shardIndex a.address n ≠ shardIndex b.address n →
      compare a b = compare (shardIndex a.address n) (shardIndex b.address n)) ∧
    (∀ first second, (∀ k < wordBits - g.prefixBits, first.testBit k = second.testBit k) →
      g.bucketOf first = g.bucketOf second) := by
  have shared {a b : Fingerprint w} (same : SameLeading g.prefixBits a.address b.address) :
      shardIndex a.address g.prefixBits = shardIndex b.address g.prefixBits :=
    shardIndex_of_sameLeading a.address_lt b.address_lt same
  refine ⟨?_, ?_, ?_, ?_, ?_⟩
  · exact fun a b same ordered => g.bucketOf_le (shared same) (Fingerprint.address_le ordered)
  · exact fun a b same before => g.lt_of_bucketOf_lt (shared same) before
  · exact fun n a b ordered => shardIndex_le (Fingerprint.address_le ordered) n
  · exact fun n a b apart => Fingerprint.compare_of_shardIndex_ne apart
  · exact fun first second same => g.bucketOf_eq_of_sameBehind same

/-- A table of 777 slots behind two routing bits: wide fingerprints of one shard and different
buckets, two that differ in the second word only, and two of different shards. -/
theorem ascends_with_values_spread :
    let g : Geometry := ⟨777, 2, 2, by decide⟩
    let low := Fingerprint.ofTwoWords 0x4000000000000000 9
    let high := Fingerprint.ofTwoWords 0x7000000000000000 3
    let later := Fingerprint.ofTwoWords 0x8000000000000000 0
    (SameLeading 2 low.address high.address ∧
      g.bucketOf low.address < g.bucketOf high.address ∧ low < high) ∧
    (Fingerprint.ofTwoWords 0x4000000000000000 8 ≤ low ∧
      g.bucketOf 0x4000000000000000 ≤ g.bucketOf low.address) ∧
    (shardIndex high.address 2 ≠ shardIndex later.address 2 ∧ compare high later = .lt ∧
      shardIndex high.address 2 ≤ shardIndex later.address 2) ∧
    g.bucketOf low.address = g.bucketOf later.address := by
  intro g low high later
  obtain ⟨buckets, values, shards, compared, behind⟩ := ascends_with_values g .bits128
  have shared : SameLeading 2 low.address high.address := by decide
  have apart : shardIndex high.address 2 ≠ shardIndex later.address 2 := by decide
  have ordered : Fingerprint.ofTwoWords 0x4000000000000000 8 ≤ low := by decide
  have before : g.bucketOf low.address < g.bucketOf high.address := by decide
  exact ⟨⟨shared, before, values low high shared before⟩,
    ⟨ordered, buckets _ _ (by decide) ordered⟩,
    ⟨apart, (compared 2 high later apart).trans (by decide), shards 2 high later (by decide)⟩,
    behind _ _ (by decide)⟩

end Geometry

end SeenStates
