import Mathlib.Data.Finset.Card
import Mathlib.Data.Finset.Union
import SeenStates.Proofs.BloomBits

/-!
# The count of a Bloom filter

A filter counts the puts that find a probe not set. The bits that are set are the probes of the
fingerprints that were put (`Marked.population_eq`), so what a put does to their count is a matter
of finite sets: a put that answers that its fingerprint was seen adds nothing to the union, and any
other one adds at least one bit and at most as many as a fingerprint has probes, and its fingerprint
is not one of those before it. `Tallied` is what that means for the counter after some puts.
-/
namespace SeenStates

namespace BitArray

/-- The positions of the bits that are set. -/
def population (a : BitArray) : Finset Nat :=
  (Finset.range (wordBits * a.words.size)).filter fun j => a.test j = true

/-- Bits beyond the end are not set. -/
theorem lt_of_test {a : BitArray} {j : Nat} (set : a.test j = true) :
    j < wordBits * a.words.size := by
  by_contra beyond
  have none : a.words.get? (j / 64) = none := by
    rw [SparseArray.get?_eq_none_iff]
    simp only [wordBits] at beyond
    omega
  rw [test_eq, word, none] at set
  simp at set

/-- The bits that are set are those that are found set. -/
theorem mem_population {a : BitArray} {j : Nat} : j ∈ a.population ↔ a.test j = true := by
  rw [population, Finset.mem_filter, Finset.mem_range]
  exact and_iff_right_of_imp lt_of_test

end BitArray

namespace BloomFilter

open BitArray

variable {w : Width}

/-- The bits at the probes of a fingerprint. -/
def probeSet (f : BloomFilter w) (fp : Fingerprint w) : Finset Nat := (f.probes fp).toFinset

/-- They are no more than there are probes. -/
theorem card_probeSet_le (f : BloomFilter w) (fp : Fingerprint w) :
    (f.probeSet fp).card ≤ f.hashes :=
  (List.toFinset_card_le _).trans_eq (length_probes f fp)

namespace Marked

variable {f g : BloomFilter w} {fps : List (Fingerprint w)}

/-- The bits that are set are the probes of the fingerprints. -/
theorem population_eq (marked : f.Marked fps g) :
    g.bits.population = fps.toFinset.biUnion f.probeSet := by
  ext j
  rw [mem_population, marked.test_iff, Finset.mem_biUnion]
  simp only [List.mem_toFinset, probeSet]

/-- No more bits are set than there are. -/
theorem card_population_le (marked : f.Marked fps g) (positive : 0 < f.bitCount) :
    g.bits.population.card ≤ f.bitCount := by
  have inside : g.bits.population ⊆ Finset.range f.bitCount := by
    intro j set
    obtain ⟨fp, _, probe⟩ := (marked.test_iff j).1 (mem_population.1 set)
    exact Finset.mem_range.2 (lt_of_mem_probes positive probe)
  exact (Finset.card_le_card inside).trans_eq (Finset.card_range _)

/-- The bits at the probes of another fingerprint come to those that are set. -/
theorem population_append {after : BloomFilter w} {fp : Fingerprint w} (marked : f.Marked fps g)
    (more : f.Marked (fps ++ [fp]) after) :
    after.bits.population = g.bits.population ∪ f.probeSet fp := by
  rw [more.population_eq, marked.population_eq, List.toFinset_append, Finset.union_biUnion,
    List.toFinset_cons, List.toFinset_nil, insert_empty_eq, Finset.singleton_biUnion]

/-- The probes of a fingerprint are all set if the bits at them are among those that are set. -/
theorem testAll_iff (g : BloomFilter w) (fp : Fingerprint w) :
    testAll g.bits (f.probes fp) = true ↔ f.probeSet fp ⊆ g.bits.population := by
  simp only [testAll, List.all_eq_true, Finset.subset_iff, probeSet, List.mem_toFinset,
    mem_population]

/-- A put counts its fingerprint unless its probes were all set. -/
theorem size_put (marked : f.Marked fps g) (positive : 0 < f.bitCount) (fp : Fingerprint w)
    (h : Host) : (g.put fp h).set.size =
      if testAll g.bits (f.probes fp) then g.size else g.size + 1 := by
  unfold put
  rw [if_neg (by simp [marked.isOpen]), marked.probes]
  simp only [BloomFilter.marked, seen_setEach (marked.within positive fp), Bool.true_and]
  rfl

end Marked

/-- A filter after puts with some answers: what its counter says of them. -/
structure Tallied (f : BloomFilter w) (fps : List (Fingerprint w)) (answers : List Bool)
    (g : BloomFilter w) : Prop extends f.Marked fps g where
  /-- Each put was answered. -/
  length_eq : answers.length = fps.length
  /-- The fingerprints taken as new are counted. -/
  size_eq : g.size = answers.count false
  /-- Each of them was put for the first time. -/
  size_le_fingerprints : g.size ≤ fps.toFinset.card
  /-- Each of them set a bit. -/
  size_le_bits : g.size ≤ g.bits.population.card
  /-- None of them set more bits than it has probes, and no other put set any. -/
  bits_le : g.bits.population.card ≤ f.hashes * g.size

namespace Tallied

variable {f g : BloomFilter w} {fps : List (Fingerprint w)} {answers : List Bool}

/-- Nothing is counted in a filter that was just opened. -/
theorem of_fresh (fresh : f.Fresh) : f.Tallied [] [] f := by
  have marked := Marked.of_fresh fresh
  have none : f.bits.population = ∅ := by simp [marked.population_eq]
  have size : f.size = 0 := fresh.inserted
  refine ⟨marked, rfl, size, ?_, ?_, ?_⟩
  · rw [size]
    exact Nat.zero_le _
  · rw [size]
    exact Nat.zero_le _
  · rw [none]
    exact Nat.zero_le _

/-- A put answers whether the probes were all set, and marks the fingerprint. -/
theorem put_marks (tallied : f.Tallied fps answers g) (positive : 0 < f.bitCount)
    (fp : Fingerprint w) (h : Host) :
    (g.put fp h).answer = .ok (testAll g.bits (f.probes fp)) ∧
      f.Marked (fps ++ [fp]) (g.put fp h).set := by
  obtain ⟨after, put, more⟩ := tallied.toMarked.put_eq positive fp h
  rw [put]
  exact ⟨rfl, more⟩

/-- A put of a fingerprint whose probes are all set changes neither a bit nor the count. -/
theorem put_seen (tallied : f.Tallied fps answers g) (positive : 0 < f.bitCount)
    {fp : Fingerprint w} (seen : testAll g.bits (f.probes fp) = true) (h : Host) :
    (g.put fp h).set.bits.population = g.bits.population ∧ (g.put fp h).set.size = g.size := by
  obtain ⟨_, more⟩ := tallied.put_marks positive fp h
  have inside := (Marked.testAll_iff g fp).1 seen
  constructor
  · rw [tallied.population_append more, Finset.union_eq_left.2 inside]
  · rw [tallied.size_put positive, if_pos seen]

/-- Any other put sets at least one bit and at most as many as there are probes, and counts its
fingerprint, which was not put before. -/
theorem put_new (tallied : f.Tallied fps answers g) (positive : 0 < f.bitCount)
    {fp : Fingerprint w} (new : testAll g.bits (f.probes fp) = false) (h : Host) :
    g.bits.population.card < (g.put fp h).set.bits.population.card ∧
      (g.put fp h).set.bits.population.card ≤ g.bits.population.card + f.hashes ∧
      (g.put fp h).set.size = g.size + 1 ∧ fp ∉ fps := by
  obtain ⟨_, more⟩ := tallied.put_marks positive fp h
  have outside : ¬ f.probeSet fp ⊆ g.bits.population := by
    rw [← Marked.testAll_iff, new]
    exact Bool.false_ne_true
  rw [tallied.population_append more]
  refine ⟨Finset.card_lt_card ?_, ?_, ?_, ?_⟩
  · exact Finset.subset_union_left.ssubset_of_ne fun same =>
      outside (same ▸ Finset.subset_union_right)
  · calc (g.bits.population ∪ f.probeSet fp).card
        ≤ g.bits.population.card + (f.probeSet fp).card := Finset.card_union_le _ _
      _ ≤ g.bits.population.card + f.hashes := Nat.add_le_add_left (card_probeSet_le f fp) _
  · rw [tallied.size_put positive, if_neg (by simp [new])]
  · intro before
    apply outside
    rw [tallied.population_eq]
    exact Finset.subset_biUnion_of_mem f.probeSet (List.mem_toFinset.2 before)

/-- A put is tallied. -/
theorem put (tallied : f.Tallied fps answers g) (positive : 0 < f.bitCount) (fp : Fingerprint w)
    (h : Host) :
    f.Tallied (fps ++ [fp]) (answers ++ [testAll g.bits (f.probes fp)]) (g.put fp h).set := by
  obtain ⟨_, more⟩ := tallied.put_marks positive fp h
  have length := tallied.length_eq
  have size := tallied.size_eq
  have fingerprints := tallied.size_le_fingerprints
  have low := tallied.size_le_bits
  have high := tallied.bits_le
  cases seen : testAll g.bits (f.probes fp) with
  | true =>
    obtain ⟨bits, same⟩ := tallied.put_seen positive seen h
    have grows : fps.toFinset ⊆ (fps ++ [fp]).toFinset := by
      rw [List.toFinset_append]
      exact Finset.subset_union_left
    refine ⟨more, by simp [length], ?_, ?_, ?_, ?_⟩
    · rw [same, size, List.count_append, List.count_singleton, if_neg (by decide), Nat.add_zero]
    · rw [same]
      exact fingerprints.trans (Finset.card_le_card grows)
    · rwa [same, bits]
    · rwa [same, bits]
  | false =>
    obtain ⟨above, near, same, fresh⟩ := tallied.put_new positive seen h
    have distinct : (fps ++ [fp]).toFinset.card = fps.toFinset.card + 1 := by
      rw [List.toFinset_append, List.toFinset_cons, List.toFinset_nil, insert_empty_eq,
        Finset.union_comm, ← Finset.insert_eq, Finset.card_insert_of_notMem]
      rwa [List.mem_toFinset]
    refine ⟨more, by simp [length], ?_, ?_, ?_, ?_⟩
    · rw [same, size, List.count_append, List.count_singleton, if_pos (by decide)]
    · omega
    · omega
    · rw [same, Nat.mul_succ]
      omega

/-- Puts are tallied. -/
theorem each_put (tallied : f.Tallied fps answers g) (positive : 0 < f.bitCount)
    (puts : List (Fingerprint w)) (h : Host) :
    ∃ more, (Outcome.each BloomFilter.put puts g h).answer = .ok more ∧
      f.Tallied (fps ++ puts) (answers ++ more) (Outcome.each BloomFilter.put puts g h).set := by
  induction puts generalizing fps answers g h with
  | nil =>
    refine ⟨[], rfl, ?_⟩
    rw [List.append_nil, List.append_nil]
    exact tallied
  | cons fp rest ih =>
    obtain ⟨answer, _⟩ := tallied.put_marks positive fp h
    obtain ⟨more, answered, later⟩ := ih (tallied.put positive fp h) (g.put fp h).host
    refine ⟨testAll g.bits (f.probes fp) :: more, ?_, ?_⟩
    · simp only [Outcome.each, Outcome.andThen, answer, Outcome.map, answered]
      rfl
    · simp only [Outcome.each, Outcome.andThen, answer, Outcome.map]
      rwa [List.append_assoc, List.append_assoc] at later

end Tallied

/-- The count of a Bloom filter. After any puts into a filter that was opened it is the count of
those that answered that their fingerprint was not seen; there are no more of them than different
fingerprints, and no more than bits that are set. Those are no more than the filter has, nor than
all the probes of that many fingerprints. A put that answers that its fingerprint was seen changes
neither a bit nor the count. -/
theorem counted_of_fresh :
    (∀ {machine : Machine} {c : Config} {before after : Host} {f : BloomFilter w},
      BloomFilter.open w machine c before = (.ok f, after) → f.Fresh) ∧
    ∀ {f : BloomFilter w}, f.Fresh → ∀ (puts : List (Fingerprint w)) (h : Host),
      let o := Outcome.each BloomFilter.put puts f h
      ∃ answers, o.answer = .ok answers ∧ answers.length = puts.length ∧
        o.set.size = answers.count false ∧
        o.set.size ≤ puts.toFinset.card ∧
        o.set.size ≤ o.set.bits.population.card ∧
        o.set.bits.population.card ≤ min f.bitCount (f.hashes * o.set.size) ∧
        ∀ fp k, (o.set.put fp k).answer = .ok true →
          (∀ j, (o.set.put fp k).set.bits.test j = o.set.bits.test j) ∧
            (o.set.put fp k).set.size = o.set.size := by
  refine ⟨fresh_of_open, fun {f} fresh puts h => ?_⟩
  intro o
  have positive : 0 < f.bitCount := Nat.lt_of_lt_of_le (by decide) fresh.le_bitCount
  obtain ⟨answers, answered, tallied⟩ := (Tallied.of_fresh fresh).each_put positive puts h
  rw [List.nil_append, List.nil_append] at tallied
  have bits : o.set.bits.population.card ≤ min f.bitCount (f.hashes * o.set.size) := by
    apply Nat.le_min.2
    exact ⟨tallied.card_population_le positive, tallied.bits_le⟩
  refine ⟨answers, answered, tallied.length_eq, tallied.size_eq, tallied.size_le_fingerprints,
    tallied.size_le_bits, bits, fun fp k seen => ?_⟩
  have set : testAll o.set.bits (f.probes fp) = true := by
    have answer := (tallied.put_marks positive fp k).1
    rwa [seen, Except.ok.injEq, eq_comm] at answer
  obtain ⟨same, size⟩ := tallied.put_seen positive set k
  refine ⟨fun j => ?_, size⟩
  rw [Bool.eq_iff_iff, ← mem_population, ← mem_population, same]

/-- Of two puts of the fingerprint zero into a filter of 64 bits and three probes, two of which are
one bit, the first one counts, and two bits are set. -/
theorem counted_of_fresh_zero :
    let zero : Fingerprint .bits64 := .ofNat .bits64 0
    let o := Outcome.each BloomFilter.put [zero, zero] sampleFilter .empty
    sampleFilter.Fresh ∧ o.answer = .ok [false, true] ∧ o.set.size = 1 ∧
      o.set.bits.population.card = 2 ∧ o.set.bits.population.card ≤ min 64 (3 * o.set.size) ∧
      (o.set.put zero .empty).answer = .ok true ∧ (o.set.put zero .empty).set.size = 1 := by
  intro zero o
  have answer : o.answer = .ok [false, true] := by decide +kernel
  have again : (o.set.put zero .empty).answer = .ok true := by decide +kernel
  have fresh : sampleFilter.Fresh := counted_of_fresh.1 (eq_ok_get isSome_open_sampleFilter)
  obtain ⟨answers, answered, _, size, _, _, high, seen⟩ :=
    counted_of_fresh.2 fresh [zero, zero] .empty
  obtain rfl : [false, true] = answers := Except.ok.inj (answer.symm.trans answered)
  exact ⟨fresh, answer, size, by decide +kernel, high, again, (seen zero .empty again).2.trans size⟩

end BloomFilter

end SeenStates
