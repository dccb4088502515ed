import Mathlib.Data.Nat.Bitwise
import SeenStates.Bloom
import SeenStates.Proofs.Calls

/-!
# The bits of a Bloom filter

A put goes over the probes of its fingerprint once and tests a bit just before it sets it, so a
probe that comes twice sees the bit it set itself. That makes no difference (`seen_setEach`): the
answer is whether all probes were set before the put, and afterwards the bits that are set are those
from before and the probes (`test_setEach`). After any puts a bit is set exactly if it is a probe of
one of their fingerprints (`Marked`), so what a query answers is a matter of which fingerprints were
put.
-/
namespace SeenStates

/-! ## Bit arrays -/

namespace BitArray

/-- The word with one bit set has the power of two of that bit as its number. -/
theorem toNat_mask (i : Nat) : (mask i).toNat = 2 ^ (i % 64) := by
  have bound : i % 64 < 64 := Nat.mod_lt i (by decide)
  have fits : 2 ^ (i % 64) < 2 ^ 64 := Nat.pow_lt_pow_right (by decide) bound
  have shift : (UInt64.ofNat (i % 64)).toNat % 64 = i % 64 := by
    rw [UInt64.toNat_ofNat']
    omega
  rw [mask, UInt64.toNat_shiftLeft, shift, UInt64.toNat_one, Nat.shiftLeft_eq, Nat.one_mul,
    Nat.mod_eq_of_lt fits]

/-- A bit is set if it is one of the binary digits of its word. -/
theorem test_eq (a : BitArray) (i : Nat) :
    a.test i = (a.word (i / 64)).toNat.testBit (i % 64) := by
  have same : (a.word (i / 64) &&& mask i) = 0 ↔
      (a.word (i / 64)).toNat.testBit (i % 64) = false := by
    rw [← UInt64.toNat_inj, UInt64.toNat_and, toNat_mask, Nat.and_two_pow]
    cases (a.word (i / 64)).toNat.testBit (i % 64) <;> simp
  unfold test
  cases here : (a.word (i / 64)).toNat.testBit (i % 64) with
  | false => simp [same.2 here]
  | true =>
    have set : (a.word (i / 64) &&& mask i) ≠ 0 := fun none => by simp [same.1 none] at here
    simp [set]

/-- No bit of a new array is set. -/
@[simp] theorem test_zeros (n i : Nat) : (zeros n).test i = false := by
  have word : (zeros n).word (i / 64) = 0 := by
    rw [BitArray.word, zeros, SparseArray.get?_blank]
    split <;> rfl
  rw [test_eq, word]
  exact Nat.zero_testBit _

/-- Setting a bit keeps the count of words. -/
@[simp] theorem size_words_set (a : BitArray) (i : Nat) :
    (a.set i).words.size = a.words.size := by
  simp [set]

/-- After a bit within an array is set it is, and every other one is as before. -/
theorem test_set {a : BitArray} {i : Nat} (within : i / 64 < a.words.size) (j : Nat) :
    (a.set i).test j = (decide (j = i) || a.test j) := by
  by_cases here : j / 64 = i / 64
  · have word : (a.set i).word (j / 64) = a.word (j / 64) ||| mask i := by
      rw [here, BitArray.word, set, SparseArray.get?_set_self within, Option.getD_some]
    have digit : i % 64 = j % 64 ↔ j = i := by omega
    rw [test_eq, test_eq, word, UInt64.toNat_or, toNat_mask, Nat.testBit_or, Nat.testBit_two_pow,
      Bool.or_comm]
    simp only [digit]
  · have word : (a.set i).word (j / 64) = a.word (j / 64) := by
      rw [BitArray.word, set, SparseArray.get?_set_of_ne here, BitArray.word]
    have other : j ≠ i := fun same => here (by rw [same])
    rw [test_eq, test_eq, word]
    simp [other]

/-- The word of a bit is one of the words for its array. -/
theorem word_lt_of_lt {n i : Nat} (inside : i < n) : i / 64 < wordsFor n := by
  unfold wordsFor
  omega

end BitArray

namespace BloomFilter

open BitArray

variable {w : Width}

/-! ## A pass over the bits -/

section Pass

variable {bits : BitArray} {positions : List Nat}

/-- A pass keeps the count of words. -/
@[simp] theorem size_words_setEach (bits : BitArray) (seen : Bool) (positions : List Nat) :
    (setEach bits seen positions).1.words.size = bits.words.size := by
  induction positions generalizing bits seen with
  | nil => rfl
  | cons i rest ih => rw [setEach, ih, size_words_set]

/-- After a pass the bits are set that were, and those that it went over. -/
theorem test_setEach (within : ∀ i ∈ positions, i / 64 < bits.words.size) (seen : Bool) (j : Nat) :
    (setEach bits seen positions).1.test j = (decide (j ∈ positions) || bits.test j) := by
  induction positions generalizing bits seen with
  | nil => simp [setEach]
  | cons i rest ih =>
    obtain ⟨here, within⟩ := List.forall_mem_cons.1 within
    rw [setEach, ih (by simpa using within), test_set here]
    by_cases same : j = i <;> simp [same]

/-- A pass answers whether all bits it went over were set before it. A bit that comes again was set
by the pass itself, but then the answer is already given by the bit as it first came. -/
theorem seen_setEach (within : ∀ i ∈ positions, i / 64 < bits.words.size) (seen : Bool) :
    (setEach bits seen positions).2 = (seen && testAll bits positions) := by
  induction positions generalizing bits seen with
  | nil => simp [setEach, testAll]
  | cons i rest ih =>
    obtain ⟨here, within⟩ := List.forall_mem_cons.1 within
    rw [setEach, ih (by simpa using within), testAll, testAll, List.all_cons, Bool.and_assoc]
    congr 1
    cases set : bits.test i with
    | false => rfl
    | true =>
      have same : (bits.set i).test = bits.test := by
        funext j
        rw [test_set here]
        by_cases eq : j = i <;> simp [eq, set]
      rw [same]

end Pass

/-! ## Probes -/

/-- A fingerprint has the given count of probes. -/
theorem length_probesFrom (m x y n i : Nat) : (probesFrom m x y n i).length = n := by
  induction n generalizing x y i with
  | zero => rfl
  | succ n ih => rw [probesFrom, List.length_cons, ih]

/-- Probes are within the bits. -/
theorem lt_of_mem_probesFrom {m : Nat} (positive : 0 < m) {x y n i j : Nat}
    (probe : j ∈ probesFrom m x y n i) : j < m := by
  induction n generalizing x y i with
  | zero => simp [probesFrom] at probe
  | succ n ih =>
    rw [probesFrom, List.mem_cons] at probe
    rcases probe with rfl | later
    · exact Nat.mod_lt _ positive
    · exact ih later

/-- A fingerprint has as many probes as the filter has hashes. -/
@[simp] theorem length_probes (f : BloomFilter w) (fp : Fingerprint w) :
    (f.probes fp).length = f.hashes := by
  unfold probes probeList
  cases f.hashes with
  | zero => rfl
  | succ k => rw [List.length_cons, length_probesFrom]

/-- The probes of a fingerprint are bits of the filter. -/
theorem lt_of_mem_probes {f : BloomFilter w} (positive : 0 < f.bitCount) {fp : Fingerprint w}
    {j : Nat} (probe : j ∈ f.probes fp) : j < f.bitCount := by
  unfold probes probeList at probe
  cases count : f.hashes with
  | zero => simp [count] at probe
  | succ k =>
    rw [count, List.mem_cons] at probe
    rcases probe with rfl | later
    · exact Nat.mod_lt _ positive
    · exact lt_of_mem_probesFrom positive later

/-! ## Puts -/

/-- A filter as it is opened: of any count of bits and of probes that a configuration can have, with
no bit set. -/
structure Fresh (f : BloomFilter w) : Prop where
  /-- No bit is set. -/
  bits : f.bits = .zeros f.bitCount
  /-- There are bits enough. -/
  le_bitCount : 64 ≤ f.bitCount
  /-- There are not too many. -/
  bitCount_le : f.bitCount ≤ maxBits
  /-- A fingerprint has a probe. -/
  one_le_hashes : 1 ≤ f.hashes
  /-- It has not too many. -/
  hashes_le : f.hashes ≤ 32
  /-- Nothing was put. -/
  inserted : f.inserted = 0
  /-- The filter is open. -/
  isOpen : f.closed = false

/-- A filter in which the bits are set for some fingerprints, of which there is nothing else to know
for a query. -/
structure Marked (f : BloomFilter w) (fps : List (Fingerprint w)) (g : BloomFilter w) : Prop where
  /-- It has as many bits. -/
  bitCount : g.bitCount = f.bitCount
  /-- It has as many probes. -/
  hashes : g.hashes = f.hashes
  /-- It is open. -/
  isOpen : g.closed = false
  /-- There is a word for each of its bits. -/
  size : g.bits.words.size = wordsFor f.bitCount
  /-- The bits set are the probes of the fingerprints. -/
  test_iff : ∀ j, g.bits.test j = true ↔ ∃ fp ∈ fps, j ∈ f.probes fp

/-- A filter that opens has no bit set and as many bits and probes as a filter can have. -/
theorem fresh_of_open {machine : Machine} {c : Config} {before after : Host} {f : BloomFilter w}
    (opened : BloomFilter.open w machine c before = (.ok f, after)) : f.Fresh := by
  unfold BloomFilter.open at opened
  split at opened
  · simp at opened
  · next g made =>
    simp only [Prod.mk.injEq, Except.ok.injEq] at opened
    obtain ⟨rfl, -⟩ := opened
    unfold make at made
    cases valid : c.validate with
    | error e => simp [valid, bind, Except.bind] at made
    | ok _ =>
      have usable := Config.usable_of_validate valid
      simp only [valid, bind, Except.bind] at made
      split at made
      · contradiction
      · split at made
        · contradiction
        · next bytes _ =>
          split at made
          · contradiction
          · next enough =>
            split at made
            · contradiction
            · split at made
              · contradiction
              · cases made
                exact ⟨rfl, by simpa using enough, Nat.min_le_right _ _, usable.one_le_hashes,
                  usable.hashes_le, rfl, rfl⟩

namespace Marked

variable {f g : BloomFilter w} {fps : List (Fingerprint w)}

/-- Nothing is marked in a filter that was just opened. -/
theorem of_fresh (fresh : f.Fresh) : f.Marked [] f := by
  refine ⟨rfl, rfl, fresh.isOpen, ?_, fun j => ?_⟩
  · rw [fresh.bits]
    rfl
  · simp [fresh.bits]

/-- The probes are those from the start. -/
theorem probes (marked : f.Marked fps g) : g.probes = f.probes := by
  funext fp
  rw [BloomFilter.probes, BloomFilter.probes, marked.bitCount, marked.hashes]

/-- The probes of a fingerprint are on words of the filter. -/
theorem within (marked : f.Marked fps g) (positive : 0 < f.bitCount) (fp : Fingerprint w) :
    ∀ i ∈ f.probes fp, i / 64 < g.bits.words.size := by
  intro i probe
  rw [marked.size]
  exact word_lt_of_lt (lt_of_mem_probes positive probe)

/-- The probes of a fingerprint are all set if each of them is one of a marked fingerprint. -/
theorem testAll_eq (marked : f.Marked fps g) (fp : Fingerprint w) :
    testAll g.bits (f.probes fp) =
      decide (∀ j ∈ f.probes fp, ∃ other ∈ fps, j ∈ f.probes other) := by
  rw [Bool.eq_iff_iff, decide_eq_true_eq, testAll, List.all_eq_true]
  exact forall₂_congr fun j _ => marked.test_iff j

/-- A query answers whether the probes are all set. -/
theorem contains_eq (marked : f.Marked fps g) (fp : Fingerprint w) (h : Host) :
    g.contains fp h = .ok (testAll g.bits (f.probes fp)) g h := by
  unfold contains
  rw [if_neg (by simp [marked.isOpen]), marked.probes]

/-- A put answers whether the probes were all set, and marks the fingerprint. -/
theorem put_eq (marked : f.Marked fps g) (positive : 0 < f.bitCount) (fp : Fingerprint w)
    (h : Host) : ∃ after, g.put fp h = .ok (testAll g.bits (f.probes fp)) after h ∧
      f.Marked (fps ++ [fp]) after := by
  have within := marked.within positive fp
  refine ⟨(g.marked (f.probes fp)).1, ?_, marked.bitCount, marked.hashes, marked.isOpen, ?_,
    fun j => ?_⟩
  · unfold put
    rw [if_neg (by simp [marked.isOpen]), marked.probes]
    simp only [BloomFilter.marked, seen_setEach within, Bool.true_and]
  · simp only [BloomFilter.marked, size_words_setEach, marked.size]
  · simp only [BloomFilter.marked, test_setEach within, Bool.or_eq_true, decide_eq_true_eq,
      marked.test_iff, List.mem_append, List.mem_singleton, or_and_right, exists_or,
      exists_eq_left]
    exact Or.comm

/-- Puts mark their fingerprints. -/
theorem each_put (marked : f.Marked fps g) (positive : 0 < f.bitCount)
    (puts : List (Fingerprint w)) (h : Host) :
    (Outcome.each BloomFilter.put puts g h).answer.isOk ∧
      f.Marked (fps ++ puts) (Outcome.each BloomFilter.put puts g h).set := by
  induction puts generalizing fps g h with
  | nil => exact ⟨rfl, (List.append_nil fps).symm ▸ marked⟩
  | cons fp rest ih =>
    obtain ⟨after, put, marked⟩ := marked.put_eq positive fp h
    obtain ⟨isOk, marked⟩ := ih marked h
    simp only [Outcome.each, Outcome.andThen, put, Outcome.ok, Outcome.map]
    rw [List.append_assoc, List.singleton_append] at marked
    refine ⟨?_, marked⟩
    cases answers : (Outcome.each BloomFilter.put rest after h).answer with
    | error e =>
      rw [answers] at isOk
      contradiction
    | ok _ => rfl

end Marked

/-- What a Bloom filter answers. A filter that opens has no bit set, a count of bits from 64 to
`2 ^ 63` and a count of probes from 1 to 32. Of every such filter it holds that after any puts a bit
is set exactly if it is a probe of one of their fingerprints; a query answers whether every probe of
its fingerprint is a probe of one that was put, so it finds each that was; a put answers what a
query would have answered just before; and other puts of the same fingerprints lead to the same
answers. -/
theorem characterized_of_fresh :
    (∀ {machine : Machine} {c : Config} {before after : Host} {f : BloomFilter w},
      BloomFilter.open w machine c before = (.ok f, after) → f.Fresh) ∧
    ∀ {f : BloomFilter w}, f.Fresh → ∀ (puts : List (Fingerprint w)) (h : Host),
      let g := (Outcome.each BloomFilter.put puts f h).set
      (Outcome.each BloomFilter.put puts f h).answer.isOk ∧
      (∀ fp, (f.probes fp).length = f.hashes ∧ ∀ j ∈ f.probes fp, j < f.bitCount) ∧
      (∀ j, g.bits.test j = true ↔ ∃ fp ∈ puts, j ∈ f.probes fp) ∧
      (∀ fp k, (g.contains fp k).answer =
        .ok (decide (∀ j ∈ f.probes fp, ∃ other ∈ puts, j ∈ f.probes other))) ∧
      (∀ fp ∈ puts, ∀ k, (g.contains fp k).answer = .ok true) ∧
      (∀ fp k, (g.put fp k).answer = (g.contains fp k).answer) ∧
      ∀ others : List (Fingerprint w), (∀ fp, fp ∈ others ↔ fp ∈ puts) → ∀ fp k l,
        ((Outcome.each BloomFilter.put others f k).set.contains fp l).answer =
          (g.contains fp l).answer := by
  refine ⟨fresh_of_open, fun {f} fresh puts h => ?_⟩
  have positive : 0 < f.bitCount := Nat.lt_of_lt_of_le (by decide) fresh.le_bitCount
  have after (puts : List (Fingerprint w)) (h : Host) :=
    (Marked.of_fresh fresh).each_put positive puts h
  obtain ⟨isOk, marked⟩ := after puts h
  rw [List.nil_append] at marked
  have answer (fp : Fingerprint w) (k : Host) :
      ((Outcome.each BloomFilter.put puts f h).set.contains fp k).answer =
        .ok (decide (∀ j ∈ f.probes fp, ∃ other ∈ puts, j ∈ f.probes other)) := by
    rw [marked.contains_eq, ← marked.testAll_eq]
    rfl
  refine ⟨isOk, fun fp => ⟨length_probes f fp, fun j => lt_of_mem_probes positive⟩,
    marked.test_iff, answer, fun fp put k => ?_, fun fp k => ?_, fun others same fp k l => ?_⟩
  · rw [answer, decide_eq_true fun j probe => ⟨fp, put, probe⟩]
  · obtain ⟨_, put, _⟩ := marked.put_eq positive fp k
    rw [put, marked.contains_eq]
    rfl
  · obtain ⟨_, marked'⟩ := after others k
    rw [answer, marked'.contains_eq, marked'.testAll_eq]
    simp only [List.nil_append, same]
    rfl

/-- The configuration of a filter of 64 bits and three probes. -/
def sampleFilterConfig : Config :=
  { Config.named "m" "states" with memory := .bytes 8, kind := .bloom, lockCount := some 1 }

/-- The filter can be opened. -/
theorem isSome_open_sampleFilter :
    (BloomFilter.open .bits64 sampleMachine sampleFilterConfig .empty).1.toOption.isSome := by
  decide +kernel

/-- The filter, just opened. -/
def sampleFilter : BloomFilter .bits64 :=
  (BloomFilter.open .bits64 sampleMachine sampleFilterConfig .empty).1.toOption.get
    isSome_open_sampleFilter

/-- Two of the three probes of the fingerprint zero are one bit. It is taken as new, and found
afterwards. -/
theorem characterized_of_fresh_zero :
    let zero : Fingerprint .bits64 := .ofNat .bits64 0
    let o := Outcome.each BloomFilter.put [zero] sampleFilter .empty
    sampleFilter.Fresh ∧ sampleFilter.probes zero = [0, 0, 1] ∧
      (sampleFilter.put zero .empty).answer = .ok false ∧
      (o.set.contains zero .empty).answer = .ok true ∧ o.set.bits.test 1 = true ∧
      o.set.bits.test 2 = false := by
  intro zero o
  have probes : sampleFilter.probes zero = [0, 0, 1] := by decide +kernel
  have fresh : sampleFilter.Fresh :=
    characterized_of_fresh.1 (eq_ok_get isSome_open_sampleFilter)
  obtain ⟨_, _, _, absent, _, puts, _⟩ := characterized_of_fresh.2 fresh [] .empty
  obtain ⟨_, _, bits, _, found, _⟩ := characterized_of_fresh.2 fresh [zero] .empty
  refine ⟨fresh, probes, ?_, found zero (by simp) _, ?_, ?_⟩
  · refine ((puts zero .empty).trans (absent zero .empty)).trans (congrArg _ ?_)
    exact decide_eq_false fun all => by simpa using all 0 (by simp [probes])
  · exact (bits 1).2 ⟨zero, by simp, by simp [probes]⟩
  · rw [Bool.eq_false_iff, Ne, bits 2]
    simp [probes]

end BloomFilter

end SeenStates
