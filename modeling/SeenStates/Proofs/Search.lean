import SeenStates.Run

/-!
# Searching a run

A look-up in a run halves twice: first the sparse index, for the first block whose last entry is
not below the fingerprint, then that block. On a run whose entries ascend and whose index holds
the last entry of each block both searches are exact (`Run.Holds.contains_iff`). That a search
finds nothing but entries needs neither (`Run.mem_stored_of_contains`).
-/
namespace SeenStates

variable {w : Width}

/-- Fingerprints in strictly ascending order. -/
abbrev Ascending (fps : List (Fingerprint w)) : Prop := fps.Pairwise (· < ·)

/-- Of two entries of an ascending array the one in front is the smaller. -/
theorem Ascending.getElem_lt {xs : Array (Fingerprint w)} (ascending : Ascending xs.toList)
    {i j : Nat} (before : i < j) (within : j < xs.size) : xs[i] < xs[j] := by
  have ordered := List.pairwise_iff_getElem.1 ascending i j
    (by simpa using Nat.lt_trans before within) (by simpa using within) before
  simpa using ordered

/-- Of two entries of an ascending array the one not behind is not the greater. -/
theorem Ascending.getElem_le {xs : Array (Fingerprint w)} (ascending : Ascending xs.toList)
    {i j : Nat} (before : i ≤ j) (within : j < xs.size) : xs[i].value ≤ xs[j].value := by
  rcases Nat.lt_or_eq_of_le before with before | rfl
  · exact Nat.le_of_lt (Fingerprint.lt_iff.1 (ascending.getElem_lt before within))
  · exact Nat.le_refl _

/-! ## Halving a window -/

/-- What a search finds stands in its window, ordered or not. -/
theorem mem_of_halvingSearch {xs : Array (Fingerprint w)} {fp : Fingerprint w} {low high : Nat}
    (found : halvingSearch xs fp low high) :
    ∃ i, low ≤ i ∧ i < high ∧ xs[i]? = some fp := by
  fun_induction halvingSearch xs fp low high with
  | case1 => contradiction
  | case2 low high proper middle here =>
    exact ⟨middle, by omega, by omega, here⟩
  | case3 low high proper middle probe here differ below ih =>
    obtain ⟨i, first, last, there⟩ := ih found
    exact ⟨i, by omega, last, there⟩
  | case4 low high proper middle probe here differ above ih =>
    obtain ⟨i, first, last, there⟩ := ih found
    exact ⟨i, first, by omega, there⟩
  | case5 => contradiction

/-- In ascending entries a search finds what stands in its window. -/
theorem halvingSearch_of_mem {xs : Array (Fingerprint w)} (ascending : Ascending xs.toList)
    {fp : Fingerprint w} {low high i : Nat} (within : high ≤ xs.size) (first : low ≤ i)
    (last : i < high) (there : xs[i]? = some fp) : halvingSearch xs fp low high := by
  obtain ⟨inside, rfl⟩ := Array.getElem?_eq_some_iff.1 there
  fun_induction halvingSearch xs xs[i] low high with
  | case1 low high proper middle here =>
    have beyond := Array.getElem?_eq_none_iff.1 here
    omega
  | case2 => rfl
  | case3 low high proper middle probe here differ below ih =>
    obtain ⟨_, rfl⟩ := Array.getElem?_eq_some_iff.1 here
    -- Everything up to the middle is below what is looked for.
    have right : middle < i := by
      apply Nat.lt_of_not_le
      intro notRight
      have ordered := ascending.getElem_le notRight (by omega)
      rw [Fingerprint.lt_iff] at below
      omega
    exact ih within (by omega) last
  | case4 low high proper middle probe here differ above ih =>
    obtain ⟨_, rfl⟩ := Array.getElem?_eq_some_iff.1 here
    -- Everything from the middle on is above what is looked for.
    have left : i < middle := by
      apply Nat.lt_of_not_le
      intro notLeft
      rcases Nat.lt_or_eq_of_le notLeft with later | rfl
      · exact above (ascending.getElem_lt later inside)
      · exact differ rfl
    exact ih (by omega) first left
  | case5 low high empty => omega

/-! ## The first block -/

/-- A property that no longer holds from some position on is cut there: it holds of the elements
in front of the position that is found and of none from there on. -/
theorem partitionFrom_spec {α : Type} {xs : Array α} {p : α → Bool}
    (falls : ∀ i j (_ : i ≤ j) (within : j < xs.size), p xs[j] → p xs[i]) {base size : Nat}
    (within : base + size ≤ xs.size)
    (before : ∀ i (inside : i < xs.size), i < base → p xs[i])
    (behind : ∀ i (inside : i < xs.size), base + size ≤ i → ¬ p xs[i]) (i : Nat)
    (inside : i < xs.size) : p xs[i] ↔ i < partitionFrom xs p base size := by
  fun_induction partitionFrom xs p base size with
  | case1 base size many half next ih =>
    have reads : xs[base + half]?.any p = p (xs[base + half]) := by
      rw [Array.getElem?_eq_getElem (by omega), Option.any_some]
    by_cases holds : p (xs[base + half])
    · have step : next = base + half := by simp [next, reads, holds]
      refine ih (by omega) (fun i _ earlier => ?_) (fun i inside later => ?_)
      · exact falls i (base + half) (by omega) (by omega) holds
      · exact behind i inside (by omega)
    · have step : next = base := by simp [next, reads, holds]
      refine ih (by omega) (fun i inside earlier => ?_) (fun i inside later => ?_)
      · exact before i inside (by omega)
      · exact fun later' => holds (falls (base + half) i (by omega) inside later')
  | case2 base size few holds =>
    have full : base < xs.size := by
      apply Nat.lt_of_not_le
      intro beyond
      simp [Array.getElem?_eq_none beyond] at holds
    rw [Array.getElem?_eq_getElem full, Option.any_some] at holds
    constructor
    · intro here
      apply Nat.lt_of_not_le
      intro later
      exact behind i inside (by omega) here
    · intro earlier
      exact falls i base (by omega) full holds
  | case3 base size few fails =>
    constructor
    · intro here
      apply Nat.lt_of_not_le
      intro later
      have first : p (xs[base]) := falls base i later inside here
      rw [Array.getElem?_eq_getElem (by omega), Option.any_some] at fails
      exact fails first
    · intro earlier
      exact before i inside earlier

/-- A property that no longer holds from some position on holds of the elements in front of the
position that is found and of no other. -/
theorem lt_partitionPoint_iff {α : Type} {xs : Array α} {p : α → Bool}
    (falls : ∀ i j (_ : i ≤ j) (within : j < xs.size), p xs[j] → p xs[i]) {i : Nat}
    (inside : i < xs.size) : i < partitionPoint xs p ↔ p xs[i] := by
  have spec : p xs[i] ↔ i < partitionFrom xs p 0 xs.size :=
    partitionFrom_spec falls (by omega) (fun _ _ none => absurd none (Nat.not_lt_zero _))
      (fun i inside later => by omega) i inside
  exact spec.symm

/-! ## Blocks -/

/-- Where each element has a value, the values stand where the elements do. -/
theorem getElem?_filterMap_of_isSome {α β : Type} {f : α → Option β} {xs : List α}
    (each : ∀ a ∈ xs, (f a).isSome) (k : Nat) : (xs.filterMap f)[k]? = xs[k]?.bind f := by
  induction xs generalizing k with
  | nil => rfl
  | cons a rest ih =>
    obtain ⟨b, here⟩ := Option.isSome_iff_exists.1 (each a List.mem_cons_self)
    rw [List.filterMap_cons_some here]
    cases k with
    | zero => simp [here]
    | succ k => simpa using ih (fun a later => each a (List.mem_cons_of_mem _ later)) k

/-- A block has an entry exactly when its first position is one of an entry. -/
theorem lt_blockCount_iff (header : RunHeader) (k : Nat) (positive : 0 < header.blockEntries) :
    k < header.blockCount ↔ k * header.blockEntries < header.count := by
  rw [RunHeader.blockCount, Nat.lt_iff_add_one_le, Nat.le_div_iff_mul_le positive, Nat.add_mul,
    Nat.one_mul]
  omega

/-- Each block has a last entry. -/
theorem isSome_lastOfBlock {blockEntries : Nat} (positive : 0 < blockEntries)
    (entries : Array (Fingerprint w)) (k : Nat)
    (listed : k ∈ List.range (RunHeader.mk w.bytes entries.size blockEntries).blockCount) :
    (entries[min ((k + 1) * blockEntries) entries.size - 1]?).isSome := by
  have here : k * blockEntries < entries.size :=
    (lt_blockCount_iff _ _ positive).1 (List.mem_range.1 listed)
  rw [Array.getElem?_eq_getElem (by omega)]
  rfl

/-- The last entry of the block at a position. -/
theorem getElem?_blockMaxima {blockEntries : Nat} (positive : 0 < blockEntries)
    (entries : Array (Fingerprint w)) (k : Nat) :
    (blockMaxima blockEntries entries)[k]? =
      if k * blockEntries < entries.size then
        entries[min ((k + 1) * blockEntries) entries.size - 1]?
      else none := by
  let header := RunHeader.mk w.bytes entries.size blockEntries
  unfold blockMaxima
  rw [List.getElem?_toArray, getElem?_filterMap_of_isSome (isSome_lastOfBlock positive entries)]
  by_cases here : k * blockEntries < entries.size
  · have listed : k < header.blockCount := (lt_blockCount_iff _ _ positive).2 here
    rw [if_pos here, List.getElem?_range listed, Option.bind_some]
  · have beyond : header.blockCount ≤ k :=
      Nat.le_of_not_lt fun listed => here ((lt_blockCount_iff _ _ positive).1 listed)
    rw [if_neg here, List.getElem?_eq_none (by simpa using beyond), Option.bind_none]

/-- The index has one entry for each block. -/
theorem size_blockMaxima {blockEntries : Nat} (positive : 0 < blockEntries)
    (entries : Array (Fingerprint w)) :
    (blockMaxima blockEntries entries).size =
      (RunHeader.mk w.bytes entries.size blockEntries).blockCount := by
  rw [blockMaxima, List.size_toArray,
    List.filterMap_length_eq_length.2 (isSome_lastOfBlock positive entries), List.length_range]

/-- The index ends with the last entry. -/
theorem back?_blockMaxima {blockEntries : Nat} (positive : 0 < blockEntries)
    (entries : Array (Fingerprint w)) (filled : 0 < entries.size) :
    (blockMaxima blockEntries entries).back? = entries.back? := by
  let header := RunHeader.mk w.bytes entries.size blockEntries
  have blocks : header.blockCount ≠ 0 := by
    intro none
    have first : 0 < header.blockCount := (lt_blockCount_iff _ _ positive).2 (by simpa using filled)
    omega
  have last := (lt_blockCount_iff header (header.blockCount - 1) positive).1 (by omega)
  have after := mt (lt_blockCount_iff header header.blockCount positive).2
    (Nat.lt_irrefl _)
  have cut : min ((header.blockCount - 1 + 1) * blockEntries) entries.size = entries.size := by
    rw [Nat.sub_add_cancel (by omega)]
    exact Nat.min_eq_right (Nat.le_of_not_lt after)
  rw [Array.back?_eq_getElem?, Array.back?_eq_getElem?, size_blockMaxima positive,
    getElem?_blockMaxima positive, if_pos last, cut]

/-! ## Looking up -/

namespace Run

/-- The entries of a run as far as it is mapped. -/
def stored (r : Run w) : Array (Fingerprint w) := r.mapped.getD #[]

/-- What a run is found to have is among its entries, ordered or not. -/
theorem mem_stored_of_contains {r : Run w} {fp : Fingerprint w} (found : r.contains fp) :
    fp ∈ r.stored := by
  unfold Run.contains at found
  cases mapped : r.mapped with
  | none => simp [mapped] at found
  | some entries =>
    simp only [mapped] at found
    split at found
    · contradiction
    · obtain ⟨i, _, _, there⟩ := mem_of_halvingSearch found
      rw [stored, mapped]
      exact Array.mem_of_getElem? there

/-- A mapped run holds entries in order, its header counts them, and its index holds the last entry
of each block. -/
structure Holds (r : Run w) (entries : Array (Fingerprint w)) : Prop where
  /-- The entries are what is mapped. -/
  mapped : r.mapped = some entries
  /-- They are in order. -/
  ascending : Ascending entries.toList
  /-- The header says how many they are. -/
  count : r.header.count = entries.size
  /-- A block has an entry. -/
  blocks : 0 < r.header.blockEntries
  /-- The index goes with them. -/
  index : r.index = blockMaxima r.header.blockEntries entries

/-- There is an entry in the index for each block. -/
theorem Holds.lt_size_index_iff {r : Run w} {entries : Array (Fingerprint w)}
    (holds : r.Holds entries) {k : Nat} :
    k < r.index.size ↔ k * r.header.blockEntries < entries.size := by
  have count := lt_blockCount_iff (.mk w.bytes entries.size _) k holds.blocks
  rwa [holds.index, size_blockMaxima holds.blocks]

/-- The last entry of a block is below another entry exactly when it stands in front of it. -/
theorem Holds.index_lt_iff {r : Run w} {entries : Array (Fingerprint w)} (holds : r.Holds entries)
    {k i : Nat} (listed : k < r.index.size) (inside : i < entries.size) :
    r.index[k] < entries[i] ↔ min ((k + 1) * r.header.blockEntries) entries.size - 1 < i := by
  have here := getElem?_blockMaxima holds.blocks entries k
  rw [← holds.index, Array.getElem?_eq_getElem listed] at here
  split at here
  · rw [Array.getElem?_eq_getElem (by omega)] at here
    rw [Option.some.inj here]
    constructor
    · intro below
      apply Nat.lt_of_not_le
      intro notBefore
      exact Nat.not_lt.2 (holds.ascending.getElem_le notBefore (by omega))
        (Fingerprint.lt_iff.1 below)
    · intro before
      exact holds.ascending.getElem_lt before inside
  · contradiction

/-- The first block whose last entry is not below an entry is the block of that entry. -/
theorem Holds.partitionPoint_eq {r : Run w} {entries : Array (Fingerprint w)}
    (holds : r.Holds entries) {i : Nat} (inside : i < entries.size) :
    partitionPoint r.index (fun last => last < entries[i]) = i / r.header.blockEntries := by
  have positive := holds.blocks
  have falls : ∀ j k (_ : j ≤ k) (within : k < r.index.size),
      decide (r.index[k] < entries[i]) → decide (r.index[j] < entries[i]) := by
    intro j k before within below
    rw [decide_eq_true_iff, holds.index_lt_iff _ inside] at below ⊢
    have blocks : (j + 1) * r.header.blockEntries ≤ (k + 1) * r.header.blockEntries :=
      Nat.mul_le_mul_right _ (by omega)
    omega
  have cut (k : Nat) (listed : k < r.index.size) :
      k < partitionPoint r.index (fun last => last < entries[i]) ↔
        min ((k + 1) * r.header.blockEntries) entries.size - 1 < i := by
    rw [lt_partitionPoint_iff falls listed, decide_eq_true_iff, holds.index_lt_iff listed inside]
  have own : i / r.header.blockEntries * r.header.blockEntries ≤ i := Nat.div_mul_le_self _ _
  have next : i < (i / r.header.blockEntries + 1) * r.header.blockEntries :=
    Nat.lt_mul_of_div_lt (Nat.lt_succ_self _) positive
  apply Nat.le_antisymm
  · apply Nat.le_of_not_lt
    intro beyond
    have before := (cut _ (holds.lt_size_index_iff.2 (by omega))).1 beyond
    omega
  · apply Nat.le_of_not_lt
    intro short
    -- The block in front of the one of the entry ends in front of it.
    obtain ⟨k, same⟩ : ∃ k, i / r.header.blockEntries = k + 1 :=
      Nat.exists_eq_succ_of_ne_zero (by omega)
    rw [same] at own next short
    rw [Nat.add_mul, Nat.one_mul] at own
    have listed : k < r.index.size := by
      rw [holds.lt_size_index_iff]
      omega
    have inFront := (cut k listed).2 (by rw [Nat.add_mul, Nat.one_mul]; omega)
    omega

/-- A look-up for an entry finds it if the index leads to the block of the entry. -/
theorem contains_of_block {r : Run w} {entries : Array (Fingerprint w)}
    (mapped : r.mapped = some entries) (ascending : Ascending entries.toList)
    (count : r.header.count = entries.size) (filled : 0 < r.header.blockEntries) {i : Nat}
    (listed : i / r.header.blockEntries < r.index.size) (inside : i < entries.size)
    (block : partitionPoint r.index (fun last => last < entries[i]) = i / r.header.blockEntries) :
    r.contains entries[i] := by
  have own : i / r.header.blockEntries * r.header.blockEntries ≤ i := Nat.div_mul_le_self _ _
  have next : i < (i / r.header.blockEntries + 1) * r.header.blockEntries :=
    Nat.lt_mul_of_div_lt (Nat.lt_succ_self _) filled
  have size : r.size = entries.size := count
  rw [Nat.add_mul, Nat.one_mul] at next
  have there : ¬ (decide (entries.size = 0) ||
      decide (i / r.header.blockEntries = r.index.size)) := by
    rw [Bool.or_eq_true, decide_eq_true_iff, decide_eq_true_iff]
    omega
  simp only [Run.contains, mapped, size, block]
  rw [if_neg there]
  exact halvingSearch_of_mem ascending (Nat.min_le_right _ _) own (by omega)
    (Array.getElem?_eq_getElem inside)

/-- A look-up in a run finds its entries and nothing else. -/
theorem Holds.contains_iff {r : Run w} {entries : Array (Fingerprint w)} (holds : r.Holds entries)
    (fp : Fingerprint w) : r.contains fp ↔ fp ∈ entries := by
  constructor
  · intro found
    have among := mem_stored_of_contains found
    rwa [stored, holds.mapped] at among
  · intro member
    obtain ⟨i, inside, rfl⟩ := Array.mem_iff_getElem.1 member
    have listed : i / r.header.blockEntries < r.index.size :=
      holds.lt_size_index_iff.2 (Nat.lt_of_le_of_lt (Nat.div_mul_le_self _ _) inside)
    exact contains_of_block holds.mapped holds.ascending holds.count holds.blocks listed inside
      (holds.partitionPoint_eq inside)

end Run

end SeenStates
