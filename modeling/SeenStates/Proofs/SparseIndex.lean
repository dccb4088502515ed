import SeenStates.Checkpoint
import SeenStates.Proofs.RunParsing

/-!
# Sparse indices

What the index of a run has to be for look-ups to be exact. With the greatest entry of each block
they are, for every fingerprint and every run whose entries ascend (`contains_of_isSparseIndex`). A
run can also be opened with an index that is given to it, of which only the length and the last
element are looked at: it finds the entries that the index leads to their own blocks and no others,
so that it is exact if the index separates the blocks (`openWithIndex_of_isRun`) and need not be if
it does not (`openWithIndex_of_misleading`).
-/
namespace SeenStates

variable {w : Width} {blockEntries : Nat} {entries index other : Array (Fingerprint w)}

/-! ## Indices of greatest entries -/

/-- An index with the greatest entry of each block. -/
structure IsSparseIndex (blockEntries : Nat) (entries index : Array (Fingerprint w)) : Prop where
  /-- There is an element for each block that has an entry. -/
  listed : ∀ k, k < index.size ↔ k * blockEntries < entries.size
  /-- It is an entry of the block. -/
  among : ∀ k last, index[k]? = some last → ∃ i, i / blockEntries = k ∧ entries[i]? = some last
  /-- No entry of the block is greater. -/
  greatest : ∀ i fp last, entries[i]? = some fp → index[i / blockEntries]? = some last → fp ≤ last

/-- There is only one such index. -/
theorem IsSparseIndex.unique (first : IsSparseIndex blockEntries entries index)
    (second : IsSparseIndex blockEntries entries other) : index = other := by
  have size : index.size = other.size := by
    apply Nat.le_antisymm
    · exact Nat.le_of_not_lt fun fewer =>
        Nat.lt_irrefl _ ((second.listed _).2 ((first.listed _).1 fewer))
    · exact Nat.le_of_not_lt fun fewer =>
        Nat.lt_irrefl _ ((first.listed _).2 ((second.listed _).1 fewer))
  -- The greatest entry of a block in one index is an entry of the block for the other one.
  have le {xs ys : Array (Fingerprint w)} (isIndex : IsSparseIndex blockEntries entries xs)
      (isOther : IsSparseIndex blockEntries entries ys) {k : Nat} {a b : Fingerprint w}
      (here : xs[k]? = some a) (there : ys[k]? = some b) : a ≤ b := by
    obtain ⟨i, rfl, entry⟩ := isIndex.among k a here
    exact isOther.greatest i a b entry there
  refine Array.ext size fun k inside inside' => ?_
  have here := Array.getElem?_eq_getElem inside
  have there := Array.getElem?_eq_getElem inside'
  exact Std.le_antisymm (le first second here there) (le second first there here)

/-- The last entries of the blocks are the greatest ones if the entries ascend. -/
theorem isSparseIndex_blockMaxima (filled : 0 < blockEntries)
    (ascending : Ascending entries.toList) :
    IsSparseIndex blockEntries entries (blockMaxima blockEntries entries) := by
  have element {k : Nat} {last : Fingerprint w}
      (here : (blockMaxima blockEntries entries)[k]? = some last) :
      k * blockEntries < entries.size ∧
        entries[min ((k + 1) * blockEntries) entries.size - 1]? = some last := by
    rw [getElem?_blockMaxima filled] at here
    split at here
    · next first => exact ⟨first, here⟩
    · contradiction
  constructor
  case listed =>
    intro k
    rw [size_blockMaxima filled, lt_blockCount_iff _ _ filled]
  case among =>
    intro k last here
    obtain ⟨first, entry⟩ := element here
    refine ⟨_, ?_, entry⟩
    rw [Nat.div_eq_iff filled]
    rw [Nat.add_mul, Nat.one_mul]
    omega
  case greatest =>
    intro i fp last entry here
    obtain ⟨first, entry'⟩ := element here
    obtain ⟨inside, rfl⟩ := Array.getElem?_eq_some_iff.1 entry
    obtain ⟨inside', rfl⟩ := Array.getElem?_eq_some_iff.1 entry'
    have next : i < (i / blockEntries + 1) * blockEntries :=
      Nat.lt_mul_of_div_lt (Nat.lt_succ_self _) filled
    exact Fingerprint.le_iff.2 (ascending.getElem_le (by omega) inside')

/-! ## Run files -/

/-- What is read from a run file goes together. -/
theorem IsRun.eq_of_form {contents : ByteArray} {header : RunHeader}
    (isRun : IsRun w contents header entries) :
    header = headerOf w contents.data.toList ∧ entries = entriesOf w contents.data.toList := by
  have parsed := (IsRunFile.of_isRun isRun).parseRun_eq
  exact Prod.mk.inj (Except.ok.inj (Eq.trans (Eq.symm isRun) parsed))

/-- The header of a run file says how wide its entries are, how many there are, and how many are in
a block. -/
theorem IsRun.header_eq {contents : ByteArray} {header : RunHeader}
    (isRun : IsRun w contents header entries) :
    header = ⟨w.bytes, entries.size, header.blockEntries⟩ := by
  obtain ⟨rfl, rfl⟩ := isRun.eq_of_form
  rw [size_entriesOf]
  rfl

/-- A block of a run file has an entry. -/
theorem IsRun.filled {contents : ByteArray} {header : RunHeader}
    (isRun : IsRun w contents header entries) : 0 < header.blockEntries := by
  obtain ⟨rfl, rfl⟩ := isRun.eq_of_form
  exact Nat.pos_of_ne_zero (IsRunFile.of_isRun isRun).filled

/-- A run file is opened with the last entry of each block. -/
theorem Run.open_of_find {files : Files} {path : String} {contents : ByteArray}
    {header : RunHeader} (isRun : IsRun w contents header entries)
    (found : files.find path = .ok (.file contents)) :
    Run.open w files path = .ok (.ofEntries path header.blockEntries entries) := by
  rw [Run.open, Run.map_of_find isRun found, Run.ofEntries, ← isRun.header_eq]
  rfl

/-- A search in a run file goes through with all checks, with any index that has an element for each
block. -/
theorem IsRun.search?_eq {contents : ByteArray} {r : Run w}
    (isRun : IsRun w contents r.header entries) (mapped : r.mapped = some entries)
    (blocks : r.index.size = r.header.blockCount) (fp : Fingerprint w) :
    search? (entryAt? w contents.data.toList r.size) r.header r.index fp =
      some (r.contains fp) := by
  obtain ⟨header, same⟩ := isRun.eq_of_form
  exact ((IsRunFile.of_isRun isRun).reads header (same ▸ mapped) blocks).search fp

/-- On the run of any ascending entries, with the greatest entry of each block for its index, a
look-up finds exactly the entries, whatever the size of the blocks and whatever is looked for. There
is such an index; it is the one that a run file is opened with, and a search in the file with it
goes through with all checks. -/
theorem contains_of_isSparseIndex (filled : 0 < blockEntries)
    (ascending : Ascending entries.toList) :
    (∃ index, IsSparseIndex blockEntries entries index) ∧
    (∀ r : Run w, r.mapped = some entries → r.header.count = entries.size →
      r.header.blockEntries = blockEntries → IsSparseIndex blockEntries entries r.index →
        ∀ fp, r.contains fp ↔ fp ∈ entries) ∧
    ∀ (files : Files) path contents header, files.find path = .ok (.file contents) →
      IsRun w contents header entries → header.blockEntries = blockEntries →
        ∃ r, Run.open w files path = .ok r ∧ r.header = header ∧ r.mapped = some entries ∧
          IsSparseIndex blockEntries entries r.index ∧
          ∀ fp, (r.contains fp ↔ fp ∈ entries) ∧
            search? (entryAt? w contents.data.toList r.size) r.header r.index fp =
              some (decide (fp ∈ entries)) := by
  have isIndex := isSparseIndex_blockMaxima filled ascending
  have exact {r : Run w} (mapped : r.mapped = some entries)
      (count : r.header.count = entries.size) (blocks : r.header.blockEntries = blockEntries)
      (own : IsSparseIndex blockEntries entries r.index) (fp : Fingerprint w) :
      r.contains fp ↔ fp ∈ entries := by
    subst blocks
    have holds : r.Holds entries := ⟨mapped, ascending, count, filled, own.unique isIndex⟩
    exact holds.contains_iff fp
  refine ⟨⟨_, isIndex⟩, fun r mapped count blocks own => exact mapped count blocks own, ?_⟩
  intro files path contents header found isRun blocks
  subst blocks
  let r : Run w := .ofEntries path header.blockEntries entries
  have own : r.header = header := isRun.header_eq.symm
  refine ⟨r, Run.open_of_find isRun found, own, rfl, isIndex, fun fp => ?_⟩
  have answers : r.contains fp ↔ fp ∈ entries := exact rfl rfl rfl isIndex fp
  refine ⟨answers, ?_⟩
  rw [IsRun.search?_eq (own ▸ isRun) rfl (size_blockMaxima filled entries), Option.some.injEq,
    Bool.eq_iff_iff, decide_eq_true_iff]
  exact answers

/-! ## Three entries in blocks of two -/

/-- Three entries. -/
def shortEntries : Array (Fingerprint .bits64) := #[.ofNat _ 1, .ofNat _ 3, .ofNat _ 6]

/-- They ascend. -/
theorem ascending_short : Ascending shortEntries.toList := by decide

/-- Files with the run of them, in blocks of two, and nothing else. -/
def shortFiles : Files := (Files.empty.write "states.fp" (encodeRun 2 shortEntries)).2

/-- The run is there. -/
theorem find_short : shortFiles.find "states.fp" = .ok (.file (encodeRun 2 shortEntries)) := by
  decide +kernel

/-- It is one of them. -/
theorem isRun_short : IsRun .bits64 (encodeRun 2 shortEntries) ⟨8, 3, 2⟩ shortEntries :=
  isRun_encodeRun ⟨by decide, by decide, by decide⟩

/-- A run of three entries, of which the last block has one, is found to have them, and nothing in
front of them, between them or behind them. -/
theorem contains_of_isSparseIndex_short :
    ∃ r, Run.open .bits64 shortFiles "states.fp" = .ok r ∧
      IsSparseIndex 2 shortEntries r.index ∧
      (List.range 8).map (fun n => r.contains (.ofNat .bits64 n)) =
        [false, true, false, true, false, false, true, false] := by
  obtain ⟨_, _, files⟩ := contains_of_isSparseIndex (by decide : 0 < 2) ascending_short
  obtain ⟨r, opened, _, _, isIndex, exact⟩ :=
    files shortFiles "states.fp" _ _ find_short isRun_short rfl
  have answers : (fun n => r.contains (.ofNat .bits64 n)) =
      fun n => decide (.ofNat .bits64 n ∈ shortEntries.toList) := by
    funext n
    rw [Bool.eq_iff_iff, decide_eq_true_iff, Array.mem_toList_iff]
    exact (exact _).1
  refine ⟨r, opened, isIndex, ?_⟩
  rw [answers]
  decide

/-! ## Indices that are given -/

/-- An index whose elements stand between the blocks: one is below the entries of later blocks, and
below no other entry. -/
def Separates (blockEntries : Nat) (entries index : Array (Fingerprint w)) : Prop :=
  ∀ k last i fp, index[k]? = some last → entries[i]? = some fp →
    (last < fp ↔ k < i / blockEntries)

/-- An index that leads the search for an entry to the block of the entry. -/
def LeadsTo (blockEntries : Nat) (entries index : Array (Fingerprint w)) : Prop :=
  ∀ i fp, entries[i]? = some fp → partitionPoint index (fun last => last < fp) = i / blockEntries

/-- An index with an element for each block that separates the blocks leads to each entry. -/
theorem Separates.leadsTo (separates : Separates blockEntries entries index)
    (blocks : ∀ k, k < index.size ↔ k * blockEntries < entries.size) :
    LeadsTo blockEntries entries index := by
  intro i fp entry
  have inside : i < entries.size := (Array.getElem?_eq_some_iff.1 entry).1
  have listed : i / blockEntries < index.size :=
    (blocks _).2 (Nat.lt_of_le_of_lt (Nat.div_mul_le_self ..) inside)
  have cut {k : Nat} (within : k < index.size) : index[k] < fp ↔ k < i / blockEntries :=
    separates k _ i fp (Array.getElem?_eq_getElem within) entry
  have falls : ∀ j k (_ : j ≤ k) (within : k < index.size),
      decide (index[k] < fp) → decide (index[j] < fp) := by
    intro j k before within below
    rw [decide_eq_true_iff, cut] at below ⊢
    omega
  have point {k : Nat} (within : k < index.size) :
      k < partitionPoint index (fun last => last < fp) ↔ k < i / blockEntries := by
    rw [lt_partitionPoint_iff falls within, decide_eq_true_iff, cut within]
  have bounded := partitionPoint_le index fun last => last < fp
  apply Nat.le_antisymm
  · exact Nat.le_of_not_lt fun beyond => Nat.lt_irrefl _ ((point listed).1 beyond)
  · exact Nat.le_of_not_lt fun short => Nat.lt_irrefl _ ((point (by omega)).2 short)

/-- An index that does not descend and leads to each entry separates the blocks. -/
theorem LeadsTo.separates (leads : LeadsTo blockEntries entries index)
    (ordered : index.toList.Pairwise (· ≤ ·)) : Separates blockEntries entries index := by
  intro k last i fp element entry
  obtain ⟨within, rfl⟩ := Array.getElem?_eq_some_iff.1 element
  have falls : ∀ j k (_ : j ≤ k) (within : k < index.size),
      decide (index[k] < fp) → decide (index[j] < fp) := by
    intro j k before within below
    rw [decide_eq_true_iff, Fingerprint.lt_iff] at below ⊢
    rcases Nat.lt_or_eq_of_le before with earlier | rfl
    · have le := List.pairwise_iff_getElem.1 ordered j k
        (by simpa using Nat.lt_trans earlier within) (by simpa using within) earlier
      rw [Array.getElem_toList, Array.getElem_toList, Fingerprint.le_iff] at le
      omega
    · exact below
  rw [← leads i fp entry, lt_partitionPoint_iff falls within, decide_eq_true_iff]

/-- A look-up for an entry finds it exactly if the index leads to the block of the entry. -/
theorem Run.contains_entry_iff {r : Run w} (mapped : r.mapped = some entries)
    (ascending : Ascending entries.toList) (count : r.header.count = entries.size)
    (filled : 0 < r.header.blockEntries) (blocks : r.index.size = r.header.blockCount) {i : Nat}
    {fp : Fingerprint w} (entry : entries[i]? = some fp) :
    r.contains fp ↔
      partitionPoint r.index (fun last => last < fp) = i / r.header.blockEntries := by
  obtain ⟨inside, rfl⟩ := Array.getElem?_eq_some_iff.1 entry
  have own : i / r.header.blockEntries * r.header.blockEntries ≤ i := Nat.div_mul_le_self _ _
  have next : i < (i / r.header.blockEntries + 1) * r.header.blockEntries :=
    Nat.lt_mul_of_div_lt (Nat.lt_succ_self _) filled
  rw [Nat.add_mul, Nat.one_mul] at next
  have listed : i / r.header.blockEntries < r.index.size := by
    rw [blocks, lt_blockCount_iff _ _ filled, count]
    omega
  have size : r.size = entries.size := count
  refine ⟨fun found => ?_, Run.contains_of_block mapped ascending count filled listed inside⟩
  simp only [Run.contains, mapped, size] at found
  split at found
  · contradiction
  · obtain ⟨j, first, last, there⟩ := mem_of_halvingSearch found
    obtain ⟨inside', same⟩ := Array.getElem?_eq_some_iff.1 there
    -- no other position has the same entry
    obtain rfl : i = j := by
      rcases Nat.lt_trichotomy i j with before | same | behind
      · exact absurd (ascending.getElem_lt before inside') (by rw [same]; exact Std.lt_irrefl)
      · exact same
      · exact absurd (ascending.getElem_lt behind inside) (by rw [same]; exact Std.lt_irrefl)
    symm
    rw [Nat.div_eq_iff filled]
    omega

/-- A run file is opened with a given index exactly if it has an element for each block and ends
with the last entry, if there is one. -/
theorem Run.openWithIndex_eq_ok_iff {files : Files} {path : String} {contents : ByteArray}
    {header : RunHeader} (isRun : IsRun w contents header entries)
    (found : files.find path = .ok (.file contents)) {r : Run w} :
    Run.openWithIndex files path index = .ok r ↔
      (index.size = header.blockCount ∧ (0 < entries.size → index.back? = entries.back?)) ∧
        r = ⟨path, header, index, some entries⟩ := by
  have count : header.count = entries.size := by rw [isRun.header_eq]
  simp only [Run.openWithIndex, Run.map_of_find isRun found, bind, Except.bind, count]
  constructor
  · intro opened
    split at opened
    · contradiction
    · next size =>
      split at opened
      · contradiction
      · next last =>
        refine ⟨⟨Decidable.not_not.1 size, fun some => ?_⟩, (Except.ok.inj opened).symm⟩
        exact Decidable.not_not.1 (not_and.1 last some)
  · rintro ⟨⟨size, last⟩, rfl⟩
    rw [if_neg (not_not_intro size), if_neg fun wrong => wrong.2 (last wrong.1)]

/-- A run that is restored from a checkpoint is opened with the index of its header. -/
theorem SetPaths.openWithIndex_of_restore {p : SetPaths} {h : CheckpointHeader w}
    {before files : Files} {r : Run w} (restored : p.restore h before = (.ok r, files)) :
    Run.openWithIndex files p.run h.index.toArray = .ok r := by
  unfold restore at restored
  split at restored
  · simp at restored
  · simp only [Prod.mk.injEq] at restored
    obtain ⟨opened, rfl⟩ := restored
    unfold openRestored at opened
    cases own : Run.openWithIndex _ p.run h.index.toArray with
    | error e => simp [own, bind, Except.bind] at opened
    | ok o =>
      simp only [own, bind, Except.bind] at opened
      split at opened
      · contradiction
      · exact opened

/-- A run file of ascending entries can be opened with a given index exactly if that has an element
for each block and, where there are entries, ends with the last one. The run is then the one that is
opened without the index, but for the index. It is found to have no entries but those of the file,
and has those of them that the index leads to their own block. So its answers are all the same
exactly if the index leads to each entry, as it does if it separates the blocks, and among indices
that do not descend only then. A run that is restored from a checkpoint is opened so, with the index
of the header. -/
theorem openWithIndex_of_isRun {files : Files} {path : String} {contents : ByteArray}
    {header : RunHeader} (isRun : IsRun w contents header entries)
    (ascending : Ascending entries.toList) (found : files.find path = .ok (.file contents))
    (index : Array (Fingerprint w)) :
    ∃ o, Run.open w files path = .ok o ∧ (∀ fp, o.contains fp ↔ fp ∈ entries) ∧
      ((∃ r, Run.openWithIndex files path index = .ok r) ↔
        index.size = header.blockCount ∧ (0 < entries.size → index.back? = entries.back?)) ∧
      (∀ (p : SetPaths) (h : CheckpointHeader w) before r, p.run = path →
        h.index.toArray = index → p.restore h before = (.ok r, files) →
          Run.openWithIndex files path index = .ok r) ∧
      ∀ r, Run.openWithIndex files path index = .ok r →
        r = { o with index } ∧ (∀ fp, r.contains fp → o.contains fp) ∧
        (∀ i fp, entries[i]? = some fp →
          (r.contains fp ↔
            partitionPoint index (fun last => last < fp) = i / header.blockEntries)) ∧
        ((∀ fp, r.contains fp = o.contains fp) ↔ LeadsTo header.blockEntries entries index) ∧
        (Separates header.blockEntries entries index → ∀ fp, r.contains fp = o.contains fp) ∧
        (index.toList.Pairwise (· ≤ ·) → (∀ fp, r.contains fp = o.contains fp) →
          Separates header.blockEntries entries index) := by
  let o : Run w := .ofEntries path header.blockEntries entries
  have count : header.count = entries.size := by rw [isRun.header_eq]
  have exact (fp : Fingerprint w) : o.contains fp ↔ fp ∈ entries :=
    (Run.holds_ofEntries path isRun.filled ascending).contains_iff fp
  refine ⟨o, Run.open_of_find isRun found, exact, ?_, ?_, fun r opened => ?_⟩
  · constructor
    · rintro ⟨r, opened⟩
      exact ((Run.openWithIndex_eq_ok_iff isRun found).1 opened).1
    · intro passes
      exact ⟨_, (Run.openWithIndex_eq_ok_iff isRun found).2 ⟨passes, rfl⟩⟩
  · rintro p h before r rfl rfl restored
    exact SetPaths.openWithIndex_of_restore restored
  · obtain ⟨⟨size, _⟩, rfl⟩ := (Run.openWithIndex_eq_ok_iff isRun found).1 opened
    let r : Run w := ⟨path, header, index, some entries⟩
    have entry {i : Nat} {fp : Fingerprint w} (here : entries[i]? = some fp) :
        r.contains fp ↔
          partitionPoint index (fun last => last < fp) = i / header.blockEntries :=
      Run.contains_entry_iff rfl ascending count isRun.filled size here
    have within (fp : Fingerprint w) (found : r.contains fp) : o.contains fp :=
      (exact fp).2 (Run.mem_stored_of_contains found)
    have same : (∀ fp, r.contains fp = o.contains fp) ↔
        LeadsTo header.blockEntries entries index := by
      constructor
      · intro same i fp here
        rw [← entry here, same fp, exact fp]
        exact Array.mem_of_getElem? here
      · intro leads fp
        rw [Bool.eq_iff_iff]
        refine ⟨within fp, fun found => ?_⟩
        obtain ⟨i, here⟩ := Array.getElem?_of_mem ((exact fp).1 found)
        exact (entry here).2 (leads i fp here)
    have blocks (k : Nat) : k < index.size ↔ k * header.blockEntries < entries.size := by
      rw [size, lt_blockCount_iff _ _ isRun.filled, count]
    refine ⟨?_, within, fun i fp here => entry here, same, fun separates => ?_,
      fun ordered all => (same.1 all).separates ordered⟩
    · rw [isRun.header_eq]
      rfl
    · exact same.2 (separates.leadsTo blocks)

/-- An index that has something between the blocks in the place of the greatest entry of the first
one separates them. -/
theorem separates_short : Separates 2 shortEntries #[.ofNat _ 4, .ofNat _ 6] := by
  have each : ∀ (k : Fin 2) (i : Fin shortEntries.size),
      (#[.ofNat .bits64 4, .ofNat _ 6] : Array (Fingerprint .bits64))[k] < shortEntries[i] ↔
        k.1 < i.1 / 2 := by
    decide
  intro k last i fp element entry
  obtain ⟨within, rfl⟩ := Array.getElem?_eq_some_iff.1 element
  obtain ⟨inside, rfl⟩ := Array.getElem?_eq_some_iff.1 entry
  exact each ⟨k, within⟩ ⟨i, inside⟩

/-- The run is opened with such an index, and with it finds all of its entries. -/
theorem openWithIndex_of_isRun_short :
    Ascending shortEntries.toList ∧ ∃ r,
      Run.openWithIndex shortFiles "states.fp" #[.ofNat .bits64 4, .ofNat _ 6] = .ok r ∧
      ∀ fp, r.contains fp ↔ fp ∈ shortEntries := by
  obtain ⟨o, _, exact, accepted, _, answers⟩ :=
    openWithIndex_of_isRun isRun_short ascending_short find_short #[.ofNat .bits64 4, .ofNat _ 6]
  obtain ⟨r, opened⟩ := accepted.2 ⟨by decide, fun _ => by decide⟩
  obtain ⟨_, _, _, _, separated, _⟩ := answers r opened
  refine ⟨ascending_short, r, opened, fun fp => ?_⟩
  rw [separated separates_short fp, exact]

/-- The run is opened with an index that ends with the last entry but sends the search for the first
entry to the last block. The entry is not found, which it is without the index. -/
theorem openWithIndex_of_misleading :
    IsRun .bits64 (encodeRun 2 shortEntries) ⟨8, 3, 2⟩ shortEntries ∧
      Ascending shortEntries.toList ∧
      shortFiles.find "states.fp" = .ok (.file (encodeRun 2 shortEntries)) ∧
      ∃ r o, Run.openWithIndex shortFiles "states.fp" #[.ofNat .bits64 0, .ofNat _ 6] = .ok r ∧
        Run.open .bits64 shortFiles "states.fp" = .ok o ∧
        r.contains (.ofNat _ 1) = false ∧ o.contains (.ofNat _ 1) = true := by
  have passes : (#[.ofNat .bits64 0, .ofNat _ 6] : Array (Fingerprint .bits64)).back? =
      shortEntries.back? := by
    decide
  refine ⟨isRun_short, ascending_short, find_short, _, _,
    (Run.openWithIndex_eq_ok_iff isRun_short find_short).2 ⟨⟨by decide, fun _ => passes⟩, rfl⟩,
    Run.open_of_find isRun_short find_short, ?_, ?_⟩
  · decide +kernel
  · decide +kernel

end SeenStates
