import Mathlib.Data.List.Basic
import SeenStates.Proofs.RunFiles

/-!
# Reading hostile runs

A byte string is a run file exactly if it has the form `IsRunFile` says; everything else is refused.
Whoever reads a run file goes by its header: positions are computed from a count and a size of
blocks that come from the file. Here the same readings are defined a second time with every step
checked (`entryAt?`, `entriesFrom?`, `lastsFrom?`, `search?`): a number that leaves the range of a
word, a position beyond the count and a byte beyond the end of the file end them without a result.
On every file that is a run none of these checks ever fails, whether its entries are in order or
not, and the results are those of the run (`parsed_of_find`).
-/
namespace SeenStates

variable {w : Width}

/-! ## The form of a run file -/

/-- The count of entries that a file says it has. -/
def countField (bytes : Bytes) : Nat := RunHeader.fieldAt bytes 16 8

/-- The entries of a block that a file says it has. -/
def blockField (bytes : Bytes) : Nat := RunHeader.fieldAt bytes 24 4

/-- The entry at a position behind the header, most significant byte first. -/
def entryOf (w : Width) (bytes : Bytes) (i : Nat) : Fingerprint w :=
  .ofBytes w ((bytes.drop (RunHeader.size + i * w.bytes)).take w.bytes)

/-- The header that a file of entries of a width says it has. -/
def headerOf (w : Width) (bytes : Bytes) : RunHeader :=
  ⟨w.bytes, countField bytes, blockField bytes⟩

/-- The entries of a file, one after the other. -/
def entriesOf (w : Width) (bytes : Bytes) : Array (Fingerprint w) :=
  ((List.range (countField bytes)).map (entryOf w bytes)).toArray

/-- There are as many as the file says. -/
theorem size_entriesOf (w : Width) (bytes : Bytes) :
    (entriesOf w bytes).size = countField bytes := by
  simp [entriesOf]

/-- Each of them stands at its position. -/
theorem getElem_entriesOf {bytes : Bytes} {i : Nat} (inside : i < (entriesOf w bytes).size) :
    (entriesOf w bytes)[i] = entryOf w bytes i := by
  simp [entriesOf]

/-- The form of a run file. Nothing is said of the last word of the header, nor of the order of the
entries. -/
structure IsRunFile (w : Width) (bytes : Bytes) : Prop where
  /-- It starts with the magic. -/
  magic : bytes.take 8 = RunHeader.magic
  /-- It is of the one version. -/
  version : RunHeader.fieldAt bytes 8 4 = RunHeader.version
  /-- Its entries are as wide as fingerprints. -/
  entryBytes : RunHeader.fieldAt bytes 12 4 = w.bytes
  /-- A block has an entry. -/
  filled : blockField bytes ≠ 0
  /-- It ends behind its last entry. -/
  length : bytes.length = RunHeader.size + countField bytes * w.bytes
  /-- Its length is in range. -/
  inRange : bytes.length < countLimit

/-- The field of a block has no room for more. -/
theorem blockField_lt (bytes : Bytes) : blockField bytes < smallLimit := by
  have bound := ofLittleEndian_lt ((bytes.drop 24).take 4)
  have few : ((bytes.drop 24).take 4).length ≤ 4 := List.length_take_le ..
  exact Nat.lt_of_lt_of_le bound (Nat.pow_le_pow_right (by decide) few)

/-- The entries at the front of a byte string follow one another. -/
theorem decodeEntries_eq (n : Nat) (bytes : Bytes) :
    decodeEntries w n bytes =
      (List.range n).map fun i => .ofBytes w ((bytes.drop (i * w.bytes)).take w.bytes) := by
  induction n generalizing bytes with
  | zero => rfl
  | succ n ih =>
    rw [decodeEntries, ih, List.range_succ_eq_map, List.map_cons, List.map_map, Nat.zero_mul,
      List.drop_zero]
    congr 1
    refine List.map_congr_left fun i _ => ?_
    rw [Function.comp_apply, List.drop_drop, Nat.succ_mul, Nat.add_comm w.bytes]

namespace IsRunFile

variable {bytes : Bytes}

/-- A run file has a header. -/
theorem size_le (isRunFile : IsRunFile w bytes) : RunHeader.size ≤ bytes.length := by
  have length := isRunFile.length
  omega

/-- Entries end within the file. -/
theorem end_le (isRunFile : IsRunFile w bytes) {i : Nat} (inside : i < countField bytes) :
    RunHeader.size + i * w.bytes + w.bytes ≤ bytes.length := by
  have length := isRunFile.length
  have before : (i + 1) * w.bytes ≤ countField bytes * w.bytes := Nat.mul_le_mul_right _ inside
  rw [Nat.add_mul, Nat.one_mul] at before
  omega

/-- There are fewer entries than the file has bytes, even with those of a block behind them. -/
theorem count_add_block_lt (isRunFile : IsRunFile w bytes) :
    countField bytes + blockField bytes < countLimit := by
  have eight : 8 ≤ w.bytes := by cases w <;> decide
  have wide : countField bytes * 8 ≤ countField bytes * w.bytes := Nat.mul_le_mul_left _ eight
  have length := isRunFile.length
  have inRange := isRunFile.inRange
  have block := blockField_lt bytes
  have limits : countLimit = smallLimit * smallLimit := by decide
  have small : 2 * smallLimit ≤ countLimit := by decide
  omega

/-- A run file is read as the header and the entries that it says. -/
theorem parseRun_eq {contents : ByteArray} (isRunFile : IsRunFile w contents.data.toList) :
    parseRun w contents =
      .ok (headerOf w contents.data.toList, entriesOf w contents.data.toList) := by
  have header : RunHeader.decode contents.data.toList =
      .ok (headerOf w contents.data.toList) := by
    have long := isRunFile.size_le
    have filled : RunHeader.fieldAt contents.data.toList 24 4 ≠ 0 := isRunFile.filled
    rw [RunHeader.decode, if_neg (by omega), if_neg (by simp [isRunFile.magic]),
      if_neg (by simp [isRunFile.version]), if_neg filled, isRunFile.entryBytes]
    rfl
  have size : contents.size = RunHeader.size + countField contents.data.toList * w.bytes := by
    rw [← isRunFile.length, Array.length_toList, ByteArray.size_data]
  have inRange := isRunFile.inRange
  rw [isRunFile.length] at inRange
  have expected : (headerOf w contents.data.toList).fileLength? = some contents.size := by
    simp only [headerOf]
    rw [RunHeader.fileLength?, inRange?, if_pos (by simp only; omega), Option.bind_some, inRange?,
      if_pos (by simp only; omega), size, Nat.add_comm]
  rw [parseRun, decode_extract, header]
  simp only [bind, Except.bind, expected]
  simp only [headerOf, ne_eq, not_true_eq_false, if_false]
  rw [readEntries_eq _ (Nat.le_of_eq size.symm), decodeEntries_eq, Array.empty_append]
  simp only [List.drop_drop]
  rfl

/-- What is read as a run has the form of one. -/
theorem of_isRun {contents : ByteArray} {header : RunHeader} {entries : Array (Fingerprint w)}
    (isRun : IsRun w contents header entries) : IsRunFile w contents.data.toList := by
  obtain ⟨decoded, entryBytes, length⟩ := isRun.header_and_length
  have size := RunHeader.eq_of_fileLength? length
  have inRange : contents.size < countLimit := by
    unfold RunHeader.fileLength? inRange? at length
    split at length
    · simp only [Option.bind_some] at length
      split at length
      · next below => exact Option.some.inj length ▸ below
      · contradiction
    · contradiction
  have same : contents.data.toList.length = contents.size := by
    rw [Array.length_toList, ByteArray.size_data]
  unfold RunHeader.decode at decoded
  split at decoded
  · contradiction
  · split at decoded
    · contradiction
    · next magic =>
      split at decoded
      · contradiction
      · next version =>
        split at decoded
        · contradiction
        · next filled =>
          obtain rfl := Except.ok.inj decoded
          refine ⟨Decidable.not_not.1 magic, Decidable.not_not.1 version, entryBytes, filled, ?_,
            same ▸ inRange⟩
          rw [same, size]
          exact congrArg _ (congrArg _ entryBytes)

end IsRunFile

/-! ## Readings of which every step is checked -/

/-- The bytes from a position up to another one, unless the file ends before that. -/
def bytesBetween? (bytes : Bytes) (start stop : Nat) : Option Bytes :=
  if start ≤ stop ∧ stop ≤ bytes.length then some ((bytes.drop start).take (stop - start)) else none

/-- The entry at a position. It has to be one of `count` entries, its bytes have to be there, and
the numbers on the way to them in range. -/
def entryAt? (w : Width) (bytes : Bytes) (count i : Nat) : Option (Fingerprint w) :=
  if i < count then do
    let offset ← inRange? (i * w.bytes)
    let start ← inRange? (RunHeader.size + offset)
    let stop ← inRange? (start + w.bytes)
    let found ← bytesBetween? bytes start stop
    return .ofBytes w found
  else none

variable (read : Nat → Option (Fingerprint w))

/-- The entries from a position on, one after the other. -/
def entriesFrom? (count next : Nat) : Option (List (Fingerprint w)) :=
  if next < count then do
    let fp ← read next
    let _ ← inRange? (next + 1)
    let rest ← entriesFrom? count (next + 1)
    return fp :: rest
  else some []
termination_by count - next

/-- The number before one, unless there is none. -/
def before? : Nat → Option Nat
  | 0 => none
  | n + 1 => some n

/-- The last entries of the blocks, from the one on that ends in front of a position. A block has an
entry, or this would not come to an end. -/
def lastsFrom? {block : Nat} (filled : 0 < block) (count stop : Nat) :
    Option (List (Fingerprint w)) :=
  if stop < count then do
    let last ← (before? stop).bind read
    let _ ← inRange? (stop + block)
    let rest ← lastsFrom? filled count (stop + block)
    return last :: rest
  else if 0 < count then do
    let last ← read (count - 1)
    return [last]
  else some []
termination_by count - stop

/-- The last entries of all blocks, unless the blocks are empty. -/
def lasts? (header : RunHeader) : Option (List (Fingerprint w)) :=
  if filled : 0 < header.blockEntries then
    lastsFrom? read filled header.count header.blockEntries
  else none

/-- Whether a fingerprint is found by halving the range from `low` up to `high`. -/
def halving? (fp : Fingerprint w) (low high : Nat) : Option Bool :=
  if low < high then do
    let _ ← inRange? (low + (high - low) / 2)
    let found ← read (low + (high - low) / 2)
    if found = fp then some true
    else if found < fp then do
      let _ ← inRange? (low + (high - low) / 2 + 1)
      halving? fp (low + (high - low) / 2 + 1) high
    else halving? fp low (low + (high - low) / 2)
  else some false
termination_by high - low
decreasing_by all_goals omega

/-- Whether a fingerprint is found in the block that an index leads to. -/
def search? (header : RunHeader) (index : Array (Fingerprint w)) (fp : Fingerprint w) :
    Option Bool :=
  let block := partitionPoint index fun last => last < fp
  if header.count = 0 || block = index.size then some false
  else do
    let low ← inRange? (block * header.blockEntries)
    let high ← inRange? (low + header.blockEntries)
    halving? read fp low (min high header.count)

/-! ## No check fails -/

/-- A number in range passes. -/
theorem inRange?_eq {n : Nat} (below : n < countLimit) : inRange? n = some n := if_pos below

/-- An entry of a run file is read without leaving the file. -/
theorem entryAt?_eq {bytes : Bytes} (isRunFile : IsRunFile w bytes) {i : Nat}
    (inside : i < countField bytes) :
    entryAt? w bytes (countField bytes) i = some (entryOf w bytes i) := by
  have within := isRunFile.end_le inside
  have inRange := isRunFile.inRange
  have found : bytesBetween? bytes (RunHeader.size + i * w.bytes)
      (RunHeader.size + i * w.bytes + w.bytes) =
        some ((bytes.drop (RunHeader.size + i * w.bytes)).take w.bytes) := by
    rw [bytesBetween?, if_pos ⟨Nat.le_add_right _ _, within⟩, Nat.add_sub_cancel_left]
  have offset : inRange? (i * w.bytes) = some (i * w.bytes) := inRange?_eq (by omega)
  have start : inRange? (RunHeader.size + i * w.bytes) = some (RunHeader.size + i * w.bytes) :=
    inRange?_eq (by omega)
  have stop : inRange? (RunHeader.size + i * w.bytes + w.bytes) =
      some (RunHeader.size + i * w.bytes + w.bytes) := inRange?_eq (by omega)
  simp only [entryAt?, if_pos inside, offset, start, stop, found, bind, Option.bind_some]
  rfl

variable {read : Nat → Option (Fingerprint w)} {xs : Array (Fingerprint w)}

/-- Entries that can all be read are read one after the other. -/
theorem entriesFrom?_eq (reads : ∀ i (inside : i < xs.size), read i = some xs[i])
    (inRange : xs.size < countLimit) (next : Nat) :
    entriesFrom? read xs.size next = some (xs.toList.drop next) := by
  fun_induction entriesFrom? read xs.size next with
  | case1 next more ih =>
    rw [reads next more, inRange?_eq (by omega), ih]
    simp [List.drop_eq_getElem_cons (l := xs.toList) (i := next) (by simpa using more)]
  | case2 next done =>
    rw [List.drop_eq_nil_of_le (by simpa using done)]

/-- A block that is halved is read within its bounds. -/
theorem halving?_eq (reads : ∀ i (inside : i < xs.size), read i = some xs[i])
    (inRange : xs.size < countLimit) (fp : Fingerprint w) {low high : Nat}
    (within : high ≤ xs.size) :
    halving? read fp low high = some (halvingSearch xs fp low high) := by
  fun_induction halvingSearch xs fp low high with
  | case1 low high proper middle absent =>
    have beyond := Array.getElem?_eq_none_iff.1 absent
    omega
  | case2 low high proper middle here =>
    obtain ⟨inside, found⟩ := Array.getElem?_eq_some_iff.1 here
    have first : read (low + (high - low) / 2) = some fp := found ▸ reads middle inside
    rw [halving?, if_pos proper, inRange?_eq (by omega), first]
    simp [bind]
  | case3 low high proper middle probe here differ below ih =>
    obtain ⟨inside, found⟩ := Array.getElem?_eq_some_iff.1 here
    have first : read (low + (high - low) / 2) = some probe := found ▸ reads middle inside
    rw [halving?, if_pos proper, inRange?_eq (by omega), first, ← ih within]
    simp [bind, differ, below, inRange?_eq (n := low + (high - low) / 2 + 1) (by omega), middle]
  | case4 low high proper middle probe here differ above ih =>
    obtain ⟨inside, found⟩ := Array.getElem?_eq_some_iff.1 here
    have first : read (low + (high - low) / 2) = some probe := found ▸ reads middle inside
    rw [halving?, if_pos proper, inRange?_eq (by omega), first, ← ih (by omega)]
    simp [bind, differ, above, middle]
  | case5 low high empty => rw [halving?, if_neg empty]

/-- A property is found to hold of no more elements than there are. -/
theorem partitionPoint_le {α : Type} (ys : Array α) (p : α → Bool) :
    partitionPoint ys p ≤ ys.size := by
  have there {i : Nat} (holds : ys[i]?.any p) : i < ys.size := by
    apply Nat.lt_of_not_le
    intro beyond
    simp [Array.getElem?_eq_none beyond] at holds
  have bounded {base size : Nat} (within : base ≤ ys.size) :
      partitionFrom ys p base size ≤ ys.size := by
    fun_induction partitionFrom ys p base size with
    | case1 base size many half next ih =>
      apply ih
      by_cases holds : ys[base + half]?.any p
      · have step : next = base + half := by simp [next, holds]
        exact step ▸ Nat.le_of_lt (there holds)
      · have step : next = base := by simp [next, holds]
        exact step ▸ within
    | case2 base size few holds => exact there holds
    | case3 base size few fails => exact within
  exact bounded (Nat.zero_le _)

/-- The last entries of the blocks, from one block on. -/
theorem drop_blockMaxima {block : Nat} (filled : 0 < block) {k : Nat} (here : k * block < xs.size)
    {last : Fingerprint w} (there : xs[min ((k + 1) * block) xs.size - 1]? = some last) :
    (blockMaxima block xs).toList.drop k = last :: (blockMaxima block xs).toList.drop (k + 1) := by
  have index := getElem?_blockMaxima filled xs k
  rw [if_pos here, there] at index
  obtain ⟨inside, rfl⟩ := Array.getElem?_eq_some_iff.1 index
  rw [List.drop_eq_getElem_cons (by simpa using inside), Array.getElem_toList]

/-- There are no blocks behind the last entry. -/
theorem drop_blockMaxima_of_le {block : Nat} (filled : 0 < block) {k : Nat}
    (beyond : xs.size ≤ k * block) : (blockMaxima block xs).toList.drop k = [] := by
  have index := getElem?_blockMaxima filled xs k
  rw [if_neg (Nat.not_lt.2 beyond), Array.getElem?_eq_none_iff] at index
  exact List.drop_eq_nil_of_le (by simpa using index)

/-- The last entries of the blocks are read from the one on that ends at a position. -/
theorem lastsFrom?_eq (reads : ∀ i (inside : i < xs.size), read i = some xs[i]) {block : Nat}
    (filled : 0 < block) (inRange : xs.size + block < countLimit) {k stop : Nat}
    (ends : stop = (k + 1) * block) (begins : 0 < xs.size → k * block < xs.size) :
    lastsFrom? read filled xs.size stop = some ((blockMaxima block xs).toList.drop k) := by
  fun_induction lastsFrom? read filled xs.size stop generalizing k with
  | case1 stop more ih =>
    have positive : 0 < stop := by
      rw [ends]
      exact Nat.mul_pos (Nat.succ_pos k) filled
    have cut : min ((k + 1) * block) xs.size - 1 = stop - 1 := by omega
    have within : stop - 1 < xs.size := by omega
    have last : (before? stop).bind read = some xs[stop - 1] := by
      obtain ⟨n, rfl⟩ := Nat.exists_eq_add_one.2 positive
      exact reads n within
    have rest := ih (ends ▸ (Nat.succ_mul (k + 1) block).symm) fun _ => ends ▸ more
    rw [drop_blockMaxima filled (begins (by omega))
      (by rw [cut, Array.getElem?_eq_getElem within]), last, inRange?_eq (by omega), rest]
    rfl
  | case2 stop done nonempty =>
    have cut : min ((k + 1) * block) xs.size - 1 = xs.size - 1 := by omega
    have within : xs.size - 1 < xs.size := by omega
    rw [drop_blockMaxima filled (begins nonempty)
      (by rw [cut, Array.getElem?_eq_getElem within]),
      drop_blockMaxima_of_le filled (by omega), reads _ within]
    rfl
  | case3 stop done empty => rw [drop_blockMaxima_of_le filled (by omega)]

/-- A search goes through in a run with an index of the right length, whatever stands in it. -/
theorem search?_eq (reads : ∀ i (inside : i < xs.size), read i = some xs[i]) {r : Run w}
    (mapped : r.mapped = some xs) (count : r.header.count = xs.size)
    (filled : 0 < r.header.blockEntries) (inRange : xs.size + r.header.blockEntries < countLimit)
    (blocks : r.index.size = r.header.blockCount) (fp : Fingerprint w) :
    search? read r.header r.index fp = some (r.contains fp) := by
  have le := partitionPoint_le r.index fun last => last < fp
  have counted : r.size = xs.size := count
  simp only [search?, Run.contains, mapped, count, counted]
  generalize partitionPoint r.index (fun last => last < fp) = block at le
  by_cases nowhere : (decide (xs.size = 0) || decide (block = r.index.size)) = true
  · rw [if_pos nowhere, if_pos nowhere]
  · rw [if_neg nowhere, if_neg nowhere]
    rw [Bool.or_eq_true, decide_eq_true_iff, decide_eq_true_iff, not_or] at nowhere
    -- the block that the index leads to is one that has an entry
    have listed : block < r.header.blockCount := by omega
    have here := (lt_blockCount_iff r.header _ filled).1 listed
    rw [count] at here
    have low : inRange? (block * r.header.blockEntries) = some (block * r.header.blockEntries) :=
      inRange?_eq (by omega)
    have high : inRange? (block * r.header.blockEntries + r.header.blockEntries) =
        some (block * r.header.blockEntries + r.header.blockEntries) := inRange?_eq (by omega)
    simp only [low, high, bind, Option.bind_some]
    exact halving?_eq reads (by omega) fp (Nat.min_le_right _ _)

/-! ## Run files -/

/-- What an open run has to do with the bytes of its file. Every reading of it goes through with all
checks, and comes to what the run says. -/
structure Run.Reads (r : Run w) (bytes : Bytes) : Prop where
  /-- It has the header that the file says, with its count of entries. -/
  header : r.header = headerOf w bytes
  /-- Its entries are those of the file, one after the other. -/
  entries : r.entries = .ok ((List.range r.size).map (entryOf w bytes))
  /-- They can be read one after the other. -/
  entriesFrom : entriesFrom? (entryAt? w bytes r.size) r.size 0 =
    some ((List.range r.size).map (entryOf w bytes))
  /-- Each entry can be read. -/
  get : ∀ i < r.size, entryAt? w bytes r.size i = some (entryOf w bytes i) ∧
    r.get i = .ok (entryOf w bytes i)
  /-- A search goes through. -/
  search : ∀ fp, search? (entryAt? w bytes r.size) r.header r.index fp = some (r.contains fp)
  /-- What is found is an entry. -/
  found : ∀ fp, r.contains fp → ∃ i < r.size, entryOf w bytes i = fp

namespace IsRunFile

variable {bytes : Bytes}

/-- The entries can be read with all checks. -/
theorem reads_entriesOf (isRunFile : IsRunFile w bytes) (i : Nat)
    (inside : i < (entriesOf w bytes).size) :
    entryAt? w bytes (countField bytes) i = some (entriesOf w bytes)[i] := by
  rw [getElem_entriesOf inside]
  exact entryAt?_eq isRunFile (size_entriesOf w bytes ▸ inside)

/-- A run of what is mapped of a file reads it, with any index of the right length. -/
theorem reads (isRunFile : IsRunFile w bytes) {r : Run w} (header : r.header = headerOf w bytes)
    (mapped : r.mapped = some (entriesOf w bytes)) (blocks : r.index.size = r.header.blockCount) :
    r.Reads bytes := by
  have size : r.size = countField bytes := by rw [Run.size, header, headerOf]
  have count := size_entriesOf w bytes
  have below := isRunFile.count_add_block_lt
  have toList : (entriesOf w bytes).toList = (List.range r.size).map (entryOf w bytes) := by
    rw [entriesOf, size]
  have filled : 0 < r.header.blockEntries := by
    rw [header]
    exact Nat.pos_of_ne_zero isRunFile.filled
  refine ⟨header, ?_, ?_, fun i inside => ?_, fun fp => ?_, fun fp found => ?_⟩
  · rw [Run.entries, mapped, ← toList]
    split
    · next empty => simp [toList, empty]
    · rfl
  · have all := entriesFrom?_eq isRunFile.reads_entriesOf (by omega) 0
    rwa [count, List.drop_zero, toList, ← size] at all
  · rw [size] at inside ⊢
    have within : i < (entriesOf w bytes).size := count.symm ▸ inside
    refine ⟨entryAt?_eq isRunFile inside, ?_⟩
    simp only [Run.get, size, if_neg (Nat.not_le.2 inside), mapped,
      Array.getElem?_eq_getElem within, getElem_entriesOf within]
  · rw [size]
    refine search?_eq isRunFile.reads_entriesOf mapped ?_ filled ?_ blocks fp
    · rw [header, count, headerOf]
    · rw [header, count]
      exact below
  · have among := Run.mem_stored_of_contains found
    rw [Run.stored, mapped, Option.getD_some] at among
    obtain ⟨i, inside, is⟩ := Array.mem_iff_getElem.1 among
    exact ⟨i, by omega, (getElem_entriesOf inside).symm.trans is⟩

/-- The last entry of each block can be read. -/
theorem lasts?_eq (isRunFile : IsRunFile w bytes) :
    lasts? (entryAt? w bytes (countField bytes)) (headerOf w bytes) =
      some (blockMaxima (blockField bytes) (entriesOf w bytes)).toList := by
  have filled : 0 < blockField bytes := Nat.pos_of_ne_zero isRunFile.filled
  have count := size_entriesOf w bytes
  have below := isRunFile.count_add_block_lt
  have all := lastsFrom?_eq isRunFile.reads_entriesOf filled (by omega) (k := 0)
    (Nat.one_mul _).symm (by simp)
  rw [count, List.drop_zero] at all
  exact (dif_pos filled).trans all

/-- The index holds the last entry of each block. -/
theorem toList_blockMaxima (isRunFile : IsRunFile w bytes) :
    (blockMaxima (blockField bytes) (entriesOf w bytes)).toList =
      (List.range (headerOf w bytes).blockCount).map fun k =>
        entryOf w bytes (min ((k + 1) * blockField bytes) (countField bytes) - 1) := by
  have filled : 0 < blockField bytes := Nat.pos_of_ne_zero isRunFile.filled
  have count := size_entriesOf w bytes
  rw [blockMaxima, count]
  refine (List.filterMap_congr fun k listed => ?_).trans (congrFun List.filterMap_eq_map _)
  have here := (lt_blockCount_iff (headerOf w bytes) k filled).1 (List.mem_range.1 listed)
  have before : k * blockField bytes < countField bytes := here
  have within : min ((k + 1) * blockField bytes) (countField bytes) - 1 <
      (entriesOf w bytes).size := by omega
  rw [Array.getElem?_eq_getElem within, getElem_entriesOf within]
  rfl

end IsRunFile

/-- Run files are read exactly and safely. A file opens as a run if it has the form of one, whatever
the last word of its header is, and is refused as corrupt otherwise. What is opened has the header
and the entries of the file, and the last entry of each block as its index. Reading its index, its
entries and each single one, and every search, go through with all checks, in any order of the
entries, and a search finds nothing but entries; and so it is with any other index with which the
file is opened. -/
theorem parsed_of_find {files : Files} {path : String} {contents : ByteArray}
    (found : files.find path = .ok (.file contents)) :
    let bytes := contents.data.toList
    ((Run.open w files path).isOk ↔ IsRunFile w bytes) ∧
      (∀ e, Run.open w files path = .error e → ∃ fault, e = .corruptRun path fault) ∧
      (∀ r, Run.open w files path = .ok r → r.Reads bytes ∧
        lasts? (entryAt? w bytes r.size) r.header = some r.index.toList ∧
        r.index.toList = (List.range r.header.blockCount).map fun k =>
          entryOf w bytes (min ((k + 1) * r.header.blockEntries) r.size - 1)) ∧
      ∀ (index : Array (Fingerprint w)) r, Run.openWithIndex files path index = .ok r →
        r.index = index ∧ r.Reads bytes := by
  intro bytes
  cases parsed : parseRun w contents with
  | error fault =>
    have mapped : Run.map w files path = .error (.corruptRun path fault) := by
      rw [Run.map, found]
      exact congrArg (Except.mapError _) parsed
    have refused : Run.open w files path = .error (.corruptRun path fault) := by
      rw [Run.open, mapped]
      rfl
    have refusedWith (index : Array (Fingerprint w)) :
        Run.openWithIndex files path index = .error (.corruptRun path fault) := by
      rw [Run.openWithIndex, mapped]
      rfl
    simp only [refused, refusedWith, reduceCtorEq, false_implies, implies_true, and_true,
      Except.error.injEq, forall_eq']
    refine ⟨⟨fun opens => absurd opens Bool.false_ne_true, fun isRunFile => ?_⟩, fault, rfl⟩
    rw [isRunFile.parseRun_eq] at parsed
    contradiction
  | ok pair =>
    have isRunFile : IsRunFile w bytes := .of_isRun parsed
    have mapped := Run.map_of_find isRunFile.parseRun_eq found
    have filled : 0 < blockField bytes := Nat.pos_of_ne_zero isRunFile.filled
    have opened : Run.open w files path = .ok ⟨path, headerOf w bytes,
        blockMaxima (blockField bytes) (entriesOf w bytes), some (entriesOf w bytes)⟩ := by
      rw [Run.open, mapped]
      rfl
    refine ⟨⟨fun _ => isRunFile, fun _ => by rw [opened]; rfl⟩, fun e failed => ?_, ?_, ?_⟩
    · rw [opened] at failed
      contradiction
    · intro r is
      obtain rfl := Except.ok.inj (is.symm.trans opened)
      have blocks := size_blockMaxima filled (entriesOf w bytes)
      rw [size_entriesOf] at blocks
      exact ⟨isRunFile.reads rfl rfl blocks, isRunFile.lasts?_eq, isRunFile.toList_blockMaxima⟩
    · intro index r is
      rw [Run.openWithIndex, mapped] at is
      simp only [bind, Except.bind] at is
      split at is
      · contradiction
      · next blocks =>
        split at is
        · contradiction
        · obtain rfl := Except.ok.inj is
          exact ⟨rfl, isRunFile.reads rfl rfl (Decidable.not_not.1 blocks)⟩

/-- A run file of two entries that are out of order, in blocks of one, with something in the last
word of its header. -/
def disorderedContents : ByteArray :=
  let contents := encodeRun 1 #[(.ofNat .bits64 2), .ofNat .bits64 1]
  (Bytes.patch contents.data.toList 28 [7]).toByteArray

/-- Files with it and nothing else. -/
def disorderedFiles : Files := (Files.empty.write "states.fp" disorderedContents).2

/-- The file is there. -/
theorem find_disordered :
    disorderedFiles.find "states.fp" = .ok (.file disorderedContents) := by
  decide +kernel

/-- It opens, with both of its entries. -/
theorem open_disordered :
    ((Run.open .bits64 disorderedFiles "states.fp").bind fun r =>
      r.entries.mapError fun _ => .closed) = .ok [.ofNat _ 2, .ofNat _ 1] := by
  decide +kernel

/-- It has the form of a run file, and every search in it goes through. -/
theorem parsed_of_find_disordered :
    IsRunFile .bits64 disorderedContents.data.toList ∧
      ∃ r : Run .bits64, Run.open .bits64 disorderedFiles "states.fp" = .ok r ∧
        r.entries = .ok [.ofNat _ 2, .ofNat _ 1] ∧
        ∀ fp, search? (entryAt? .bits64 disorderedContents.data.toList r.size) r.header r.index
          fp = some (r.contains fp) := by
  obtain ⟨opens, _, reads, _⟩ := parsed_of_find (w := .bits64) find_disordered
  have all := open_disordered
  cases opened : Run.open .bits64 disorderedFiles "states.fp" with
  | error e =>
    rw [opened] at all
    contradiction
  | ok r =>
    rw [opened] at all
    have entries : r.entries = .ok [.ofNat _ 2, .ofNat _ 1] := by
      cases listed : r.entries with
      | error e => simp [Except.bind, listed, Except.mapError] at all
      | ok fps => simpa [Except.bind, listed, Except.mapError] using all
    exact ⟨opens.1 (by rw [opened]; rfl), r, rfl, entries, (reads r opened).1.search⟩

end SeenStates
