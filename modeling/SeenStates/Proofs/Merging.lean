import SeenStates.Proofs.Search
import SeenStates.Run.Writer

/-!
# Merging into a run

A merge has the values of both lists, in whatever order they come. The writer is what keeps a run
in order: it refuses a value that does not ascend, so a run that was written to its end ascends
(`RunWriter.InStep`), and its index is the one that a search needs (`RunWriter.finalIndex_eq`).
-/
namespace SeenStates

variable {w : Width}

/-- A merge has the values of both lists and no others. -/
theorem mem_mergedValues_merge {α : Type} [LT α] [DecidableLT α] [DecidableEq α]
    {left right : List α} {a : α} :
    a ∈ mergedValues (merge left right) ↔ a ∈ left ∨ a ∈ right := by
  fun_induction merge left right with
  | case1 right => simp [mergedValues]
  | case2 left => simp [mergedValues]
  | case3 l ls rs ih =>
    simp only [mergedValues, List.map_cons, List.mem_cons] at ih ⊢
    rw [ih]
    grind
  | case4 l ls r rs differ below ih =>
    simp only [mergedValues, List.map_cons, List.mem_cons] at ih ⊢
    rw [ih]
    grind
  | case5 l ls r rs differ above ih =>
    simp only [mergedValues, List.map_cons, List.mem_cons] at ih ⊢
    rw [ih]
    grind

/-- A merge of three lists has the values of all of them and no others. -/
theorem mem_mergeThree {memory overflow previous : List (Fingerprint w)} {fp : Fingerprint w} :
    fp ∈ (mergeThree memory overflow previous).1 ↔
      fp ∈ memory ∨ fp ∈ overflow ∨ fp ∈ previous := by
  simp only [mergeThree, mem_mergedValues_merge, or_assoc]

/-- There is room for a file that no limit keeps from being written. -/
theorem excess?_eq_none_iff {room size : Nat} :
    excess? room size = none ↔ size ≤ largestFile ∧ size ≤ room := by
  unfold excess?
  split
  · next beyond => simp; omega
  · next fits =>
    split
    · next beyond => simp; omega
    · next enough => simp; omega

namespace RunWriter

/-- A writer whose entries ascend and fit, with the last entry of each complete block in the
index. -/
structure InStep (r : RunWriter w) : Prop where
  /-- The entries ascend. -/
  ascending : Ascending r.entries.toList
  /-- A block has an entry. -/
  blocks : 0 < r.blockEntries
  /-- The file of the entries can be written. -/
  fits : excess? r.room (bytesOf w r.entries.size) = none
  /-- Each complete block has an entry in the index. -/
  count : r.index.size = r.entries.size / r.blockEntries
  /-- That is the last one of the block. -/
  maxima : ∀ k, (k + 1) * r.blockEntries ≤ r.entries.size →
    r.index[k]? = r.entries[(k + 1) * r.blockEntries - 1]?

/-- A writer that has just started is in step. -/
theorem inStep_of_start {files after : Files} {target : String} {blockEntries : Nat}
    {r : RunWriter w} (started : start w files target blockEntries = .ok (r, after)) :
    r.InStep ∧ r.entries = #[] ∧ r.blockEntries = max blockEntries 1 := by
  unfold start at started
  simp only at started
  split at started
  · contradiction
  · split at started
    · contradiction
    · next room =>
      obtain ⟨rfl, rfl⟩ := Prod.mk.inj (Except.ok.inj started)
      refine ⟨⟨.nil, Nat.le_max_right .., by simpa [bytesOf] using room, by simp, ?_⟩, rfl, rfl⟩
      intro k complete
      have positive : 0 < (k + 1) * max blockEntries 1 :=
        Nat.mul_pos (Nat.succ_pos k) (Nat.le_max_right ..)
      have none : (k + 1) * max blockEntries 1 ≤ 0 := complete
      omega

/-- A run is started, or there is a fault of files. -/
theorem start_eq_error {files : Files} {target : String} {blockEntries : Nat} {e : Error}
    (failed : start w files target blockEntries = .error e) :
    ∃ path fault, e = .file path fault := by
  unfold start at failed
  simp only at failed
  split at failed
  · exact ⟨_, _, (Except.error.inj failed).symm⟩
  · split at failed
    · exact ⟨_, _, (Except.error.inj failed).symm⟩
    · contradiction

/-- What is not refused is above all entries and has room. -/
theorem above_of_refusal?_eq_none {r : RunWriter w} {fp : Fingerprint w} (inStep : r.InStep)
    (accepted : r.refusal? fp = none) :
    (∀ old ∈ r.entries.toList, old < fp) ∧
      excess? r.room (bytesOf w (r.entries.size + 1)) = none := by
  unfold refusal? at accepted
  split at accepted
  · contradiction
  · next ordered =>
    refine ⟨?_, by simpa using accepted⟩
    intro old member
    obtain ⟨i, within, rfl⟩ := List.mem_iff_getElem.1 member
    have inside : i < r.entries.size := by simpa using within
    have filled : r.entries.size - 1 < r.entries.size := by omega
    unfold disorder? at ordered
    rw [Array.back?_eq_getElem?, Array.getElem?_eq_getElem filled, Option.bind_some] at ordered
    have last : r.entries[r.entries.size - 1] < fp := by
      apply Std.not_le.1
      intro fault
      simp [fault] at ordered
    have before := inStep.ascending.getElem_le (Nat.le_sub_one_of_lt inside) filled
    rw [Array.getElem_toList]
    exact Std.lt_of_le_of_lt (Fingerprint.le_iff.2 before) last

/-- A writer stays in step when an entry is added. -/
theorem InStep.extended {r : RunWriter w} {fp : Fingerprint w} (inStep : r.InStep)
    (accepted : r.refusal? fp = none) : (r.extended fp).InStep := by
  obtain ⟨above, room⟩ := above_of_refusal?_eq_none inStep accepted
  have size : (r.extended fp).entries.size = r.entries.size + 1 := by simp [RunWriter.extended]
  constructor
  case ascending =>
    simp only [RunWriter.extended, Array.toList_push, Ascending, List.pairwise_append]
    exact ⟨inStep.ascending, List.pairwise_singleton .., by simpa using above⟩
  case blocks => exact inStep.blocks
  case fits => rw [size]; exact room
  case count =>
    rw [size]
    simp only [RunWriter.extended]
    rw [Nat.succ_div]
    split
    · next complete =>
      rw [Array.size_push, inStep.count, if_pos (Nat.dvd_of_mod_eq_zero complete)]
    · next partly =>
      rw [inStep.count, if_neg fun whole => partly (Nat.mod_eq_zero_of_dvd whole), Nat.add_zero]
  case maxima =>
    intro k complete
    rw [size] at complete
    have block : (k + 1) * r.blockEntries ≤ r.entries.size + 1 := complete
    have positive : 0 < (k + 1) * r.blockEntries := Nat.mul_pos (Nat.succ_pos k) inStep.blocks
    rcases Nat.lt_or_eq_of_le block with earlier | last
    · -- The block was complete before.
      have old := inStep.maxima k (by omega)
      have inside : k < r.index.size := by
        rw [inStep.count, Nat.lt_iff_add_one_le, Nat.le_div_iff_mul_le inStep.blocks]
        omega
      simp only [RunWriter.extended]
      rw [Array.getElem?_push_lt (by omega), ← Array.getElem?_eq_getElem (by omega), ← old]
      split
      · rw [Array.getElem?_push_lt inside, Array.getElem?_eq_getElem inside]
      · rfl
    · -- The entry completes the block.
      have divides : (r.entries.size + 1) % r.blockEntries = 0 := by
        rw [← last]
        exact Nat.mul_mod_left ..
      have own : r.index.size = k := by
        rw [inStep.count]
        apply Nat.div_eq_of_lt_le
        · rw [Nat.add_mul] at last
          have := inStep.blocks
          omega
        · omega
      simp only [RunWriter.extended]
      rw [if_pos divides, last, Nat.add_sub_cancel, Array.getElem?_push_size, ← own,
        Array.getElem?_push_size]

/-- The index has the entry of a block exactly when the block is complete. -/
theorem InStep.lt_size_index_iff {r : RunWriter w} (inStep : r.InStep) {k : Nat} :
    k < r.index.size ↔ (k + 1) * r.blockEntries ≤ r.entries.size := by
  rw [inStep.count, Nat.lt_iff_add_one_le, Nat.le_div_iff_mul_le inStep.blocks]

/-- The whole index is the one that a search needs. -/
theorem InStep.finalIndex_eq {r : RunWriter w} (inStep : r.InStep) :
    r.finalIndex = blockMaxima r.blockEntries r.entries := by
  apply Array.ext_getElem?
  intro k
  rw [getElem?_blockMaxima inStep.blocks]
  have split : (k + 1) * r.blockEntries = k * r.blockEntries + r.blockEntries := by
    rw [Nat.add_mul, Nat.one_mul]
  have positive := inStep.blocks
  have whole := Nat.div_add_mod' r.entries.size r.blockEntries
  unfold finalIndex
  split
  · next aligned =>
    rw [aligned, Nat.add_zero, ← inStep.count] at whole
    by_cases complete : k < r.index.size
    · have block := inStep.lt_size_index_iff.1 complete
      rw [inStep.maxima k block, if_pos (by omega), Nat.min_eq_left block]
    · have beyond : r.index.size * r.blockEntries ≤ k * r.blockEntries :=
        Nat.mul_le_mul_right _ (Nat.le_of_not_lt complete)
      rw [Array.getElem?_eq_none (Nat.le_of_not_lt complete), if_neg (by omega)]
  · next partly =>
    have below := Nat.mod_lt r.entries.size positive
    rw [← inStep.count] at whole
    have filled : r.entries.size - 1 < r.entries.size := by
      have some : 0 < r.entries.size % r.blockEntries := Nat.pos_of_ne_zero partly
      omega
    rw [Array.back?_eq_getElem?, Array.getElem?_eq_getElem filled, Option.elim_some]
    rcases Nat.lt_trichotomy k r.index.size with complete | rfl | beyond
    · have block := inStep.lt_size_index_iff.1 complete
      rw [Array.getElem?_push_lt complete, ← Array.getElem?_eq_getElem, inStep.maxima k block,
        if_pos (by omega), Nat.min_eq_left block]
    · -- The last block is short: it ends where the entries end.
      rw [Array.getElem?_push_size, if_pos (by omega), Nat.min_eq_right (by omega),
        Array.getElem?_eq_getElem filled]
    · have later : (r.index.size + 1) * r.blockEntries ≤ k * r.blockEntries :=
        Nat.mul_le_mul_right _ beyond
      rw [Nat.add_mul, Nat.one_mul] at later
      rw [Array.getElem?_eq_none (by rw [Array.size_push]; exact beyond),
        if_neg (by omega)]

/-- Entries that were all added ascend, and stand behind those that were there. -/
theorem InStep.pushAll {r q : RunWriter w} {fps : List (Fingerprint w)} (inStep : r.InStep)
    (pushed : r.pushAll fps = (q, none)) :
    q.InStep ∧ q.entries.toList = r.entries.toList ++ fps ∧ q.blockEntries = r.blockEntries := by
  induction fps generalizing r with
  | nil =>
    obtain rfl := congrArg Prod.fst pushed
    exact ⟨inStep, by simp [RunWriter.pushAll], rfl⟩
  | cons fp rest ih =>
    rw [RunWriter.pushAll] at pushed
    split at pushed
    · next accepted =>
      obtain ⟨kept, entries, blocks⟩ := ih (inStep.extended accepted) pushed
      exact ⟨kept, by simp [entries, RunWriter.extended], blocks⟩
    · simp at pushed

/-- Adding entries goes on with one draft. -/
theorem draft_pushAll (r : RunWriter w) (fps : List (Fingerprint w)) :
    (r.pushAll fps).1.draft = r.draft := by
  induction fps generalizing r with
  | nil => rfl
  | cons fp rest ih =>
    rw [RunWriter.pushAll]
    split
    · exact ih _
    · rfl

variable {σ τ : Type} [Stream σ (Fingerprint w)] [Stream τ (Fingerprint w)]

/-- Merging goes on with one draft. -/
theorem draft_mergeInto (memory : σ) (overflow : τ) (previous : Array (Fingerprint w))
    (r : RunWriter w) : (mergeInto memory overflow previous r).1.draft = r.draft := by
  rw [mergeInto_eq]
  have kept := draft_pushAll r
    (mergeThree (Stream.rest memory) (Stream.rest overflow) previous.toList).1
  revert kept
  simp only
  generalize r.pushAll _ = pushed
  obtain ⟨q, fault⟩ := pushed
  intro kept
  cases fault <;> exact kept

/-- A merge that was written to its end has the values of all three, in order. -/
theorem InStep.mergeInto {memory : σ} {overflow : τ} {previous : Array (Fingerprint w)}
    {r q : RunWriter w} {counts : MergeCounts} (inStep : r.InStep) (fresh : r.entries = #[])
    (merged : mergeInto memory overflow previous r = (q, .ok counts)) :
    q.InStep ∧ q.blockEntries = r.blockEntries ∧
      ∀ fp, fp ∈ q.entries ↔
        fp ∈ Stream.rest memory ∨ fp ∈ Stream.rest overflow ∨ fp ∈ previous := by
  rw [mergeInto_eq] at merged
  simp only at merged
  split at merged
  · next after pushed =>
    obtain rfl := congrArg Prod.fst merged
    obtain ⟨kept, entries, blocks⟩ := inStep.pushAll pushed
    refine ⟨kept, blocks, fun fp => ?_⟩
    rw [← Array.mem_toList_iff, entries, fresh, List.nil_append, mem_mergeThree,
      ← Array.mem_toList_iff]
  · simp at merged

end RunWriter

end SeenStates
