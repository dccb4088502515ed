import Mathlib.Data.Finset.Card
import SeenStates.Proofs.MergeOrder
import SeenStates.Proofs.WrittenRuns

/-!
# Merged streams

A merge of two streams gives what is to come of either and then nothing more, and it gives or counts
every value (`MergesTo`). If the streams ascend so does what it gives, and at any time it has
counted those of the values given that come of both (`MergesInOrder`). Two merges, one inside the
other, write a new run that has what is in any of three (`RunWriter.MergesInto`), and only want of
room keeps them from it.
-/
namespace SeenStates

/-! ## Merges of two streams -/

section Streams

variable {σ τ α : Type} [Stream σ α] [Stream τ α] [LT α] [DecidableLT α] [DecidableEq α]

/-- What the merge of two streams gives, call after call, and what it counts. -/
structure MergesTo (left : σ) (right : τ) (output : List α) : Prop where
  /-- The calls give the output and then nothing more. -/
  answers : ∀ n,
    (Stream.next (Stream.after (SortedMerge.start left right) n)).1 = output[n]?
  /-- Given is what is to come of either stream. -/
  members : ∀ a, a ∈ output ↔ a ∈ Stream.rest left ∨ a ∈ Stream.rest right
  /-- At the end everything is given or counted. -/
  length : ∀ n, output.length ≤ n →
    output.length + (Stream.after (SortedMerge.start left right) n).counted =
      (Stream.rest left).length + (Stream.rest right).length

/-- What the merge of two streams gives in order. -/
structure MergesInOrder (left : σ) (right : τ) (output : List α) : Prop where
  /-- What is given ascends. -/
  ascending : output.Pairwise (· < ·)
  /-- After `n` calls those of the values given are counted that come of both streams. -/
  counted : ∀ n, (Stream.after (SortedMerge.start left right) n).counted =
    ((output.take n).toFinset ∩ (Stream.rest left).toFinset ∩ (Stream.rest right).toFinset).card
  /-- At the end that is everything that comes of both. -/
  duplicates : ∀ n, output.length ≤ n →
    (Stream.after (SortedMerge.start left right) n).counted =
      ((Stream.rest left).toFinset ∩ (Stream.rest right).toFinset).card

/-- Among the first `n` values that are given those are counted that are in both lists. -/
theorem duplicates_take_merge [IsStrictTotalOrder α (· < ·)] {left right : List α}
    (ascending : left.Pairwise (· < ·)) (ascending' : right.Pairwise (· < ·)) (n : Nat) :
    duplicates ((merge left right).take n) =
      (((mergedValues (merge left right)).take n).toFinset ∩ left.toFinset ∩
        right.toFinset).card := by
  let common := ((merge left right).take n).filter fun v => v.2 = .both
  have once : (mergedValues common).Nodup :=
    (ascending_merge ascending ascending').imp (fun below => ne_of_irrefl below) |>.sublist
      ((List.filter_sublist.trans (List.take_sublist n _)).map Prod.fst)
  have all : ((mergedValues (merge left right)).take n).toFinset ∩ left.toFinset ∩
      right.toFinset = (mergedValues common).toFinset := by
    ext a
    simp only [Finset.mem_inter, List.mem_toFinset, and_assoc]
    rw [mergedValues, mergedValues, ← List.map_take]
    constructor
    · rintro ⟨given, onLeft, onRight⟩
      obtain ⟨v, listed, rfl⟩ := List.mem_map.1 given
      have both := (both_iff_of_mem_merge ascending ascending' (List.mem_of_mem_take listed)).2
        ⟨onLeft, onRight⟩
      exact List.mem_map_of_mem (List.mem_filter.2 ⟨listed, decide_eq_true both⟩)
    · intro member
      obtain ⟨v, inCommon, rfl⟩ := List.mem_map.1 member
      obtain ⟨listed, both⟩ := List.mem_filter.1 inCommon
      exact ⟨List.mem_map_of_mem listed, (both_iff_of_mem_merge ascending ascending'
        (List.mem_of_mem_take listed)).1 (of_decide_eq_true both)⟩
  rw [all, List.toFinset_card_of_nodup once, mergedValues, List.length_map, duplicates,
    List.countP_eq_length_filter]

namespace SortedMerge

/-- After `n` calls a merge has counted what came from both streams. -/
theorem counted_after_start (left : σ) (right : τ) (n : Nat) :
    (Stream.after (start left right) n).counted =
      duplicates ((merge (Stream.rest left) (Stream.rest right)).take n) := by
  rw [counted_after]
  exact Nat.zero_add _

/-- A merge gives or counts everything. -/
theorem mergesTo (left : σ) (right : τ) :
    MergesTo left right (mergedValues (merge (Stream.rest left) (Stream.rest right))) := by
  refine ⟨fun n => Stream.next_after _ n, fun a => mem_mergedValues_merge, fun n done => ?_⟩
  rw [mergedValues, List.length_map] at done ⊢
  rw [counted_after_start, List.take_of_length_le done, length_merge]

/-- A merge of streams that ascend gives what is to come of them in order. -/
theorem mergesInOrder [IsStrictTotalOrder α (· < ·)] {left : σ} {right : τ}
    (ascending : (Stream.rest left).Pairwise (· < ·))
    (ascending' : (Stream.rest right).Pairwise (· < ·)) :
    MergesInOrder left right (mergedValues (merge (Stream.rest left) (Stream.rest right))) := by
  have counted (n : Nat) := (counted_after_start left right n).trans
    (duplicates_take_merge ascending ascending' n)
  refine ⟨ascending_merge ascending ascending', counted, fun n done => ?_⟩
  have given : (Stream.rest left).toFinset ⊆
      (mergedValues (merge (Stream.rest left) (Stream.rest right))).toFinset := fun a onLeft =>
    List.mem_toFinset.2 (mem_mergedValues_merge.2 (.inl (List.mem_toFinset.1 onLeft)))
  rw [counted n, List.take_of_length_le done, Finset.inter_eq_right.2 given]

end SortedMerge

end Streams

/-! ## Merging into a run -/

namespace RunWriter

variable {w : Width} {σ τ : Type} [Stream σ (Fingerprint w)] [Stream τ (Fingerprint w)]

/-- What merging streams and the entries of a run into a writer comes to, when `union` is what is in
any of them. -/
structure MergesInto (memory : σ) (overflow : τ) (previous : Array (Fingerprint w))
    (r : RunWriter w) (union : List (Fingerprint w)) : Prop where
  /-- It ascends. -/
  ascending : Ascending union
  /-- It has what is in any of the three. -/
  members : ∀ fp, fp ∈ union ↔
    fp ∈ Stream.rest memory ∨ fp ∈ Stream.rest overflow ∨ fp ∈ previous
  /-- Just that is written, and what of the three is not written is counted. -/
  written : ∀ q counts, mergeInto memory overflow previous r = (q, .ok counts) →
    q.entries.toList = union ∧ counts.written = union.length ∧
      counts.written + counts.duplicates =
        (Stream.rest memory).length + (Stream.rest overflow).length + previous.size
  /-- It is written if there is room for it. -/
  succeeds : excess? r.room (bytesOf w union.length) = none →
    ∃ q counts, mergeInto memory overflow previous r = (q, .ok counts)
  /-- Only files can be at fault. -/
  faults : ∀ q e, mergeInto memory overflow previous r = (q, .error e) →
    ∃ path fault, e = .file path fault

/-- Streams that ascend are merged with a run that ascends into one that has what is in any of
them. -/
theorem InStep.mergesInto {r : RunWriter w} (inStep : r.InStep) (fresh : r.entries = #[])
    {memory : σ} {overflow : τ} {previous : Array (Fingerprint w)}
    (first : Ascending (Stream.rest memory)) (second : Ascending (Stream.rest overflow))
    (third : Ascending previous.toList) :
    MergesInto memory overflow previous r
      (mergeThree (Stream.rest memory) (Stream.rest overflow) previous.toList).1 := by
  have length := length_mergeThree (Stream.rest memory) (Stream.rest overflow) previous.toList
  have members (fp : Fingerprint w) :
      fp ∈ (mergeThree (Stream.rest memory) (Stream.rest overflow) previous.toList).1 ↔
        fp ∈ Stream.rest memory ∨ fp ∈ Stream.rest overflow ∨ fp ∈ previous.toList :=
    mem_mergeThree
  have ascending : Ascending
      (mergeThree (Stream.rest memory) (Stream.rest overflow) previous.toList).1 :=
    (ascending_mergeThree_iff second third).2 first
  have ends := mergeInto_eq memory overflow previous r
  generalize mergeThree (Stream.rest memory) (Stream.rest overflow) previous.toList = merged
    at length members ascending ends ⊢
  obtain ⟨union, count⟩ := merged
  simp only [Array.mem_toList_iff, Array.length_toList] at length members ascending ends ⊢
  have behind : Ascending (r.entries.toList ++ union) := by simpa [fresh] using ascending
  rcases pushAll_of_ascending behind with
    ⟨q, pushed⟩ | ⟨excess, q, path, fault, pushed⟩
  · have entries := (inStep.pushAll pushed).2.1
    rw [fresh, List.nil_append] at entries
    have size : q.size = union.length := by rw [RunWriter.size, ← Array.length_toList, entries]
    simp only [pushed] at ends
    rw [size] at ends
    refine ⟨ascending, members, fun u counts same => ?_, fun _ => ⟨_, _, ends⟩, fun u e same => ?_⟩
    · rw [ends] at same
      cases same
      exact ⟨entries, rfl, length⟩
    · rw [ends] at same
      cases same
  · simp only [pushed] at ends
    refine ⟨ascending, members, fun u counts same => ?_, fun room => ?_, fun u e same => ?_⟩
    · rw [ends] at same
      cases same
    · rw [fresh] at excess
      exact absurd room (by simpa using excess)
    · rw [ends] at same
      cases same
      exact ⟨path, fault, rfl⟩

end RunWriter

/-! ## All merges -/

/-- Merges of streams, in whatever order they are: everything is given or counted. Merges of streams
that ascend: what is in either is given in order and what is in both is counted. Merges of two such
streams and of a run into a new run: what is in any of them is written in order, each fingerprint
once, unless there is no room for it. -/
theorem merges_streams :
    (∀ {σ τ α : Type} [Stream σ α] [Stream τ α] [LT α] [DecidableLT α] [DecidableEq α]
        (left : σ) (right : τ),
        MergesTo left right (Stream.values (SortedMerge.start left right))) ∧
      (∀ {σ τ α : Type} [Stream σ α] [Stream τ α] [LT α] [DecidableLT α] [DecidableEq α]
        [IsStrictTotalOrder α (· < ·)] (left : σ) (right : τ),
        (Stream.rest left).Pairwise (· < ·) → (Stream.rest right).Pairwise (· < ·) →
          MergesInOrder left right (Stream.values (SortedMerge.start left right))) ∧
      ∀ {w : Width} {σ τ : Type} [Stream σ (Fingerprint w)] [Stream τ (Fingerprint w)]
        {before begun : Files} {target : String} {blockEntries : Nat} {r : RunWriter w}
        (memory : σ) (overflow : τ) (previous : Array (Fingerprint w)),
        RunWriter.start w before target blockEntries = .ok (r, begun) →
          Ascending (Stream.rest memory) → Ascending (Stream.rest overflow) →
            Ascending previous.toList →
              ∃ union, RunWriter.MergesInto memory overflow previous r union := by
  refine ⟨fun left right => ?_, fun left right ascending ascending' => ?_,
    fun memory overflow previous started first second third => ?_⟩
  · rw [Stream.values_eq]
    exact SortedMerge.mergesTo left right
  · rw [Stream.values_eq]
    exact SortedMerge.mergesInOrder ascending ascending'
  · obtain ⟨inStep, fresh, _⟩ := RunWriter.inStep_of_start started
    exact ⟨_, inStep.mergesInto fresh first second third⟩

/-- Fingerprints of the given numbers. -/
def samples (numbers : List Nat) : List (Fingerprint .bits64) := numbers.map (.ofNat _)

/-- Of two lists of four what is in both comes once and is counted, and so it is when two lists of
two are written with a run of two. -/
theorem merges_streams_samples :
    MergesTo (samples [4, 1]) (samples [2, 4]) (samples [2, 4, 1]) ∧
      MergesInOrder (samples [1, 4, 6, 9]) (samples [2, 4, 9, 10])
        (samples [1, 2, 4, 6, 9, 10]) ∧
      RunWriter.MergesInto (samples [1, 5]) (samples [4, 8]) (samples [3, 8]).toArray
        sampleWriter.1 (samples [1, 3, 4, 5, 8]) := by
  obtain ⟨merges, ordered, writes⟩ := merges_streams
  have values : Stream.values (SortedMerge.start (samples [4, 1]) (samples [2, 4])) =
      samples [2, 4, 1] := by decide +kernel
  have inOrder : Stream.values (SortedMerge.start (samples [1, 4, 6, 9]) (samples [2, 4, 9, 10])) =
      samples [1, 2, 4, 6, 9, 10] := by decide +kernel
  obtain ⟨union, into⟩ := writes (samples [1, 5]) (samples [4, 8]) (samples [3, 8]).toArray
    start_sampleWriter (by decide) (by decide) (by decide)
  have merged : (mergeInto (samples [1, 5]) (samples [4, 8]) (samples [3, 8]).toArray
      sampleWriter.1).2.toOption.isSome ∧
    (mergeInto (samples [1, 5]) (samples [4, 8]) (samples [3, 8]).toArray
      sampleWriter.1).1.entries.toList = samples [1, 3, 4, 5, 8] := by decide +kernel
  have written := (into.written _ _ (Prod.ext rfl (eq_ok_toOption_get merged.1))).1
  exact ⟨values ▸ merges _ _, inOrder ▸ ordered _ _ (by decide) (by decide),
    (written.symm.trans merged.2) ▸ into⟩

end SeenStates
