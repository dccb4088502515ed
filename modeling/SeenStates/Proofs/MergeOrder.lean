import Mathlib.Order.Defs.Unbundled
import SeenStates.Proofs.Merging

/-!
# The order of a merge

A merge gives or counts every value of both lists, whatever order they are in (`length_merge`). The
merge of lists that ascend is one ascending list of what is in either (`ascending_merge`), and
counted is what is in both (`both_iff_of_mem_merge`). A writer takes all of an ascending list that
there is room for (`RunWriter.pushAll_of_ascending`), and refuses another only because it is not in
order or because there is no room (`RunWriter.fault_of_pushAll`).
-/
namespace SeenStates

/-! ## Merges of lists -/

section Lists

variable {α : Type} [LT α]

section Order

variable [IsStrictTotalOrder α (· < ·)]

/-- What is below the first value of a list that ascends is below all of it. -/
theorem lt_of_mem_of_lt_head {a b c : α} {behind : List α}
    (ascending : (b :: behind).Pairwise (· < ·)) (below : a < b) (member : c ∈ b :: behind) :
    a < c := by
  rcases List.mem_cons.1 member with rfl | later
  · exact below
  · exact trans_of (· < ·) below ((List.pairwise_cons.1 ascending).1 c later)

/-- Of two values that differ one is below the other. -/
theorem lt_of_not_lt {a b : α} (differ : a ≠ b) (above : ¬ a < b) : b < a :=
  ((trichotomous_of (· < ·) a b).resolve_left above).resolve_left differ

end Order

variable [DecidableLT α] [DecidableEq α]

/-- Every value of both lists is given or counted. -/
theorem length_merge (left right : List α) :
    (merge left right).length + duplicates (merge left right) = left.length + right.length := by
  fun_induction merge left right with
  | case1 right => simp [duplicates]
  | case2 left => simp [duplicates]
  | case3 ls l rs ih =>
    simp only [duplicates, List.length_cons, List.countP_cons] at ih ⊢
    simp only [decide_true, ↓reduceIte]
    omega
  | case4 l ls r rs differ below ih =>
    simp only [duplicates, List.length_cons, List.countP_cons, reduceCtorEq, decide_false,
      Bool.false_eq_true, ↓reduceIte] at ih ⊢
    omega
  | case5 l ls r rs differ above ih =>
    simp only [duplicates, List.length_cons, List.countP_cons, reduceCtorEq, decide_false,
      Bool.false_eq_true, ↓reduceIte] at ih ⊢
    omega

/-- The values of the left list are given in their order. -/
theorem left_sublist_merge (left right : List α) :
    left.Sublist (mergedValues (merge left right)) := by
  fun_induction merge left right with
  | case1 right => exact List.nil_sublist _
  | case2 left => simp [mergedValues, Function.comp_def]
  | case3 ls l rs ih => exact ih.cons_cons l
  | case4 l ls r rs differ below ih => exact ih.cons_cons l
  | case5 l ls r rs differ above ih => exact ih.cons r

variable [IsStrictTotalOrder α (· < ·)]

/-- The merge of lists that ascend ascends. -/
theorem ascending_merge {left right : List α} (ascending : left.Pairwise (· < ·))
    (ascending' : right.Pairwise (· < ·)) :
    (mergedValues (merge left right)).Pairwise (· < ·) := by
  fun_induction merge left right with
  | case1 right => simpa [mergedValues, Function.comp_def] using ascending'
  | case2 left => simpa [mergedValues, Function.comp_def] using ascending
  | case3 ls l rs ih =>
    obtain ⟨first, later⟩ := List.pairwise_cons.1 ascending
    obtain ⟨first', later'⟩ := List.pairwise_cons.1 ascending'
    refine List.pairwise_cons.2 ⟨fun a member => ?_, ih later later'⟩
    exact (mem_mergedValues_merge.1 member).elim (first a) (first' a)
  | case4 l ls r rs differ below ih =>
    obtain ⟨first, later⟩ := List.pairwise_cons.1 ascending
    refine List.pairwise_cons.2 ⟨fun a member => ?_, ih later ascending'⟩
    exact (mem_mergedValues_merge.1 member).elim (first a)
      (lt_of_mem_of_lt_head ascending' below)
  | case5 l ls r rs differ above ih =>
    obtain ⟨first, later⟩ := List.pairwise_cons.1 ascending'
    have below : r < l := lt_of_not_lt differ above
    refine List.pairwise_cons.2 ⟨fun a member => ?_, ih ascending later⟩
    exact (mem_mergedValues_merge.1 member).elim (lt_of_mem_of_lt_head ascending below) (first a)

/-- From both lists comes what is in both. -/
theorem both_iff_of_mem_merge {left right : List α} (ascending : left.Pairwise (· < ·))
    (ascending' : right.Pairwise (· < ·)) {v : α × Source} (given : v ∈ merge left right) :
    v.2 = .both ↔ v.1 ∈ left ∧ v.1 ∈ right := by
  -- What is behind a value is above it, so that value is not met again.
  have again {a : α} {others : List (α × Source)} (member : v ∈ others)
      (above : ∀ b ∈ mergedValues others, a < b) : v.1 ≠ a := fun same =>
    irrefl a (same ▸ above v.1 (List.mem_map_of_mem member))
  have merged := ascending_merge ascending ascending'
  fun_induction merge left right with
  | case1 right =>
    obtain ⟨a, _, rfl⟩ := List.mem_map.1 given
    simp
  | case2 left =>
    obtain ⟨a, _, rfl⟩ := List.mem_map.1 given
    simp
  | case3 ls l rs ih =>
    obtain ⟨above, merged⟩ := List.pairwise_cons.1 merged
    rcases List.mem_cons.1 given with rfl | later
    · simp
    · refine (ih (List.pairwise_cons.1 ascending).2 (List.pairwise_cons.1 ascending').2 later
        merged).trans ?_
      simp [again later above]
  | case4 l ls r rs differ below ih =>
    obtain ⟨above, merged⟩ := List.pairwise_cons.1 merged
    rcases List.mem_cons.1 given with rfl | later
    · have absent : l ∉ r :: rs := fun member =>
        irrefl l (lt_of_mem_of_lt_head ascending' below member)
      simp only [reduceCtorEq, absent, and_false]
    · refine (ih (List.pairwise_cons.1 ascending).2 ascending' later merged).trans ?_
      simp [again later above]
  | case5 l ls r rs differ above ih =>
    have below : r < l := lt_of_not_lt differ above
    obtain ⟨above, merged⟩ := List.pairwise_cons.1 merged
    rcases List.mem_cons.1 given with rfl | later
    · have absent : r ∉ l :: ls := fun member =>
        irrefl r (lt_of_mem_of_lt_head ascending below member)
      simp only [reduceCtorEq, absent, false_and]
    · refine (ih ascending (List.pairwise_cons.1 ascending').2 later merged).trans ?_
      simp [again later above]

end Lists

/-! ## Writing -/

variable {w : Width}

/-- The order of fingerprints is that of their values. -/
instance : IsStrictTotalOrder (Fingerprint w) (· < ·) where
  trichotomous _ _ notBelow notAbove :=
    Std.le_antisymm (Std.not_lt.1 notAbove) (Std.not_lt.1 notBelow)
  irrefl _ := Std.lt_irrefl
  trans _ _ _ := Std.lt_trans

/-- A merge of three lists ascends exactly if the first does, when the other two do. -/
theorem ascending_mergeThree_iff {memory overflow previous : List (Fingerprint w)}
    (second : Ascending overflow) (third : Ascending previous) :
    Ascending (mergeThree memory overflow previous).1 ↔ Ascending memory := by
  constructor
  · intro ascending
    have inMemory := left_sublist_merge memory overflow
    exact ascending.sublist (inMemory.trans (left_sublist_merge _ previous))
  · exact fun first => ascending_merge (ascending_merge first second) third

/-- A merge of three lists writes or counts everything. -/
theorem length_mergeThree (memory overflow previous : List (Fingerprint w)) :
    (mergeThree memory overflow previous).1.length + (mergeThree memory overflow previous).2 =
      memory.length + overflow.length + previous.length := by
  have inMemory := length_merge memory overflow
  have all := length_merge (mergedValues (merge memory overflow)) previous
  simp only [mergeThree, mergedValues, List.length_map] at all ⊢
  omega

/-- What there is room for leaves room for less. -/
theorem excess?_eq_none_of_le {room few many : Nat} (fewer : few ≤ many)
    (fits : excess? room many = none) : excess? room few = none := by
  rw [excess?_eq_none_iff] at fits ⊢
  omega

namespace RunWriter

/-- Entries that are refused are out of order, or there is no room for all of them. -/
theorem fault_of_pushAll {r q : RunWriter w} {fps : List (Fingerprint w)} {e : Error}
    (pushed : r.pushAll fps = (q, some e)) :
    (¬ Ascending (r.entries.toList ++ fps) ∧ ∃ fp last, e = .invariant (.unordered fp last)) ∨
      (excess? r.room (bytesOf w (r.entries.size + fps.length)) ≠ none ∧
        ∃ path fault, e = .file path fault) := by
  induction fps generalizing r with
  | nil => simp [pushAll] at pushed
  | cons fp rest ih =>
    unfold pushAll at pushed
    split at pushed
    · refine (ih pushed).imp (And.imp_left ?_) (And.imp_left ?_)
      · simp [extended]
      · simp [extended, Nat.add_assoc, Nat.add_comm 1]
    · next refused =>
      obtain rfl : _ = e := Option.some.inj (Prod.mk.inj pushed).2
      unfold refusal? at refused
      split at refused
      · next disordered =>
        obtain rfl := Option.some.inj refused
        obtain ⟨last, there, atMost⟩ := Option.bind_eq_some_iff.1 disordered
        split at atMost
        · next notAbove =>
          refine .inl ⟨fun ascending => ?_, _, _, (Option.some.inj atMost).symm⟩
          have below := (List.pairwise_append.1 ascending).2.2 last
            (Array.mem_toList_iff.2 (Array.mem_of_back? there)) fp List.mem_cons_self
          exact Std.not_lt.2 notAbove below
        · contradiction
      · obtain ⟨fault, excess, rfl⟩ := Option.map_eq_some_iff.1 refused
        refine .inr ⟨fun fits => ?_, _, _, rfl⟩
        have more : bytesOf w (r.entries.size + 1) ≤
            bytesOf w (r.entries.size + (fp :: rest).length) := by
          rw [bytesOf, bytesOf, List.length_cons]
          exact Nat.add_le_add_left (Nat.mul_le_mul_right _ (by omega)) _
        rw [excess?_eq_none_of_le more fits] at excess
        contradiction

/-- Entries that ascend are all added if there is room for them, and are otherwise refused for want
of it. -/
theorem pushAll_of_ascending {r : RunWriter w} {fps : List (Fingerprint w)}
    (ascending : Ascending (r.entries.toList ++ fps)) :
    (∃ q, r.pushAll fps = (q, none)) ∨
      (excess? r.room (bytesOf w (r.entries.size + fps.length)) ≠ none ∧
        ∃ q path fault, r.pushAll fps = (q, some (.file path fault))) := by
  cases pushed : r.pushAll fps with
  | mk q fault =>
    cases fault with
    | none => exact .inl ⟨q, rfl⟩
    | some e =>
      rcases fault_of_pushAll pushed with ⟨disordered, _⟩ | ⟨excess, path, fault, rfl⟩
      · exact absurd ascending disordered
      · exact .inr ⟨excess, q, path, fault, rfl⟩

end RunWriter

end SeenStates
