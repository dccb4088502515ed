/-!
# Sorting

Sorting short lists by putting each value in its place. The result holds the same values equally
often (`perm_sorted`) and is in order (`sorted_ordered`).
-/
namespace SeenStates

/-- A value put into a list before the first value that may come after it. -/
def putInOrder {α : Type} (le : α → α → Bool) (a : α) : List α → List α
  | [] => [a]
  | x :: rest => if le a x then a :: x :: rest else x :: putInOrder le a rest

/-- The values of a list in order. -/
def sorted {α : Type} (le : α → α → Bool) : List α → List α
  | [] => []
  | x :: rest => putInOrder le x (sorted le rest)

variable {α : Type} {le : α → α → Bool}

/-- Putting a value in its place adds that value and nothing else. -/
theorem perm_putInOrder (a : α) (xs : List α) : (putInOrder le a xs).Perm (a :: xs) := by
  induction xs with
  | nil => exact .refl _
  | cons x rest ih =>
    unfold putInOrder
    split
    · exact .refl _
    · exact (ih.cons x).trans (.swap a x rest)

/-- Sorting keeps the values. -/
theorem perm_sorted (xs : List α) : (sorted le xs).Perm xs := by
  induction xs with
  | nil => exact .refl _
  | cons x rest ih => exact (perm_putInOrder x _).trans (ih.cons x)

/-- Putting a value in its place keeps a list in order. -/
theorem putInOrder_ordered (total : ∀ a b, le a b ∨ le b a)
    (trans : ∀ a b c, le a b → le b c → le a c) (a : α) {xs : List α}
    (ordered : xs.Pairwise (le · ·)) : (putInOrder le a xs).Pairwise (le · ·) := by
  induction xs with
  | nil => simp [putInOrder]
  | cons x rest ih =>
    obtain ⟨first, later⟩ := List.pairwise_cons.1 ordered
    unfold putInOrder
    split
    · next before =>
      refine List.pairwise_cons.2 ⟨fun b member => ?_, ordered⟩
      rcases List.mem_cons.1 member with rfl | member
      · exact before
      · exact trans _ _ _ before (first b member)
    · next notBefore =>
      refine List.pairwise_cons.2 ⟨fun b member => ?_, ih later⟩
      rcases List.mem_cons.1 ((perm_putInOrder a rest).mem_iff.1 member) with rfl | member
      · exact (total x b).resolve_right notBefore
      · exact first b member

/-- Sorting by a total and transitive order puts a list in order. -/
theorem sorted_ordered (total : ∀ a b, le a b ∨ le b a)
    (trans : ∀ a b c, le a b → le b c → le a c) (xs : List α) :
    (sorted le xs).Pairwise (le · ·) := by
  induction xs with
  | nil => exact .nil
  | cons x rest ih => exact putInOrder_ordered total trans x ih

end SeenStates
