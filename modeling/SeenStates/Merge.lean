/-!
# Merging

The merge of two ascending lists. Each value of the result says which list it came from; a value at
the front of both is taken from both at once and comes out once.
-/
namespace SeenStates

/-- Which of two lists a value comes from. -/
inductive Source where
  /-- The left list. -/
  | left
  /-- The right list. -/
  | right
  /-- Both at once. -/
  | both
deriving DecidableEq

/-- The merge of two lists, with the source of each value. -/
def merge {α : Type} [LT α] [DecidableLT α] [DecidableEq α] :
    List α → List α → List (α × Source)
  | [], right => right.map fun r => (r, .right)
  | left, [] => left.map fun l => (l, .left)
  | l :: ls, r :: rs =>
    if l = r then (l, .both) :: merge ls rs
    else if l < r then (l, .left) :: merge ls (r :: rs)
    else (r, .right) :: merge (l :: ls) rs
termination_by left right => left.length + right.length

/-- A list merged with nothing stays as it is. -/
theorem merge_nil_right {α : Type} [LT α] [DecidableLT α] [DecidableEq α] (left : List α) :
    merge left [] = left.map fun l => (l, .left) := by
  cases left <;> simp [merge]

/-- The values of a merge. -/
def mergedValues {α : Type} (m : List (α × Source)) : List α := m.map Prod.fst

/-- How many values of a merge came from both lists. -/
def duplicates {α : Type} (m : List (α × Source)) : Nat := m.countP fun v => v.2 = .both

/-- The duplicates are those among the first values and those among the others. -/
theorem duplicates_take_add {α : Type} (m : List (α × Source)) (n : Nat) :
    duplicates m = duplicates (m.take n) + duplicates (m.drop n) := by
  conv => lhs; rw [← List.take_append_drop n m]
  exact List.countP_append

end SeenStates
