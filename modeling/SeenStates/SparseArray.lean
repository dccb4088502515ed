/-!
# Sparse arrays

An array most of whose elements are still what they were when it was made. It is cut into pages,
and a page takes memory from the first write to it on. `get?` is the view of the array: an element
that was set is there (`get?_set_self`) and every other one is as before (`get?_set_of_ne`). What
a function finds among elements is found without a look at pages that were never written to
(`collect_eq`).
-/
namespace SeenStates

/-! ## Values by position -/

section Window

variable {α β : Type}

/-- The values at the `n` positions from `start` on, in order; a position may have none. -/
def window (value? : Nat → Option α) (start n : Nat) : List α :=
  (List.range n).filterMap fun i => value? (start + i)

/-- The values from a position on are those of a first part and those behind it. -/
theorem window_add (value? : Nat → Option α) (start m n : Nat) :
    window value? start (m + n) = window value? start m ++ window value? (start + m) n := by
  simp only [window, List.range_add, List.filterMap_append, List.filterMap_map, Function.comp_def,
    Nat.add_assoc]

/-- A single position has its value or none. -/
theorem window_one (value? : Nat → Option α) (start : Nat) :
    window value? start 1 = (value? start).toList := by
  cases here : value? start <;> simp [window, here]

/-- The values from a position on are the one there and those behind it. -/
theorem window_succ (value? : Nat → Option α) (start n : Nat) :
    window value? start (n + 1) = (value? start).toList ++ window value? (start + 1) n := by
  rw [Nat.add_comm, window_add, window_one]

/-- There are no values where no position has one. -/
theorem window_eq_nil {value? : Nat → Option α} {start n : Nat}
    (absent : ∀ i, start ≤ i → i < start + n → value? i = none) : window value? start n = [] := by
  simp only [window, List.filterMap_eq_nil_iff, List.mem_range]
  intro i before
  exact absent (start + i) (Nat.le_add_right ..) (Nat.add_lt_add_left before start)

/-- The values are those of the positions. -/
theorem window_congr {value? other? : Nat → Option α} {start n : Nat}
    (same : ∀ i, start ≤ i → i < start + n → value? i = other? i) :
    window value? start n = window other? start n := by
  induction n generalizing start with
  | zero => rfl
  | succ n ih =>
    rw [window_succ, window_succ, same start (Nat.le_refl _) (by omega),
      ih fun i first last => same i (by omega) (by omega)]

/-- What a function makes of the values is what it makes of each of them. -/
theorem filterMap_window (value? : Nat → Option α) (f : α → Option β) (start n : Nat) :
    (window value? start n).filterMap f = window (fun i => (value? i).bind f) start n :=
  List.filterMap_filterMap

end Window

/-! ## The array -/

/-- The elements of a page. -/
def pageSize : Nat := 64

/-- A page has elements. -/
theorem pageSize_pos : 0 < pageSize := by decide

/-- An array in which every element is `fill` unless another one was put there. -/
structure SparseArray {α : Type} (fill : α) where
  /-- The count of elements. -/
  size : Nat
  /-- The pages, those left out that were never written to. -/
  pages : Array (Option (Vector α pageSize))
  /-- Every element is on a page. -/
  size_le : size ≤ pages.size * pageSize

namespace SparseArray

variable {α β : Type} {fill : α}

/-- The count of pages of `n` elements. -/
def pagesFor (n : Nat) : Nat := (n + (pageSize - 1)) / pageSize

/-- The pages of `n` elements have room for them. -/
theorem le_pagesFor (n : Nat) : n ≤ pagesFor n * pageSize := by
  simp only [pagesFor, pageSize]
  omega

/-- An array of `n` elements, none of them written. -/
def blank (n : Nat) : SparseArray fill :=
  ⟨n, Array.replicate (pagesFor n) none, by simpa using le_pagesFor n⟩

/-- Whether a page was never written to. -/
def isBlank (s : SparseArray fill) (page : Nat) : Bool :=
  match s.pages[page]? with
  | some (some _) => false
  | _ => true

/-- What is at a position of the pages. -/
@[inline] def read (s : SparseArray fill) (i : Nat) : α :=
  have onPage : i % pageSize < pageSize := Nat.mod_lt _ pageSize_pos
  match s.pages[i / pageSize]? with
  | some (some page) => page[i % pageSize]
  | _ => fill

/-- The element at a position, if there is one. -/
@[inline] def get? (s : SparseArray fill) (i : Nat) : Option α :=
  if i < s.size then some (s.read i) else none

/-- The array with another element at a position; it stays as it is if there is no such position. -/
def set (s : SparseArray fill) (i : Nat) (a : α) : SparseArray fill :=
  if i < s.size then
    ⟨s.size,
      s.pages.modify (i / pageSize) fun page =>
        some ((page.getD (Vector.replicate pageSize fill)).set (i % pageSize) a
          (Nat.mod_lt _ pageSize_pos)),
      by simpa using s.size_le⟩
  else s

/-- The array with a function applied to every element. -/
def map (s : SparseArray fill) (f : α → α) (_keeps : f fill = fill) : SparseArray fill :=
  ⟨s.size, s.pages.map fun page => page.map (Vector.map f), by simpa using s.size_le⟩

/-- There is no element at a position beyond the end, and only there. -/
theorem get?_eq_none_iff {s : SparseArray fill} {i : Nat} : s.get? i = none ↔ s.size ≤ i := by
  simp [get?]

/-- The elements of a new array are the given one. -/
theorem get?_blank (n i : Nat) :
    (blank n : SparseArray fill).get? i = if i < n then some fill else none := by
  by_cases within : i / pageSize < pagesFor n <;> simp [get?, blank, read, within]

/-- Setting an element keeps the count. -/
@[simp] theorem size_set (s : SparseArray fill) (i : Nat) (a : α) : (s.set i a).size = s.size := by
  unfold set
  split <;> rfl

/-- An element that was set is there. -/
theorem get?_set_self {s : SparseArray fill} {i : Nat} (within : i < s.size) (a : α) :
    (s.set i a).get? i = some a := by
  have paged : i / pageSize < s.pages.size :=
    (Nat.div_lt_iff_lt_mul pageSize_pos).2 (Nat.lt_of_lt_of_le within s.size_le)
  simp only [get?, read, set, within, if_true, Array.getElem?_modify,
    Array.getElem?_eq_getElem paged, Option.map_some]
  simp

/-- Setting an element leaves every other one alone. -/
theorem get?_set_of_ne {s : SparseArray fill} {i j : Nat} (other : j ≠ i) (a : α) :
    (s.set i a).get? j = s.get? j := by
  by_cases within : i < s.size
  · by_cases same : i / pageSize = j / pageSize
    · have apart : i % pageSize ≠ j % pageSize := fun rest =>
        other (by rw [← Nat.div_add_mod i pageSize, ← Nat.div_add_mod j pageSize, same, rest])
      simp only [get?, read, set, within, if_true, Array.getElem?_modify, same]
      cases s.pages[j / pageSize]? with
      | none => rfl
      | some page => cases page <;> simp [apart]
    · simp [get?, read, set, within, Array.getElem?_modify, same]
  · simp [set, within]

/-- A function is applied to every element. -/
theorem get?_map (s : SparseArray fill) (f : α → α) (keeps : f fill = fill) (i : Nat) :
    (s.map f keeps).get? i = (s.get? i).map f := by
  by_cases within : i < s.size
  · simp only [get?, map, within, if_true, read, Array.getElem?_map, Option.map_some]
    cases s.pages[i / pageSize]? with
    | none => simp [keeps]
    | some page => cases page <;> simp [keeps]
  · simp [get?, map, within]

/-- On a page that was never written to there is nothing but `fill`. -/
theorem read_of_isBlank {s : SparseArray fill} {i : Nat} (blank : s.isBlank (i / pageSize)) :
    s.read i = fill := by
  unfold isBlank at blank
  unfold read
  split at blank
  · contradiction
  · rfl

/-- The element at a position that there is. -/
theorem get?_eq_some {s : SparseArray fill} {i : Nat} (within : i < s.size) :
    s.get? i = some (s.read i) := by
  simp [get?, within]

/-! ## Parts of an array -/

/-- What a function finds among the `n` elements from a position on and their positions, in front
of others. -/
@[specialize] def collectOnto (f : Nat → α → Option β) (s : SparseArray fill) (start : Nat) :
    Nat → List β → List β
  | 0, found => found
  | n + 1, found =>
    s.collectOnto f start n
      (match (s.get? (start + n)).bind (f (start + n)) with
      | none => found
      | some b => b :: found)

/-- What is found is what the function makes of the elements, in order. -/
theorem collectOnto_eq (f : Nat → α → Option β) (s : SparseArray fill) (start n : Nat)
    (found : List β) :
    s.collectOnto f start n found = window (fun i => (s.get? i).bind (f i)) start n ++ found := by
  induction n generalizing found with
  | zero => rfl
  | succ n ih =>
    rw [collectOnto, ih, window_add, window_one, List.append_assoc]
    congr 1
    cases (s.get? (start + n)).bind (f (start + n)) <;> rfl

/-- What a function finds on `k` pages, from the one of the position `start` on and before the
position `stop`, in front of others. -/
@[specialize] def collectPages (f : Nat → α → Option β) (s : SparseArray fill)
    (start stop : Nat) : Nat → List β → List β
  | 0, found => found
  | k + 1, found =>
    let page := start / pageSize + k
    let low := max start (page * pageSize)
    let high := min stop ((page + 1) * pageSize)
    s.collectPages f start stop k
      (if s.isBlank page then found else s.collectOnto f low (high - low) found)

/-- What a function finds among the `n` elements from a position on and their positions. -/
@[inline] def collect (f : Nat → α → Option β) (s : SparseArray fill) (start n : Nat) : List β :=
  s.collectPages f start (start + n) (pagesFor (start + n) - start / pageSize) []

/-- On a page that was never written to nothing is found that is not found in `fill`. -/
theorem window_of_isBlank {f : Nat → α → Option β} (drops : ∀ i, f i fill = none)
    {s : SparseArray fill} {page : Nat} (blank : s.isBlank page) {low n : Nat}
    (first : page * pageSize ≤ low) (last : low + n ≤ (page + 1) * pageSize) :
    window (fun i => (s.get? i).bind (f i)) low n = [] := by
  refine window_eq_nil fun i lower upper => ?_
  have here : i / pageSize = page := by
    simp only [pageSize] at first last ⊢
    omega
  unfold get?
  split
  · rw [read_of_isBlank (by rwa [here])]
    exact drops i
  · rfl

/-- What is found on some pages is what the function makes of the elements on them. -/
theorem collectPages_eq {f : Nat → α → Option β} (drops : ∀ i, f i fill = none)
    (s : SparseArray fill) {start stop : Nat} (ordered : start ≤ stop) (k : Nat)
    (found : List β) :
    s.collectPages f start stop k found =
      window (fun i => (s.get? i).bind (f i)) start
        (min stop ((start / pageSize + k) * pageSize) - start) ++ found := by
  induction k generalizing found with
  | zero =>
    have nothing : min stop ((start / pageSize + 0) * pageSize) - start = 0 := by
      simp only [pageSize]
      omega
    rw [nothing]
    rfl
  | succ k ih =>
    let page := start / pageSize + k
    let low := max start (page * pageSize)
    let high := min stop ((page + 1) * pageSize)
    have parts : high - start = min stop (page * pageSize) - start + (high - low) ∧
        (start + (min stop (page * pageSize) - start) = low ∨ high - low = 0) := by
      simp only [high, low, page, pageSize]
      omega
    have onPage : (if s.isBlank page then found else s.collectOnto f low (high - low) found) =
        window (fun i => (s.get? i).bind (f i)) low (high - low) ++ found := by
      split
      · next blank =>
        by_cases none : high - low = 0
        · rw [none]
          rfl
        · rw [window_of_isBlank drops blank (Nat.le_max_right _ _)
            (by simp only [high, low, pageSize] at none ⊢; omega), List.nil_append]
      · exact collectOnto_eq ..
    change s.collectPages f start stop k
      (if s.isBlank page then found else s.collectOnto f low (high - low) found) = _
    rw [onPage, ih, ← List.append_assoc]
    change window (fun i => (s.get? i).bind (f i)) start
        (min stop (page * pageSize) - start) ++ _ ++ found =
      window (fun i => (s.get? i).bind (f i)) start (high - start) ++ found
    rw [parts.1, window_add]
    rcases parts.2 with meets | none
    · rw [meets]
    · rw [none]
      rfl

/-- What is found is what the function makes of the elements, in order. -/
theorem collect_eq {f : Nat → α → Option β} (drops : ∀ i, f i fill = none)
    (s : SparseArray fill) (start n : Nat) :
    s.collect f start n = window (fun i => (s.get? i).bind (f i)) start n := by
  have all : min (start + n) ((start / pageSize + (pagesFor (start + n) - start / pageSize)) *
      pageSize) - start = n := by
    simp only [pagesFor, pageSize]
    omega
  rw [collect, collectPages_eq drops s (Nat.le_add_right _ _), all, List.append_nil]

end SparseArray

end SeenStates
