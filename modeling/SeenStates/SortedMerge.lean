import SeenStates.Merge
import SeenStates.Stream

/-!
# Merging streams

The merge of two ascending streams is a stream again. The next value of each of them is looked at
before it is taken; a value that is next in both is taken from both, given once and counted. So what
a merge still has to give is the merge of what its streams still have to give
(`SortedMerge.next_pending`), and what it has counted and has still to count stays the same from
call to call (`SortedMerge.found_next`).
-/
namespace SeenStates

/-- A stream whose next value can be looked at before it is taken. -/
structure Peekable (σ : Type) {α : Type} [Stream σ α] where
  /-- The stream. -/
  stream : σ
  /-- What is given next, if it was looked at: it was taken from the stream then. -/
  peeked : Option (Option α)
  /-- A stream that was seen to have nothing is at its end. -/
  ended : peeked = some none → Stream.rest stream = []

namespace Peekable

variable {σ α : Type} [Stream σ α]

/-- A stream that was not looked at. -/
def of (stream : σ) : Peekable σ := ⟨stream, none, fun looked => by contradiction⟩

/-- The next value, which stays to come. -/
def peek (p : Peekable σ) : Option α × Peekable σ :=
  match p.peeked with
  | some first => (first, p)
  | none =>
    match answer : Stream.next p.stream with
    | (first, stream) =>
      (first, ⟨stream, some first, fun nothing =>
        (Stream.rest_of_none (answer.trans (congrArg (·, stream) (Option.some.inj nothing)))).2⟩)

/-- The next value, if there is one, and the stream behind it. -/
def next (p : Peekable σ) : Option α × Peekable σ :=
  match p.peeked with
  | some first => (first, of p.stream)
  | none =>
    let (first, stream) := Stream.next p.stream
    (first, of stream)

/-- What is still to come: a value that was looked at, and what the stream has behind it. -/
def rest (p : Peekable σ) : List α :=
  match p.peeked with
  | some (some first) => first :: Stream.rest p.stream
  | _ => Stream.rest p.stream

/-- What comes of a stream that was not looked at is what comes of the stream. -/
@[simp] theorem rest_of (stream : σ) : (of stream).rest = Stream.rest stream := rfl

/-- At its end a stream has nothing left. -/
theorem rest_stream {p : Peekable σ} (nothing : p.rest = []) : Stream.rest p.stream = [] := by
  unfold rest at nothing
  split at nothing
  · contradiction
  · exact nothing

/-- Looking gives the first value to come and leaves it there. -/
theorem peek_eq (p : Peekable σ) : p.peek.1 = p.rest.head? ∧ p.peek.2.rest = p.rest := by
  obtain ⟨stream, peeked, ended⟩ := p
  cases peeked with
  | none =>
    cases answer : Stream.next stream with
    | mk first behind =>
      cases first with
      | none => simp [peek, rest, answer, Stream.rest_of_none answer]
      | some a => simp [peek, rest, answer, Stream.rest_of_some answer]
  | some first =>
    cases first with
    | none => simp [peek, rest, ended rfl]
    | some a => simp [peek, rest]

/-- A call gives the first value to come and leaves the others. -/
theorem next_eq (p : Peekable σ) : p.next.1 = p.rest.head? ∧ p.next.2.rest = p.rest.tail := by
  obtain ⟨stream, peeked, ended⟩ := p
  cases peeked with
  | none => exact Stream.next_eq stream
  | some first =>
    cases first with
    | none => simp [next, rest, of, ended rfl]
    | some a => simp [next, rest, of]

/-- Looking asks the stream for a value or leaves it alone. -/
theorem kept_peek {P : σ → Prop} (kept : ∀ s, P s → P (Stream.next s).2) {p : Peekable σ}
    (holds : P p.stream) : P p.peek.2.stream := by
  unfold peek
  split
  · exact holds
  · split
    next answer =>
    have asked := kept p.stream holds
    rwa [answer] at asked

/-- So does taking. -/
theorem kept_next {P : σ → Prop} (kept : ∀ s, P s → P (Stream.next s).2) {p : Peekable σ}
    (holds : P p.stream) : P p.next.2.stream := by
  unfold next
  split
  · exact holds
  · exact kept p.stream holds

end Peekable

/-- A merge of two streams. -/
structure SortedMerge (σ τ : Type) {α : Type} [Stream σ α] [Stream τ α] where
  /-- The left stream. -/
  left : Peekable σ
  /-- The right stream. -/
  right : Peekable τ
  /-- How many values were taken from both streams. -/
  counted : Nat

namespace SortedMerge

variable {σ τ α : Type} [Stream σ α] [Stream τ α]

/-- A merge that has not given anything. -/
def start (left : σ) (right : τ) : SortedMerge σ τ := ⟨.of left, .of right, 0⟩

/-- Take the next value of the left stream. -/
def takeLeft (m : SortedMerge σ τ) : Option α × SortedMerge σ τ :=
  let (first, left) := m.left.next
  (first, { m with left })

/-- Take the next value of the right stream. -/
def takeRight (m : SortedMerge σ τ) : Option α × SortedMerge σ τ :=
  let (first, right) := m.right.next
  (first, { m with right })

/-- Take the next value of both streams and count it. -/
def takeBoth (m : SortedMerge σ τ) : Option α × SortedMerge σ τ :=
  { m with right := m.right.next.2, counted := m.counted + 1 }.takeLeft

variable [LT α] [DecidableLT α] [DecidableEq α]

/-- The next value, if there is one, and the merge behind it. -/
def next (m : SortedMerge σ τ) : Option α × SortedMerge σ τ :=
  let (l, left) := m.left.peek
  let (r, right) := m.right.peek
  let m := { m with left, right }
  match l, r with
  | none, none => (none, m)
  | some _, none => m.takeLeft
  | none, some _ => m.takeRight
  | some l, some r =>
    if l = r then m.takeBoth
    else if l < r then m.takeLeft
    else m.takeRight

/-- The values that are still to come, and where they come from. -/
def pending (m : SortedMerge σ τ) : List (α × Source) := merge m.left.rest m.right.rest

/-- A call gives the first value to come and leaves the others; it is counted if it comes from both
streams. -/
theorem next_pending (m : SortedMerge σ τ) :
    m.next.1 = m.pending.head?.map Prod.fst ∧ m.next.2.pending = m.pending.tail ∧
      m.next.2.counted = m.counted + duplicates (m.pending.take 1) := by
  -- Looking changes nothing of what is to come, so taking takes the first of it.
  obtain ⟨first, left⟩ := m.left.peek_eq
  obtain ⟨first', right⟩ := m.right.peek_eq
  obtain ⟨taken, behind⟩ := m.left.peek.2.next_eq
  obtain ⟨taken', behind'⟩ := m.right.peek.2.next_eq
  rw [left] at taken behind
  rw [right] at taken' behind'
  unfold next pending
  simp only [first, first']
  cases onLeft : m.left.rest with
  | nil =>
    cases onRight : m.right.rest with
    | nil => simp [left, right, onLeft, onRight, merge, duplicates]
    | cons r rs => simp [takeRight, taken', behind', left, onLeft, onRight, merge, duplicates]
  | cons l ls =>
    cases onRight : m.right.rest with
    | nil => simp [takeLeft, taken, behind, right, onLeft, onRight, merge_nil_right, duplicates]
    | cons r rs =>
      rw [merge]
      simp only [List.head?_cons]
      split
      · simp [takeBoth, takeLeft, taken, behind, behind', onLeft, onRight, duplicates]
      · split
        · simp [takeLeft, taken, behind, right, onLeft, onRight, duplicates]
        · simp [takeRight, taken', behind', left, onLeft, onRight, duplicates]

/-- A merge of streams is a stream. -/
instance : Stream (SortedMerge σ τ) α where
  next := next
  rest m := mergedValues m.pending
  next_eq m := by
    obtain ⟨first, others, _⟩ := m.next_pending
    rw [first, others, mergedValues, mergedValues, List.head?_map, List.map_tail]
    exact ⟨rfl, rfl⟩

/-- How many values were taken from both streams or will be. -/
def found (m : SortedMerge σ τ) : Nat := m.counted + duplicates m.pending

/-- A call changes nothing of how many it will have been. -/
theorem found_next (m : SortedMerge σ τ) : m.next.2.found = m.found := by
  obtain ⟨_, others, counted⟩ := m.next_pending
  rw [found, found, others, counted, ← List.drop_one, Nat.add_assoc, ← duplicates_take_add]

/-- The left stream of a merge is asked for values and otherwise left alone. -/
theorem kept_left {P : σ → Prop} (kept : ∀ s, P s → P (Stream.next s).2) {m : SortedMerge σ τ}
    (holds : P m.left.stream) : P m.next.2.left.stream := by
  have looked : P m.left.peek.2.stream := Peekable.kept_peek kept holds
  have taken : P m.left.peek.2.next.2.stream := Peekable.kept_next kept looked
  unfold next
  simp only
  split
  · exact looked
  · exact taken
  · exact looked
  · split
    · exact taken
    · split
      · exact taken
      · exact looked

/-- A merge that has nothing to give has a left stream at its end. -/
theorem rest_left {m : SortedMerge σ τ} (nothing : m.pending = []) :
    Stream.rest m.left.stream = [] := by
  apply Peekable.rest_stream
  unfold pending at nothing
  cases onLeft : m.left.rest with
  | nil => rfl
  | cons l ls =>
    rw [onLeft] at nothing
    cases onRight : m.right.rest with
    | nil => simp [onRight, merge_nil_right] at nothing
    | cons r rs =>
      rw [onRight, merge] at nothing
      split at nothing
      · contradiction
      · split at nothing <;> contradiction

/-! ### Call after call -/

/-- After `n` calls that many values are no longer to come. -/
theorem pending_after (m : SortedMerge σ τ) (n : Nat) :
    (Stream.after m n).pending = m.pending.drop n := by
  induction n generalizing m with
  | zero => rfl
  | succ n ih =>
    rw [Stream.after, ih]
    show m.next.2.pending.drop n = _
    rw [m.next_pending.2.1, List.drop_tail]

/-- The calls change nothing of how many values will have been taken from both streams. -/
theorem found_after (m : SortedMerge σ τ) (n : Nat) : (Stream.after m n).found = m.found :=
  Stream.after_kept (P := fun u : SortedMerge σ τ => u.found = m.found)
    (fun u same => u.found_next.trans same) rfl n

/-- What was counted is what came from both streams. -/
theorem counted_after (m : SortedMerge σ τ) (n : Nat) :
    (Stream.after m n).counted = m.counted + duplicates (m.pending.take n) := by
  have same := m.found_after n
  rw [found, found, pending_after, duplicates_take_add m.pending n] at same
  omega

/-- At its end a merge has counted everything. -/
theorem counted_of_ended {m : SortedMerge σ τ} (ended : m.pending = []) : m.counted = m.found := by
  rw [found, ended]
  rfl

/-- The calls of a merge whose left stream is a merge change nothing of how many values that one
will have taken from both of its streams. -/
theorem found_left_after {ρ : Type} [Stream ρ α] (m : SortedMerge (SortedMerge σ τ) ρ) (n : Nat) :
    (Stream.after m n).left.stream.found = m.left.stream.found :=
  Stream.after_kept
    (P := fun u : SortedMerge (SortedMerge σ τ) ρ => u.left.stream.found = m.left.stream.found)
    (fun _ same => kept_left (P := fun v : SortedMerge σ τ => v.found = m.left.stream.found)
      (fun v same => v.found_next.trans same) same) rfl n

/-- When it is at its end, so is its left stream. -/
theorem pending_left {ρ : Type} [Stream ρ α] {m : SortedMerge (SortedMerge σ τ) ρ}
    (ended : m.pending = []) : m.left.stream.pending = [] :=
  List.map_eq_nil_iff.1 (rest_left ended)

end SortedMerge

end SeenStates
