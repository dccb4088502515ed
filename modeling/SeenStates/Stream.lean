/-!
# Streams

Values that are given one at a time. What a stream still has to give is a list, and a call takes
the first value of it (`Stream.next_eq`). So the calls one after the other go through that list and
then find nothing more, however often they are made (`Stream.next_after`).
-/
namespace SeenStates

/-- What gives values one at a time. -/
class Stream (σ : Type) (α : outParam Type) where
  /-- The next value, if there is one, and the stream behind it. -/
  next : σ → Option α × σ
  /-- The values that are still to come. -/
  rest : σ → List α
  /-- A call gives the first value to come and leaves the others. -/
  next_eq : ∀ s, (next s).1 = (rest s).head? ∧ rest (next s).2 = (rest s).tail

namespace Stream

variable {σ α : Type} [Stream σ α]

/-- A call that gives nothing finds the stream at its end. -/
theorem rest_of_none {s u : σ} (answer : next s = (none, u)) : rest s = [] ∧ rest u = [] := by
  obtain ⟨first, others⟩ := next_eq s
  rw [answer] at first others
  have ended := List.head?_eq_none_iff.1 first.symm
  exact ⟨ended, by rw [others, ended, List.tail_nil]⟩

/-- A call that gives a value takes it off what is to come. -/
theorem rest_of_some {s u : σ} {a : α} (answer : next s = (some a, u)) :
    rest s = a :: rest u := by
  obtain ⟨first, others⟩ := next_eq s
  rw [answer] at first others
  obtain ⟨behind, here⟩ := List.head?_eq_some_iff.1 first.symm
  rw [others, here, List.tail_cons]

/-- There is less to come behind a value. -/
theorem length_rest_lt {s u : σ} {a : α} (answer : next s = (some a, u)) :
    (rest u).length < (rest s).length := by
  rw [rest_of_some answer]
  exact Nat.lt_succ_self _

/-- The values of a stream that is read to its end, behind others. -/
def readOnto (s : σ) (found : Array α) : Array α :=
  match answer : next s with
  | (none, _) => found
  | (some a, u) =>
    have := length_rest_lt answer
    readOnto u (found.push a)
termination_by (rest s).length

/-- Reading a stream to its end gives all that is to come. -/
theorem readOnto_eq (s : σ) (found : Array α) :
    (readOnto s found).toList = found.toList ++ rest s := by
  fun_induction readOnto s found with
  | case1 s found u answer => rw [(rest_of_none answer).1, List.append_nil]
  | case2 s found a u answer _ ih =>
    rw [ih, rest_of_some answer]
    simp

/-- The values of a stream that is read to its end. -/
def values (s : σ) : List α := (readOnto s #[]).toList

/-- They are those that are to come. -/
theorem values_eq (s : σ) : values s = rest s := readOnto_eq s #[]

/-! ### Call after call -/

/-- A stream after `n` calls. -/
def after (s : σ) : Nat → σ
  | 0 => s
  | n + 1 => after (next s).2 n

/-- After `n` calls that many values are no longer to come. -/
theorem rest_after (s : σ) (n : Nat) : rest (after s n) = (rest s).drop n := by
  induction n generalizing s with
  | zero => rfl
  | succ n ih => rw [after, ih, (next_eq s).2, List.drop_tail]

/-- The calls give the values to come, one by one, and nothing from then on. -/
theorem next_after (s : σ) (n : Nat) : (next (after s n)).1 = (rest s)[n]? := by
  rw [(next_eq _).1, rest_after, List.head?_drop]

/-- What every call keeps is kept by any number of them. -/
theorem after_kept {P : σ → Prop} (kept : ∀ s, P s → P (next s).2) {s : σ} (holds : P s)
    (n : Nat) : P (after s n) := by
  induction n generalizing s with
  | zero => exact holds
  | succ n ih => exact ih (kept s holds)

end Stream

/-- A list gives its values from the front on. -/
instance {α : Type} : Stream (List α) α where
  next
    | [] => (none, [])
    | a :: behind => (some a, behind)
  rest values := values
  next_eq values := by cases values <;> exact ⟨rfl, rfl⟩

/-- What is to come of a list is the list. -/
@[simp] theorem Stream.rest_list {α : Type} (values : List α) : Stream.rest values = values := rfl

/-- An array that is read from a position on. -/
structure ArrayReader (α : Type) where
  /-- The array. -/
  values : Array α
  /-- The position of the next value. -/
  position : Nat

/-- A reader gives the values of its array from its position on. -/
instance {α : Type} : Stream (ArrayReader α) α where
  next r :=
    match r.values[r.position]? with
    | none => (none, r)
    | some a => (some a, { r with position := r.position + 1 })
  rest r := r.values.toList.drop r.position
  next_eq r := by
    cases here : r.values[r.position]? with
    | none =>
      have ended : r.values.toList.drop r.position = [] :=
        List.drop_eq_nil_of_le (Array.getElem?_eq_none_iff.1 here)
      simp [ended]
    | some a => simp [here]

end SeenStates
