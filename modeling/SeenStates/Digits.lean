/-!
# Positional digits

The `n` low digits of a number in a base, least significant first, and the number that digits
stand for. Bytes, words and hexadecimal text are all written through these two functions, so the
laws here (`ofDigits_digits`, `digits_ofDigits`) are the only round trips that need a proof by
induction.
-/
namespace SeenStates

/-- The `n` low digits of `v` in base `b`, least significant first. -/
def digits (b : Nat) : Nat → Nat → List Nat
  | 0, _ => []
  | n + 1, v => v % b :: digits b n (v / b)

/-- The number that digits in base `b`, least significant first, stand for. -/
def ofDigits (b : Nat) : List Nat → Nat
  | [] => 0
  | d :: rest => d + b * ofDigits b rest

/-- There are as many digits as were asked for. -/
@[simp] theorem length_digits (b n v : Nat) : (digits b n v).length = n := by
  induction n generalizing v with
  | zero => rfl
  | succ n ih => simp [digits, ih]

/-- Every digit is below the base. -/
theorem lt_of_mem_digits {b n v d : Nat} (positive : 0 < b) (member : d ∈ digits b n v) :
    d < b := by
  induction n generalizing v with
  | zero => simp [digits] at member
  | succ n ih =>
    rcases List.mem_cons.1 member with rfl | later
    · exact Nat.mod_lt _ positive
    · exact ih later

/-- The `n` low digits of a number stand for its remainder by the `n`-th power of the base. -/
theorem ofDigits_digits (b n v : Nat) : ofDigits b (digits b n v) = v % Nat.pow b n := by
  induction n generalizing v with
  | zero => simp [digits, ofDigits, Nat.mod_one]
  | succ n ih =>
    rw [digits, ofDigits, ih]
    simp only [Nat.pow_eq]
    rw [Nat.pow_succ, Nat.mul_comm (b ^ n) b, Nat.mod_mul]

/-- The low digits of a number are followed by those of its quotient. -/
theorem digits_add (b m n v : Nat) :
    digits b (m + n) v = digits b m v ++ digits b n (v / Nat.pow b m) := by
  induction m generalizing v with
  | zero => simp [digits]
  | succ m ih =>
    rw [Nat.add_right_comm, digits, ih, digits, List.cons_append, Nat.div_div_eq_div_mul]
    simp only [Nat.pow_eq]
    rw [Nat.pow_succ, Nat.mul_comm]

/-- The low digits of a number are those of its remainder. -/
theorem digits_mod (b n v : Nat) : digits b n (v % Nat.pow b n) = digits b n v := by
  induction n generalizing v with
  | zero => rfl
  | succ n ih =>
    simp only [Nat.pow_eq] at ih ⊢
    rw [digits, digits, Nat.pow_succ, Nat.mul_comm, Nat.mod_mul_right_mod,
      Nat.mod_mul_right_div_self, ih]

/-- Digits below the base are the digits of the number that they stand for. -/
theorem digits_ofDigits {b : Nat} (ds : List Nat) (below : ∀ d ∈ ds, d < b) :
    digits b ds.length (ofDigits b ds) = ds := by
  induction ds with
  | nil => rfl
  | cons d rest ih =>
    have small : d < b := below d List.mem_cons_self
    have positive : 0 < b := Nat.lt_of_le_of_lt (Nat.zero_le d) small
    have low : (d + b * ofDigits b rest) % b = d := by
      rw [Nat.add_mul_mod_self_left, Nat.mod_eq_of_lt small]
    have high : (d + b * ofDigits b rest) / b = ofDigits b rest := by
      rw [Nat.add_mul_div_left _ _ positive, Nat.div_eq_of_lt small, Nat.zero_add]
    rw [List.length_cons, digits, ofDigits, low, high,
      ih fun x member => below x (List.mem_cons_of_mem d member)]

/-- Digits below the base stand for a number below the matching power of it. -/
theorem ofDigits_lt {b : Nat} (ds : List Nat) (positive : 0 < b) (below : ∀ d ∈ ds, d < b) :
    ofDigits b ds < Nat.pow b ds.length := by
  rw [← digits_ofDigits ds below, ofDigits_digits, length_digits]
  exact Nat.mod_lt _ (Nat.pow_pos positive)

/-! ## Comparing by digits -/

/-- What is added to both of two numbers does not matter to their order. -/
theorem compare_add_left (k m n : Nat) : compare (k + m) (k + n) = compare m n := by
  rcases Nat.lt_trichotomy m n with before | rfl | behind
  · rw [Nat.compare_eq_lt.2 before, Nat.compare_eq_lt.2 (Nat.add_lt_add_left before k)]
  · rw [Nat.compare_eq_eq.2 rfl, Nat.compare_eq_eq.2 rfl]
  · rw [Nat.compare_eq_gt.2 behind, Nat.compare_eq_gt.2 (Nat.add_lt_add_left behind k)]

/-- Numbers compare as their quotients do, and as their remainders if the quotients are equal. -/
theorem compare_div_then_mod (b m n : Nat) :
    (compare (m / b) (n / b)).then (compare (m % b) (n % b)) = compare m n := by
  rcases Nat.lt_trichotomy (m / b) (n / b) with before | same | behind
  · have less : m < n :=
      Nat.lt_of_not_le fun le => Nat.not_le_of_lt before (Nat.div_le_div_right le)
    rw [Nat.compare_eq_lt.2 before, Nat.compare_eq_lt.2 less]
    rfl
  · have first := Nat.div_add_mod m b
    have second := Nat.div_add_mod n b
    rw [Nat.compare_eq_eq.2 same, Ordering.eq_then]
    conv => rhs; rw [← first, ← second, same]
    exact (compare_add_left ..).symm
  · have greater : n < m :=
      Nat.lt_of_not_le fun le => Nat.not_le_of_lt behind (Nat.div_le_div_right le)
    rw [Nat.compare_eq_gt.2 behind, Nat.compare_eq_gt.2 greater]
    rfl

/-- The digits of two numbers, most significant first and spelled in an order of their own, compare
as the numbers that as many digits hold. -/
theorem compare_spelled {α : Type} [Ord α] {spell : Nat → α} {b : Nat} (positive : 0 < b)
    (faithful : ∀ c < b, ∀ d < b, compare (spell c) (spell d) = compare c d) (k m n : Nat) :
    compare ((digits b k m).map spell).reverse ((digits b k n).map spell).reverse =
      compare (m % Nat.pow b k) (n % Nat.pow b k) := by
  induction k with
  | zero => simp [digits, Nat.mod_one]
  | succ k ih =>
    have front (v : Nat) : ((digits b (k + 1) v).map spell).reverse =
        spell (v / Nat.pow b k % b) :: ((digits b k v).map spell).reverse := by
      rw [digits_add, List.map_append, List.reverse_append]
      rfl
    rw [front, front, List.compare_cons_cons, ih,
      faithful _ (Nat.mod_lt _ positive) _ (Nat.mod_lt _ positive),
      ← compare_div_then_mod (Nat.pow b k) (m % Nat.pow b (k + 1))]
    simp only [Nat.pow_eq, Nat.pow_succ, Nat.mod_mul_right_div_self, Nat.mod_mul_right_mod]

end SeenStates
