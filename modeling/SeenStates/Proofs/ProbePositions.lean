import Mathlib.Algebra.Group.Nat.Even
import Mathlib.Algebra.Order.Floor.Div
import Mathlib.GroupTheory.GroupAction.Ring
import Mathlib.Tactic.Ring
import SeenStates.Proofs.BloomBits

/-!
# The positions of probes

The probes of a fingerprint come out of a loop that carries a position and its increment, both
reduced by the count of bits at every step. Without the reductions the increment grows by `1`, `2`
and so on and the position by the increments, so the position is a polynomial of the third degree in
the number of the probe (`position`), and reducing it once gives the probe (`probeList_eq`). As both
are below the count of bits before each step, which is `2 ^ 63` at most, no sum leaves the range of
a word (`probeList?_eq`).
-/
namespace SeenStates.BloomFilter

variable {w : Width}

/-! ## Positions and increments -/

/-- The probe of a number before it is reduced. -/
def position (lo hi i : Nat) : Nat := lo + i * hi + (i ^ 3 - i) / 6

/-- What comes to the position after the probe of a number, before it is reduced. -/
def increment (hi i : Nat) : Nat := hi + i * (i + 1) / 2

/-- The increment grows by the number of the next probe. -/
theorem increment_succ (hi i : Nat) : increment hi (i + 1) = increment hi i + (i + 1) := by
  have product : (i + 1) * (i + 1 + 1) = i * (i + 1) + 2 * (i + 1) := by ring
  rw [increment, increment, product, Nat.add_mul_div_left _ _ (by decide), Nat.add_assoc]

/-- The position grows by the increment. -/
theorem position_succ (lo hi i : Nat) :
    position lo hi (i + 1) = position lo hi i + increment hi i := by
  obtain ⟨half, even⟩ : ∃ half, i * (i + 1) = 2 * half := (Nat.even_mul_succ_self i).two_dvd
  have cube : i ≤ i ^ 3 := Nat.le_self_pow (by decide) i
  have power : (i + 1) ^ 3 - (i + 1) = i ^ 3 - i + 6 * half := by
    have expanded : (i + 1) ^ 3 = i ^ 3 + 3 * (i * (i + 1)) + 1 := by ring
    omega
  have next : (i + 1) * hi = i * hi + hi := Nat.succ_mul i hi
  rw [position, position, increment, power, Nat.add_mul_div_left _ _ (by decide), even,
    Nat.mul_div_cancel_left _ (by decide), next]
  omega

/-- The probes behind one are the positions behind it, reduced. -/
theorem probesFrom_eq (m lo hi n i : Nat) :
    probesFrom m (position lo hi i % m) (increment hi i % m) n (i + 1) =
      (List.range n).map fun j => position lo hi (i + 1 + j) % m := by
  induction n generalizing i with
  | zero => rfl
  | succ n ih =>
    have here : (position lo hi i % m + increment hi i % m) % m = position lo hi (i + 1) % m := by
      rw [← Nat.add_mod, position_succ]
    have next : (increment hi i % m + (i + 1)) % m = increment hi (i + 1) % m := by
      rw [Nat.mod_add_mod, increment_succ]
    rw [probesFrom, here, next, ih, List.range_succ_eq_map, List.map_cons, List.map_map]
    congr 1
    apply List.map_congr_left
    intro j _
    rw [Function.comp_apply, Nat.succ_eq_add_one, Nat.add_assoc (i + 1) 1 j, Nat.add_comm 1 j]

/-- The probes are the first positions, reduced. -/
theorem probeList_eq (m k lo hi : Nat) :
    probeList m k lo hi = (List.range k).map fun i => position lo hi i % m := by
  cases k with
  | zero => rfl
  | succ k =>
    have first : position lo hi 0 = lo := by simp [position]
    have step : increment hi 0 = hi := by simp [increment]
    have later := probesFrom_eq m lo hi k 0
    rw [first, step] at later
    rw [probeList, later, List.range_succ_eq_map, List.map_cons, List.map_map, first]
    congr 1
    apply List.map_congr_left
    intro j _
    rw [Function.comp_apply, Nat.succ_eq_add_one, Nat.zero_add, Nat.add_comm 1 j]

/-! ## Sums in the range of a word -/

/-- The probes from the `i`-th on, each sum of which has to be in the range of a word. -/
def probesFrom? (m x y : Nat) : Nat → Nat → Option (List Nat)
  | 0, _ => some []
  | n + 1, i => do
    let x ← inRange? (x + y)
    let y ← inRange? (y + i)
    let rest ← probesFrom? m (x % m) (y % m) n (i + 1)
    return x % m :: rest

/-- The probes of two words, each sum of which has to be in the range of a word. -/
def probeList? (m k lo hi : Nat) : Option (List Nat) :=
  match k with
  | 0 => some []
  | k + 1 => (probesFrom? m (lo % m) (hi % m) k 1).map (lo % m :: ·)

/-- From a position and an increment below the count of bits no sum leaves the range. -/
theorem probesFrom?_eq {m x y n i : Nat} (few : m ≤ maxBits) (position : x < m)
    (increment : y < m) (early : i + n ≤ maxBits) :
    probesFrom? m x y n i = some (probesFrom m x y n i) := by
  induction n generalizing x y i with
  | zero => rfl
  | succ n ih =>
    have limits : countLimit = 2 * maxBits := rfl
    have positive : 0 < m := Nat.lt_of_le_of_lt (Nat.zero_le x) position
    have first : inRange? (x + y) = some (x + y) := if_pos (by omega)
    have second : inRange? (y + i) = some (y + i) := if_pos (by omega)
    have rest := ih (Nat.mod_lt (x + y) positive) (Nat.mod_lt (y + i) positive)
      (i := i + 1) (by omega)
    simp only [probesFrom?, probesFrom, first, second, rest, Option.bind_eq_bind, Option.bind_some]
    rfl

/-- The sums of the probes are in the range of a word. -/
theorem probeList?_eq {m k : Nat} (positive : 0 < m) (few : m ≤ maxBits) (short : k ≤ maxBits)
    (lo hi : Nat) : probeList? m k lo hi = some (probeList m k lo hi) := by
  cases k with
  | zero => rfl
  | succ k =>
    rw [probeList?, probesFrom?_eq few (Nat.mod_lt lo positive) (Nat.mod_lt hi positive)
      (by omega)]
    rfl

/-! ## Filters -/

/-- The two words that pick the probes of a fingerprint are words. -/
theorem probeLanes_lt (fp : Fingerprint w) :
    fp.probeLanes.1 < Nat.pow 2 64 ∧ fp.probeLanes.2 < Nat.pow 2 64 := by
  have low : fp.lowWord < Nat.pow 2 64 := Nat.mod_lt _ (by decide)
  cases w with
  | bits64 => exact ⟨low, UInt64.toNat_lt _⟩
  | bits128 => exact ⟨low, fp.address_lt⟩

/-- The words for some bits are the least count of words that hold them. -/
theorem size_words_zeros (n : Nat) : (BitArray.zeros n).words.size = n ⌈/⌉ 64 :=
  (Nat.ceilDiv_eq_add_pred_div n 64).symm

/-- The probes of two words among `64` to `2 ^ 63` bits, up to 32 of them. The `i`-th is
`lo + i hi + (i ^ 3 - i) / 6` modulo the count of bits, as if nothing had been reduced on the way,
and no sum on the way leaves the range of a word; it is one of the bits, and its word one of the
`⌈m / 64⌉` words. A filter that opens has as many bits, probes and words, and the probes of a
fingerprint are those of two words; they are on its words after any puts. -/
theorem probes_at_positions :
    (∀ {m k lo hi : Nat}, 64 ≤ m → m ≤ Nat.pow 2 63 → 1 ≤ k → k ≤ 32 → lo < Nat.pow 2 64 →
      hi < Nat.pow 2 64 →
      probeList m k lo hi = (List.range k).map (fun i => (lo + i * hi + (i ^ 3 - i) / 6) % m) ∧
      probeList? m k lo hi = some (probeList m k lo hi) ∧
      (BitArray.zeros m).words.size = m ⌈/⌉ 64 ∧
      ∀ j ∈ probeList m k lo hi, j < m ∧ j / 64 < (BitArray.zeros m).words.size) ∧
    ∀ {machine : Machine} {c : Config} {before after : Host} {f : BloomFilter w},
      BloomFilter.open w machine c before = (.ok f, after) →
      64 ≤ f.bitCount ∧ f.bitCount ≤ Nat.pow 2 63 ∧ 1 ≤ f.hashes ∧ f.hashes ≤ 32 ∧
      ∀ (puts : List (Fingerprint w)) (h : Host) (fp : Fingerprint w),
        let g := (Outcome.each BloomFilter.put puts f h).set
        fp.probeLanes.1 < Nat.pow 2 64 ∧ fp.probeLanes.2 < Nat.pow 2 64 ∧
        g.probes fp = probeList f.bitCount f.hashes fp.probeLanes.1 fp.probeLanes.2 ∧
        g.bits.words.size = f.bitCount ⌈/⌉ 64 ∧
        ∀ j ∈ g.probes fp, j < f.bitCount ∧ j / 64 < g.bits.words.size := by
  refine ⟨fun {m k lo hi} enough few _ short _ _ => ?_, fun {_ _ _ _ f} opened => ?_⟩
  · have positive : 0 < m := by omega
    have counted : k ≤ maxBits := Nat.le_trans short (by decide)
    refine ⟨probeList_eq m k lo hi, probeList?_eq positive few counted lo hi, size_words_zeros m,
      fun j probe => ?_⟩
    rw [probeList_eq, List.mem_map] at probe
    obtain ⟨i, _, rfl⟩ := probe
    have inside := Nat.mod_lt (position lo hi i) positive
    exact ⟨inside, BitArray.word_lt_of_lt inside⟩
  · have fresh := fresh_of_open opened
    have positive : 0 < f.bitCount := Nat.lt_of_lt_of_le (by decide) fresh.le_bitCount
    refine ⟨fresh.le_bitCount, fresh.bitCount_le, fresh.one_le_hashes, fresh.hashes_le,
      fun puts h fp => ?_⟩
    intro g
    have marked : f.Marked ([] ++ puts) g :=
      ((Marked.of_fresh fresh).each_put positive puts h).2
    obtain ⟨low, high⟩ := probeLanes_lt fp
    rw [marked.probes]
    refine ⟨low, high, rfl, marked.size.trans (size_words_zeros f.bitCount), fun j probe => ?_⟩
    exact ⟨lt_of_mem_probes positive probe, marked.within positive fp j probe⟩

/-- The greatest words among the greatest count of bits: the sums come close to the end of the
range, and the last of 32 probes is `32 (2 ^ 64 - 1) + 4960` modulo `2 ^ 63`. In a filter of 64 bits
the probes of the fingerprint zero are on its one word. -/
theorem probes_at_positions_greatest :
    let word := 0xFFFFFFFFFFFFFFFF
    let m := 0x8000000000000000
    (probeList m 32 word word)[31]? = some 4928 ∧
      probeList? m 32 word word = some (probeList m 32 word word) ∧
      (∀ j ∈ probeList m 32 word word, j / 64 < (BitArray.zeros m).words.size) ∧
      sampleFilter.bits.words.size = 64 ⌈/⌉ 64 ∧
      ∀ j ∈ sampleFilter.probes (.ofNat .bits64 0), j / 64 < sampleFilter.bits.words.size := by
  intro word m
  obtain ⟨greatest, opened⟩ := probes_at_positions (w := .bits64)
  obtain ⟨closed, summed, _, inside⟩ := @greatest m 32 word word (by decide) (by decide) (by decide)
    (by decide) (by decide) (by decide)
  obtain ⟨_, _, _, _, probed⟩ := opened (eq_ok_get isSome_open_sampleFilter)
  obtain ⟨_, _, _, size, within⟩ := probed [] .empty (.ofNat .bits64 0)
  refine ⟨?_, summed, fun j probe => (inside j probe).2, size, fun j probe => (within j probe).2⟩
  rw [closed]
  decide +kernel

end SeenStates.BloomFilter
