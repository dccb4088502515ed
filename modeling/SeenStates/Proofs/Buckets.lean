import SeenStates.Scan

/-!
# Buckets

The slots of a bucket are filled from the front and hold each fingerprint once (`Orderly`). In such
a bucket the search that ends at the first empty slot is exact (`Orderly.probeFrom_found_iff`), and
the slot that it offers keeps the bucket so (`Orderly.store`).
-/
namespace SeenStates

variable {w : Width}

/-- The fingerprints in slots, live or archived. -/
def heldIn (slots : List (Slot w)) : List (Fingerprint w) := slots.filterMap Slot.fingerprint?

/-- The live fingerprints in slots. -/
def liveIn (slots : List (Slot w)) : List (Fingerprint w) := slots.filterMap Slot.live?

/-- No slots hold nothing. -/
@[simp] theorem heldIn_nil : heldIn ([] : List (Slot w)) = [] := rfl

/-- An empty slot holds nothing. -/
@[simp] theorem heldIn_empty_cons (rest : List (Slot w)) : heldIn (.empty :: rest) = heldIn rest :=
  rfl

/-- A live slot holds its fingerprint. -/
@[simp] theorem heldIn_live_cons (fp : Fingerprint w) (rest : List (Slot w)) :
    heldIn (.live fp :: rest) = fp :: heldIn rest := rfl

/-- An archived slot holds its fingerprint. -/
@[simp] theorem heldIn_archived_cons (fp : Fingerprint w) (rest : List (Slot w)) :
    heldIn (.archived fp :: rest) = fp :: heldIn rest := rfl

/-- Slots hold what a first part and the rest hold. -/
@[simp] theorem heldIn_append (front back : List (Slot w)) :
    heldIn (front ++ back) = heldIn front ++ heldIn back :=
  List.filterMap_append

/-- The live fingerprints are those of a first part and of the rest. -/
@[simp] theorem liveIn_append (front back : List (Slot w)) :
    liveIn (front ++ back) = liveIn front ++ liveIn back :=
  List.filterMap_append

/-- A fingerprint is held when a slot is live with it or archived with it. -/
theorem mem_heldIn_iff {slots : List (Slot w)} {fp : Fingerprint w} :
    fp ∈ heldIn slots ↔ fp ∈ liveIn slots ∨ .archived fp ∈ slots := by
  induction slots with
  | nil => simp [heldIn, liveIn]
  | cons slot rest ih =>
    cases slot with
    | empty => simp [ih, liveIn, Slot.live?]
    | live stored => simp [ih, liveIn, Slot.live?, or_assoc]
    | archived stored => simp [ih, liveIn, Slot.live?, or_left_comm]

/-- No slot in front of a filled one is empty. -/
abbrev Packed (slots : List (Slot w)) : Prop :=
  slots.Pairwise fun front back => front = .empty → back = .empty

/-- Slots that are filled from the front and hold each fingerprint once. -/
structure Orderly (slots : List (Slot w)) : Prop where
  /-- They are filled from the front. -/
  packed : Packed slots
  /-- They hold each fingerprint once. -/
  distinct : (heldIn slots).Nodup

/-! ## Searching -/

/-- Slots that are all empty hold nothing. -/
theorem heldIn_of_empty {slots : List (Slot w)} (empty : ∀ s ∈ slots, s = .empty) :
    heldIn slots = [] := by
  rw [heldIn, List.filterMap_eq_nil_iff]
  intro s member
  rw [empty s member]
  rfl

/-- A search finds exactly the fingerprints that packed slots hold. -/
theorem probeFrom_found_iff {slots : List (Slot w)} (packed : Packed slots) (fp : Fingerprint w)
    (position : Nat) (reusable : Option Nat) :
    probeFrom fp position reusable slots = .found ↔ fp ∈ heldIn slots := by
  induction slots generalizing position reusable with
  | nil => cases reusable <;> simp [probeFrom]
  | cons slot rest ih =>
    obtain ⟨first, behind⟩ := List.pairwise_cons.1 packed
    cases slot with
    | empty =>
      have nothing := heldIn_of_empty fun s member => first s member rfl
      simp [probeFrom, nothing]
    | live stored =>
      rw [probeFrom, heldIn_live_cons, List.mem_cons]
      split
      · next same => simp [same]
      · next differ => rw [ih behind, or_iff_right (Ne.symm differ)]
    | archived stored =>
      rw [probeFrom, heldIn_archived_cons, List.mem_cons]
      split
      · next same => simp [same]
      · next differ => rw [ih behind, or_iff_right (Ne.symm differ)]

/-- A search that has passed a slot to use again offers no other one. -/
theorem probeFrom_reusable {slots : List (Slot w)} {fp : Fingerprint w}
    {position reusable offered : Nat}
    (probed : probeFrom fp position (some reusable) slots = .vacant offered) :
    offered = reusable := by
  induction slots generalizing position with
  | nil => exact (Probe.vacant.inj probed).symm
  | cons slot rest ih =>
    cases slot with
    | empty => exact (Probe.vacant.inj probed).symm
    | live stored =>
      rw [probeFrom] at probed
      split at probed
      · contradiction
      · exact ih probed
    | archived stored =>
      rw [probeFrom] at probed
      split at probed
      · contradiction
      · exact ih probed

/-- The slot that a search offers is not live, and no slot in front of it is empty. -/
theorem probeFrom_vacant {slots : List (Slot w)} {fp : Fingerprint w} {position offered : Nat}
    (probed : probeFrom fp position none slots = .vacant offered) :
    ∃ front slot back, slots = front ++ slot :: back ∧ offered = position + front.length ∧
      slot.live? = none ∧ ∀ s ∈ front, s ≠ .empty := by
  induction slots generalizing position with
  | nil => contradiction
  | cons slot rest ih =>
    cases slot with
    | empty =>
      obtain rfl := Probe.vacant.inj probed
      exact ⟨[], .empty, rest, rfl, rfl, rfl, by simp⟩
    | live stored =>
      rw [probeFrom] at probed
      split at probed
      · contradiction
      · obtain ⟨front, slot, back, rfl, rfl, free, filled⟩ := ih probed
        refine ⟨.live stored :: front, slot, back, rfl, ?_, free, ?_⟩
        · rw [List.length_cons]
          omega
        · simpa using filled
    | archived stored =>
      rw [probeFrom] at probed
      split at probed
      · contradiction
      · obtain rfl := probeFrom_reusable probed
        exact ⟨[], .archived stored, rest, rfl, rfl, rfl, by simp⟩

/-- A search that has passed a slot to use again offers it if it does not end earlier. -/
theorem probeFrom_reusable_ne_full {slots : List (Slot w)} {fp : Fingerprint w}
    {position reusable : Nat} : probeFrom fp position (some reusable) slots ≠ .full := by
  induction slots generalizing position with
  | nil => simp [probeFrom]
  | cons slot rest ih =>
    cases slot with
    | empty => simp [probeFrom]
    | live stored =>
      rw [probeFrom]
      split
      · simp
      · exact ih
    | archived stored =>
      rw [probeFrom]
      split
      · simp
      · exact ih

/-- A search that ends in neither has passed live slots of other fingerprints only. -/
theorem probeFrom_full {slots : List (Slot w)} {fp : Fingerprint w} {position : Nat}
    (probed : probeFrom fp position none slots = .full) :
    ∀ s ∈ slots, ∃ other, s = .live other ∧ other ≠ fp := by
  induction slots generalizing position with
  | nil => simp
  | cons slot rest ih =>
    cases slot with
    | empty => simp [probeFrom] at probed
    | live stored =>
      rw [probeFrom] at probed
      split at probed
      · contradiction
      · next differ =>
        intro s member
        rcases List.mem_cons.1 member with rfl | later
        · exact ⟨stored, rfl, differ⟩
        · exact ih probed s later
    | archived stored =>
      rw [probeFrom] at probed
      split at probed
      · contradiction
      · exact absurd probed probeFrom_reusable_ne_full

/-! ## Positions -/

/-- Slots that hold each fingerprint once hold it at one position. -/
theorem position_unique {slots : List (Slot w)} (once : (heldIn slots).Nodup) {j k : Nat}
    {s s' : Slot w} {fp : Fingerprint w} (first : slots[j]? = some s) (second : slots[k]? = some s')
    (held : s.fingerprint? = some fp) (held' : s'.fingerprint? = some fp) : j = k := by
  have apart := List.pairwise_filterMap.1 once
  rw [List.pairwise_iff_getElem] at apart
  obtain ⟨inside, rfl⟩ := List.getElem?_eq_some_iff.1 first
  obtain ⟨inside', rfl⟩ := List.getElem?_eq_some_iff.1 second
  rcases Nat.lt_trichotomy j k with before | same | behind
  · exact absurd rfl (apart j k inside inside' before fp held fp held')
  · exact same
  · exact absurd rfl (apart k j inside' inside behind fp held' fp held)

/-- In packed slots those that are not empty are the ones in front of some position. -/
theorem Packed.filled_iff {slots : List (Slot w)} (packed : Packed slots) :
    ∃ filled, ∀ (k : Nat) (s : Slot w), slots[k]? = some s → (s ≠ .empty ↔ k < filled) := by
  induction slots with
  | nil => exact ⟨0, by simp⟩
  | cons slot rest ih =>
    obtain ⟨first, behind⟩ := List.pairwise_cons.1 packed
    by_cases vacant : slot = .empty
    · refine ⟨0, fun k s here => ?_⟩
      have member := List.mem_of_getElem? here
      rcases List.mem_cons.1 member with rfl | later
      · simp [vacant]
      · simp [first s later vacant]
    · obtain ⟨filled, within⟩ := ih behind
      refine ⟨filled + 1, fun k s here => ?_⟩
      cases k with
      | zero =>
        obtain rfl : slot = s := by simpa using here
        simp [vacant]
      | succ k =>
        have there : rest[k]? = some s := by simpa using here
        rw [within k s there, Nat.add_lt_add_iff_right]

/-! ## Storing -/

/-- A fingerprint that is stored in a slot that was not live is one more live fingerprint. -/
theorem perm_liveIn_store (front back : List (Slot w)) {slot : Slot w} (free : slot.live? = none)
    (fp : Fingerprint w) :
    (liveIn (front ++ .live fp :: back)).Perm (fp :: liveIn (front ++ slot :: back)) := by
  have dropped : liveIn (slot :: back) = liveIn back := List.filterMap_cons_none free
  rw [liveIn_append, liveIn_append, dropped]
  exact List.perm_middle

/-- What is held without a slot is held with it. -/
theorem sublist_heldIn (front back : List (Slot w)) (slot : Slot w) :
    (heldIn front ++ heldIn back).Sublist (heldIn (front ++ slot :: back)) := by
  rw [heldIn_append]
  exact (List.Sublist.refl _).append ((List.sublist_cons_self slot back).filterMap _)

/-- A fingerprint that is stored in the first slot that is not live, where it was not held, keeps
a bucket in order. -/
theorem Orderly.store {front back : List (Slot w)} {slot : Slot w} {fp : Fingerprint w}
    (orderly : Orderly (front ++ slot :: back)) (filled : ∀ s ∈ front, s ≠ .empty)
    (absent : fp ∉ heldIn (front ++ slot :: back)) : Orderly (front ++ .live fp :: back) := by
  have kept := sublist_heldIn front back slot
  constructor
  case packed =>
    obtain ⟨inFront, behind, _⟩ := List.pairwise_append.1 orderly.packed
    refine List.pairwise_append.2 ⟨inFront, ?_, ?_⟩
    · exact List.pairwise_cons.2
        ⟨fun _ _ empty => (by cases empty), (List.pairwise_cons.1 behind).2⟩
    · intro s member _ _ empty
      exact absurd empty (filled s member)
  case distinct =>
    have perm : (heldIn (front ++ .live fp :: back)).Perm
        (fp :: (heldIn front ++ heldIn back)) := by
      rw [heldIn_append]
      exact List.perm_middle
    rw [perm.nodup_iff, List.nodup_cons]
    exact ⟨fun held => absent (kept.subset held), orderly.distinct.sublist kept⟩

/-! ## Archiving and clearing -/

/-- Archived slots hold the same fingerprints. -/
theorem heldIn_archive (slots : List (Slot w)) :
    heldIn (slots.map Slot.archive) = heldIn slots := by
  rw [heldIn, List.filterMap_map, heldIn]
  congr 1
  funext s
  cases s <;> rfl

/-- None of the fingerprints in archived slots is live. -/
theorem liveIn_archive (slots : List (Slot w)) : liveIn (slots.map Slot.archive) = [] := by
  rw [liveIn, List.filterMap_eq_nil_iff]
  intro s member
  obtain ⟨before, _, rfl⟩ := List.mem_map.1 member
  cases before <;> rfl

/-- Archiving keeps a bucket in order. -/
theorem Orderly.archive {slots : List (Slot w)} (orderly : Orderly slots) :
    Orderly (slots.map Slot.archive) := by
  have empty (s : Slot w) : s.archive = .empty ↔ s = .empty := by cases s <;> simp [Slot.archive]
  refine ⟨?_, by rw [heldIn_archive]; exact orderly.distinct⟩
  rw [Packed, List.pairwise_map]
  simpa only [empty] using orderly.packed

/-- Empty slots are in order. -/
theorem orderly_of_empty {slots : List (Slot w)} (empty : ∀ s ∈ slots, s = .empty) :
    Orderly slots := by
  refine ⟨?_, by rw [heldIn_of_empty empty]; exact .nil⟩
  exact List.pairwise_of_forall_mem_list fun _ _ s behind _ => empty s behind

end SeenStates
