import SeenStates.Proofs.Tables

/-!
# Arenas as lists of slots

An arena keeps the states of its slots and the words of their fingerprints in two buffers, and words
stay behind when a slot is emptied. Calls see nothing of that: a new arena answers as a plain list
of as many empty slots does (`Arena.actsAs_of_make`). A call for a slot that there is not has no
answer and changes nothing, with one exception. Where the words of a slot start is reckoned modulo
`2 ^ 64`, so without debug assertions the words of a wide slot at `2 ^ 63 + k` are taken to be those
of slot `k`, and they are stored before the call fails (`SlotCall.perform_of_strays`).
-/
namespace SeenStates

variable {w : Width}

/-- The slot with another fingerprint, unless it is empty. -/
def Slot.withFingerprint (fp : Fingerprint w) : Slot w → Slot w
  | empty => empty
  | live _ => live fp
  | archived _ => archived fp

/-! ## The slots of an arena -/

namespace Arena

/-- The slots. -/
def toList (a : Arena w) : List (Slot w) := a.slice 0 a.size

/-- A slot is asked for in the list as in the arena. -/
theorem getElem?_toList (a : Arena w) (i : Nat) : a.toList[i]? = a.get? i := by
  rw [toList, getElem?_slice, Nat.zero_add]
  split
  · rfl
  · next beyond => exact (get?_eq_none_iff.2 (Nat.le_of_not_lt beyond)).symm

/-- Arenas with the same slots have the same list. -/
theorem toList_congr {a b : Arena w} (same : ∀ i, a.get? i = b.get? i) : a.toList = b.toList :=
  List.ext_getElem? fun i => by rw [getElem?_toList, getElem?_toList, same]

/-- There are as many slots as there are. -/
@[simp] theorem length_toList (a : Arena w) : a.toList.length = a.size := by
  have ends (i : Nat) : a.toList.length ≤ i ↔ a.size ≤ i := by
    rw [← List.getElem?_eq_none_iff, getElem?_toList, get?_eq_none_iff]
  exact Nat.le_antisymm ((ends _).2 (Nat.le_refl _)) ((ends _).1 (Nat.le_refl _))

/-- The slots from a position on are those of the list. -/
theorem slice_eq (a : Arena w) (offset n : Nat) :
    a.slice offset n = (a.toList.drop offset).take n := by
  apply List.ext_getElem?
  intro k
  rw [getElem?_slice, List.getElem?_take, List.getElem?_drop, getElem?_toList]

/-- The slots of a new arena are empty. -/
theorem toList_blank (n : Nat) : (blank w n).toList = List.replicate n .empty := by
  apply List.ext_getElem?
  intro i
  rw [getElem?_toList, get?_blank, List.getElem?_replicate]

/-- Setting a slot sets it in the list. -/
theorem toList_set (a : Arena w) (i : Nat) (s : Slot w) :
    (a.set i s).toList = a.toList.set i s := by
  apply List.ext_getElem?
  intro j
  rw [getElem?_toList, List.getElem?_set, length_toList, getElem?_toList]
  by_cases same : i = j
  · subst same
    rw [if_pos rfl]
    split
    · next within => exact get?_set_self within s
    · next beyond => exact get?_eq_none_iff.2 (by simpa using beyond)
  · rw [if_neg same, get?_set_of_ne (Ne.symm same)]

/-- Archiving the live slots archives those of the list. -/
theorem toList_archiveLive (a : Arena w) : a.archiveLive.toList = a.toList.map Slot.archive :=
  slice_archiveLive a 0 a.size

/-- Emptying all slots empties those of the list. -/
theorem toList_clear (a : Arena w) : a.clear.toList = a.toList.map fun _ => .empty := by
  apply List.ext_getElem?
  intro i
  rw [getElem?_toList, get?_clear, List.getElem?_map, getElem?_toList]
  split
  · next within =>
    cases here : a.get? i with
    | none => exact absurd within (Nat.not_lt.2 (get?_eq_none_iff.1 here))
    | some s => rfl
  · next beyond => rw [get?_eq_none_iff.2 (Nat.le_of_not_lt beyond), Option.map_none]

/-- The live slots are counted. -/
theorem liveCount_eq_countP (a : Arena w) :
    a.liveCount = a.toList.countP fun s => s.live?.isSome := by
  rw [liveCount_eq, liveIn_eq, List.length_filterMap_eq_countP]
  rfl

/-! ### Writing -/

variable {a : Arena w} {i : UInt64}

/-- Where words start that are reckoned as numbers, if the words of the arena can be counted. -/
theorem wordsAt?_eq (counted : a.size * w.words < countLimit) (i : UInt64) :
    a.wordsAt? i =
      if i.toNat * w.words % countLimit + w.words ≤ a.size * w.words then
        some (i.toNat * w.words % countLimit)
      else .none := by
  have stride : (UInt64.ofNat w.words).toNat = w.words := by cases w <;> rfl
  have first : (i * UInt64.ofNat w.words).toNat = i.toNat * w.words % countLimit := by
    rw [UInt64.toNat_mul, stride]
    rfl
  have below : i.toNat * w.words % countLimit < countLimit := Nat.mod_lt _ (Nat.two_pow_pos 64)
  have last : (i * UInt64.ofNat w.words + UInt64.ofNat w.words).toNat =
      (i.toNat * w.words % countLimit + w.words) % countLimit := by
    rw [UInt64.toNat_add, first, stride]
    rfl
  have size : a.words.size = a.size * w.words := a.size_words
  simp only [wordsAt?, UInt64.le_iff_toNat_le, last, first, size]
  generalize i.toNat * w.words % countLimit = start at below ⊢
  -- The last position wraps around only where it is beyond the words anyway.
  by_cases wraps : start + w.words < countLimit
  · simp only [Nat.mod_eq_of_lt wraps, Nat.le_add_right, true_and]
  · have small : w.words < countLimit := by cases w <;> decide
    have wrapped : (start + w.words) % countLimit < start := by
      rw [Nat.mod_eq_sub_mod (Nat.not_lt.1 wraps), Nat.mod_eq_of_lt (by omega)]
      omega
    rw [if_neg fun both => Nat.not_le.2 wrapped both.1, if_neg (by omega)]

/-- The words of a slot that is there are looked for where they are. -/
theorem wordsAt?_of_lt (counted : a.size * w.words < countLimit) (within : i.toNat < a.size) :
    a.wordsAt? i = some (i.toNat * w.words) := by
  have ends : i.toNat * w.words + w.words ≤ a.size * w.words := a.size_words ▸ words_within within
  have start : i.toNat * w.words % countLimit = i.toNat * w.words := Nat.mod_eq_of_lt (by omega)
  rw [wordsAt?_eq counted, start, if_pos ends]

/-- Words of a slot that is not there are taken to be those of another one where the slot is wide
and its position is `2 ^ 63` more, and only there. -/
theorem wordsAt?_eq_some_iff (counted : a.size * w.words < countLimit)
    (beyond : a.size ≤ i.toNat) {first : Nat} :
    a.wordsAt? i = some first ↔
      w = .bits128 ∧ ∃ k < a.size, i.toNat = Nat.pow 2 63 + k ∧ first = k * w.words := by
  have below := i.toNat_lt
  have limit : countLimit = 2 ^ 64 := rfl
  have half : Nat.pow 2 63 = 2 ^ 63 := rfl
  rw [wordsAt?_eq counted, limit]
  cases w with
  | bits64 =>
    rw [show Width.bits64.words = 1 from rfl, Nat.mul_one, Nat.mod_eq_of_lt below,
      if_neg (by omega)]
    simp
  | bits128 =>
    rw [show Width.bits128.words = 2 from rfl] at counted ⊢
    constructor
    · intro here
      split at here
      · next fits =>
        obtain rfl := Option.some.inj here
        exact ⟨rfl, i.toNat - 2 ^ 63, by omega, by omega, by omega⟩
      · contradiction
    · rintro ⟨_, k, hit, position, rfl⟩
      have wrapped : i.toNat * 2 % 2 ^ 64 = k * 2 := by omega
      rw [wrapped, if_pos (by omega)]

/-- A slot that is not there cannot be put into another state. -/
theorem mark_of_le (beyond : a.size ≤ i.toNat) (tag : Tag) : a.mark i tag = (.none, a) := by
  obtain ⟨tags, words, sized⟩ := a
  exact if_neg (Nat.not_lt.2 beyond)

/-- Writing to a slot that is there sets it. -/
theorem write_of_lt (counted : a.size * w.words < countLimit) (within : i.toNat < a.size)
    (build : Build) (s : Slot w) : a.write build i s = (some (), a.set i.toNat s) := by
  have passes : ¬ (build = .debug ∧ a.size ≤ i.toNat) := fun both => Nat.not_le.2 within both.2
  have here := wordsAt?_of_lt counted within
  have marked (b : Arena w) (size : b.size = a.size) (tag : Tag) :
      b.mark i tag = (some (), ⟨b.tags.set i.toNat tag, b.words, by simpa using b.size_words⟩) :=
    if_pos (Nat.lt_of_lt_of_eq within size.symm)
  cases s with
  | empty =>
    rw [write, if_neg passes]
    exact marked a rfl .empty
  | live fp =>
    simp only [write, if_neg passes, Slot.fingerprint?, here]
    exact marked (a.withWords fp _) rfl .live
  | archived fp =>
    simp only [write, if_neg passes, Slot.fingerprint?, here]
    exact marked (a.withWords fp _) rfl .archived

/-- Writing to a slot that is not there fails, and debug assertions keep everything as it was. -/
theorem write_debug_of_le (beyond : a.size ≤ i.toNat) (s : Slot w) :
    a.write .debug i s = (.none, a) :=
  if_pos ⟨rfl, beyond⟩

/-- Without debug assertions it fails after the words of a fingerprint are stored, if there are
words where they are reckoned to be. -/
theorem write_release_of_le (beyond : a.size ≤ i.toNat) (s : Slot w) :
    a.write .release i s =
      (.none, (s.fingerprint?.bind fun fp => (a.wordsAt? i).map (a.withWords fp)).getD a) := by
  rw [write, if_neg (by simp)]
  cases s.fingerprint? with
  | none => exact mark_of_le beyond s.tag
  | some fp =>
    cases a.wordsAt? i with
    | none => rfl
    | some first => exact mark_of_le (a := a.withWords fp first) beyond s.tag

/-- Storing the words of a slot gives it another fingerprint, unless it is empty. -/
theorem get?_withWords_self {k : Nat} (within : k < a.size) (fp : Fingerprint w) :
    (a.withWords fp (k * w.words)).get? k = (a.get? k).map (Slot.withFingerprint fp) := by
  have stored : (a.withWords fp (k * w.words)).load k = fp :=
    fp.loadFrom_storeIn (words_within within)
  have state : (a.withWords fp (k * w.words)).tags.get? k = a.tags.get? k := rfl
  rw [get?, state, stored, get?]
  cases a.tags.get? k with
  | none => rfl
  | some tag => cases tag <;> rfl

/-- It leaves every other slot alone. -/
theorem get?_withWords_of_ne {j k : Nat} (other : j ≠ k) (fp : Fingerprint w) :
    (a.withWords fp (k * w.words)).get? j = a.get? j := by
  apply get?_congr
  case state => rfl
  case words =>
    intro within _
    exact fp.loadFrom_storeIn_of_apart (words_apart other w.words) (words_within within)

end Arena

/-- Archiving changes the live slots. -/
theorem Slot.archive_ne_iff {s : Slot w} : s.archive ≠ s ↔ s.live?.isSome := by
  cases s <;> simp [archive, live?]

/-! ## Calls -/

namespace SlotCall

/-- All slots that a call asks for are among the first `n`. -/
def Within (n : Nat) : SlotCall w → Prop
  | get i => i.toNat < n
  | set i _ => i.toNat < n
  | collect offset many => offset.toNat + many.toNat ≤ n
  | _ => True

/-- A call stores a fingerprint in the place of that of one of the first `n` slots, though it is for
a slot `2 ^ 63` further on. -/
def Strays (build : Build) (n : Nat) : SlotCall w → Prop
  | set i s =>
    build = .release ∧ w = .bits128 ∧ s ≠ .empty ∧ Nat.pow 2 63 ≤ i.toNat ∧
      i.toNat < Nat.pow 2 63 + n
  | _ => False

instance (build : Build) (n : Nat) : DecidablePred (Strays (w := w) build n)
  | set _ _ => inferInstanceAs (Decidable (_ ∧ _))
  | get _ | archive | clear | collect _ _ | count => isFalse id

/-- None of the calls strays. -/
abbrev Stay (build : Build) (n : Nat) (calls : List (SlotCall w)) : Prop :=
  ∀ c ∈ calls, ¬ c.Strays build n

/-- What a call comes to on a plain list of slots. -/
def performPlain : SlotCall w → List (Slot w) → Option (SlotAnswer w) × List (Slot w)
  | get i, slots => (slots[i.toNat]?.map .slot, slots)
  | set i s, slots =>
    if i.toNat < slots.length then (some .done, slots.set i.toNat s) else (none, slots)
  | archive, slots =>
    (some (.count (slots.countP fun s => s.archive ≠ s)), slots.map Slot.archive)
  | clear, slots => (some .done, slots.map fun _ => .empty)
  | collect offset n, slots =>
    (if offset.toNat + n.toNat ≤ slots.length then
      some (.fingerprints (((slots.drop offset.toNat).take n.toNat).filterMap Slot.live?))
    else none, slots)
  | count, slots => (some (.count (slots.countP fun s => s.live?.isSome)), slots)

/-! ### One call -/

variable {c : SlotCall w} {a : Arena w} {build : Build}

/-- A call has an answer if all slots are there that it asks for. -/
theorem isSome_perform (counted : a.size * w.words < countLimit) (within : c.Within a.size) :
    (c.perform build a).1.isSome := by
  cases c with
  | get i =>
    rw [Within, ← Nat.not_le, ← Arena.get?_eq_none_iff] at within
    rw [perform, Option.isSome_map, Option.isSome_iff_ne_none]
    exact within
  | set i s =>
    rw [perform, Arena.write_of_lt counted within]
    rfl
  | collect offset n =>
    rw [Within] at within
    rw [perform, Arena.liveIn?, if_pos within]
    rfl
  | archive => rfl
  | clear => rfl
  | count => rfl

/-- It does not stray then. -/
theorem not_strays_of_within {n : Nat} (counted : n * w.words < countLimit)
    (within : c.Within n) : ¬ c.Strays build n := by
  cases c with
  | set i s =>
    rintro ⟨_, rfl, _, beyond, _⟩
    have limit : countLimit = Nat.pow 2 63 * Width.bits128.words := rfl
    rw [limit] at counted
    exact Nat.not_le.2 (Nat.lt_trans within (Nat.lt_of_mul_lt_mul_right counted)) beyond
  | _ => exact id

/-- Otherwise it has no answer. -/
theorem answer_of_not_within (beyond : ¬ c.Within a.size) : (c.perform build a).1 = none := by
  cases c with
  | get i =>
    rw [Within, Nat.not_lt, ← Arena.get?_eq_none_iff] at beyond
    rw [perform, beyond, Option.map_none]
  | set i s =>
    rw [Within, Nat.not_lt] at beyond
    cases build with
    | debug =>
      rw [perform, Arena.write_debug_of_le beyond]
      rfl
    | release =>
      rw [perform, Arena.write_release_of_le beyond]
      rfl
  | collect offset n =>
    rw [Within] at beyond
    rw [perform, Arena.liveIn?, if_neg beyond, Option.map_none]
  | archive => simp [Within] at beyond
  | clear => simp [Within] at beyond
  | count => simp [Within] at beyond

/-- It changes nothing either, unless it strays. -/
theorem perform_of_not_within (counted : a.size * w.words < countLimit)
    (beyond : ¬ c.Within a.size) (stays : ¬ c.Strays build a.size) :
    (c.perform build a).2 = a := by
  cases c with
  | set i s =>
    rw [Within, Nat.not_lt] at beyond
    cases build with
    | debug => rw [perform, Arena.write_debug_of_le beyond]
    | release =>
      rw [perform, Arena.write_release_of_le beyond]
      cases held : s.fingerprint? with
      | none => rfl
      | some fp =>
        cases here : a.wordsAt? i with
        | none => rfl
        | some first =>
          obtain ⟨wide, k, hit, position, _⟩ := (Arena.wordsAt?_eq_some_iff counted beyond).1 here
          have filled : s ≠ .empty := fun empty => by simp [empty, Slot.fingerprint?] at held
          exact absurd ⟨rfl, wide, filled, by omega, by omega⟩ stays
  | get i => rfl
  | collect offset n => rfl
  | archive => simp [Within] at beyond
  | clear => simp [Within] at beyond
  | count => simp [Within] at beyond

/-- A call that strays has no answer, but after it the slot `2 ^ 63` before the one that it is for
has the fingerprint, unless it is empty. -/
theorem perform_of_strays {a : Arena .bits128} (counted : a.size * 2 < countLimit) {i : UInt64}
    {k : Nat} (position : i.toNat = Nat.pow 2 63 + k) (within : k < a.size)
    {s : Slot .bits128} {fp : Fingerprint .bits128} (held : s.fingerprint? = some fp) :
    ((set i s).perform .release a).1 = none ∧
      ((set i s).perform .release a).2.get? k = (a.get? k).map (Slot.withFingerprint fp) ∧
      ∀ j, j ≠ k → ((set i s).perform .release a).2.get? j = a.get? j := by
  have limit : countLimit = Nat.pow 2 63 * 2 := rfl
  have few : a.size < Nat.pow 2 63 := Nat.lt_of_mul_lt_mul_right (limit ▸ counted)
  have beyond : a.size ≤ i.toNat := by omega
  have here := (Arena.wordsAt?_eq_some_iff counted beyond).2 ⟨rfl, k, within, position, rfl⟩
  rw [perform, Arena.write_release_of_le beyond, held, Option.bind_some, here, Option.map_some,
    Option.getD_some]
  exact ⟨rfl, Arena.get?_withWords_self within fp, fun j other =>
    Arena.get?_withWords_of_ne other fp⟩

/-- A call that does not stray is answered as on the list of the slots, and leaves the same
slots. -/
theorem performPlain_toList (counted : a.size * w.words < countLimit)
    (stays : ¬ c.Strays build a.size) :
    c.performPlain a.toList = ((c.perform build a).1, (c.perform build a).2.toList) := by
  cases c with
  | get i => rw [performPlain, perform, Arena.getElem?_toList]
  | set i s =>
    rw [performPlain, Arena.length_toList]
    split
    · next within =>
      rw [perform, Arena.write_of_lt counted within, Arena.toList_set]
      rfl
    · next beyond =>
      rw [answer_of_not_within (c := set i s) beyond,
        perform_of_not_within (c := set i s) counted beyond stays]
  | archive =>
    have changed : (fun s : Slot w => decide (s.archive ≠ s)) = fun s => s.live?.isSome :=
      funext fun s => Bool.eq_iff_iff.2 (by rw [decide_eq_true_iff, Slot.archive_ne_iff])
    rw [performPlain, perform, changed, Arena.liveCount_eq_countP, Arena.toList_archiveLive]
  | clear => rw [performPlain, perform, Arena.toList_clear]
  | collect offset n =>
    rw [performPlain, perform, Arena.length_toList, Arena.liveIn?, ← Arena.slice_eq,
      ← Arena.liveIn_eq]
    split <;> rfl
  | count => rw [performPlain, perform, Arena.liveCount_eq_countP]

/-- A call keeps the count of slots. -/
theorem length_performPlain (c : SlotCall w) (slots : List (Slot w)) :
    (c.performPlain slots).2.length = slots.length := by
  cases c with
  | set i s =>
    rw [performPlain]
    split
    · exact List.length_set
    · rfl
  | get i => rfl
  | archive => exact List.length_map _
  | clear => exact List.length_map _
  | collect offset n => rfl
  | count => rfl

/-- It keeps that of an arena if it does not stray. -/
theorem size_perform (counted : a.size * w.words < countLimit) (stays : ¬ c.Strays build a.size) :
    (c.perform build a).2.size = a.size := by
  have same := congrArg (fun both => both.2.length) (performPlain_toList counted stays)
  rw [length_performPlain, Arena.length_toList, Arena.length_toList] at same
  exact same.symm

/-! ### One after the other -/

variable {σ : Type} (does : SlotCall w → σ → Option (SlotAnswer w) × σ)

/-- The answers to calls that are made one after the other. -/
def answers : List (SlotCall w) → σ → List (Option (SlotAnswer w))
  | [], _ => []
  | c :: rest, s => (does c s).1 :: answers rest (does c s).2

/-- What there is after calls that are made one after the other. -/
def after : List (SlotCall w) → σ → σ
  | [], s => s
  | c :: rest, s => after rest (does c s).2

/-- Calls of an arena none of which strays are answered as on the list of its slots, and leave the
same slots. -/
theorem run_toList {calls : List (SlotCall w)} {a : Arena w}
    (counted : a.size * w.words < countLimit) (stay : Stay build a.size calls) :
    answers performPlain calls a.toList = answers (perform build) calls a ∧
      after performPlain calls a.toList = (after (perform build) calls a).toList := by
  induction calls generalizing a with
  | nil => exact ⟨rfl, rfl⟩
  | cons c rest ih =>
    obtain ⟨stays, stay⟩ := List.forall_mem_cons.1 stay
    have size := size_perform counted stays
    obtain ⟨answered, left⟩ := ih (size ▸ counted) (size ▸ stay)
    rw [answers, answers, after, after, performPlain_toList counted stays]
    exact ⟨congrArg _ answered, left⟩

/-- They keep the count of slots. -/
theorem length_after (calls : List (SlotCall w)) (slots : List (Slot w)) :
    (after performPlain calls slots).length = slots.length := by
  induction calls generalizing slots with
  | nil => rfl
  | cons c rest ih => rw [after, ih, length_performPlain]

end SlotCall

/-! ## All of it -/

namespace Arena

/-- The arena acts as a plain list of slots. -/
structure ActsAs (build : Build) (a : Arena w) (slots : List (Slot w)) : Prop where
  /-- Its slots are those of the list. -/
  slot : ∀ i, a.get? i = slots[i]?
  /-- All further calls are answered as on the list. -/
  answers : ∀ calls, SlotCall.Stay build slots.length calls →
    SlotCall.answers (SlotCall.perform build) calls a =
      SlotCall.answers SlotCall.performPlain calls slots
  /-- A call has an answer if the slots are there that it asks for, and does not stray. -/
  answered : ∀ c : SlotCall w, c.Within slots.length →
    (c.perform build a).1.isSome ∧ ¬ c.Strays build slots.length
  /-- Otherwise it has none, and unless it strays it changes nothing. -/
  refused : ∀ c : SlotCall w, ¬ c.Within slots.length → (c.perform build a).1 = .none ∧
    (¬ c.Strays build slots.length → (c.perform build a).2 = a)
  /-- What is done to a slot does nothing to another one. -/
  apart : ∀ i s, ¬ (SlotCall.set i s).Strays build slots.length → ∀ j, j ≠ i.toNat →
    ((SlotCall.set i s).perform build a).2.get? j = a.get? j
  /-- With other words in its empty slots it would answer the same. -/
  unseen : ∀ b : Arena w, b.tags = a.tags →
    (∀ i, a.get? i ≠ some .empty → b.load i = a.load i) →
    ∀ calls, SlotCall.Stay build slots.length calls →
      SlotCall.answers (SlotCall.perform build) calls b =
        SlotCall.answers (SlotCall.perform build) calls a

/-- Every arena whose words can be counted acts as the list of its slots. -/
theorem actsAs_toList {a : Arena w} (counted : a.size * w.words < countLimit) (build : Build) :
    a.ActsAs build a.toList := by
  constructor
  case slot => exact fun i => (a.getElem?_toList i).symm
  all_goals rw [length_toList]
  case answers => exact fun calls stay => (SlotCall.run_toList counted stay).1.symm
  case answered =>
    exact fun c within =>
      ⟨SlotCall.isSome_perform counted within, SlotCall.not_strays_of_within counted within⟩
  case refused =>
    exact fun c beyond =>
      ⟨SlotCall.answer_of_not_within beyond, SlotCall.perform_of_not_within counted beyond⟩
  case apart =>
    intro i s stays j other
    by_cases within : i.toNat < a.size
    · rw [SlotCall.perform, write_of_lt counted within]
      exact get?_set_of_ne other s
    · rw [SlotCall.perform_of_not_within (c := .set i s) counted within stays]
  case unseen =>
    intro b tags words calls stay
    -- Both arenas have the same list of slots, and that is all that answers depend on.
    have size : b.size = a.size := by rw [Arena.size, Arena.size, tags]
    have same (i : Nat) : b.get? i = a.get? i := get?_congr (by rw [tags]) fun _ => words i
    rw [← (SlotCall.run_toList counted stay).1,
      ← (SlotCall.run_toList (a := b) (size ▸ counted) (size ▸ stay)).1, toList_congr same]

/-- A new arena answers any calls as a plain list of empty slots does, as long as none of them
strays, and after them it acts as what has become of the list. -/
theorem actsAs_of_make {machine : Machine} {n : Nat} {a : Arena w}
    (made : make w machine n = .ok a) {build : Build} {calls : List (SlotCall w)}
    (stay : SlotCall.Stay build n calls) :
    SlotCall.answers (SlotCall.perform build) calls a =
        SlotCall.answers SlotCall.performPlain calls (List.replicate n .empty) ∧
      (SlotCall.after (SlotCall.perform build) calls a).ActsAs build
        (SlotCall.after SlotCall.performPlain calls (List.replicate n .empty)) ∧
      (SlotCall.after SlotCall.performPlain calls
        (List.replicate n (.empty : Slot w))).length = n := by
  obtain ⟨rfl, counted, _⟩ := make_eq_ok made
  have size : (blank w n).size = n := rfl
  obtain ⟨answered, left⟩ := SlotCall.run_toList (a := blank w n) counted stay
  rw [toList_blank] at answered left
  have length := SlotCall.length_after calls (List.replicate n (.empty : Slot w))
  rw [List.length_replicate] at length
  refine ⟨answered.symm, ?_, length⟩
  rw [left, length_toList] at length
  rw [left]
  exact actsAs_toList (by rwa [length]) build

/-- Calls of an arena of three wide slots: two of them are written to, archived and emptied, one of
them is written to again, and one call is for a fourth slot. -/
def emptied : List (SlotCall .bits128) :=
  let first := Fingerprint.ofTwoWords 7 9
  let second := Fingerprint.ofTwoWords 0 0
  [.set 0 (.live first), .set 1 (.live second), .archive, .get 0, .set 1 .empty, .get 1,
    .set 3 (.live first), .set 1 (.live first), .clear, .get 0, .set 2 (.live second),
    .collect 0 3, .count]

/-- The words that were left behind are not seen, with or without debug assertions. -/
theorem actsAs_of_make_emptied :
    ∃ a, make .bits128 ⟨0, 48, 1⟩ 3 = .ok a ∧
      SlotCall.answers (SlotCall.perform .release) emptied a =
        [some .done, some .done, some (.count 2), some (.slot (.archived (.ofTwoWords 7 9))),
          some .done, some (.slot .empty), .none, some .done, some .done, some (.slot .empty),
          some .done, some (.fingerprints [.ofTwoWords 0 0]), some (.count 1)] ∧
      (SlotCall.after (SlotCall.perform .release) emptied a).ActsAs .release
        [.empty, .empty, .live (.ofTwoWords 0 0)] := by
  have made : make .bits128 ⟨0, 48, 1⟩ 3 = .ok (blank .bits128 3) := by
    rfl
  have stay : SlotCall.Stay .release 3 emptied := by
    decide +kernel
  obtain ⟨answers, acts, _⟩ := actsAs_of_make made stay
  have plain : SlotCall.answers SlotCall.performPlain emptied (List.replicate 3 .empty) =
      [some .done, some .done, some (.count 2), some (.slot (.archived (.ofTwoWords 7 9))),
        some .done, some (.slot .empty), .none, some .done, some .done, some (.slot .empty),
        some .done, some (.fingerprints [.ofTwoWords 0 0]), some (.count 1)] := by
    decide +kernel
  have left : SlotCall.after SlotCall.performPlain emptied (List.replicate 3 .empty) =
      [.empty, .empty, .live (.ofTwoWords 0 0)] := by
    decide +kernel
  exact ⟨_, made, answers.trans plain, left ▸ acts⟩

/-- Beyond the end of an arena of one wide slot there are no slots, and asked for none of them it
does not fail. Without debug assertions a call that does fail changes the slot. -/
theorem changed_beyond_end :
    ∃ a, make .bits128 ⟨0, 16, 1⟩ 1 = .ok a ∧
      (SlotCall.collect 1 0).perform .debug a = (some (.fingerprints []), a) ∧
      (SlotCall.collect 1 0).perform .release a = (some (.fingerprints []), a) ∧
      ∃ b, (SlotCall.set 0 (.live (.ofTwoWords 7 9))).perform .release a = (some .done, b) ∧
        b.get? 0 = some (.live (.ofTwoWords 7 9)) ∧
        ((SlotCall.set 0x8000000000000000 (.live (.ofTwoWords 8 8))).perform .release b).1 =
          .none ∧
        ((SlotCall.set 0x8000000000000000 (.live (.ofTwoWords 8 8))).perform .release b).2.get? 0 =
          some (.live (.ofTwoWords 8 8)) := by
  have made : make .bits128 ⟨0, 16, 1⟩ 1 = .ok (blank .bits128 1) := by
    rfl
  have within : (0 : UInt64).toNat < (blank .bits128 1).size := by
    decide
  let b := (blank .bits128 1).set 0 (.live (.ofTwoWords 7 9))
  have first : (SlotCall.set 0 (.live (.ofTwoWords 7 9))).perform .release (blank .bits128 1) =
      (some .done, b) := by
    rw [SlotCall.perform, write_of_lt (by decide) within]
    rfl
  have stored : b.get? 0 = some (.live (.ofTwoWords 7 9)) := get?_set_self within _
  obtain ⟨failed, changed, _⟩ :=
    SlotCall.perform_of_strays (a := b) (by decide) (i := 0x8000000000000000) (k := 0) rfl
      within (s := .live (.ofTwoWords 8 8)) rfl
  refine ⟨_, made, rfl, rfl, b, first, stored, failed, ?_⟩
  rw [changed, stored]
  rfl

end Arena

end SeenStates
