import SeenStates.Error
import SeenStates.Fingerprint
import SeenStates.Limits
import SeenStates.SparseArray

/-!
# Slot arenas

The slots of one region of a table. Their states and the words of their fingerprints are in two
buffers, so that every number is an ordinary fingerprint and the words of a slot that is empty are
never read. Both buffers are sparse arrays: every slot of a new arena is empty, and a table may be
much larger than what is put into it. `get?` says what each slot holds; what is asked of several
slots at once is said in terms of `slice`, the slots as a list.
-/
namespace SeenStates

/-- What a slot of a table holds. -/
inductive Slot (w : Width) where
  /-- Nothing was written since the table was set up. -/
  | empty
  /-- A fingerprint that is in memory only. -/
  | live (fp : Fingerprint w)
  /-- A fingerprint that is in the run as well; the slot can be used again. -/
  | archived (fp : Fingerprint w)
deriving DecidableEq

namespace Slot

variable {w : Width}

/-- The fingerprint of a slot, live or archived. -/
def fingerprint? : Slot w → Option (Fingerprint w)
  | empty => none
  | live fp => some fp
  | archived fp => some fp

/-- The fingerprint of a live slot. -/
def live? : Slot w → Option (Fingerprint w)
  | live fp => some fp
  | _ => none

/-- The slot after a flush. -/
def archive : Slot w → Slot w
  | live fp => archived fp
  | s => s

end Slot

/-- The state of a slot. -/
inductive Tag where
  /-- The slot is empty. -/
  | empty
  /-- It holds a fingerprint that is in memory only. -/
  | live
  /-- It holds a fingerprint that is in the run as well. -/
  | archived
deriving DecidableEq

/-- The state of a slot that holds this. -/
def Slot.tag {w : Width} : Slot w → Tag
  | empty => .empty
  | live _ => .live
  | archived _ => .archived

/-- The state after a flush. -/
def Tag.archive : Tag → Tag
  | live => archived
  | t => t

/-! ## Words in a buffer -/

namespace Fingerprint

variable {w : Width} {words : SparseArray (0 : UInt64)}

/-- A buffer with the words of a fingerprint from a position on, the most significant one first. -/
def storeIn (fp : Fingerprint w) (words : SparseArray (0 : UInt64)) (start : Nat) :
    SparseArray (0 : UInt64) :=
  match w with
  | .bits64 => words.set start (UInt64.ofNat fp.value)
  | .bits128 =>
    (words.set start (UInt64.ofNat (fp.value >>> wordBits))).set (start + 1)
      (UInt64.ofNat fp.value)

/-- The fingerprint whose words are in a buffer from a position on. -/
def loadFrom (w : Width) (words : SparseArray (0 : UInt64)) (start : Nat) : Fingerprint w :=
  match w with
  | .bits64 => ofWord (words.read start)
  | .bits128 => ofTwoWords (words.read start) (words.read (start + 1))

/-- Storing a fingerprint keeps the count of words. -/
@[simp] theorem size_storeIn (fp : Fingerprint w) (words : SparseArray (0 : UInt64))
    (start : Nat) : (fp.storeIn words start).size = words.size := by
  cases w <;> simp [storeIn]

/-- A fingerprint is stored as its words. -/
theorem window_storeIn (fp : Fingerprint w) {start : Nat}
    (within : start + w.words ≤ words.size) :
    window (fp.storeIn words start).get? start w.words = fp.toWords := by
  cases w with
  | bits64 =>
    rw [show Width.bits64.words = 1 from rfl] at within ⊢
    rw [storeIn, toWords_narrow, window_one, SparseArray.get?_set_self within]
    rfl
  | bits128 =>
    rw [show Width.bits128.words = 1 + 1 from rfl] at within ⊢
    have low : start + 1 < (words.set start (UInt64.ofNat (fp.value >>> wordBits))).size := by
      rw [SparseArray.size_set]
      exact within
    rw [storeIn, toWords_wide, window_add, window_one, window_one,
      SparseArray.get?_set_of_ne (by omega), SparseArray.get?_set_self (by omega),
      SparseArray.get?_set_self low]
    rfl

/-- The words at positions that are not those of the fingerprint stay. -/
theorem window_storeIn_of_apart (fp : Fingerprint w) {start other n : Nat}
    (apart : other + n ≤ start ∨ start + w.words ≤ other) :
    window (fp.storeIn words start).get? other n = window words.get? other n := by
  refine window_congr fun i first last => ?_
  cases w with
  | bits64 =>
    rw [show Width.bits64.words = 1 from rfl] at apart
    exact SparseArray.get?_set_of_ne (by omega) _
  | bits128 =>
    rw [show Width.bits128.words = 2 from rfl] at apart
    rw [storeIn, SparseArray.get?_set_of_ne (by omega), SparseArray.get?_set_of_ne (by omega)]

/-- A fingerprint is loaded from the words that are there. -/
theorem loadFrom_eq {start : Nat} (within : start + w.words ≤ words.size) :
    loadFrom w words start = ofWords w (window words.get? start w.words) := by
  cases w with
  | bits64 =>
    rw [show Width.bits64.words = 1 from rfl] at within ⊢
    rw [window_one, SparseArray.get?_eq_some within]
    exact (ofWords_singleton _).symm
  | bits128 =>
    rw [show Width.bits128.words = 1 + 1 from rfl] at within ⊢
    rw [window_add, window_one, window_one, SparseArray.get?_eq_some (by omega),
      SparseArray.get?_eq_some (by omega)]
    exact (ofWords_pair _ _).symm

/-- What was stored is loaded. -/
theorem loadFrom_storeIn (fp : Fingerprint w) {start : Nat}
    (within : start + w.words ≤ words.size) :
    loadFrom w (fp.storeIn words start) start = fp := by
  rw [loadFrom_eq (by rwa [size_storeIn]), window_storeIn fp within, ofWords_toWords]

/-- What has other words is loaded as before. -/
theorem loadFrom_storeIn_of_apart (fp : Fingerprint w) {start other : Nat}
    (apart : other + w.words ≤ start ∨ start + w.words ≤ other)
    (within : other + w.words ≤ words.size) :
    loadFrom w (fp.storeIn words start) other = loadFrom w words other := by
  rw [loadFrom_eq (by rwa [size_storeIn]), loadFrom_eq within, window_storeIn_of_apart fp apart]

end Fingerprint

/-! ## The arena -/

/-- A buffer of slots. -/
structure Arena (w : Width) where
  /-- The state of each slot. -/
  tags : SparseArray Tag.empty
  /-- The words of all slots, as many for each slot as a fingerprint has. -/
  words : SparseArray (0 : UInt64)
  /-- Each slot has its words. -/
  size_words : words.size = tags.size * w.words

namespace Arena

variable {w : Width}

/-- The bytes that `slots` slots count for. -/
def bytesFor (w : Width) (slots : Nat) : Nat := saturatingMul slots w.slotBytes

/-- An arena of `n` empty slots. -/
def blank (w : Width) (n : Nat) : Arena w := ⟨.blank n, .blank (n * w.words), rfl⟩

/-- An arena without slots. -/
def none : Arena w := blank w 0

instance : Inhabited (Arena w) := ⟨none⟩

/-- An arena of `n` empty slots, if their words can be counted and are granted a block of memory. -/
def make (w : Width) (machine : Machine) (n : Nat) : Except Error (Arena w) :=
  if countLimit ≤ n * w.words then .error (.allocation (countLimit - 1))
  else if machine.grants (n * w.words * 8) then .ok (blank w n)
  else .error (.allocation (bytesFor w n))

/-- The count of slots. -/
def size (a : Arena w) : Nat := a.tags.size

/-- The bytes that the slots count for. -/
def bytes (a : Arena w) : Nat := bytesFor w a.size

/-- The fingerprint whose words a slot has, whether or not it holds one. -/
def load (a : Arena w) (i : Nat) : Fingerprint w := .loadFrom w a.words (i * w.words)

/-- The slot at a position, if there is one. -/
def get? (a : Arena w) (i : Nat) : Option (Slot w) :=
  match a.tags.get? i with
  | .none => .none
  | some .empty => some .empty
  | some .live => some (.live (a.load i))
  | some .archived => some (.archived (a.load i))

/-- The arena with another slot at a position; it stays as it is if there is no such position. The
words of a slot that is emptied stay. -/
def set : Arena w → Nat → Slot w → Arena w
  | ⟨tags, words, sized⟩, i, .empty => ⟨tags.set i .empty, words, by simpa using sized⟩
  | ⟨tags, words, sized⟩, i, .live fp =>
    ⟨tags.set i .live, fp.storeIn words (i * w.words), by simpa using sized⟩
  | ⟨tags, words, sized⟩, i, .archived fp =>
    ⟨tags.set i .archived, fp.storeIn words (i * w.words), by simpa using sized⟩

/-- The arena with its live slots archived. -/
def archiveLive : Arena w → Arena w
  | ⟨tags, words, sized⟩ => ⟨tags.map Tag.archive rfl, words, sized⟩

/-- The arena with all slots empty. All words stay. -/
def clear : Arena w → Arena w
  | ⟨tags, words, sized⟩ => ⟨.blank tags.size, words, sized⟩

/-- There is no slot at a position beyond the end, and only there. -/
theorem get?_eq_none_iff {a : Arena w} {i : Nat} : a.get? i = .none ↔ a.size ≤ i := by
  rw [size, ← SparseArray.get?_eq_none_iff, get?]
  cases a.tags.get? i with
  | none => simp
  | some tag => cases tag <;> simp

/-- Setting a slot keeps the count. -/
@[simp] theorem size_set (a : Arena w) (i : Nat) (s : Slot w) : (a.set i s).size = a.size := by
  cases s <;> exact SparseArray.size_set ..

/-- The words of a slot are among those of all slots. -/
theorem words_within {a : Arena w} {i : Nat} (within : i < a.size) :
    i * w.words + w.words ≤ a.words.size := by
  rw [a.size_words, ← Nat.succ_mul]
  exact Nat.mul_le_mul_right _ within

/-- A slot that was set is there. -/
theorem get?_set_self {a : Arena w} {i : Nat} (within : i < a.size) (s : Slot w) :
    (a.set i s).get? i = some s := by
  have tag : ∀ tag, (a.tags.set i tag).get? i = some tag := SparseArray.get?_set_self within
  cases s with
  | empty => simp only [get?, set, tag]
  | live fp =>
    simp only [get?, set, tag, load, Fingerprint.loadFrom_storeIn fp (words_within within)]
  | archived fp =>
    simp only [get?, set, tag, load, Fingerprint.loadFrom_storeIn fp (words_within within)]

/-- A slot is known by its state and, unless it is empty, its words. -/
theorem get?_congr {a b : Arena w} {i : Nat} (state : b.tags.get? i = a.tags.get? i)
    (words : i < a.size → a.get? i ≠ some .empty → b.load i = a.load i) :
    b.get? i = a.get? i := by
  cases tag : a.tags.get? i with
  | none => simp only [get?, state, tag]
  | some t =>
    have within : i < a.size := by
      rw [size, ← Nat.not_le, ← SparseArray.get?_eq_none_iff, tag]
      simp
    cases t with
    | empty => simp only [get?, state, tag]
    | live => simp only [get?, state, tag, words within (by simp [get?, tag])]
    | archived => simp only [get?, state, tag, words within (by simp [get?, tag])]

/-- The words of two slots are apart. -/
theorem words_apart {i j : Nat} (other : j ≠ i) (n : Nat) :
    j * n + n ≤ i * n ∨ i * n + n ≤ j * n := by
  rw [← Nat.succ_mul, ← Nat.succ_mul]
  exact (Nat.lt_or_gt_of_ne other).imp (Nat.mul_le_mul_right n) (Nat.mul_le_mul_right n)

/-- Setting a slot leaves every other one alone. -/
theorem get?_set_of_ne {a : Arena w} {i j : Nat} (other : j ≠ i) (s : Slot w) :
    (a.set i s).get? j = a.get? j := by
  apply get?_congr
  case state => cases s <;> exact SparseArray.get?_set_of_ne other _
  case words =>
    intro within _
    have stored (fp : Fingerprint w) :=
      fp.loadFrom_storeIn_of_apart (words_apart other w.words) (words_within within)
    cases s with
    | empty => rfl
    | live fp => exact stored fp
    | archived fp => exact stored fp

/-- Archiving is done slot by slot. -/
theorem get?_archiveLive (a : Arena w) (i : Nat) :
    a.archiveLive.get? i = (a.get? i).map Slot.archive := by
  have state : a.archiveLive.tags.get? i = (a.tags.get? i).map Tag.archive :=
    SparseArray.get?_map a.tags Tag.archive rfl i
  rw [get?, state, get?]
  cases a.tags.get? i with
  | none => rfl
  | some tag => cases tag <;> rfl

/-- The slots of a new arena are empty. -/
theorem get?_blank (n i : Nat) : (blank w n).get? i = if i < n then some .empty else .none := by
  have state : (blank w n).tags.get? i = if i < n then some .empty else .none :=
    SparseArray.get?_blank ..
  rw [get?, state]
  by_cases within : i < n <;> simp [within]

/-- The slots of a cleared arena are empty. -/
theorem get?_clear (a : Arena w) (i : Nat) :
    a.clear.get? i = if i < a.size then some .empty else .none := by
  have state : a.clear.tags.get? i = if i < a.size then some .empty else .none :=
    SparseArray.get?_blank ..
  rw [get?, state]
  by_cases within : i < a.size <;> simp [within]

/-- The `n` slots from a position on, those that are out of range left out. -/
def slice (a : Arena w) (offset n : Nat) : List (Slot w) := window a.get? offset n

/-- The slots from a position on are the one there and those behind it. -/
theorem slice_succ (a : Arena w) (offset n : Nat) :
    a.slice offset (n + 1) = (a.get? offset).toList ++ a.slice (offset + 1) n :=
  window_succ ..

/-- There are no slots behind a position where there is none. -/
theorem slice_of_get?_eq_none {a : Arena w} {offset : Nat} (absent : a.get? offset = .none)
    (n : Nat) : a.slice offset n = [] :=
  window_eq_nil fun _ first _ => get?_eq_none_iff.2 (Nat.le_trans (get?_eq_none_iff.1 absent) first)

/-- The live fingerprints of the `n` slots from a position on. -/
def liveIn (a : Arena w) (offset n : Nat) : List (Fingerprint w) :=
  a.tags.collect (fun i tag => if tag = .live then some (a.load i) else .none) offset n

/-- The live fingerprints are those of the live slots, in order. -/
theorem liveIn_eq (a : Arena w) (offset n : Nat) :
    a.liveIn offset n = (a.slice offset n).filterMap Slot.live? := by
  rw [liveIn, SparseArray.collect_eq (fun _ => rfl), slice, filterMap_window]
  refine window_congr fun i _ _ => ?_
  rw [get?]
  cases a.tags.get? i with
  | none => rfl
  | some tag => cases tag <;> rfl

/-- The live fingerprints of the `n` slots from a position on, if there are so many. -/
def liveIn? (a : Arena w) (offset n : Nat) : Option (List (Fingerprint w)) :=
  if offset + n ≤ a.size then some (a.liveIn offset n) else .none

/-- The count of live slots. -/
def liveCount (a : Arena w) : Nat :=
  (a.tags.collect (fun _ tag => if tag = .live then some tag else .none) 0 a.size).length

/-- The live slots are as many as their fingerprints. -/
theorem liveCount_eq (a : Arena w) : a.liveCount = (a.liveIn 0 a.size).length := by
  have each : a.tags.collect (fun _ tag => if tag = .live then some tag else .none) 0 a.size =
      (a.liveIn 0 a.size).map fun _ => Tag.live := by
    rw [SparseArray.collect_eq (fun _ => rfl), liveIn, SparseArray.collect_eq (fun _ => rfl),
      ← List.filterMap_eq_map', filterMap_window]
    refine window_congr fun i _ _ => ?_
    cases a.tags.get? i with
    | none => rfl
    | some tag => cases tag <;> rfl
  rw [liveCount, each, List.length_map]

/-- The arena as messages show it. -/
def shown (a : Arena w) : String :=
  "SlotArena \x7b slots: " ++ toString a.size ++ ", bytes: " ++ toString a.bytes ++ " \x7d"

end Arena

/-! ## Writing to a slot

A slot is addressed by a word, and where its words are is reckoned in words as well. A program that
is built with its debug assertions looks first whether there is such a slot. One that is built
without them stores the words of a fingerprint wherever that leads to, and finds out when it goes on
to the state of the slot.
-/

/-- How the program is built. -/
inductive Build where
  /-- With its debug assertions. -/
  | debug
  /-- Without them. -/
  | release
deriving DecidableEq

namespace Arena

variable {w : Width}

/-- Where the words of a slot start, reckoned modulo `2 ^ 64`, if the arena has words there. -/
def wordsAt? (a : Arena w) (i : UInt64) : Option Nat :=
  let first := i * UInt64.ofNat w.words
  let last := first + UInt64.ofNat w.words
  if first ≤ last ∧ last.toNat ≤ a.words.size then some first.toNat else .none

/-- The arena with the words of a fingerprint from a position on. The states of the slots stay. -/
def withWords : Arena w → Fingerprint w → Nat → Arena w
  | ⟨tags, words, sized⟩, fp, first => ⟨tags, fp.storeIn words first, by simpa using sized⟩

/-- Put a slot into another state, if there is such a slot. All words stay. -/
def mark : Arena w → UInt64 → Tag → Option Unit × Arena w
  | ⟨tags, words, sized⟩, i, tag =>
    if i.toNat < tags.size then (some (), ⟨tags.set i.toNat tag, words, by simpa using sized⟩)
    else (.none, ⟨tags, words, sized⟩)

/-- Put something else into a slot. What was stored before a failure stays. -/
def write (build : Build) (a : Arena w) (i : UInt64) (s : Slot w) : Option Unit × Arena w :=
  if build = .debug ∧ a.size ≤ i.toNat then (.none, a)
  else
    match s.fingerprint? with
    | .none => a.mark i s.tag
    | some fp =>
      match a.wordsAt? i with
      | .none => (.none, a)
      | some first => (a.withWords fp first).mark i s.tag

end Arena

/-! ## Calls -/

/-- A call of an operation of an arena. -/
inductive SlotCall (w : Width) where
  /-- Ask for a slot. -/
  | get (i : UInt64)
  /-- Put something else into a slot. -/
  | set (i : UInt64) (s : Slot w)
  /-- Archive the live slots. -/
  | archive
  /-- Empty all slots. -/
  | clear
  /-- Ask for the live fingerprints of the slots from a position on. -/
  | collect (offset n : UInt64)
  /-- Ask how many slots are live. -/
  | count

/-- What an arena answers. -/
inductive SlotAnswer (w : Width) where
  /-- It did what it was asked for. -/
  | done
  /-- A slot. -/
  | slot (s : Slot w)
  /-- Fingerprints. -/
  | fingerprints (fps : List (Fingerprint w))
  /-- A count of slots. -/
  | count (n : Nat)
deriving DecidableEq

/-- What a call comes to: the answer, and the arena after it. There is no answer to a call for slots
that there are not. The call that archives answers how many slots it changes. -/
def SlotCall.perform {w : Width} (build : Build) :
    SlotCall w → Arena w → Option (SlotAnswer w) × Arena w
  | get i, a => ((a.get? i.toNat).map .slot, a)
  | set i s, a =>
    let (done, a) := a.write build i s
    (done.map fun _ => .done, a)
  | archive, a =>
    let live := a.liveCount
    (some (.count live), a.archiveLive)
  | clear, a => (some .done, a.clear)
  | collect offset n, a => ((a.liveIn? offset.toNat n.toNat).map .fingerprints, a)
  | count, a => (some (.count a.liveCount), a)

end SeenStates
