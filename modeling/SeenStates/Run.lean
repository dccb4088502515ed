import SeenStates.Files
import SeenStates.Run.Header

/-!
# Runs

A run is a file of fingerprints in strictly ascending order behind a header. A run that is open is
mapped: it keeps the entries that the file held when it was mapped, whatever becomes of the file,
until it is unmapped. The sparse index holds the last entry of each block and stays in memory. A
look-up searches the index for the block and then the block for the entry.
-/
namespace SeenStates

/-- An open run. -/
structure Run (w : Width) where
  /-- The path of the file. -/
  path : String
  /-- The header of the file. -/
  header : RunHeader
  /-- The last entry of each block. -/
  index : Array (Fingerprint w)
  /-- The entries, while the run is mapped. -/
  mapped : Option (Array (Fingerprint w))

/-- Why an entry of a run cannot be read. -/
inductive RunAccess where
  /-- There are not so many entries. -/
  | outOfRange (i : Nat)
  /-- The run is not mapped. -/
  | unmapped (path : String)
deriving DecidableEq

/-- The text of a reason. -/
def RunAccess.message : RunAccess → String
  | outOfRange i => s!"run entry {i} out of range"
  | unmapped path => s!"disk run {path} accessed while unmapped"

/-- The first position, by halving the range, from which a property no longer holds. When the
property holds of the elements up to some position and of none from there on, it is that
position. `base` elements are known to have the property and `size` are left. -/
def partitionFrom {α : Type} (xs : Array α) (p : α → Bool) (base size : Nat) : Nat :=
  if 1 < size then
    let half := size / 2
    let base := if xs[base + half]?.any p then base + half else base
    partitionFrom xs p base (size - half)
  else if xs[base]?.any p then base + 1 else base
termination_by size
decreasing_by omega

/-- The first position from which a property no longer holds. -/
def partitionPoint {α : Type} (xs : Array α) (p : α → Bool) : Nat := partitionFrom xs p 0 xs.size

/-- Whether a fingerprint is found by halving the range from `low` up to `high`. -/
def halvingSearch {w : Width} (xs : Array (Fingerprint w)) (fp : Fingerprint w) (low high : Nat) :
    Bool :=
  if low < high then
    let middle := low + (high - low) / 2
    match xs[middle]? with
    | none => false
    | some found =>
      if found = fp then true
      else if found < fp then halvingSearch xs fp (middle + 1) high
      else halvingSearch xs fp low middle
  else false
termination_by high - low
decreasing_by all_goals omega

/-- The `n` entries at the front of a byte string. -/
def decodeEntries (w : Width) : Nat → Bytes → List (Fingerprint w)
  | 0, _ => []
  | n + 1, bytes =>
    Fingerprint.ofBytes w (bytes.take w.bytes) :: decodeEntries w n (bytes.drop w.bytes)

/-- Entries, and behind them the `n` in a file from a position on. -/
def readEntries {w : Width} (contents : ByteArray) (entries : Array (Fingerprint w))
    (position : Nat) : Nat → Array (Fingerprint w)
  | 0 => entries
  | n + 1 =>
    readEntries contents (entries.push (.readAt w contents position)) (position + w.bytes) n

/-- Entries are read in order. -/
theorem readEntries_eq {w : Width} {contents : ByteArray} (entries : Array (Fingerprint w))
    {position n : Nat} (within : position + n * w.bytes ≤ contents.size) :
    readEntries contents entries position n =
      entries ++ (decodeEntries w n (contents.data.toList.drop position)).toArray := by
  induction n generalizing entries position with
  | zero => simp [readEntries, decodeEntries]
  | succ n ih =>
    rw [Nat.add_mul, Nat.one_mul] at within
    rw [readEntries, ih _ (by omega), Fingerprint.readAt_eq (by omega)]
    simp [decodeEntries]

/-- The contents of a run file. -/
def encodeRun {w : Width} (blockEntries : Nat) (entries : Array (Fingerprint w)) : ByteArray :=
  entries.foldl Fingerprint.pushTo
    (RunHeader.mk w.bytes entries.size blockEntries).encode.toByteArray

/-- Entries that are written stand at the end of a file. -/
theorem toList_foldl_pushTo {w : Width} (contents : ByteArray) (entries : List (Fingerprint w)) :
    (entries.foldl Fingerprint.pushTo contents).data.toList =
      contents.data.toList ++ entries.flatMap Fingerprint.toBytes := by
  induction entries generalizing contents with
  | nil => simp
  | cons fp rest ih => simp [ih]

/-- A run file is a header and the bytes of the entries. -/
theorem toList_encodeRun {w : Width} (blockEntries : Nat) (entries : Array (Fingerprint w)) :
    (encodeRun blockEntries entries).data.toList =
      (RunHeader.mk w.bytes entries.size blockEntries).encode ++
        entries.toList.flatMap Fingerprint.toBytes := by
  rw [encodeRun, ← Array.foldl_toList, toList_foldl_pushTo]
  simp

/-- The header at the front of a file is read from its first bytes. -/
theorem decode_extract (contents : ByteArray) :
    RunHeader.decode (contents.extract 0 RunHeader.size).data.toList =
      RunHeader.decode contents.data.toList := by
  rw [toList_extract, List.drop_zero, Nat.sub_zero, RunHeader.decode_take]

/-- The header and the entries of a run file. -/
def parseRun (w : Width) (contents : ByteArray) :
    Except RunFault (RunHeader × Array (Fingerprint w)) := do
  let header ← RunHeader.decode (contents.extract 0 RunHeader.size).data.toList
  if header.entryBytes ≠ w.bytes then .error (.entryBytes header.entryBytes w.bytes)
  else
    match header.fileLength? with
    | none => .error (.tooMany header.count)
    | some expected =>
      if contents.size ≠ expected then .error (.length contents.size expected)
      else .ok (header, readEntries contents #[] RunHeader.size header.count)

/-- The last entry of each block. -/
def blockMaxima {w : Width} (blockEntries : Nat) (entries : Array (Fingerprint w)) :
    Array (Fingerprint w) :=
  let blocks := (RunHeader.mk w.bytes entries.size blockEntries).blockCount
  ((List.range blocks).filterMap fun k =>
    entries[min ((k + 1) * blockEntries) entries.size - 1]?).toArray

namespace Run

variable {w : Width}

/-- The header and the entries of the run file at a path. A directory can be opened, but not
mapped. -/
def map (w : Width) (files : Files) (path : String) :
    Except Error (RunHeader × Array (Fingerprint w)) :=
  match files.find path with
  | .error fault => .error (.file path fault)
  | .ok .directory => .error (.file path .uncategorized)
  | .ok (.file contents) => (parseRun w contents).mapError (.corruptRun path)

/-- Open the run at a path. -/
def «open» (w : Width) (files : Files) (path : String) : Except Error (Run w) := do
  let (header, entries) ← map w files path
  return ⟨path, header, blockMaxima header.blockEntries entries, some entries⟩

/-- Open the run at a path with an index that is known already. -/
def openWithIndex (files : Files) (path : String) (index : Array (Fingerprint w)) :
    Except Error (Run w) := do
  let (header, entries) ← map w files path
  if index.size ≠ header.blockCount then
    .error (.corruptRun path (.indexLength index.size header.blockCount))
  else if 0 < header.count ∧ index.back? ≠ entries.back? then
    .error (.corruptRun path .indexEnd)
  else .ok ⟨path, header, index, some entries⟩

/-- The count of entries. -/
def size (r : Run w) : Nat := r.header.count

/-- The entry at a position. -/
def get (r : Run w) (i : Nat) : Except RunAccess (Fingerprint w) :=
  if r.size ≤ i then .error (.outOfRange i)
  else
    match r.mapped with
    | none => .error (.unmapped r.path)
    | some entries =>
      match entries[i]? with
      | some fp => .ok fp
      | none => .error (.outOfRange i)

/-- The entries in order. There is nothing to read in an empty run, mapped or not. -/
def entries (r : Run w) : Except RunAccess (List (Fingerprint w)) :=
  if r.size = 0 then .ok []
  else
    match r.mapped with
    | none => .error (.unmapped r.path)
    | some entries => .ok entries.toList

/-- Whether a fingerprint is an entry. An unmapped run answers that it is not. -/
def contains (r : Run w) (fp : Fingerprint w) : Bool :=
  match r.mapped with
  | none => false
  | some entries =>
    let block := partitionPoint r.index fun last => last < fp
    if r.size = 0 || block = r.index.size then false
    else
      let low := block * r.header.blockEntries
      halvingSearch entries fp low (min (low + r.header.blockEntries) r.size)

/-- The run without its mapping. -/
def unmap (r : Run w) : Run w := { r with mapped := none }

/-- The run mapped again. A run that is mapped stays as it is. -/
def remap (files : Files) (r : Run w) : Except Error (Run w) :=
  match r.mapped with
  | some _ => .ok r
  | none => do
    let (header, entries) ← map w files r.path
    if header ≠ r.header then .error (.corruptRun r.path .changed)
    else .ok { r with mapped := some entries }

/-- The run as messages show it. -/
def shown (r : Run w) : String :=
  "DiskRun \x7b path: " ++ Text.quoted r.path ++ ", count: " ++ toString r.size ++
    ", blocks: " ++ toString r.index.size ++ ", mapped: " ++ toString r.mapped.isSome ++ " \x7d"

end Run

end SeenStates
