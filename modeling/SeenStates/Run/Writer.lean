import SeenStates.Files.Draft
import SeenStates.Run
import SeenStates.SortedMerge

/-!
# Writing runs

A run is written aside, in the directory of the file that it is to replace, and put in place as a
whole when it is complete. An entry is refused if it is out of order or if there is no room for it.
The writer keeps the sparse index as it goes: an entry that completes a block is the last of it.
A merge of streams with the entries of another run is added value by value; that comes to the same
as adding the merge of the lists (`mergeInto_eq`).
-/
namespace SeenStates

/-- A run in progress. -/
structure RunWriter (w : Width) where
  /-- The draft that it is written to. -/
  draft : Draft
  /-- The bytes that there is room for. -/
  room : Nat
  /-- The entries of a block. -/
  blockEntries : Nat
  /-- The entries so far. -/
  entries : Array (Fingerprint w)
  /-- The last entries of the complete blocks. -/
  index : Array (Fingerprint w)

/-- The entries of a block of a set's run. -/
def defaultBlockEntries : Nat := 1024

namespace RunWriter

variable {w : Width}

/-- Start a run that is to replace the file at a path, with room for its header. A block has at
least one entry. -/
def start (w : Width) (files : Files) (target : String) (blockEntries : Nat) :
    Except Error (RunWriter w × Files) :=
  let directory := Path.directory target
  match files.beginDraft directory (Path.fileName target) with
  | .error fault => .error (.file directory fault)
  | .ok (draft, files) =>
    match excess? files.room RunHeader.size with
    | some fault => .error (.file directory fault)
    | none => .ok (⟨draft, files.room, max blockEntries 1, #[], #[]⟩, files)

/-- Give a run up. -/
def discard (r : RunWriter w) (files : Files) : Files := files.dropDraft r.draft

/-- The count of entries so far. -/
def size (r : RunWriter w) : Nat := r.entries.size

/-- The run with an entry added. -/
def extended (r : RunWriter w) (fp : Fingerprint w) : RunWriter w :=
  let index :=
    if (r.entries.size + 1) % r.blockEntries = 0 then r.index.push fp else r.index
  { r with entries := r.entries.push fp, index }

/-- Why an entry is out of order: it has to be greater than the last one. -/
def disorder? (r : RunWriter w) (fp : Fingerprint w) : Option Error :=
  r.entries.back?.bind fun last =>
    if fp ≤ last then some (.invariant (.unordered fp.shown last.shown)) else none

/-- The bytes that the file has when it has `n` entries. -/
def bytesOf (w : Width) (n : Nat) : Nat := RunHeader.size + n * w.bytes

/-- Why an entry is refused: it is out of order, or there is no room for it. -/
def refusal? (r : RunWriter w) (fp : Fingerprint w) : Option Error :=
  match r.disorder? fp with
  | some e => some e
  | none =>
    (excess? r.room (bytesOf w (r.entries.size + 1))).map (.file r.draft.directory)

/-- Add entries up to the first that is refused. -/
def pushAll (r : RunWriter w) : List (Fingerprint w) → RunWriter w × Option Error
  | [] => (r, none)
  | fp :: rest =>
    match r.refusal? fp with
    | none => (r.extended fp).pushAll rest
    | some e => (r, some e)

/-- The last entries of all blocks, a short last one included. -/
def finalIndex (r : RunWriter w) : Array (Fingerprint w) :=
  if r.entries.size % r.blockEntries = 0 then r.index
  else r.entries.back?.elim r.index r.index.push

/-- The contents of the run's file. -/
def contents (r : RunWriter w) : ByteArray := encodeRun r.blockEntries r.entries

/-- Put the run in place at a path, or give it up. -/
def commit (r : RunWriter w) (files : Files) (target : String) : Except Error Unit × Files :=
  match files.commitDraft r.draft target r.contents with
  | .error fault => (.error (.file target fault), r.discard files)
  | .ok files => (.ok (), files)

/-- Put the run in place at a path and open it: the run, or why it is not open, and the files
afterwards. -/
def finish (r : RunWriter w) (files : Files) (target : String) : Except Error (Run w) × Files :=
  match r.commit files target with
  | (.error e, files) => (.error e, files)
  | (.ok (), files) => (Run.openWithIndex files target r.finalIndex, files)

end RunWriter

/-- Create an empty run at a path. -/
def Run.createEmpty (w : Width) (files : Files) (path : String) : Except Error (Run w) × Files :=
  match RunWriter.start w files path defaultBlockEntries with
  | .error e => (.error e, files)
  | .ok (writer, files) => writer.finish files path

/-- What a merge into a new run came to. -/
structure MergeCounts where
  /-- The entries written. -/
  written : Nat
  /-- The values that were in two places. -/
  duplicates : Nat
deriving DecidableEq

/-- The merge of two lists in memory with the entries of a run. -/
def mergeThree {w : Width} (memory overflow previous : List (Fingerprint w)) :
    List (Fingerprint w) × Nat :=
  let inMemory := merge memory overflow
  let all := merge (mergedValues inMemory) previous
  (mergedValues all, duplicates inMemory + duplicates all)

namespace RunWriter

variable {w : Width}

/-- Add the values that a stream gives, up to the first that is refused. The answer is what the
stream is at its end, or why a value is refused. -/
def pushStream {σ : Type} [Stream σ (Fingerprint w)] (r : RunWriter w) (s : σ) :
    RunWriter w × Except Error σ :=
  match answer : Stream.next s with
  | (none, u) => (r, .ok u)
  | (some fp, u) =>
    match r.refusal? fp with
    | none =>
      have := Stream.length_rest_lt answer
      (r.extended fp).pushStream u
    | some e => (r, .error e)
termination_by (Stream.rest s).length

/-- The values that a stream gives are those that are to come, and it takes one more call to see
that there are no more. -/
theorem pushStream_eq {σ : Type} [Stream σ (Fingerprint w)] (r : RunWriter w) (s : σ) :
    r.pushStream s =
      match r.pushAll (Stream.rest s) with
      | (q, none) => (q, .ok (Stream.after s ((Stream.rest s).length + 1)))
      | (q, some e) => (q, .error e) := by
  fun_induction pushStream r s with
  | case1 r s u answer =>
    rw [(Stream.rest_of_none answer).1]
    simp [pushAll, Stream.after, answer]
  | case2 r s fp u answer accepted _ ih =>
    rw [ih, Stream.rest_of_some answer]
    simp [pushAll, accepted, Stream.after, answer]
  | case3 r s fp u answer e refused =>
    rw [Stream.rest_of_some answer]
    simp [pushAll, refused]

end RunWriter

variable {w : Width} {σ τ : Type} [Stream σ (Fingerprint w)] [Stream τ (Fingerprint w)]

/-- Merge two streams in memory with the entries of a run into a writer. -/
def mergeInto (memory : σ) (overflow : τ) (previous : Array (Fingerprint w)) (r : RunWriter w) :
    RunWriter w × Except Error MergeCounts :=
  let inMemory := SortedMerge.start memory overflow
  match r.pushStream (SortedMerge.start inMemory (ArrayReader.mk previous 0)) with
  | (r, .ok all) => (r, .ok ⟨r.size, all.left.stream.counted + all.counted⟩)
  | (r, .error e) => (r, .error e)

/-- Merging into a writer adds the merge of all three. -/
theorem mergeInto_eq (memory : σ) (overflow : τ) (previous : Array (Fingerprint w))
    (r : RunWriter w) :
    mergeInto memory overflow previous r =
      let (values, count) :=
        mergeThree (Stream.rest memory) (Stream.rest overflow) previous.toList
      match r.pushAll values with
      | (r, none) => (r, .ok ⟨r.size, count⟩)
      | (r, some e) => (r, .error e) := by
  generalize inMemory_eq : SortedMerge.start memory overflow = inMemory
  generalize all_eq : SortedMerge.start inMemory (ArrayReader.mk previous 0) = all
  have pending : inMemory.pending = merge (Stream.rest memory) (Stream.rest overflow) := by
    rw [← inMemory_eq]
    rfl
  have pending' : all.pending = merge (mergedValues inMemory.pending) previous.toList := by
    rw [← all_eq]
    rfl
  have length : (Stream.rest all).length = all.pending.length := List.length_map ..
  generalize last_eq : Stream.after all ((Stream.rest all).length + 1) = last
  -- At the end both merges have given all they had, so they have counted all there was to count.
  have ended : last.pending = [] := by
    rw [← last_eq, SortedMerge.pending_after, length]
    exact List.drop_eq_nil_of_le (Nat.le_succ _)
  have counted : last.counted = duplicates all.pending := by
    rw [SortedMerge.counted_of_ended ended, ← last_eq, SortedMerge.found_after, SortedMerge.found,
      ← all_eq]
    exact Nat.zero_add _
  have counted' : last.left.stream.counted = duplicates inMemory.pending := by
    rw [SortedMerge.counted_of_ended (SortedMerge.pending_left ended), ← last_eq,
      SortedMerge.found_left_after, ← all_eq, SortedMerge.found, ← inMemory_eq]
    exact Nat.zero_add _
  have values : Stream.rest all = mergedValues all.pending := rfl
  simp only [mergeInto, inMemory_eq, all_eq, RunWriter.pushStream_eq, last_eq]
  simp only [values, mergeThree, ← pending, ← pending']
  generalize r.pushAll _ = pushed
  obtain ⟨q, fault⟩ := pushed
  cases fault with
  | none => simp only [counted, counted']
  | some e => rfl

end SeenStates
