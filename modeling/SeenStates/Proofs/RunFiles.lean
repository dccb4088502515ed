import SeenStates.Proofs.FileFrames
import SeenStates.Proofs.Merging
import SeenStates.Proofs.RunFormat

/-!
# Putting a run in place

A run that was written in step is put in place and open again, or nothing has changed: once its
file is in place nothing can go wrong any more (`RunWriter.finish_cases`). A run that is given up
leaves the files as they were before it was started.
-/
namespace SeenStates

variable {w : Width}

/-- The open run of entries that are in the file at a path. -/
def Run.ofEntries (path : String) (blockEntries : Nat) (entries : Array (Fingerprint w)) : Run w :=
  ⟨path, ⟨w.bytes, entries.size, blockEntries⟩, blockMaxima blockEntries entries, some entries⟩

/-- It holds them if they are in order. -/
theorem Run.holds_ofEntries (path : String) {blockEntries : Nat} (blocks : 0 < blockEntries)
    {entries : Array (Fingerprint w)} (ascending : Ascending entries.toList) :
    (Run.ofEntries path blockEntries entries).Holds entries :=
  ⟨rfl, ascending, rfl, blocks, rfl⟩

/-- Entries whose file can be written, in blocks that its header has room for. -/
structure Storable (blockEntries : Nat) (entries : Array (Fingerprint w)) : Prop where
  /-- A block has an entry. -/
  filled : 0 < blockEntries
  /-- The header has room for the entries of a block. -/
  blocks : blockEntries < smallLimit
  /-- The file can be written. -/
  length : RunWriter.bytesOf w entries.size ≤ largestFile

/-- A file that is a run of the given header and entries. -/
def IsRun (w : Width) (contents : ByteArray) (header : RunHeader)
    (entries : Array (Fingerprint w)) : Prop :=
  parseRun w contents = .ok (header, entries)

/-- A run that is written is a run of what was written. -/
theorem isRun_encodeRun {blockEntries : Nat} {entries : Array (Fingerprint w)}
    (storable : Storable blockEntries entries) :
    IsRun w (encodeRun blockEntries entries) ⟨w.bytes, entries.size, blockEntries⟩ entries := by
  have length : RunHeader.size + entries.size * w.bytes < countLimit :=
    Nat.lt_of_le_of_lt storable.length (by decide)
  exact parseRun_encodeRun storable.filled storable.blocks length

/-- A run file has its header at its front, entries of the width, and the length that its header
says. -/
theorem IsRun.header_and_length {contents : ByteArray} {header : RunHeader}
    {entries : Array (Fingerprint w)} (isRun : IsRun w contents header entries) :
    RunHeader.decode contents.data.toList = .ok header ∧ header.entryBytes = w.bytes ∧
      header.fileLength? = some contents.size := by
  unfold IsRun parseRun at isRun
  rw [decode_extract] at isRun
  cases decoded : RunHeader.decode contents.data.toList with
  | error fault => simp only [decoded, bind, Except.bind, reduceCtorEq] at isRun
  | ok found =>
    simp only [decoded, bind, Except.bind] at isRun
    split at isRun
    · contradiction
    · next bytes =>
      split at isRun
      · contradiction
      · next expected length =>
        split at isRun
        · contradiction
        · next long =>
          obtain ⟨rfl, _⟩ := Prod.mk.inj (Except.ok.inj isRun)
          exact ⟨rfl, Decidable.not_not.1 bytes, Decidable.not_not.1 long ▸ length⟩

/-- A run file has the length that its header says. -/
theorem IsRun.size_eq {contents : ByteArray} {header : RunHeader}
    {entries : Array (Fingerprint w)} (isRun : IsRun w contents header entries) :
    contents.size = RunHeader.size + header.count * w.bytes := by
  obtain ⟨_, bytes, length⟩ := isRun.header_and_length
  rw [RunHeader.eq_of_fileLength? length, bytes]

/-- The header of a run file stands at its front. -/
theorem IsRun.decode_eq {contents : ByteArray} {header : RunHeader}
    {entries : Array (Fingerprint w)} (isRun : IsRun w contents header entries) :
    RunHeader.decode contents.data.toList = .ok header := isRun.header_and_length.1

/-- The front of a run file is no run file, unless it is all of it. -/
theorem IsRun.of_extract {contents : ByteArray} {header other : RunHeader}
    {entries others : Array (Fingerprint w)} (isRun : IsRun w contents header entries) {n : Nat}
    (front : IsRun w (contents.extract 0 n) other others) : others = entries := by
  have decoded := front.decode_eq
  rw [toList_extract, List.drop_zero, Nat.sub_zero] at decoded
  -- A header is not read from fewer bytes than it has.
  have long : RunHeader.size ≤ n := by
    refine Decidable.byContradiction fun short => ?_
    have few : (contents.data.toList.take n).length < RunHeader.size := by
      rw [List.length_take]
      omega
    simp only [RunHeader.decode, if_pos few, reduceCtorEq] at decoded
  rw [← RunHeader.decode_take, List.take_take, Nat.min_eq_left long, RunHeader.decode_take,
    isRun.decode_eq] at decoded
  obtain rfl := Except.ok.inj decoded
  have whole : contents.extract 0 n = contents := by
    have same : (contents.extract 0 n).size = contents.size :=
      front.size_eq.trans isRun.size_eq.symm
    rw [ByteArray.size_extract] at same
    refine ByteArray.ext (Array.ext' ?_)
    rw [toList_extract, List.drop_zero, Nat.sub_zero, List.take_of_length_le]
    rw [Array.length_toList, ByteArray.size_data]
    omega
  rw [whole] at front
  exact (Prod.mk.inj (Except.ok.inj (Eq.trans (Eq.symm front) isRun))).2

/-- A run file is mapped as what it is. -/
theorem Run.map_of_find {files : Files} {path : String} {contents : ByteArray} {header : RunHeader}
    {entries : Array (Fingerprint w)} (isRun : IsRun w contents header entries)
    (found : files.find path = .ok (.file contents)) :
    Run.map w files path = .ok (header, entries) := by
  have parsed : parseRun w contents = .ok (header, entries) := isRun
  simp only [Run.map, found, parsed]
  rfl

/-- What is mapped is a run file. -/
theorem Run.map_eq_ok {files : Files} {path : String} {header : RunHeader}
    {entries : Array (Fingerprint w)} (mapped : Run.map w files path = .ok (header, entries)) :
    ∃ contents, files.find path = .ok (.file contents) ∧ IsRun w contents header entries := by
  unfold Run.map at mapped
  split at mapped
  · contradiction
  · contradiction
  · next contents found =>
    refine ⟨contents, found, ?_⟩
    cases parsed : parseRun w contents with
    | error fault =>
      rw [parsed] at mapped
      contradiction
    | ok pair =>
      rw [parsed] at mapped
      obtain rfl := Except.ok.inj mapped
      exact parsed

/-- A run file is opened with the index that goes with its entries. -/
theorem Run.openWithIndex_of_find {files : Files} {path : String} {contents : ByteArray}
    {blockEntries : Nat} {entries : Array (Fingerprint w)} (filled : 0 < blockEntries)
    (isRun : IsRun w contents ⟨w.bytes, entries.size, blockEntries⟩ entries)
    (found : files.find path = .ok (.file contents)) :
    Run.openWithIndex files path (blockMaxima blockEntries entries) =
      .ok (Run.ofEntries path blockEntries entries) := by
  have last : 0 < entries.size → (blockMaxima blockEntries entries).back? = entries.back? :=
    back?_blockMaxima filled entries
  simp only [Run.openWithIndex, Run.map_of_find isRun found, bind, Except.bind,
    size_blockMaxima filled, ne_eq, not_true_eq_false, if_false]
  rw [if_neg fun wrong => wrong.2 (last wrong.1)]
  rfl

namespace RunWriter

/-- A writer in step has entries that can be stored. -/
theorem InStep.storable {r : RunWriter w} (inStep : r.InStep)
    (blocks : r.blockEntries < smallLimit) :
    Storable r.blockEntries r.entries :=
  ⟨inStep.blocks, blocks, (excess?_eq_none_iff.1 inStep.fits).1⟩

/-- A run whose draft is put in place is open. -/
theorem InStep.finish_of_commitDraft {r : RunWriter w} (inStep : r.InStep)
    (blocks : r.blockEntries < smallLimit) {files after : Files} {target : String} {l : Location}
    (takes : after.Takes target l)
    (committed : files.commitDraft r.draft target r.contents =
      .ok (after.place l (.file r.contents))) :
    r.finish files target =
      (.ok (Run.ofEntries target r.blockEntries r.entries),
        after.place l (.file r.contents)) := by
  have there := Files.find_of_locate (takes.locate_place r.contents)
  have isRun : IsRun w r.contents ⟨w.bytes, r.entries.size, r.blockEntries⟩ r.entries :=
    isRun_encodeRun (inStep.storable blocks)
  simp only [finish, commit, committed, inStep.finalIndex_eq,
    Run.openWithIndex_of_find inStep.blocks isRun there]

/-- A run that is finished is in place and open, or it is given up. -/
theorem InStep.finish_cases {r : RunWriter w} (inStep : r.InStep)
    (blocks : r.blockEntries < smallLimit) (files : Files) (target : String) :
    (∃ fault, r.finish files target = (.error (.file target fault), r.discard files)) ∨
      ∃ l, files.Takes target l ∧ r.finish files target =
        (.ok (Run.ofEntries target r.blockEntries r.entries),
          (files.withoutDraft r.draft).place l (.file r.contents)) := by
  cases committed : files.commitDraft r.draft target r.contents with
  | error fault => exact .inl ⟨fault, by simp only [finish, commit, committed]⟩
  | ok after =>
    obtain ⟨l, takes, rfl⟩ := Files.commitDraft_eq_ok committed
    have same : (files.withoutDraft r.draft).Takes target l := ⟨takes.spotted, takes.free⟩
    exact .inr ⟨l, takes, inStep.finish_of_commitDraft blocks same committed⟩

/-- The files of a run in progress are those that it was started in and its draft. -/
structure Begun (r : RunWriter w) (before files : Files) : Prop where
  /-- A run that is given up leaves nothing behind. -/
  discard : r.discard files = before
  /-- Nor does the draft of one that is put in place. -/
  withoutDraft : files.withoutDraft r.draft = before

/-- A run is in progress in the files that its draft was begun in. -/
theorem begun_of_beginDraft {r : RunWriter w} {before files : Files} {directory name : String}
    (drafted : before.beginDraft directory name = .ok (r.draft, files)) : r.Begun before files := by
  obtain ⟨_, _, withoutDraft⟩ := Files.beginDraft_eq_ok drafted
  exact ⟨Files.dropDraft_of_beginDraft drafted, withoutDraft⟩

/-- A run is started with a draft in the directory of its file. -/
theorem beginDraft_of_start {before files : Files} {target : String} {blockEntries : Nat}
    {r : RunWriter w} (started : start w before target blockEntries = .ok (r, files)) :
    ∃ name, before.beginDraft (Path.directory target) name = .ok (r.draft, files) := by
  unfold start at started
  simp only at started
  split at started
  · contradiction
  · next begun =>
    split at started
    · contradiction
    · obtain ⟨rfl, rfl⟩ := Prod.mk.inj (Except.ok.inj started)
      exact ⟨_, begun⟩

/-- A run that was started is in step and empty. -/
theorem start_eq_ok {before files : Files} {target : String} {blockEntries : Nat}
    {r : RunWriter w} (started : start w before target blockEntries = .ok (r, files)) :
    r.InStep ∧ r.entries = #[] ∧ r.blockEntries = max blockEntries 1 ∧ r.Begun before files := by
  obtain ⟨inStep, fresh, blocks⟩ := inStep_of_start started
  obtain ⟨_, drafted⟩ := beginDraft_of_start started
  exact ⟨inStep, fresh, blocks, begun_of_beginDraft drafted⟩

/-- Where a run was started a draft can be begun. -/
theorem canDraft_of_start {before files : Files} {target : String} {blockEntries : Nat}
    {r : RunWriter w} (started : start w before target blockEntries = .ok (r, files)) :
    before.CanDraft target := by
  obtain ⟨_, begun⟩ := beginDraft_of_start started
  exact Files.canDraft_of_begun_directory begun

/-- Where a run in progress can be put, it could be put before it was started. -/
theorem Begun.takes {r : RunWriter w} {before files : Files} (begun : r.Begun before files)
    {path : String} {l : Location} (takes : files.Takes path l) : before.Takes path l := by
  rw [← begun.withoutDraft]
  exact ⟨takes.spotted, takes.free⟩

end RunWriter

/-- A set's empty run is in place and open, or nothing has changed. -/
theorem Run.createEmpty_cases (w : Width) (files : Files) (path : String) :
    (∃ e, Run.createEmpty w files path = (.error e, files)) ∨
      ∃ l, files.Takes path l ∧ files.CanDraft path ∧ Run.createEmpty w files path =
        (.ok (Run.ofEntries path defaultBlockEntries #[]),
          files.place l (.file (encodeRun defaultBlockEntries (#[] : Array (Fingerprint w))))) := by
  unfold Run.createEmpty
  cases started : RunWriter.start w files path defaultBlockEntries with
  | error e => exact .inl ⟨e, rfl⟩
  | ok begun =>
    obtain ⟨r, after⟩ := begun
    obtain ⟨inStep, fresh, blocks, begun⟩ := RunWriter.start_eq_ok started
    have blocks : r.blockEntries = defaultBlockEntries := blocks
    rcases inStep.finish_cases (by rw [blocks]; decide) after path with
      ⟨fault, failed⟩ | ⟨l, takes, finished⟩
    · exact .inl ⟨_, by simp only [failed, begun.discard]; rfl⟩
    · refine .inr ⟨l, begun.takes takes, RunWriter.canDraft_of_start started, ?_⟩
      simp only [finished, begun.withoutDraft, RunWriter.contents, fresh, blocks]

end SeenStates
