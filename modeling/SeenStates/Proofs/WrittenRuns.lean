import SeenStates.Proofs.SparseIndex

/-!
# Writing a run entry by entry

A writer refuses an entry that is not above the last one that it took, and a refusal changes
nothing. So what it has after any entries are their strict left-to-right maxima, as long as there is
room for them (`RunWriter.InStep.pushEach`). The run that is put in place has those entries; its
file reads back as the same header and entries, and the index that the writer kept as it went is the
one that is made from the file (`written_of_start`).
-/
namespace SeenStates

variable {w : Width}

/-! ## Left-to-right maxima -/

/-- The fingerprints that are greater than all in front of them. The first one is; of the others it
is those that are it among themselves and are greater than the first. -/
def leftMaxima : List (Fingerprint w) → List (Fingerprint w)
  | [] => []
  | fp :: rest => fp :: (leftMaxima rest).filter (fp < ·)

/-- The left-to-right maxima that are greater than all of some others. -/
def maximaAbove (others fps : List (Fingerprint w)) : List (Fingerprint w) :=
  (leftMaxima fps).filter fun fp => ∀ old ∈ others, old < fp

/-- Nothing is in their way where there are no others. -/
theorem maximaAbove_nil (fps : List (Fingerprint w)) : maximaAbove [] fps = leftMaxima fps := by
  simp [maximaAbove]

/-- A first fingerprint that is greater than the others is one of them, and one of the others for
the rest. -/
theorem maximaAbove_cons_of_above {others : List (Fingerprint w)} {fp : Fingerprint w}
    (above : ∀ old ∈ others, old < fp) (rest : List (Fingerprint w)) :
    maximaAbove others (fp :: rest) = fp :: maximaAbove (others ++ [fp]) rest := by
  rw [maximaAbove, leftMaxima, List.filter_cons_of_pos (by simpa using above),
    List.filter_filter, maximaAbove]
  congr 1
  refine List.filter_congr fun a _ => ?_
  rw [Bool.eq_iff_iff, Bool.and_eq_true, decide_eq_true_iff, decide_eq_true_iff,
    decide_eq_true_iff, List.forall_mem_append, List.forall_mem_singleton]

/-- A first fingerprint that is not makes no difference. -/
theorem maximaAbove_cons_of_le {others : List (Fingerprint w)} {fp last : Fingerprint w}
    (member : last ∈ others) (below : fp ≤ last) (rest : List (Fingerprint w)) :
    maximaAbove others (fp :: rest) = maximaAbove others rest := by
  have refused : ¬ ∀ old ∈ others, old < fp := fun above =>
    Std.not_lt.2 below (above last member)
  rw [maximaAbove, leftMaxima, List.filter_cons_of_neg (by simpa using refused),
    List.filter_filter, maximaAbove]
  refine List.filter_congr fun a _ => ?_
  have passes (above : ∀ old ∈ others, old < a) : fp < a :=
    Std.lt_of_le_of_lt below (above last member)
  simpa using passes

namespace RunWriter

/-! ## Pushes -/

/-- Add an entry. It is refused or not. -/
def push (r : RunWriter w) (fp : Fingerprint w) : RunWriter w × Option Error := r.pushAll [fp]

/-- Add entries one by one, and go on behind one that is refused. -/
def pushEach (r : RunWriter w) : List (Fingerprint w) → RunWriter w × List (Option Error)
  | [] => (r, [])
  | fp :: rest =>
    let pushed := r.push fp
    let behind := pushed.1.pushEach rest
    (behind.1, pushed.2 :: behind.2)

/-- The entries of which something with a property was reported. -/
def reportedAs (p : Option Error → Bool) (fps : List (Fingerprint w))
    (reports : List (Option Error)) : List (Fingerprint w) :=
  ((fps.zip reports).filter fun pushed => p pushed.2).map Prod.fst

/-- Whether an entry was not kept out by a fault of files. -/
def hadRoom : Option Error → Bool
  | some (.file _ _) => false
  | _ => true

/-- The entries that were not kept out by a fault of files. -/
def withRoom (fps : List (Fingerprint w)) (reports : List (Option Error)) :
    List (Fingerprint w) :=
  reportedAs hadRoom fps reports

/-- Something is reported of each entry. -/
theorem length_pushEach (r : RunWriter w) (fps : List (Fingerprint w)) :
    (r.pushEach fps).2.length = fps.length := by
  induction fps generalizing r with
  | nil => rfl
  | cons fp rest ih => simp [pushEach, ih]

/-- Without a fault of files there was room for all entries. -/
theorem withRoom_of_forall {fps : List (Fingerprint w)} {reports : List (Option Error)}
    (each : reports.length = fps.length) (room : ∀ report ∈ reports, hadRoom report) :
    withRoom fps reports = fps := by
  have all : (fps.zip reports).filter (fun pushed => hadRoom pushed.2) = fps.zip reports :=
    List.filter_eq_self.2 fun pushed member => room _ (List.of_mem_zip member).2
  rw [withRoom, reportedAs, all, List.map_fst_zip (Nat.le_of_eq each.symm)]

/-- How adding an entry can end. -/
inductive PushEnds (r : RunWriter w) (fp : Fingerprint w) :
    RunWriter w × Option Error → Prop where
  /-- It is above the last entry and there is room for it, and it is added. -/
  | taken (accepted : r.refusal? fp = none)
    (above : ∀ last, r.entries.back? = some last → last < fp) :
    PushEnds r fp (r.extended fp, none)
  /-- It is not above the last entry. -/
  | disorder (last : Fingerprint w) (back : r.entries.back? = some last) (below : fp ≤ last) :
    PushEnds r fp (r, some (.invariant (.unordered fp.shown last.shown)))
  /-- It is above the last entry, but there is no room for it. -/
  | noRoom (fault : FileFault) (above : ∀ last, r.entries.back? = some last → last < fp) :
    PushEnds r fp (r, some (.file r.draft.directory fault))

/-- Adding an entry has one of these ends. -/
theorem pushEnds (r : RunWriter w) (fp : Fingerprint w) : PushEnds r fp (r.push fp) := by
  have ordered (inOrder : r.disorder? fp = none) (last : Fingerprint w)
      (back : r.entries.back? = some last) : last < fp := by
    simp only [disorder?, back, Option.bind_some] at inOrder
    split at inOrder
    · contradiction
    · next notBelow => exact Std.not_le.1 notBelow
  cases refusal : r.refusal? fp with
  | none =>
    have pushed : r.push fp = (r.extended fp, none) := by simp only [push, pushAll, refusal]
    rw [pushed]
    refine .taken refusal (ordered ?_)
    unfold refusal? at refusal
    split at refusal
    · contradiction
    · next inOrder => exact inOrder
  | some e =>
    have pushed : r.push fp = (r, some e) := by simp only [push, pushAll, refusal]
    rw [pushed]
    unfold refusal? at refusal
    split at refusal
    · next disorder =>
      obtain ⟨last, back, refused⟩ := Option.bind_eq_some_iff.1 disorder
      split at refused
      · next below =>
        obtain rfl := (Option.some.inj refused).trans (Option.some.inj refusal)
        exact .disorder last back below
      · contradiction
    · next inOrder =>
      obtain ⟨fault, _, rfl⟩ := Option.map_eq_some_iff.1 refusal
      exact .noRoom fault (ordered inOrder)

/-- What is above the last of ascending entries is above all of them. -/
theorem forall_lt_iff_back {entries : Array (Fingerprint w)} (ascending : Ascending entries.toList)
    (fp : Fingerprint w) :
    (∀ old ∈ entries.toList, old < fp) ↔ ∀ last, entries.back? = some last → last < fp := by
  constructor
  · intro all last back
    exact all last (Array.mem_toList_iff.2 (Array.mem_of_back? back))
  · intro above old member
    obtain ⟨i, inside, rfl⟩ := Array.mem_iff_getElem.1 (Array.mem_toList_iff.1 member)
    have filled : entries.size - 1 < entries.size := by omega
    have back : entries.back? = some entries[entries.size - 1] := by
      rw [Array.back?_eq_getElem?, Array.getElem?_eq_getElem filled]
    refine Std.lt_of_le_of_lt (Fingerprint.le_iff.2 ?_) (above _ back)
    exact ascending.getElem_le (by omega) filled

/-- After any pushes a writer in step is in step, and behind its entries it has the left-to-right
maxima above them of what there was room for. -/
theorem InStep.pushEach {r : RunWriter w} (inStep : r.InStep) (fps : List (Fingerprint w)) :
    (r.pushEach fps).1.InStep ∧ (r.pushEach fps).1.blockEntries = r.blockEntries ∧
      (r.pushEach fps).1.entries.toList = r.entries.toList ++
        maximaAbove r.entries.toList (withRoom fps (r.pushEach fps).2) := by
  induction fps generalizing r with
  | nil =>
    refine ⟨inStep, rfl, ?_⟩
    simp [RunWriter.pushEach, withRoom, reportedAs, maximaAbove, leftMaxima]
  | cons fp rest ih =>
    have ends := r.pushEnds fp
    rw [RunWriter.pushEach]
    generalize r.push fp = pushed at ends
    cases ends with
    | taken accepted above =>
      obtain ⟨kept, blocks, entries⟩ := ih (inStep.extended accepted)
      refine ⟨kept, blocks, ?_⟩
      have all := (forall_lt_iff_back inStep.ascending fp).2 above
      have added : (r.extended fp).entries.toList = r.entries.toList ++ [fp] := by
        simp [RunWriter.extended]
      rw [entries, added]
      exact (List.append_cons ..).symm.trans
        (congrArg _ (maximaAbove_cons_of_above all (withRoom rest _)).symm)
    | disorder last back below =>
      obtain ⟨kept, blocks, entries⟩ := ih inStep
      refine ⟨kept, blocks, entries.trans (congrArg _ ?_)⟩
      have member : last ∈ r.entries.toList := Array.mem_toList_iff.2 (Array.mem_of_back? back)
      exact (maximaAbove_cons_of_le member below (withRoom rest _)).symm
    | noRoom fault above => exact ih inStep

/-- Behind its entries a writer has those that were not refused. -/
theorem entries_pushEach (r : RunWriter w) (fps : List (Fingerprint w)) :
    (r.pushEach fps).1.entries.toList =
      r.entries.toList ++ reportedAs Option.isNone fps (r.pushEach fps).2 := by
  induction fps generalizing r with
  | nil => simp [pushEach, reportedAs]
  | cons fp rest ih =>
    have ends := r.pushEnds fp
    rw [pushEach]
    generalize r.push fp = pushed at ends
    cases ends with
    | taken accepted above =>
      have added : (r.extended fp).entries.toList = r.entries.toList ++ [fp] := by simp [extended]
      exact (ih _).trans (added ▸ (List.append_cons ..).symm)
    | disorder last back below => exact ih r
    | noRoom fault above => exact ih r

/-! ## Runs that were written -/

/-- What adding one entry to a writer comes to. -/
structure PushesInOrder (q : RunWriter w) (fp : Fingerprint w) : Prop where
  /-- It breaks the invariant exactly if it is not greater than the last entry. -/
  rejected : (∃ fault, (q.push fp).2 = some (.invariant fault)) ↔
    ∃ last, q.entries.back? = some last ∧ fp ≤ last
  /-- Nothing else than that and a fault of files can keep it out. -/
  faults : ∀ e, (q.push fp).2 = some e →
    (∃ fault, e = .invariant fault) ∨ ∃ path fault, e = .file path fault
  /-- If it is kept out the writer is as it was. -/
  kept : ∀ e, (q.push fp).2 = some e → (q.push fp).1 = q
  /-- If not it is the last entry. -/
  added : (q.push fp).2 = none → (q.push fp).1.entries = q.entries.push fp

/-- Every writer adds entries in order. -/
theorem pushesInOrder (q : RunWriter w) (fp : Fingerprint w) : q.PushesInOrder fp := by
  have ends := q.pushEnds fp
  constructor
  case rejected =>
    generalize q.push fp = pushed at ends
    have notBelow (above : ∀ last, q.entries.back? = some last → last < fp) :
        ¬ ∃ last, q.entries.back? = some last ∧ fp ≤ last := by
      rintro ⟨last, back, below⟩
      exact Std.not_lt.2 below (above last back)
    cases ends with
    | taken accepted above => simpa using notBelow above
    | disorder last back below => exact ⟨fun _ => ⟨last, back, below⟩, fun _ => ⟨_, rfl⟩⟩
    | noRoom fault above => simpa using notBelow above
  case faults =>
    intro e refused
    generalize q.push fp = pushed at ends refused
    cases ends with
    | taken accepted above => contradiction
    | disorder last back below => exact .inl ⟨_, (Option.some.inj refused).symm⟩
    | noRoom fault above => exact .inr ⟨_, _, (Option.some.inj refused).symm⟩
  case kept =>
    intro e refused
    generalize q.push fp = pushed at ends refused
    cases ends with
    | taken accepted above => contradiction
    | disorder last back below => rfl
    | noRoom fault above => rfl
  case added =>
    intro accepted
    generalize q.push fp = pushed at ends accepted
    cases ends with
    | taken accepted above => rfl
    | disorder last back below => contradiction
    | noRoom fault above => contradiction

/-- A run that was put in place is open, its file reads back as it, and it is the run that is opened
from the file. -/
structure InPlaceAs (q : RunWriter w) (destination : String) (after : Files) (run : Run w) :
    Prop where
  /-- It has the entries of the writer. -/
  entries : run.entries = .ok q.entries.toList
  /-- Its header says how many they are, and how many are in a block. -/
  header : run.header = ⟨w.bytes, q.entries.size, q.blockEntries⟩
  /-- Its file reads back as that header and those entries. -/
  file : ∃ contents, after.find destination = .ok (.file contents) ∧
    RunHeader.decode contents.data.toList = .ok run.header ∧
    IsRun w contents run.header q.entries
  /-- Its index is the one that the writer kept. -/
  index : run.index = q.finalIndex
  /-- Opened from the file it is the same, with the index that is made from the file. -/
  opened : Run.open w after destination = .ok run

/-- Dropping a draft leaves everything where it was. -/
theorem find_discard (q : RunWriter w) (files : Files) (path : String) :
    (q.discard files).find path = files.find path := by
  unfold discard Files.dropDraft
  split
  · split
    · rfl
    · rfl
  · rfl
  · rfl

/-- A run that is finished is in place as the writer has it, or its draft could not be put in place
and every path leads to what it led to. -/
theorem InStep.inPlaceAs {q : RunWriter w} (inStep : q.InStep)
    (blocks : q.blockEntries < smallLimit) (files : Files) (destination : String) :
    (∃ run after, q.finish files destination = (.ok run, after) ∧
      q.InPlaceAs destination after run) ∨
    ∃ fault after, files.commitDraft q.draft destination q.contents = .error fault ∧
      q.finish files destination = (.error (.file destination fault), after) ∧
      ∀ path, after.find path = files.find path := by
  cases committed : files.commitDraft q.draft destination q.contents with
  | error fault =>
    refine .inr ⟨fault, q.discard files, rfl, by simp only [finish, commit, committed],
      fun path => ?_⟩
    exact q.find_discard files path
  | ok after =>
    obtain ⟨l, takes, rfl⟩ := Files.commitDraft_eq_ok committed
    have same : (files.withoutDraft q.draft).Takes destination l := ⟨takes.spotted, takes.free⟩
    have there := Files.find_of_locate (same.locate_place q.contents)
    have isRun : IsRun w q.contents ⟨w.bytes, q.entries.size, q.blockEntries⟩ q.entries :=
      isRun_encodeRun (inStep.storable blocks)
    refine .inl ⟨_, _, inStep.finish_of_commitDraft blocks same committed, ?_, rfl,
      ⟨_, there, isRun.decode_eq, isRun⟩, inStep.finalIndex_eq.symm, Run.open_of_find isRun there⟩
    unfold Run.entries
    split
    · next empty =>
      have none : q.entries.size = 0 := empty
      rw [Array.eq_empty_of_size_eq_zero none]
    · rfl

end RunWriter

/-- A writer takes an entry exactly if that is greater than the last one that it took and there is
room for it, and is as it was if not. So after any pushes it has what was not refused, the
left-to-right maxima of what there was room for, in blocks of the size that was asked for or of one.
When it is finished, the run in place has those entries; its file reads back as the same header and
entries and is opened as the same run, with the index that the writer kept as it went. If its draft
cannot be put in place every path leads to what it led to before. -/
theorem written_of_start {before begun : Files} {target : String} {blockEntries : Nat}
    (fits : blockEntries < smallLimit) {r : RunWriter w}
    (started : RunWriter.start w before target blockEntries = .ok (r, begun))
    (fps : List (Fingerprint w)) :
    let q := (r.pushEach fps).1
    let reports := (r.pushEach fps).2
    (∀ fp, q.PushesInOrder fp) ∧
    q.entries.toList = RunWriter.reportedAs Option.isNone fps reports ∧
    q.entries.toList = leftMaxima (RunWriter.withRoom fps reports) ∧
    ((∀ report ∈ reports, RunWriter.hadRoom report) → q.entries.toList = leftMaxima fps) ∧
    q.blockEntries = max blockEntries 1 ∧
    ∀ files destination,
      (∃ run after, q.finish files destination = (.ok run, after) ∧
        q.InPlaceAs destination after run) ∨
      ∃ fault after, files.commitDraft q.draft destination q.contents = .error fault ∧
        q.finish files destination = (.error (.file destination fault), after) ∧
        ∀ path, after.find path = files.find path := by
  intro q reports
  obtain ⟨inStep, fresh, blocks, _⟩ := RunWriter.start_eq_ok started
  obtain ⟨inStep, sameBlocks, entries⟩ := inStep.pushEach fps
  have accepted := r.entries_pushEach fps
  rw [fresh, List.nil_append] at accepted
  rw [fresh, List.nil_append, maximaAbove_nil] at entries
  have size : q.blockEntries = max blockEntries 1 := sameBlocks.trans blocks
  have small : q.blockEntries < smallLimit := by
    rw [size]
    exact Nat.max_lt.2 ⟨fits, by decide⟩
  refine ⟨fun fp => q.pushesInOrder fp, accepted, entries, fun room => ?_, size,
    inStep.inPlaceAs small⟩
  rw [← RunWriter.withRoom_of_forall (r.length_pushEach fps) room]
  exact entries

/-! ## A run of three entries -/

/-- What succeeds is what it succeeds with. -/
theorem eq_ok_toOption_get {ε α : Type} {x : Except ε α} (succeeds : x.toOption.isSome) :
    x = .ok (x.toOption.get succeeds) := by
  cases x with
  | error e => contradiction
  | ok a => rfl

/-- A run can be started where there is nothing. -/
theorem isSome_start_sample :
    (RunWriter.start .bits64 .empty "states.fp" 2).toOption.isSome := by
  decide +kernel

/-- A writer of a run in blocks of two, and its files. -/
def sampleWriter : RunWriter .bits64 × Files :=
  (RunWriter.start .bits64 .empty "states.fp" 2).toOption.get isSome_start_sample

/-- It is what is started. -/
theorem start_sampleWriter :
    RunWriter.start .bits64 .empty "states.fp" 2 = .ok (sampleWriter.1, sampleWriter.2) := by
  rw [sampleWriter]
  exact eq_ok_toOption_get isSome_start_sample

/-- Five entries, two of which are out of order. -/
def sampleEntries : List (Fingerprint .bits64) :=
  [.ofNat _ 5, .ofNat _ 3, .ofNat _ 9, .ofNat _ 9, .ofNat _ 12]

/-- The other three are taken, in one block that is complete and one that is not, and their run can
be put in place. -/
theorem samplePushed :
    let pushed := sampleWriter.1.pushEach sampleEntries
    pushed.2.map Option.isNone = [true, false, true, false, true] ∧
      pushed.1.entries.toList = [.ofNat _ 5, .ofNat _ 9, .ofNat _ 12] ∧
      pushed.1.finalIndex = #[.ofNat _ 9, .ofNat _ 12] ∧
      (sampleWriter.2.commitDraft pushed.1.draft "states.fp" pushed.1.contents).isOk := by
  decide +kernel

/-- Of five entries that are pushed two are refused, and the run of the other three is put in place
in two blocks. -/
theorem written_of_start_refused :
    (sampleWriter.1.pushEach sampleEntries).2.map Option.isNone =
        [true, false, true, false, true] ∧
      ∃ run after,
        (sampleWriter.1.pushEach sampleEntries).1.finish sampleWriter.2 "states.fp" =
          (.ok run, after) ∧
        run.entries = .ok [.ofNat _ 5, .ofNat _ 9, .ofNat _ 12] ∧
        run.index = #[.ofNat _ 9, .ofNat _ 12] ∧ Run.open .bits64 after "states.fp" = .ok run := by
  obtain ⟨_, _, _, _, _, finished⟩ := written_of_start (by decide) start_sampleWriter sampleEntries
  obtain ⟨reports, taken, kept, committed⟩ := samplePushed
  refine ⟨reports, ?_⟩
  rcases finished sampleWriter.2 "states.fp" with
    ⟨run, after, finished, inPlace⟩ | ⟨fault, _, failed, _⟩
  · have entries := inPlace.entries
    rw [taken] at entries
    have index := inPlace.index
    rw [kept] at index
    exact ⟨run, after, finished, entries, index, inPlace.opened⟩
  · rw [failed] at committed
    contradiction

end SeenStates
