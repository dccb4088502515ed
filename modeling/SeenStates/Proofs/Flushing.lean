import SeenStates.DiskSet
import SeenStates.Proofs.RunFiles

/-!
# What a flush does

A flush of a set whose run is mapped has three ends (`Flushed`): it fails and leaves set and files
alone, it has nothing to do, or it puts one run in place that holds what was in memory and in the
run before. Everything that flushes does so through `flushNow`, and the flusher that a put chooses
for it makes no difference (`flushChosen_eq`).
-/
namespace SeenStates

variable {w : Width}

namespace DiskSet

/-- The fingerprints in the set, in memory and in the run. -/
def members (s : DiskSet w) : List (Fingerprint w) :=
  s.table.scan ++ s.overflow.entries ++ s.disk.stored.toList

/-- The set with a run of its own of the given entries, and nothing in memory. -/
def settled (s : DiskSet w) (entries : Array (Fingerprint w)) : DiskSet w :=
  s.unrequested.flushed (.ofEntries s.config.paths.run defaultBlockEntries entries)

/-- What a flush of a set comes to: its answer, and the set and the files afterwards. -/
inductive Flushed (s : DiskSet w) (files : Files) :
    Except Error Unit → DiskSet w → Files → Prop where
  /-- It fails, and the set and the files are as before. -/
  | failed (e : Error) : Flushed s files (.error e) s.unrequested files
  /-- There is nothing to flush. -/
  | nothing (vacant : s.tableLive + s.overflow.size = 0) :
    Flushed s files (.ok ()) s.unrequested files
  /-- A run of everything in the set is put in place. -/
  | written (l : Location) (entries : Array (Fingerprint w))
    (takes : files.Takes s.config.paths.run l) (ascending : Ascending entries.toList)
    (storable : Storable defaultBlockEntries entries)
    (all : ∀ fp, fp ∈ entries ↔ fp ∈ s.members) :
    Flushed s files (.ok ()) (s.settled entries)
      (files.place l (.file (encodeRun defaultBlockEntries entries)))

/-- A flush that fails changes nothing but that no flush is asked for any more. -/
theorem Flushed.eq_of_error {s u : DiskSet w} {files after : Files} {e : Error}
    (flushed : Flushed s files (.error e) u after) : u = s.unrequested ∧ after = files := by
  cases flushed with
  | failed => exact ⟨rfl, rfl⟩

/-- A merged run in progress holds everything in the set. Its draft was begun in the directory of
the set's run. -/
theorem mergeRun_eq_ok {s : DiskSet w} {before files : Files} {r : RunWriter w}
    {counts : MergeCounts} (merged : s.mergeRun before = (.ok (r, counts), files)) :
    r.InStep ∧ r.blockEntries = defaultBlockEntries ∧
      (∃ name, before.beginDraft (Path.directory s.config.paths.run) name =
        .ok (r.draft, files)) ∧
      ∀ fp, fp ∈ r.entries ↔ fp ∈ s.members := by
  unfold mergeRun at merged
  split at merged
  · simp at merged
  · next writer after started =>
    obtain ⟨inStep, fresh, blocks, _⟩ := RunWriter.start_eq_ok started
    obtain ⟨name, drafted⟩ := RunWriter.beginDraft_of_start started
    have draft := RunWriter.draft_mergeInto (Scan.start s.table) s.overflow.entries
      (s.disk.mapped.getD #[]) writer
    split at merged
    · next q merge =>
      rw [merge] at draft
      simp only [Prod.mk.injEq, Except.ok.injEq] at merged draft
      obtain ⟨⟨rfl, rfl⟩, rfl⟩ := merged
      obtain ⟨kept, same, all⟩ := inStep.mergeInto fresh merge
      refine ⟨kept, same.trans blocks, ⟨name, draft ▸ drafted⟩, fun fp => ?_⟩
      rw [all fp]
      simp [members, Run.stored]
    · simp at merged

/-- A merge that fails leaves the files as they were. -/
theorem mergeRun_eq_error {s : DiskSet w} {before files : Files} {e : Error}
    (merged : s.mergeRun before = (.error e, files)) : files = before := by
  unfold mergeRun at merged
  split at merged
  · simp only [Prod.mk.injEq] at merged
    exact merged.2.symm
  · next writer after started =>
    obtain ⟨_, _, _, begun⟩ := RunWriter.start_eq_ok started
    have draft := RunWriter.draft_mergeInto (Scan.start s.table) s.overflow.entries
      (s.disk.mapped.getD #[]) writer
    split at merged
    · simp at merged
    · next q fault merge =>
      rw [merge] at draft
      simp only at draft
      simp only [Prod.mk.injEq] at merged
      rw [← merged.2, RunWriter.discard, draft]
      exact begun.discard

/-- A set whose run is mapped keeps it. -/
theorem remapOrClose_of_mapped {s : DiskSet w} (mapped : s.disk.mapped.isSome) (h : Host) :
    s.remapOrClose h = (s, h) := by
  obtain ⟨entries, here⟩ := Option.isSome_iff_exists.1 mapped
  simp only [remapOrClose, Run.remap, here]

/-- A merged run of a set whose run is mapped is put in place, or it is given up and the files are
as before. -/
theorem flushed_replaceRun {s : DiskSet w} (mapped : s.disk.mapped.isSome) {r : RunWriter w}
    (inStep : r.InStep) (blocks : r.blockEntries = defaultBlockEntries)
    (all : ∀ fp, fp ∈ r.entries ↔ fp ∈ s.members) {before : Files} {h : Host}
    (begun : r.Begun before h.files) :
    Flushed s before (s.unrequested.replaceRun r h).answer (s.unrequested.replaceRun r h).set
      (s.unrequested.replaceRun r h).host.files := by
  have kept (h : Host) : s.unrequested.remapOrClose h = (s.unrequested, h) :=
    remapOrClose_of_mapped (s := s.unrequested) mapped h
  unfold replaceRun
  rcases inStep.finish_cases (by rw [blocks]; decide) h.files s.unrequested.config.paths.run with
    ⟨fault, failed⟩ | ⟨l, takes, finished⟩
  · rw [failed]
    simp only [kept, begun.discard]
    exact .failed _
  · rw [finished]
    simp only [begun.withoutDraft, blocks, RunWriter.contents]
    exact .written l r.entries (begun.takes takes) inStep.ascending
      (blocks ▸ inStep.storable (by rw [blocks]; decide)) all

/-- A flush of an open set is made at once. -/
theorem flush_eq {s : DiskSet w} (isOpen : s.closed = false) (h : Host) :
    s.flush h = s.flushNow h := by
  simp only [flush, whenOpen, isOpen, Bool.false_eq_true, if_false]

/-- A flush of a set whose run is mapped has one of its three ends. -/
theorem flushed_flushNow {s : DiskSet w} (mapped : s.disk.mapped.isSome) (h : Host) :
    Flushed s h.files (s.flushNow h).answer (s.flushNow h).set (s.flushNow h).host.files := by
  unfold flushNow
  split
  · next vacant => exact .nothing vacant
  · split
    · next e files merged =>
      rw [mergeRun_eq_error merged]
      exact .failed e
    · next r counts files merged =>
      obtain ⟨inStep, blocks, ⟨_, drafted⟩, all⟩ := mergeRun_eq_ok merged
      have begun := RunWriter.begun_of_beginDraft drafted
      have same : (s.afterMerge counts (h.withFiles files)).files = files := by
        unfold afterMerge
        split <;> rfl
      exact flushed_replaceRun mapped inStep blocks all (by rwa [same])

/-! ## The flusher -/

/-- Whether a flusher is chosen makes no difference to how a run is put in place. -/
theorem replaceRun_withFlusher (s : DiskSet w) (chosen : Bool) (r : RunWriter w) (h : Host) :
    (s.withFlusher chosen).replaceRun r h =
      (s.replaceRun r h).onSet fun s => s.withFlusher chosen := by
  unfold replaceRun
  have config : (s.withFlusher chosen).config = s.config := rfl
  rw [config]
  split
  · rfl
  · simp only [remapOrClose]
    have disk : (s.withFlusher chosen).disk = s.disk := rfl
    rw [disk]
    split <;> rfl

/-- A merge depends on nothing but what is merged, and on where the run is. -/
theorem mergeRun_congr {s u : DiskSet w} (config : u.config = s.config) (table : u.table = s.table)
    (overflow : u.overflow = s.overflow) (disk : u.disk = s.disk) (files : Files) :
    u.mergeRun files = s.mergeRun files := by
  unfold mergeRun
  rw [config, table, overflow, disk]

/-- Whether a flusher is chosen makes no difference to a flush. -/
theorem flushNow_withFlusher (s : DiskSet w) (chosen : Bool) (h : Host) :
    (s.withFlusher chosen).flushNow h = (s.flushNow h).onSet fun s => s.withFlusher chosen := by
  have same : (s.withFlusher chosen).unrequested = s.unrequested.withFlusher chosen := rfl
  have vacancy : (s.withFlusher chosen).tableLive + (s.withFlusher chosen).overflow.size =
      s.tableLive + s.overflow.size := rfl
  unfold flushNow
  rw [mergeRun_congr (s := s) (u := s.withFlusher chosen) rfl rfl rfl rfl, same, vacancy]
  simp only [replaceRun_withFlusher]
  split
  · rfl
  · split <;> rfl

/-- A flush leaves the choice of the flusher alone. -/
theorem flusherChosen_flushNow (s : DiskSet w) (h : Host) :
    (s.flushNow h).set.flusherChosen = s.flusherChosen := by
  have same : s.withFlusher s.flusherChosen = s := rfl
  have kept := congrArg (fun o => o.set.flusherChosen) (flushNow_withFlusher s s.flusherChosen h)
  rw [same] at kept
  exact kept

/-- A flush that a put chose its flusher for, when it is due, is a flush, and the flusher is
released. -/
theorem flushChosen_eq {s : DiskSet w} (isOpen : s.closed = false) (idle : s.flusherChosen = false)
    (due : s.needsFlush) (h : Host) : s.flushChosen h = s.flushNow h := by
  have stillOpen : (s.withFlusher true).closed = false := isOpen
  have stillDue : (s.withFlusher true).needsFlush := due
  have released (u : DiskSet w) (chosen : u.flusherChosen = false) :
      (u.withFlusher true).withFlusher false = u := by
    cases u
    cases chosen
    rfl
  have chosen : (s.flushNow h).set.flusherChosen = false := (flusherChosen_flushNow s h).trans idle
  unfold flushChosen whenOpen flushIfDue
  rw [stillOpen, stillDue, flushNow_withFlusher]
  simp only [Bool.false_eq_true, if_false, if_true, Outcome.onSet, released _ chosen]

end DiskSet

end SeenStates
