import SeenStates.Proofs.FailedFlushes
import SeenStates.Proofs.MergeOrder
import SeenStates.Proofs.ScanOrder

/-!
# The order of a flush

Overflow and run are in order, so what a flush writes is in order exactly if the scan of the table
is: if no bucket has a fingerprint that is greater than one of a bucket behind it
(`Table.Disordered`). A flush of a table in which one has is refused by the writer
(`DiskSet.Sound.flushNow_of_disordered`), and apart from that only files can be at fault
(`DiskSet.Sound.fault_of_flushNow`). What is not refused has each fingerprint of the set once
(`DiskSet.Sound.counts_of_mergeRun`).
-/
namespace SeenStates

variable {w : Width}

/-- A bucket of the table has a live fingerprint that is greater than one of a bucket behind it. -/
def Table.Disordered (t : Table w) : Prop :=
  ∃ a ∈ t.scan, ∃ b ∈ t.scan, (t.locate a).bucket < (t.locate b).bucket ∧ b < a

/-- The scan of a tidy table ascends unless that is so. -/
theorem Table.Tidy.ascending_scan_iff {t : Table w} (tidy : t.Tidy) :
    Ascending t.scan ↔ ¬ t.Disordered := by
  rw [tidy.homed.ascending_scan_iff tidy.nodup_scan]
  constructor
  · rintro ordered ⟨a, first, b, second, before, below⟩
    exact Std.not_gt_of_lt below (ordered a first b second before)
  · intro ordered a first b second before
    have differ : a ≠ b := fun same => Nat.ne_of_lt before (same ▸ rfl)
    by_cases below : a < b
    · exact below
    · exact absurd ⟨a, first, b, second, before, lt_of_not_lt differ below⟩ ordered

namespace DiskSet

variable {s : DiskSet w}

/-- What a flush writes, and how much of it was in two places. -/
def toWrite (s : DiskSet w) : List (Fingerprint w) × Nat :=
  mergeThree s.table.scan s.overflow.entries s.disk.stored.toList

/-- A merge of a run that was started comes to what is written of it. -/
theorem mergeRun_of_start {files begun : Files} {r : RunWriter w}
    (started : RunWriter.start w files s.config.paths.run defaultBlockEntries = .ok (r, begun)) :
    s.mergeRun files =
      match r.pushAll s.toWrite.1 with
      | (q, none) => (.ok (q, ⟨q.size, s.toWrite.2⟩), begun)
      | (q, some e) => (.error e, q.discard begun) := by
  have stored : s.disk.mapped.getD #[] = s.disk.stored := rfl
  unfold mergeRun
  simp only [started, mergeInto_eq, Table.rest_start, Stream.rest_list, stored]
  rw [← toWrite]
  generalize r.pushAll _ = pushed
  obtain ⟨q, fault⟩ := pushed
  cases fault <;> rfl

namespace Sound

/-- What a flush writes ascends unless a bucket is out of order. -/
theorem ascending_toWrite_iff (sound : s.Sound) :
    Ascending s.toWrite.1 ↔ ¬ s.table.Disordered := by
  rw [← sound.table.ascending_scan_iff]
  exact ascending_mergeThree_iff s.overflow.entries_ascending sound.ascending

/-- It is no more than is in the set. -/
theorem length_toWrite_le (sound : s.Sound) : s.toWrite.1.length ≤ s.size := by
  have total := length_mergeThree s.table.scan s.overflow.entries s.disk.stored.toList
  have length := sound.counted
  rw [members, List.length_append, List.length_append] at length
  rw [DiskSet.size, toWrite, length, ← total]
  exact Nat.le_add_right ..

/-- A merge has each fingerprint of the set once, and nothing in it was in two places. -/
theorem counts_of_mergeRun (sound : s.Sound) {files after : Files} {r : RunWriter w}
    {counts : MergeCounts} (merged : s.mergeRun files = (.ok (r, counts), after)) :
    counts = ⟨s.size, 0⟩ := by
  cases started : RunWriter.start w files s.config.paths.run defaultBlockEntries with
  | error fault =>
    unfold mergeRun at merged
    simp [started] at merged
  | ok begun =>
    obtain ⟨q, begun⟩ := begun
    obtain ⟨inStep, fresh, _⟩ := RunWriter.inStep_of_start started
    rw [mergeRun_of_start started] at merged
    split at merged
    · next q pushed =>
      obtain ⟨ends, entries, _⟩ := inStep.pushAll pushed
      rw [fresh, List.nil_append] at entries
      have ascending : Ascending s.toWrite.1 := entries ▸ ends.ascending
      have all : s.toWrite.1.Perm s.members := by
        rw [List.perm_ext_iff_of_nodup ascending.nodup sound.distinct]
        intro fp
        rw [toWrite, mem_mergeThree, members, List.mem_append, List.mem_append, or_assoc]
      have written : q.size = s.size := by
        rw [RunWriter.size, ← Array.length_toList, entries, all.length_eq, DiskSet.size,
          sound.counted]
      have total : s.toWrite.1.length + s.toWrite.2 = s.members.length := by
        rw [toWrite, length_mergeThree, members, List.length_append, List.length_append]
      have none : s.toWrite.2 = 0 := by
        rw [all.length_eq] at total
        omega
      rw [written, none] at merged
      simp only [Prod.mk.injEq, Except.ok.injEq] at merged
      exact merged.1.2.symm
    · simp at merged

/-- A merge that fails is out of order, or files are at fault. -/
theorem fault_of_mergeRun (sound : s.Sound) {files after : Files} {e : Error}
    (merged : s.mergeRun files = (.error e, after)) :
    (∃ path fault, e = .file path fault) ∨
      s.table.Disordered ∧ ∃ fp last, e = .invariant (.unordered fp last) := by
  cases started : RunWriter.start w files s.config.paths.run defaultBlockEntries with
  | error fault =>
    unfold mergeRun at merged
    simp only [started, Prod.mk.injEq, Except.error.injEq] at merged
    exact .inl (merged.1 ▸ RunWriter.start_eq_error started)
  | ok begun =>
    obtain ⟨r, begun⟩ := begun
    obtain ⟨_, fresh, _⟩ := RunWriter.inStep_of_start started
    rw [mergeRun_of_start started] at merged
    split at merged
    · simp at merged
    · next q fault pushed =>
      obtain rfl : fault = e := by simpa using congrArg Prod.fst merged
      rcases RunWriter.fault_of_pushAll pushed with ⟨disorder, shown⟩ | ⟨_, path, fault, rfl⟩
      · rw [fresh, List.nil_append, sound.ascending_toWrite_iff, not_not] at disorder
        exact .inr ⟨disorder, shown⟩
      · exact .inl ⟨path, fault, rfl⟩

/-- A merge that is out of order is refused if there is room for it. -/
theorem mergeRun_of_disordered (sound : s.Sound) (disordered : s.table.Disordered)
    {files begun : Files} {r : RunWriter w}
    (started : RunWriter.start w files s.config.paths.run defaultBlockEntries = .ok (r, begun))
    (room : excess? r.room (RunWriter.bytesOf w s.size) = none) :
    ∃ fp last after, s.mergeRun files = (.error (.invariant (.unordered fp last)), after) := by
  obtain ⟨inStep, fresh, _⟩ := RunWriter.inStep_of_start started
  rw [mergeRun_of_start started]
  cases pushed : r.pushAll s.toWrite.1 with
  | mk q fault =>
    cases fault with
    | none =>
      obtain ⟨ends, entries, _⟩ := inStep.pushAll pushed
      rw [fresh, List.nil_append] at entries
      have ascending := ends.ascending
      rw [entries, sound.ascending_toWrite_iff] at ascending
      exact absurd disordered ascending
    | some e =>
      rcases RunWriter.fault_of_pushAll pushed with ⟨_, fp, last, rfl⟩ | ⟨excess, _⟩
      · exact ⟨fp, last, _, rfl⟩
      · have less : RunWriter.bytesOf w (r.entries.size + s.toWrite.1.length) ≤
            RunWriter.bytesOf w s.size := by
          rw [fresh, RunWriter.bytesOf, RunWriter.bytesOf]
          have few := sound.length_toWrite_le
          exact Nat.add_le_add_left (Nat.mul_le_mul_right _ (by simpa using few)) _
        exact absurd (excess?_eq_none_of_le less room) excess

/-- A flush that fails is out of order, or files are at fault. -/
theorem fault_of_flushNow (sound : s.Sound) {h : Host} {e : Error}
    (failed : (s.flushNow h).answer = .error e) :
    (∃ path fault, e = .file path fault) ∨
      s.table.Disordered ∧ ∃ fp last, e = .invariant (.unordered fp last) := by
  unfold flushNow at failed
  split at failed
  · simp [Outcome.ok] at failed
  · split at failed
    · next fault files merged =>
      obtain rfl : fault = e := by simpa [Outcome.fail] using failed
      exact sound.fault_of_mergeRun merged
    · next r counts files merged =>
      obtain ⟨inStep, blocks, _, _⟩ := mergeRun_eq_ok merged
      unfold replaceRun at failed
      rcases inStep.finish_cases (by rw [blocks]; decide)
        (s.afterMerge counts (h.withFiles files)).files s.unrequested.config.paths.run with
        ⟨fault, finished⟩ | ⟨l, _, finished⟩
      · simp only [finished, Outcome.fail, Except.error.injEq] at failed
        exact .inl ⟨_, _, failed.symm⟩
      · simp [finished, Outcome.ok] at failed

/-- A flush of a table that is out of order is refused if there is room for it. -/
theorem flushNow_of_disordered (sound : s.Sound) (disordered : s.table.Disordered) {h : Host}
    {begun : Files} {r : RunWriter w}
    (started : RunWriter.start w h.files s.config.paths.run defaultBlockEntries = .ok (r, begun))
    (room : excess? r.room (RunWriter.bytesOf w s.size) = none) :
    ∃ fp last, (s.flushNow h).answer = .error (.invariant (.unordered fp last)) := by
  obtain ⟨fp, last, after, merged⟩ := sound.mergeRun_of_disordered disordered started room
  have something : s.tableLive + s.overflow.size ≠ 0 := by
    obtain ⟨a, first, _⟩ := disordered
    rw [sound.live]
    have filled := List.length_pos_of_mem first
    omega
  refine ⟨fp, last, ?_⟩
  rw [flushNow, if_neg something, merged]
  rfl

end Sound

end DiskSet

end SeenStates
