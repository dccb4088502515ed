import SeenStates.Proofs.CheckpointFiles
import SeenStates.Proofs.Operations

/-!
# What calls do to files

An open set keeps its run mapped as the run's own file holds it, as far as that can be read
(`DiskSet.Faithful`). Calls that put, ask or flush change no other file (`Goes`), writing a
checkpoint aside changes the two files of that, and going back to a checkpoint changes the run
again (`Recovery`).
-/
namespace SeenStates

variable {w : Width}

/-- The files of a set that a call may alter. -/
def Call.altered : Call w → List SetFile
  | beginCheckpoint => [.run, .pendingCopy, .pendingHeader]
  | commitCheckpoint => checkpointFiles
  | _ => [.run]

/-- A plain call may alter the run only. -/
theorem Call.altered_of_isPlain {c : Call w} (isPlain : c.isPlain) : c.altered = [.run] := by
  cases c with
  | beginCheckpoint => contradiction
  | commitCheckpoint => contradiction
  | _ => rfl

/-- A checkpoint in progress is altered by beginning one and by committing it only. -/
theorem Call.pending_not_mem_altered {c : Call w} (notBegin : c ≠ .beginCheckpoint)
    (notCommit : c ≠ .commitCheckpoint) :
    .pendingCopy ∉ c.altered ∧ .pendingHeader ∉ c.altered := by
  cases c with
  | beginCheckpoint => exact absurd rfl notBegin
  | commitCheckpoint => exact absurd rfl notCommit
  | _ => simp [altered]

/-- The committed checkpoint is altered by committing one only. -/
theorem Call.committed_not_mem_altered {c : Call w} (notCommit : c ≠ .commitCheckpoint) :
    .copy ∉ c.altered ∧ .header ∉ c.altered := by
  cases c with
  | commitCheckpoint => exact absurd rfl notCommit
  | _ => simp [altered]

namespace DiskSet

/-- A set of a valid configuration has its own run mapped, as the file of the run holds it if that
can be read, and no put is flushing. -/
structure Faithful (s : DiskSet w) (t : Files) : Prop where
  /-- The configuration is valid. -/
  valid : s.config.validate = .ok ()
  /-- The run is the set's own. -/
  own : s.disk.path = s.config.paths.run
  /-- The run is mapped. -/
  mapped : s.disk.mapped.isSome
  /-- No put is flushing. -/
  idle : s.flusherChosen = false
  /-- The file of the run, if there is one, is the run. -/
  file : ∀ contents, t.find s.config.paths.run = .ok (.file contents) →
    IsRun w contents s.disk.header s.disk.stored

/-- A set stays faithful to files in which its run's path leads to nothing new. -/
theorem Faithful.of_find {s : DiskSet w} {t u : Files} (faithful : s.Faithful t)
    (kept : ∀ e, u.find s.config.paths.run = .ok e → t.find s.config.paths.run = .ok e) :
    s.Faithful u :=
  { faithful with file := fun contents found => faithful.file contents (kept _ found) }

/-- A set stays faithful when files other than its run change. -/
theorem Faithful.of_alters {s : DiskSet w} {t u : Files} (faithful : s.Faithful t)
    {fs : List SetFile} (alters : s.config.Alters fs t u) (other : .run ∉ fs) : s.Faithful u :=
  faithful.of_find fun _ found =>
    alters.find (Config.leads faithful.valid .run) (Config.fileName_not_mem fs other) found

/-- A set that goes over, with its files, to an open one that is faithful to its own, by changes of
no file but its run. -/
structure Goes (s : DiskSet w) (t : Files) (u : DiskSet w) (v : Files) : Prop where
  /-- It is open afterwards. -/
  isOpen : u.closed = false
  /-- It is of the same configuration. -/
  config : u.config = s.config
  /-- It is faithful. -/
  faithful : u.Faithful v
  /-- Only its run has changed. -/
  keeps : s.config.Keeps [.run] t v

namespace Goes

variable {s s' s'' : DiskSet w} {t t' t'' : Files}

/-- A set goes over to itself. -/
theorem refl (isOpen : s.closed = false) (faithful : s.Faithful t) : Goes s t s t :=
  ⟨isOpen, rfl, faithful, .refl ..⟩

/-- A set that goes over twice goes over. -/
theorem trans (first : Goes s t s' t') (second : Goes s' t' s'' t'') : Goes s t s'' t'' :=
  ⟨second.isOpen, second.config.trans first.config, second.faithful,
    first.keeps.trans (first.config ▸ second.keeps)⟩

/-- A set goes over to one that has the same run. -/
theorem of_disk_eq (isOpen : s'.closed = false) (faithful : s.Faithful t)
    (config : s'.config = s.config) (disk : s'.disk = s.disk)
    (idle : s'.flusherChosen = s.flusherChosen) : Goes s t s' t := by
  refine ⟨isOpen, config, ?_, .refl ..⟩
  constructor
  · rw [config]
    exact faithful.valid
  · rw [config, disk]
    exact faithful.own
  · rw [disk]
    exact faithful.mapped
  · rw [idle]
    exact faithful.idle
  · rw [config, disk]
    exact faithful.file

end Goes

/-! ## Plain calls -/

section

variable {s : DiskSet w} {h : Host}

/-- A flush changes no file but the run. -/
theorem Faithful.goes_flushNow (faithful : s.Faithful h.files) (isOpen : s.closed = false) :
    Goes s h.files (s.flushNow h).set (s.flushNow h).host.files := by
  have ends := flushed_flushNow faithful.mapped h
  generalize s.flushNow h = o at ends ⊢
  obtain ⟨answer, u, host⟩ := o
  simp only at ends ⊢
  generalize host.files = after at ends ⊢
  cases ends with
  | failed e => exact .of_disk_eq isOpen faithful rfl rfl rfl
  | nothing vacant => exact .of_disk_eq isOpen faithful rfl rfl rfl
  | written l entries takes ascending storable all =>
    refine ⟨isOpen, rfl, ⟨faithful.valid, rfl, rfl, faithful.idle, fun contents found => ?_⟩, ?_⟩
    · have placed := Files.find_of_locate
        (takes.locate_place (encodeRun defaultBlockEntries entries))
      have same : contents = encodeRun defaultBlockEntries entries :=
        Entry.file.inj (Except.ok.inj (found.symm.trans placed))
      rw [same]
      exact isRun_encodeRun storable
    · exact Files.keeps_place (Config.leads faithful.valid .run) takes _

/-- A put changes no file but the run. -/
theorem Faithful.goes_put (faithful : s.Faithful h.files) (isOpen : s.closed = false)
    (fp : Fingerprint w) : Goes s h.files (s.put fp h).set (s.put fp h).host.files := by
  have inserted (opening : Option Nat) : Goes s h.files (s.insert fp opening) h.files :=
    .of_disk_eq ((closed_insert ..).trans isOpen) faithful (config_insert ..) (disk_insert ..)
      (by cases opening <;> rfl)
  have ends := putEnd isOpen faithful.idle fp h
  generalize s.put fp h = o at ends ⊢
  cases ends with
  | seen place found isSeen =>
    exact .of_disk_eq ((closed_counted ..).trans isOpen) faithful (config_counted ..)
      (disk_counted ..) (by cases place <;> rfl)
  | fresh opening found => exact inserted opening
  | flushed opening found due =>
    have first := inserted opening
    exact first.trans (first.faithful.goes_flushNow first.isOpen)

/-- A query changes no file. -/
theorem Faithful.goes_contains (faithful : s.Faithful h.files) (isOpen : s.closed = false)
    (fp : Fingerprint w) : Goes s h.files (s.contains fp h).set (s.contains fp h).host.files := by
  simp only [DiskSet.contains, whenOpen, isOpen, Bool.false_eq_true, if_false, Outcome.ok]
  generalize s.find fp = place
  exact .of_disk_eq ((closed_counted ..).trans isOpen) faithful (config_counted ..)
    (disk_counted ..) (by cases place <;> rfl)

/-- What goes over with each of some fingerprints goes over with all of them. -/
theorem goes_each {α : Type} {op : Fingerprint w → DiskSet w → Host → Outcome (DiskSet w) α}
    (step : ∀ {s h}, s.closed = false → s.Faithful h.files → ∀ fp,
      Goes s h.files (op fp s h).set (op fp s h).host.files)
    (isOpen : s.closed = false) (faithful : s.Faithful h.files) (fps : List (Fingerprint w)) :
    Goes s h.files (Outcome.each op fps s h).set (Outcome.each op fps s h).host.files := by
  induction fps generalizing s h with
  | nil => exact .refl isOpen faithful
  | cons fp rest ih =>
    have first := step isOpen faithful fp
    rw [Outcome.each, Outcome.andThen]
    split
    · exact first.trans (ih first.isOpen first.faithful)
    · exact first

/-- A plain call changes no file but the run. -/
theorem Faithful.goes_perform (faithful : s.Faithful h.files) (isOpen : s.closed = false)
    {c : Call w} (isPlain : c.isPlain) :
    Goes s h.files (c.perform s h).set (c.perform s h).host.files := by
  cases c with
  | put fp => exact faithful.goes_put isOpen fp
  | putBlock fps => exact goes_each (fun o f fp => f.goes_put o fp) isOpen faithful fps
  | recoverFingerprint fp =>
    simp only [Call.perform, Outcome.map, set_recoverFingerprint, host_recoverFingerprint]
    exact faithful.goes_put isOpen fp
  | contains fp => exact faithful.goes_contains isOpen fp
  | containsBlock fps => exact goes_each (fun o f fp => f.goes_contains o fp) isOpen faithful fps
  | flush =>
    simp only [Call.perform, Outcome.map, flush, whenOpen, isOpen, Bool.false_eq_true, if_false]
    exact faithful.goes_flushNow isOpen
  | requestFlush => exact .of_disk_eq isOpen faithful rfl rfl rfl
  | beginCheckpoint => contradiction
  | commitCheckpoint => contradiction
  | recover => contradiction
  | close cleanup => contradiction

/-! ## Checkpoints -/

/-- Writing a checkpoint aside ends with its flush if that fails. Otherwise its files are written,
with any outcome. -/
theorem beginCheckpoint_cases (isOpen : s.closed = false) :
    (∃ e, (s.flushNow h).answer = .error e ∧ (s.beginCheckpoint h).answer = .error e ∧
        (s.beginCheckpoint h).host = (s.flushNow h).host) ∨
      (s.flushNow h).answer = .ok () ∧
        (s.flushNow h).set.config.paths.begin (s.flushNow h).set.disk
            (s.flushNow h).set.config.family (s.flushNow h).host.files =
          ((s.beginCheckpoint h).answer, (s.beginCheckpoint h).host.files) := by
  simp only [DiskSet.beginCheckpoint, whenOpen, isOpen, Bool.false_eq_true, if_false,
    Outcome.andThen]
  cases flushed : (s.flushNow h).answer with
  | error e => exact .inl ⟨e, rfl, rfl, rfl⟩
  | ok _ =>
    refine .inr ⟨rfl, ?_⟩
    simp only
    split
    · next begun => exact begun
    · next begun => exact begun

/-- Putting a checkpoint in place comes to what it does to the files. -/
theorem commitCheckpoint_eq (isOpen : s.closed = false) :
    s.config.paths.commit h.files =
      ((s.commitCheckpoint h).answer, (s.commitCheckpoint h).host.files) := by
  simp only [commitCheckpoint, whenOpen, isOpen, Bool.false_eq_true, if_false]
  split
  · next committed => exact committed
  · next committed => exact committed

/-- Writing a checkpoint aside changes the run and the two files of that. -/
theorem Faithful.beginCheckpoint (faithful : s.Faithful h.files) (isOpen : s.closed = false) :
    (s.beginCheckpoint h).set.closed = false ∧ (s.beginCheckpoint h).set.config = s.config ∧
      (s.beginCheckpoint h).set.Faithful (s.beginCheckpoint h).host.files ∧
      s.config.Keeps [.run, .pendingCopy, .pendingHeader] h.files
        (s.beginCheckpoint h).host.files := by
  have flushed := faithful.goes_flushNow isOpen
  rw [set_beginCheckpoint isOpen h]
  refine ⟨flushed.isOpen, flushed.config, ?_⟩
  have first : s.config.Keeps [.run, .pendingCopy, .pendingHeader] h.files
      (s.flushNow h).host.files := flushed.keeps.mono (by simp)
  rcases beginCheckpoint_cases (h := h) isOpen with ⟨_, _, _, host⟩ | ⟨_, begun⟩
  · rw [host]
    exact ⟨flushed.faithful, first⟩
  · have written := SetPaths.keeps_begin flushed.faithful.valid (s.flushNow h).set.disk
      (s.flushNow h).set.config.family (s.flushNow h).host.files
    rw [begun] at written
    have more : s.config.Keeps [.run, .pendingCopy, .pendingHeader] (s.flushNow h).host.files
        (s.beginCheckpoint h).host.files := flushed.config ▸ written.mono (by simp)
    exact ⟨flushed.faithful.of_alters written.alters (by decide), first.trans more⟩

/-- Putting a checkpoint in place alters the files of checkpoints only. -/
theorem alters_commitCheckpoint (valid : s.config.validate = .ok ()) :
    s.config.Alters checkpointFiles h.files (s.commitCheckpoint h).host.files := by
  cases closed : s.closed with
  | true =>
    simp only [DiskSet.commitCheckpoint, whenOpen, closed, if_true]
    exact .nothing rfl
  | false =>
    have altered := SetPaths.alters_commit valid h.files
    rwa [commitCheckpoint_eq closed] at altered

/-- Closing a set closes it, and changes no file but its run. -/
theorem close_closes (valid : s.config.validate = .ok ()) (cleanup : Bool) :
    (s.close cleanup h).set.closed ∧ (s.close cleanup h).set.config = s.config ∧
      s.config.Keeps [.run] h.files (s.close cleanup h).host.files := by
  unfold close
  split
  · next closed => exact ⟨closed, rfl, .refl ..⟩
  · simp only
    split
    · next files removed =>
      refine ⟨rfl, rfl, ?_⟩
      cases cleanup with
      | false =>
        obtain rfl := Except.ok.inj removed
        exact .refl ..
      | true => exact Files.keeps_removeFile (Config.leads valid .run) removed
    · exact ⟨rfl, rfl, .refl ..⟩
    · exact ⟨rfl, rfl, .refl ..⟩

/-! ## Recovery -/

/-- The set with other entries mapped as those of its run. -/
def withEntries (s : DiskSet w) (entries : Array (Fingerprint w)) : DiskSet w :=
  { s with disk := { s.disk with mapped := some entries } }

/-- The entries are those of the run then. -/
theorem stored_withEntries (s : DiskSet w) (entries : Array (Fingerprint w)) :
    (s.withEntries entries).disk.stored = entries := rfl

/-- A set with other entries is open or closed as it was. -/
theorem closed_withEntries (s : DiskSet w) (entries : Array (Fingerprint w)) :
    (s.withEntries entries).closed = s.closed := rfl

/-- What going back to a checkpoint comes to: the answer, and the set and the host afterwards. -/
inductive Recovery (s : DiskSet w) (h : Host) :
    Except Error Unit → DiskSet w → Host → Prop where
  /-- It fails, and nothing has changed. -/
  | kept (e : Error) : Recovery s h (.error e) s h
  /-- It fails, and so does mapping the run again. -/
  | lost (e : Error) (g : Host) (keeps : s.config.Keeps [.run] h.files g.files) :
    Recovery s h (.error e) { s with disk := s.disk.unmap, closed := true } g
  /-- It fails after the run was replaced by the copy, whose header is that of the run. -/
  | replaced (e : Error) (l : Location) (contents : ByteArray) (entries : Array (Fingerprint w))
    (g : Host) (takes : h.files.Takes s.config.paths.run l)
    (canDraft : h.files.CanDraft s.config.paths.run)
    (readable : ∃ header, s.config.paths.readHeader w s.config.family h.files = .ok header)
    (replaces : (s.config.paths.replaceRun h.files).1 = .ok ())
    (copy : h.files.find s.config.paths.copy = .ok (.file contents))
    (isRun : IsRun w contents s.disk.header entries)
    (placed : g.files = h.files.place l (.file contents)) :
    Recovery s h (.error e) (s.withEntries entries) g
  /-- The run is replaced by the copy and opened. -/
  | recovered (l : Location) (contents : ByteArray) (disk : Run w) (g : Host)
    (takes : h.files.Takes s.config.paths.run l) (own : disk.path = s.config.paths.run)
    (mapped : disk.mapped.isSome) (isRun : IsRun w contents disk.header disk.stored)
    (placed : g.files = h.files.place l (.file contents)) :
    Recovery s h (.ok ()) (s.recovered disk) g

/-- A run that is mapped again after it was unmapped is what its file holds, or it is lost. -/
theorem remap_unmap_cases (r : Run w) (t : Files) :
    (∃ e, Run.remap t r.unmap = .error e) ∨
      ∃ contents entries, t.find r.path = .ok (.file contents) ∧
        IsRun w contents r.header entries ∧
        Run.remap t r.unmap = .ok { r with mapped := some entries } := by
  cases mapped : Run.map w t r.path with
  | error e => exact .inl ⟨e, by simp [Run.remap, Run.unmap, mapped, bind, Except.bind]⟩
  | ok pair =>
    obtain ⟨header, entries⟩ := pair
    obtain ⟨contents, found, isRun⟩ := Run.map_eq_ok mapped
    by_cases same : header = r.header
    · refine .inr ⟨contents, entries, found, same ▸ isRun, ?_⟩
      simp [Run.remap, Run.unmap, mapped, bind, Except.bind, same]
    · exact .inl ⟨_, by simp [Run.remap, Run.unmap, mapped, bind, Except.bind, same]; rfl⟩

/-- A run that a checkpoint restores is the set's own, mapped as its file holds it. -/
theorem openRestored_eq_ok {p : SetPaths} {header : CheckpointHeader w} {t : Files} {disk : Run w}
    (opened : p.openRestored header t = .ok disk) :
    ∃ contents, t.find p.run = .ok (.file contents) ∧ disk.path = p.run ∧ disk.mapped.isSome ∧
      IsRun w contents disk.header disk.stored := by
  unfold SetPaths.openRestored Run.openWithIndex at opened
  cases mapped : Run.map w t p.run with
  | error e => simp [mapped, bind, Except.bind] at opened
  | ok pair =>
    obtain ⟨own, entries⟩ := pair
    obtain ⟨contents, found, isRun⟩ := Run.map_eq_ok mapped
    simp only [mapped, bind, Except.bind] at opened
    refine ⟨contents, found, ?_⟩
    split at opened
    · contradiction
    · next r opens =>
      split at opens
      · contradiction
      · split at opens
        · contradiction
        · split at opened
          · contradiction
          · obtain rfl := Except.ok.inj opened
            obtain rfl := Except.ok.inj opens
            exact ⟨rfl, rfl, isRun⟩

/-- A set with the entries of its own run is the same. -/
theorem withEntries_stored (mapped : s.disk.mapped.isSome) :
    s.withEntries s.disk.stored = s := by
  obtain ⟨entries, here⟩ := Option.isSome_iff_exists.1 mapped
  have same : some s.disk.stored = s.disk.mapped := by rw [Run.stored, here, Option.getD_some]
  rw [withEntries, same]

/-- A faithful set that has its run mapped again from its file is as before. -/
theorem Faithful.remapped {t : Files} (faithful : s.Faithful t) {contents : ByteArray}
    {entries : Array (Fingerprint w)} (found : t.find s.disk.path = .ok (.file contents))
    (isRun : IsRun w contents s.disk.header entries) : s.withEntries entries = s := by
  have own : IsRun w contents s.disk.header s.disk.stored :=
    faithful.file contents (faithful.own ▸ found)
  have same : entries = s.disk.stored :=
    (Prod.mk.inj (Except.ok.inj (Eq.trans isRun.symm own))).2
  rw [same]
  exact withEntries_stored faithful.mapped

/-- A faithful set whose run is mapped again is as it was, or it is closed. -/
theorem Faithful.remapOrClose_unmap (faithful : s.Faithful h.files) :
    (∃ e, ({ s with disk := s.disk.unmap } : DiskSet w).remapOrClose h =
        ({ s with disk := s.disk.unmap, closed := true }, h.report (.runLost e))) ∨
      ({ s with disk := s.disk.unmap } : DiskSet w).remapOrClose h = (s, h) := by
  simp only [remapOrClose]
  rcases remap_unmap_cases s.disk h.files with ⟨e, lost⟩ | ⟨contents, entries, found, isRun, mapped⟩
  · rw [lost]
    exact .inl ⟨e, rfl⟩
  · rw [mapped]
    exact .inr (Prod.ext (faithful.remapped found isRun) rfl)

/-- A set whose run is mapped again has the entries in the file of the run, if that has the header
of the run. -/
theorem remapOrClose_of_isRun {contents : ByteArray} {entries : Array (Fingerprint w)}
    (found : h.files.find s.disk.path = .ok (.file contents))
    (isRun : IsRun w contents s.disk.header entries) :
    ({ s with disk := s.disk.unmap } : DiskSet w).remapOrClose h =
      (s.withEntries entries, h) := by
  simp [remapOrClose, withEntries, Run.remap, Run.unmap, Run.map_of_find isRun found, bind,
    Except.bind]

/-- A recovery whose header cannot be read changes nothing. -/
theorem recover_of_unreadable (isOpen : s.closed = false) {e : Error}
    (read : s.config.paths.readHeader w s.config.family h.files = .error e) :
    s.recover h = .fail e s h := by
  have stillOpen : ¬ s.closed := by simp [isOpen]
  rw [DiskSet.recover, whenOpen, if_neg stillOpen]
  simp only [read]

/-- A recovery whose run is restored takes the set over to it. -/
theorem recover_of_restore (isOpen : s.closed = false) {header : CheckpointHeader w}
    (read : s.config.paths.readHeader w s.config.family h.files = .ok header) {disk : Run w}
    {after : Files} (restored : s.config.paths.restore header h.files = (.ok disk, after)) :
    s.recover h = .ok () (s.recovered disk)
      ((h.withFiles after).report (.recovered s.config.name disk.size)) := by
  have stillOpen : ¬ s.closed := by simp [isOpen]
  rw [DiskSet.recover, whenOpen, if_neg stillOpen]
  simp only [read, restored]

/-- A recovery whose run is not restored fails, and the run is mapped again. -/
theorem recover_of_unrestored (isOpen : s.closed = false) {header : CheckpointHeader w}
    (read : s.config.paths.readHeader w s.config.family h.files = .ok header) {e : Error}
    {after : Files} (refused : s.config.paths.restore header h.files = (.error e, after)) :
    s.recover h =
      let final := ({ s with disk := s.disk.unmap } : DiskSet w).remapOrClose (h.withFiles after)
      .fail e final.1 final.2 := by
  have stillOpen : ¬ s.closed := by simp [isOpen]
  rw [DiskSet.recover, whenOpen, if_neg stillOpen]
  simp only [read, refused]

/-- A recovery whose copy is put in the place of the run but cannot be opened fails, and the run is
mapped again. -/
theorem recover_of_replaced (isOpen : s.closed = false) {header : CheckpointHeader w}
    (read : s.config.paths.readHeader w s.config.family h.files = .ok header) {after : Files}
    (replaced : s.config.paths.replaceRun h.files = (.ok (), after)) {e : Error}
    (refused : s.config.paths.openRestored header after = .error e) :
    s.recover h =
      let final := ({ s with disk := s.disk.unmap } : DiskSet w).remapOrClose (h.withFiles after)
      .fail e final.1 final.2 := by
  have restored : s.config.paths.restore header h.files = (.error e, after) := by
    rw [SetPaths.restore, replaced, ← refused]
  exact recover_of_unrestored isOpen read restored

/-- A recovery that restores nothing and leaves the files alone fails. A faithful set is then as it
was, or it is closed. -/
theorem Faithful.recover_of_unchanged (faithful : s.Faithful h.files) (isOpen : s.closed = false)
    {header : CheckpointHeader w}
    (read : s.config.paths.readHeader w s.config.family h.files = .ok header) {e : Error}
    (refused : s.config.paths.restore header h.files = (.error e, h.files)) :
    (∃ lost, s.recover h =
        .fail e { s with disk := s.disk.unmap, closed := true } (h.report (.runLost lost))) ∨
      s.recover h = .fail e s h := by
  have same : h.withFiles h.files = h := rfl
  rw [recover_of_unrestored isOpen read refused, same]
  rcases faithful.remapOrClose_unmap with ⟨lost, closed⟩ | kept
  · rw [closed]
    exact .inl ⟨lost, rfl⟩
  · rw [kept]
    exact .inr rfl

/-- Going back to a checkpoint comes to one of these. -/
theorem Faithful.recovery (faithful : s.Faithful h.files) (isOpen : s.closed = false) :
    Recovery s h (s.recover h).answer (s.recover h).set (s.recover h).host := by
  cases read : s.config.paths.readHeader w s.config.family h.files with
  | error e =>
    rw [recover_of_unreadable isOpen read]
    exact .kept e
  | ok header =>
    rcases s.config.paths.replaceRun_cases h.files with
      ⟨e, failed⟩ | ⟨l, contents, takes, canDraft, copy, _, replaced⟩
    · have refused : s.config.paths.restore header h.files = (.error e, h.files) := by
        rw [SetPaths.restore, failed]
      rcases faithful.recover_of_unchanged isOpen read refused with ⟨lost, closed⟩ | kept
      · rw [closed]
        exact .lost e _ (.refl ..)
      · rw [kept]
        exact .kept e
    · have placed := Files.find_of_locate (takes.locate_place contents)
      cases opened : s.config.paths.openRestored header (h.files.place l (.file contents)) with
      | ok disk =>
        have restored : s.config.paths.restore header h.files =
            (.ok disk, h.files.place l (.file contents)) := by
          rw [SetPaths.restore, replaced, ← opened]
        obtain ⟨contents', found, own, mapped, isRun⟩ := openRestored_eq_ok opened
        obtain rfl := Entry.file.inj (Except.ok.inj (placed.symm.trans found))
        rw [recover_of_restore isOpen read restored]
        exact .recovered l contents disk _ takes own mapped isRun rfl
      | error e =>
        have keeps := Files.keeps_place (Config.leads faithful.valid .run) takes contents
        rw [recover_of_replaced isOpen read replaced opened]
        simp only [remapOrClose, Host.withFiles]
        -- The run is mapped from the copy now, if it has the header of the run.
        rcases remap_unmap_cases s.disk (h.files.place l (.file contents)) with
          ⟨_, lost⟩ | ⟨contents', entries, found, isRun, mapped⟩
        · rw [lost]
          exact .lost e _ keeps
        · rw [mapped]
          rw [faithful.own] at found
          obtain rfl := Entry.file.inj (Except.ok.inj (placed.symm.trans found))
          exact .replaced e l contents entries _ takes canDraft ⟨header, read⟩
            (by rw [replaced]) copy isRun rfl

/-- Going back to a checkpoint closes the set or leaves it faithful, and changes no file but the
run. -/
theorem Recovery.goes {g : Host} {answer : Except Error Unit} {u : DiskSet w}
    (recovery : Recovery s h answer u g) (faithful : s.Faithful h.files)
    (isOpen : s.closed = false) :
    u.config = s.config ∧ s.config.Keeps [.run] h.files g.files ∧
      (u.closed ∨ u.closed = false ∧ u.Faithful g.files) := by
  -- A run that was put in place is what is found there.
  have copied {l : Location} {contents : ByteArray} (takes : h.files.Takes s.config.paths.run l)
      (placed : g.files = h.files.place l (.file contents)) :
      s.config.Keeps [.run] h.files g.files ∧ ∀ contents',
        g.files.find s.config.paths.run = .ok (.file contents') → contents' = contents := by
    rw [placed]
    refine ⟨Files.keeps_place (Config.leads faithful.valid .run) takes contents, ?_⟩
    intro contents' found
    have there := Files.find_of_locate (takes.locate_place contents)
    exact Entry.file.inj (Except.ok.inj (found.symm.trans there))
  cases recovery with
  | kept e => exact ⟨rfl, .refl .., .inr ⟨isOpen, faithful⟩⟩
  | lost e g keeps => exact ⟨rfl, keeps, .inl rfl⟩
  | replaced e l contents entries g takes canDraft readable replaces copy isRun placed =>
    obtain ⟨keeps, only⟩ := copied takes placed
    refine ⟨rfl, keeps, .inr ⟨isOpen, faithful.valid, faithful.own, rfl, faithful.idle, ?_⟩⟩
    intro contents' found
    rw [only contents' found]
    exact isRun
  | recovered l contents disk g takes own mapped isRun placed =>
    obtain ⟨keeps, only⟩ := copied takes placed
    refine ⟨rfl, keeps, .inr ⟨isOpen, faithful.valid, own, mapped, faithful.idle, ?_⟩⟩
    intro contents' found
    rw [only contents' found]
    exact isRun

/-! ## All calls -/

/-- A call of a closed set leaves it closed, and changes nothing else but what is asked for. It is
refused if the set has to be open for it. -/
theorem perform_of_closed (closed : s.closed) (c : Call w) :
    (c.perform s h).set.closed ∧ (c.perform s h).set.config = s.config ∧
      (c.perform s h).host = h ∧ (c.needsOpen → (c.perform s h).answer = .error .closed) := by
  have refused {α : Type} (op : DiskSet w → Host → Outcome (DiskSet w) α) :
      s.whenOpen h op = .fail .closed s h := if_pos closed
  cases c with
  | putBlock fps =>
    cases fps with
    | nil => exact ⟨closed, rfl, rfl, fun needsOpen => absurd needsOpen Bool.false_ne_true⟩
    | cons fp rest =>
      have first : s.put fp h = .fail .closed s h := refused _
      simp only [Call.perform, DiskSet.putBlock, Outcome.each, first]
      exact ⟨closed, rfl, rfl, fun _ => rfl⟩
  | containsBlock fps =>
    cases fps with
    | nil => exact ⟨closed, rfl, rfl, fun needsOpen => absurd needsOpen Bool.false_ne_true⟩
    | cons fp rest =>
      have first : s.contains fp h = .fail .closed s h := refused _
      simp only [Call.perform, DiskSet.containsBlock, Outcome.each, first]
      exact ⟨closed, rfl, rfl, fun _ => rfl⟩
  | recoverFingerprint fp =>
    have put : s.put fp h = .fail .closed s h := refused _
    simp only [Call.perform, recoverFingerprint, put]
    exact ⟨closed, rfl, rfl, fun _ => rfl⟩
  | requestFlush => exact ⟨closed, rfl, rfl, fun needsOpen => absurd needsOpen Bool.false_ne_true⟩
  | close cleanup =>
    simp only [Call.perform, DiskSet.close, if_pos closed]
    exact ⟨closed, rfl, rfl, fun needsOpen => absurd needsOpen Bool.false_ne_true⟩
  | put fp =>
    simp only [Call.perform, DiskSet.put, refused]
    exact ⟨closed, rfl, rfl, fun _ => rfl⟩
  | contains fp =>
    simp only [Call.perform, DiskSet.contains, refused]
    exact ⟨closed, rfl, rfl, fun _ => rfl⟩
  | flush =>
    simp only [Call.perform, DiskSet.flush, refused]
    exact ⟨closed, rfl, rfl, fun _ => rfl⟩
  | beginCheckpoint =>
    simp only [Call.perform, DiskSet.beginCheckpoint, refused]
    exact ⟨closed, rfl, rfl, fun _ => rfl⟩
  | commitCheckpoint =>
    simp only [Call.perform, DiskSet.commitCheckpoint, refused]
    exact ⟨closed, rfl, rfl, fun _ => rfl⟩
  | recover =>
    simp only [Call.perform, DiskSet.recover, refused]
    exact ⟨closed, rfl, rfl, fun _ => rfl⟩

/-- A set is open if a call succeeds that it has to be open for. -/
theorem isOpen_of_isOk {c : Call w} (needsOpen : c.needsOpen)
    (isOk : (c.perform s h).answer.isOk) : s.closed = false := by
  cases closed : s.closed with
  | false => rfl
  | true =>
    rw [(perform_of_closed closed c).2.2.2 needsOpen] at isOk
    contradiction

/-- A set is open if it is open after a call. -/
theorem isOpen_of_perform {c : Call w} (isOpen : (c.perform s h).set.closed = false) :
    s.closed = false := by
  cases closed : s.closed with
  | false => rfl
  | true =>
    have still := (perform_of_closed (h := h) closed c).1
    rw [isOpen] at still
    contradiction

/-- A set is open if what it has to be open for succeeds. -/
theorem isOpen_of_whenOpen {α : Type} {op : DiskSet w → Host → Outcome (DiskSet w) α} {a : α}
    (answer : (s.whenOpen h op).answer = .ok a) : s.closed = false := by
  cases closed : s.closed with
  | false => rfl
  | true =>
    rw [whenOpen, if_pos closed] at answer
    contradiction

/-- A call closes the set or leaves it faithful. -/
theorem Faithful.perform (faithful : s.Faithful h.files) (isOpen : s.closed = false) (c : Call w) :
    (c.perform s h).set.config = s.config ∧
      ((c.perform s h).set.closed ∨ (c.perform s h).set.closed = false ∧
        (c.perform s h).set.Faithful (c.perform s h).host.files) := by
  by_cases isPlain : c.isPlain
  · have goes := faithful.goes_perform isOpen isPlain
    exact ⟨goes.config, .inr ⟨goes.isOpen, goes.faithful⟩⟩
  · cases c with
    | beginCheckpoint =>
      obtain ⟨stillOpen, config, still, _⟩ := faithful.beginCheckpoint isOpen
      exact ⟨config, .inr ⟨stillOpen, still⟩⟩
    | commitCheckpoint =>
      have altered :=
        faithful.of_alters (alters_commitCheckpoint (h := h) faithful.valid) (by decide)
      simp only [Call.perform, Outcome.map, set_commitCheckpoint]
      exact ⟨trivial, .inr ⟨isOpen, altered⟩⟩
    | recover =>
      obtain ⟨config, _, whole⟩ := (faithful.recovery isOpen).goes faithful isOpen
      exact ⟨config, whole⟩
    | close cleanup =>
      obtain ⟨closed, config, _⟩ := close_closes (h := h) faithful.valid cleanup
      exact ⟨config, .inl closed⟩
    | _ => exact absurd rfl isPlain

/-- A call that puts no checkpoint in place changes no other files than it may, and every directory
stays. -/
theorem Faithful.keeps_perform (faithful : s.Faithful h.files) (isOpen : s.closed = false)
    {c : Call w} (other : c ≠ .commitCheckpoint) :
    s.config.Keeps c.altered h.files (c.perform s h).host.files := by
  by_cases isPlain : c.isPlain
  · rw [Call.altered_of_isPlain isPlain]
    exact (faithful.goes_perform isOpen isPlain).keeps
  · cases c with
    | beginCheckpoint => exact (faithful.beginCheckpoint isOpen).2.2.2
    | commitCheckpoint => exact absurd rfl other
    | recover => exact ((faithful.recovery isOpen).goes faithful isOpen).2.1
    | close cleanup => exact (close_closes faithful.valid cleanup).2.2
    | _ => exact absurd rfl isPlain

/-- A call alters no other files than it may. -/
theorem Faithful.alters_perform (faithful : s.Faithful h.files) (isOpen : s.closed = false)
    (c : Call w) : s.config.Alters c.altered h.files (c.perform s h).host.files := by
  by_cases commit : c = .commitCheckpoint
  · subst commit
    exact alters_commitCheckpoint faithful.valid
  · exact (faithful.keeps_perform isOpen commit).alters

end

end DiskSet

end SeenStates
