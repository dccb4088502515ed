import SeenStates.Proofs.CallFiles

/-!
# Sets among their own files

What stands in the place of a checkpoint was written as one, and the file of the run is the run of
the set: as long as that holds of the files, a set is sound and faithful to them after every call
(`steady_of_reached`). It goes on to hold as long as no call that writes or places a checkpoint
stops halfway.
-/
namespace SeenStates

variable {w : Width}

/-- What stands in the place of a checkpoint was written as one. -/
structure Config.OwnCheckpoints (c : Config) (t : Files) : Prop where
  /-- A checkpoint in progress. -/
  pending : t.Genuine c.paths.pendingCopy c.paths.pendingHeader
  /-- The committed checkpoint. -/
  committed : t.Genuine c.paths.copy c.paths.header

/-- Checkpoints stay what they are where their paths lead to nothing new. -/
theorem Config.OwnCheckpoints.of_find {c : Config} {t u : Files} (own : c.OwnCheckpoints t)
    (kept : ∀ f ∈ checkpointFiles, ∀ e, u.find (c.paths.path f) = .ok e →
      t.find (c.paths.path f) = .ok e) : c.OwnCheckpoints u := by
  constructor
  · intro copy header found found'
    exact own.pending copy header (kept .pendingCopy (by decide) _ found)
      (kept .pendingHeader (by decide) _ found')
  · intro copy header found found'
    exact own.committed copy header (kept .copy (by decide) _ found)
      (kept .header (by decide) _ found')

/-- Whether a call writes a checkpoint or puts one in place. -/
def Call.isCheckpoint : Call w → Bool
  | beginCheckpoint => true
  | commitCheckpoint => true
  | _ => false

/-- A set among its own files. Any calls are made, with any outcome, except that one that writes a
checkpoint or puts one in place does not stop halfway: it succeeds, or leaves the files of
checkpoints as they were. Between two calls the files change in any way after which what stands in
the place of a checkpoint was written as one and the file of the run, if there is one, is the
run. -/
def ownFiles (w : Width) : Setting w where
  starts := fun c t => c.OwnCheckpoints t
  allows := fun c s h => c.isCheckpoint → (c.perform s h).answer.isOk ∨
    ∀ f ∈ checkpointFiles,
      (c.perform s h).host.files.find (s.config.paths.path f) =
        h.files.find (s.config.paths.path f)
  outside := fun s _ u => s.config.OwnCheckpoints u ∧
    ∀ contents, u.find s.config.paths.run = .ok (.file contents) →
      IsRun w contents s.disk.header s.disk.stored

namespace DiskSet

variable {s : DiskSet w} {h : Host}

/-! ## Writing a checkpoint aside -/

/-- After a flush that does not fail everything in a sound set is in its run. -/
theorem Sound.members_flushNow (sound : s.Sound) (flushed : (s.flushNow h).answer = .ok ()) :
    (s.flushNow h).set.members = (s.flushNow h).set.disk.stored.toList ∧
      (s.flushNow h).set.tableLive = 0 ∧ (s.flushNow h).set.overflow.size = 0 := by
  have ends := flushed_flushNow sound.mapped h
  generalize s.flushNow h = o at ends flushed ⊢
  obtain ⟨answer, u, host⟩ := o
  simp only at ends flushed ⊢
  generalize host.files = after at ends
  cases ends with
  | failed e => contradiction
  | nothing vacant =>
    obtain ⟨noTable, noOverflow⟩ := Nat.add_eq_zero_iff.1 vacant
    have table : s.table.scan = [] := List.eq_nil_of_length_eq_zero (sound.live ▸ noTable)
    have overflow : s.overflow.entries = [] := by
      refine List.eq_nil_of_length_eq_zero ?_
      rw [Overflow.length_entries, noOverflow]
    refine ⟨?_, noTable, noOverflow⟩
    change s.table.scan ++ s.overflow.entries ++ _ = _
    rw [table, overflow]
    rfl
  | written l entries takes ascending storable all =>
    have table : (s.settled entries).table.scan = [] := Table.scan_archiveLive s.table
    refine ⟨?_, rfl, rfl⟩
    rw [members, table]
    rfl

/-- Writing a checkpoint aside succeeds when its flush and then its files do. -/
theorem beginCheckpoint_eq_ok (isOpen : s.closed = false)
    (begun : (s.beginCheckpoint h).answer = .ok ()) :
    (s.flushNow h).answer = .ok () ∧
      (s.flushNow h).set.config.paths.begin (s.flushNow h).set.disk
          (s.flushNow h).set.config.family (s.flushNow h).host.files =
        (.ok (), (s.beginCheckpoint h).host.files) := by
  rcases beginCheckpoint_cases (h := h) isOpen with ⟨_, _, failed, _⟩ | ⟨flushed, written⟩
  · rw [begun] at failed
    contradiction
  · rw [begun] at written
    exact ⟨flushed, written⟩

/-- Putting a checkpoint in place succeeds when its files do. -/
theorem commitCheckpoint_eq_ok (isOpen : s.closed = false)
    (committed : (s.commitCheckpoint h).answer = .ok ()) :
    s.config.paths.commit h.files = (.ok (), (s.commitCheckpoint h).host.files) := by
  rw [commitCheckpoint_eq isOpen, committed]

/-- The checkpoint that a sound set writes aside is one of everything in it. -/
theorem Sound.checkpoint_of_begin (sound : s.Sound) (faithful : s.Faithful h.files)
    (isOpen : s.closed = false) (begun : (s.beginCheckpoint h).answer = .ok ()) :
    ∃ copy header, IsCheckpoint s.config.family (s.beginCheckpoint h).set.disk.stored copy header ∧
      (∃ l, (s.beginCheckpoint h).host.files.locate s.config.paths.pendingCopy =
        .ok (l, .file copy)) ∧
      (∃ l, (s.beginCheckpoint h).host.files.locate s.config.paths.pendingHeader =
        .ok (l, .file header)) ∧
      excess? (s.beginCheckpoint h).host.files.room copy.size = none ∧
      ∃ l, (s.beginCheckpoint h).host.files.Takes s.config.paths.run l := by
  obtain ⟨flushed, written⟩ := beginCheckpoint_eq_ok isOpen begun
  obtain ⟨kept, _, _, config⟩ := sound.of_flushed (flushed_flushNow sound.mapped h)
  have goes := faithful.goes_flushNow isOpen
  have valid := goes.faithful.valid
  obtain ⟨copy, found, room, copied, header⟩ :=
    SetPaths.begin_eq_ok valid goes.faithful.own written
  have keeps := SetPaths.keeps_begin valid (s.flushNow h).set.disk
    (s.flushNow h).set.config.family (s.flushNow h).host.files
  rw [written] at keeps
  have isRun := goes.faithful.file copy found
  have shape : (s.flushNow h).set.disk.header =
      ⟨w.bytes, (s.flushNow h).set.disk.stored.size, defaultBlockEntries⟩ := by
    rw [kept.run]
    rfl
  have text : CheckpointHeader.ofRun (s.flushNow h).set.disk (s.flushNow h).set.config.family =
      .ofEntries s.config.family (s.flushNow h).set.disk.stored := by
    rw [config]
    conv => lhs; rw [kept.run]
    rfl
  rw [shape] at isRun
  rw [text] at header
  rw [config] at copied header found
  obtain ⟨l, located⟩ := Files.locate_of_find found
  refine ⟨copy, _, ?_, copied, header, keeps.room ▸ room, l, ?_⟩
  · rw [set_beginCheckpoint isOpen]
    exact ⟨kept.ascending, kept.storable, isRun, rfl⟩
  · have takes := (Files.locate_eq_file_iff.1 located).1
    rw [config] at keeps valid
    exact keeps.takes (Config.leads valid .run) takes

/-! ## Going back to a checkpoint -/

/-- A sound set that goes back to a checkpoint is sound, and has the entries of that. -/
theorem Sound.recovered (sound : s.Sound) {entries : Array (Fingerprint w)}
    (ascending : Ascending entries.toList) (storable : Storable defaultBlockEntries entries) :
    (s.recovered (.ofEntries s.config.paths.run defaultBlockEntries entries)).Sound ∧
      (s.recovered (.ofEntries s.config.paths.run defaultBlockEntries entries)).members =
        entries.toList :=
  sound_of_blank sound.table.blank_clear rfl rfl ascending storable rfl rfl sound.idle

/-- Going back to what was written as a checkpoint makes its run that of the set, or fails with the
set closed or as it was. -/
theorem Faithful.recover_cases (faithful : s.Faithful h.files) (isOpen : s.closed = false)
    (genuine : h.files.Genuine s.config.paths.copy s.config.paths.header) :
    (∃ e, (s.recover h).answer = .error e ∧ ((s.recover h).set.closed ∨ (s.recover h).set = s)) ∨
      ∃ (entries : Array (Fingerprint w)) (copy header : ByteArray),
        h.files.Pair s.config.paths.copy s.config.paths.header copy header ∧
        IsCheckpoint s.config.family entries copy header ∧ (s.recover h).answer = .ok () ∧
        (s.recover h).set =
          s.recovered (.ofEntries s.config.paths.run defaultBlockEntries entries) := by
  cases read : s.config.paths.readHeader w s.config.family h.files with
  | error e =>
    rw [recover_of_unreadable isOpen read]
    exact .inl ⟨e, rfl, .inr rfl⟩
  | ok header =>
    rcases SetPaths.restore_cases genuine read with
      ⟨e, refused⟩ | ⟨l, entries, copy, header, takes, pair, checkpoint, restored⟩
    · rcases faithful.recover_of_unchanged isOpen read refused with ⟨lost, closed⟩ | kept
      · rw [closed]
        exact .inl ⟨e, rfl, .inl rfl⟩
      · rw [kept]
        exact .inl ⟨e, rfl, .inr rfl⟩
    · rw [recover_of_restore isOpen read restored]
      exact .inr ⟨entries, copy, header, pair, checkpoint, rfl, rfl⟩

/-! ## Steadiness -/

/-- A set among its own files is closed, or it is sound and faithful to them. -/
structure Steady (s : DiskSet w) (t : Files) : Prop where
  /-- Its configuration is valid. -/
  valid : s.config.validate = .ok ()
  /-- Drafts beside its run can be spelled. -/
  fits : Files.DraftsFit s.config.paths.run
  /-- What stands in the place of a checkpoint was written as one. -/
  checkpoints : s.config.OwnCheckpoints t
  /-- It is closed, or sound and faithful. -/
  whole : s.closed ∨ s.closed = false ∧ s.Sound ∧ s.Faithful t

/-- A steady set that is open is sound and faithful. -/
theorem Steady.of_open {t : Files} (steady : s.Steady t) (isOpen : s.closed = false) :
    s.Sound ∧ s.Faithful t := by
  rcases steady.whole with closed | ⟨_, both⟩
  · rw [isOpen] at closed
    contradiction
  · exact both

/-- The run of an opened set is empty. -/
theorem Opened.stored {c : Config} {before after : Files} (opened : Opened c before s after) :
    s.disk.stored = #[] := by
  have none := opened.members
  rw [DiskSet.members, List.append_eq_nil_iff] at none
  exact Array.toList_eq_nil_iff.1 none.2

/-- An opened set is faithful to its files. -/
theorem Opened.faithful {c : Config} {before after : Files} (opened : Opened c before s after) :
    s.Faithful after := by
  obtain ⟨made, l, _, takes, _, placed⟩ := opened.files
  have own : s.disk.path = s.config.paths.run := by
    rw [opened.sound.run]
    rfl
  have shape : s.disk.header = ⟨w.bytes, s.disk.stored.size, defaultBlockEntries⟩ := by
    rw [opened.sound.run]
    rfl
  refine ⟨opened.config ▸ opened.valid, own, opened.sound.mapped, opened.sound.idle, ?_⟩
  intro contents found
  have there := Files.find_of_locate
    (takes.locate_place (encodeRun defaultBlockEntries (#[] : Array (Fingerprint w))))
  rw [opened.config, placed] at found
  obtain rfl := Entry.file.inj (Except.ok.inj (there.symm.trans found))
  rw [shape, opened.stored]
  exact isRun_encodeRun storable_empty

/-- What stands in the place of a checkpoint after a call is there from before, or was put there
from its place in progress, or is the checkpoint of given entries that was written aside. -/
structure Carries (c : Config) (entries : Array (Fingerprint w)) (t u : Files) : Prop where
  /-- A checkpoint in progress. -/
  pending : ∀ copy header, u.Pair c.paths.pendingCopy c.paths.pendingHeader copy header →
    t.Pair c.paths.pendingCopy c.paths.pendingHeader copy header ∨
      IsCheckpoint c.family entries copy header
  /-- The committed checkpoint. -/
  committed : ∀ copy header, u.Pair c.paths.copy c.paths.header copy header →
    t.Pair c.paths.copy c.paths.header copy header ∨
      t.Pair c.paths.pendingCopy c.paths.pendingHeader copy header

/-- Checkpoints stay where they are when their paths lead to nothing new. -/
theorem Carries.of_find {c : Config} {entries : Array (Fingerprint w)} {t u : Files}
    (kept : ∀ f ∈ checkpointFiles, ∀ e, u.find (c.paths.path f) = .ok e →
      t.find (c.paths.path f) = .ok e) : Carries c entries t u := by
  constructor
  · intro copy header pair
    exact .inl ⟨kept .pendingCopy (by decide) _ pair.copied,
      kept .pendingHeader (by decide) _ pair.written⟩
  · intro copy header pair
    exact .inl ⟨kept .copy (by decide) _ pair.copied, kept .header (by decide) _ pair.written⟩

/-- Checkpoints stay where they are when only the run changes. -/
theorem Carries.of_keeps {c : Config} {entries : Array (Fingerprint w)} {t u : Files}
    (valid : c.validate = .ok ()) (keeps : c.Keeps [.run] t u) : Carries c entries t u := by
  refine .of_find fun f among e found => keeps.alters.find (Config.leads valid f) ?_ found
  refine Config.fileName_not_mem _ fun run => ?_
  rw [List.mem_singleton.1 run] at among
  exact absurd among (by decide)

/-- Writing a checkpoint aside puts that in progress and leaves the committed one. -/
theorem Sound.carries_beginCheckpoint (sound : s.Sound) (faithful : s.Faithful h.files)
    (isOpen : s.closed = false) (begun : (s.beginCheckpoint h).answer = .ok ()) :
    Carries s.config (s.beginCheckpoint h).set.disk.stored h.files
      (s.beginCheckpoint h).host.files := by
  obtain ⟨copy, header, checkpoint, ⟨_, copied⟩, ⟨_, written⟩, _⟩ :=
    sound.checkpoint_of_begin faithful isOpen begun
  have keeps := (faithful.beginCheckpoint isOpen).2.2.2
  constructor
  · intro copy' header' pair
    obtain rfl :=
      Entry.file.inj (Except.ok.inj ((Files.find_of_locate copied).symm.trans pair.copied))
    obtain rfl :=
      Entry.file.inj (Except.ok.inj ((Files.find_of_locate written).symm.trans pair.written))
    exact .inr checkpoint
  · intro copy' header' pair
    refine .inl ⟨?_, ?_⟩
    · exact keeps.alters.find (Config.leads faithful.valid .copy)
        (Config.fileName_not_mem _ (by decide)) pair.copied
    · exact keeps.alters.find (Config.leads faithful.valid .header)
        (Config.fileName_not_mem _ (by decide)) pair.written

/-- Putting a checkpoint in place moves it there. -/
theorem carries_commitCheckpoint (valid : s.config.validate = .ok ()) (isOpen : s.closed = false)
    (committed : (s.commitCheckpoint h).answer = .ok ()) (entries : Array (Fingerprint w)) :
    Carries s.config entries h.files (s.commitCheckpoint h).host.files := by
  obtain ⟨copy, header, gone⟩ :=
    SetPaths.find_of_commit valid (commitCheckpoint_eq_ok isOpen committed)
  constructor
  · intro copy' header' pair
    exact absurd pair.copied (gone _)
  · intro copy' header' pair
    exact .inr ⟨copy _ pair.copied, header _ pair.written⟩

/-- The checkpoint that a sound set writes aside has nothing but members of the set. -/
theorem Sound.mem_of_stored_beginCheckpoint (sound : s.Sound) (isOpen : s.closed = false)
    {fp : Fingerprint w} (stored : fp ∈ (s.beginCheckpoint h).set.disk.stored) :
    fp ∈ s.members := by
  rw [set_beginCheckpoint isOpen] at stored
  have same := (sound.of_flushed (flushed_flushNow sound.mapped h)).2.1
  exact same.mem_iff.1 (List.mem_append_right _ (Run.mem_toList_stored.2 stored))

/-- A call that does not stop halfway carries checkpoints over, and what it writes aside is one of
members of the set. -/
theorem Sound.carries_perform (sound : s.Sound) (faithful : s.Faithful h.files)
    (isOpen : s.closed = false) {c : Call w} (allowed : (ownFiles w).allows c s h) :
    ∃ entries : Array (Fingerprint w), Carries s.config entries h.files (c.perform s h).host.files ∧
      ∀ fp ∈ entries, fp ∈ s.members := by
  have valid := faithful.valid
  have onlyRun (keeps : s.config.Keeps [.run] h.files (c.perform s h).host.files) :
      ∃ entries : Array (Fingerprint w),
        Carries s.config entries h.files (c.perform s h).host.files ∧
          ∀ fp ∈ entries, fp ∈ s.members :=
    ⟨#[], .of_keeps valid keeps, by simp⟩
  have unchanged (same : ∀ f ∈ checkpointFiles,
      (c.perform s h).host.files.find (s.config.paths.path f) =
        h.files.find (s.config.paths.path f)) :
      ∃ entries : Array (Fingerprint w),
        Carries s.config entries h.files (c.perform s h).host.files ∧
          ∀ fp ∈ entries, fp ∈ s.members :=
    ⟨#[], .of_find fun f among e found => by rwa [same f among] at found, by simp⟩
  by_cases isPlain : c.isPlain
  · exact onlyRun (faithful.goes_perform isOpen isPlain).keeps
  · cases c with
    | beginCheckpoint =>
      refine (allowed rfl).elim (fun isOk => ?_) unchanged
      exact ⟨_, sound.carries_beginCheckpoint faithful isOpen (eq_ok_of_isOk_map isOk),
        fun fp stored => sound.mem_of_stored_beginCheckpoint isOpen stored⟩
    | commitCheckpoint =>
      refine (allowed rfl).elim (fun isOk => ?_) unchanged
      exact ⟨#[], carries_commitCheckpoint valid isOpen (eq_ok_of_isOk_map isOk) _, by simp⟩
    | recover => exact onlyRun ((faithful.recovery isOpen).goes faithful isOpen).2.1
    | close cleanup => exact onlyRun (close_closes valid cleanup).2.2
    | _ => exact absurd rfl isPlain

/-- Checkpoints that are carried over stay what they are, if the one written aside is one. -/
theorem Steady.checkpoints_of_carries (steady : s.Steady h.files)
    {entries : Array (Fingerprint w)} {t : Files} (carries : Carries s.config entries h.files t) :
    s.config.OwnCheckpoints t := by
  constructor
  · intro copy header found found'
    rcases carries.pending copy header ⟨found, found'⟩ with before | begun
    · exact steady.checkpoints.pending copy header before.copied before.written
    · exact ⟨w, _, entries, begun⟩
  · intro copy header found found'
    rcases carries.committed copy header ⟨found, found'⟩ with before | placed
    · exact steady.checkpoints.committed copy header before.copied before.written
    · exact steady.checkpoints.pending copy header placed.copied placed.written

/-- A call of a set that is open afterwards leaves it sound. -/
theorem Steady.sound_perform (steady : s.Steady h.files) (isOpen : s.closed = false)
    {c : Call w} (stillOpen : (c.perform s h).set.closed = false) : (c.perform s h).set.Sound := by
  obtain ⟨sound, faithful⟩ := steady.of_open isOpen
  by_cases goesOn : c.goesOn
  · obtain ⟨_, grown, _⟩ := sound.perform isOpen goesOn h
    exact grown.sound
  · cases c with
    | recover =>
      simp only [Call.perform, Outcome.map] at stillOpen ⊢
      rcases faithful.recover_cases isOpen steady.checkpoints.committed with
        ⟨e, _, closed | same⟩ | ⟨entries, copy, header, _, checkpoint, _, recovered⟩
      · rw [closed] at stillOpen
        contradiction
      · rw [same]
        exact sound
      · rw [recovered]
        exact (sound.recovered checkpoint.ascending checkpoint.storable).1
    | close cleanup =>
      have closed := (close_closes (h := h) steady.valid cleanup).1
      simp only [Call.perform, Outcome.map, closed] at stillOpen
      contradiction
    | _ => exact absurd rfl goesOn

/-- A call that does not stop halfway leaves a set steady. -/
theorem Steady.perform (steady : s.Steady h.files) {c : Call w}
    (allowed : (ownFiles w).allows c s h) :
    (c.perform s h).set.Steady (c.perform s h).host.files := by
  cases closed : s.closed with
  | true =>
    obtain ⟨still, config, host, _⟩ := perform_of_closed (h := h) closed c
    exact ⟨config ▸ steady.valid, config ▸ steady.fits,
      by rw [config, host]; exact steady.checkpoints, .inl still⟩
  | false =>
    obtain ⟨sound, faithful⟩ := steady.of_open closed
    obtain ⟨config, whole⟩ := faithful.perform closed c
    obtain ⟨_, carries, _⟩ := sound.carries_perform faithful closed allowed
    refine ⟨config ▸ steady.valid, config ▸ steady.fits,
      config ▸ steady.checkpoints_of_carries carries, ?_⟩
    rcases whole with closed' | ⟨stillOpen, still⟩
    · exact .inl closed'
    · exact .inr ⟨stillOpen, steady.sound_perform closed stillOpen, still⟩

/-- An opened set is steady among checkpoints. -/
theorem Opened.steady {c : Config} {before after : Files} (opened : Opened c before s after)
    (own : c.OwnCheckpoints after) : s.Steady after := by
  obtain ⟨_, _, _, _, canDraft, _⟩ := opened.files
  exact ⟨opened.config ▸ opened.valid, opened.config ▸ canDraft.fits, opened.config ▸ own,
    .inr ⟨opened.isOpen, opened.sound, opened.faithful⟩⟩

/-- A set stays steady when files change, as long as what stands in the place of a checkpoint was
written as one and the file of the run, if there is one, is the run. -/
theorem Steady.of_files {t u : Files} (steady : s.Steady t) (own : s.config.OwnCheckpoints u)
    (file : s.Faithful t → ∀ contents, u.find s.config.paths.run = .ok (.file contents) →
      IsRun w contents s.disk.header s.disk.stored) : s.Steady u := by
  refine ⟨steady.valid, steady.fits, own, ?_⟩
  rcases steady.whole with closed | ⟨isOpen, sound, faithful⟩
  · exact .inl closed
  · exact .inr ⟨isOpen, sound, { faithful with file := file faithful }⟩

/-- A set that is reached among its own files is steady. -/
theorem steady_of_reached {puts : List (Fingerprint w)} (reached : Reached (ownFiles w) puts s h) :
    s.Steady h.files := by
  induction reached with
  | opened opened starts => exact (opened_of_open opened).steady starts
  | call reached c allowed ih => exact ih.perform allowed
  | outside reached files allowed ih => exact ih.of_files allowed.1 fun _ => allowed.2

end DiskSet

/-- Where the paths of checkpoints lead to nothing, nothing stands in their place. -/
theorem Config.OwnCheckpoints.of_absent {c : Config} {t : Files}
    (pending : (t.find c.paths.pendingCopy).isOk = false)
    (committed : (t.find c.paths.copy).isOk = false) : c.OwnCheckpoints t := by
  constructor
  · intro copy header found
    exact absurd found (Files.find_ne_ok pending _)
  · intro copy header found
    exact absurd found (Files.find_ne_ok committed _)

/-- The set to look at is among its own files. -/
theorem reached_sample : Reached (ownFiles .bits64) [] sampleSet sampleHost :=
  .opened open_sample (.of_absent (by decide +kernel) (by decide +kernel))

end SeenStates
