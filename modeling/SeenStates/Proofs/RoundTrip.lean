import SeenStates.Proofs.FailedFlushes

/-!
# Going back to a checkpoint

A checkpoint that was written aside and put in place brings back what was in the set when it was
begun, whatever happened to the set in between, and in another set of the same files as well
(`recovers_of_reached`). The two files of a checkpoint are kept by every call but the one that puts
the next checkpoint in their place (`HasCheckpoint`).
-/
namespace SeenStates

variable {w : Width}

/-- Two configurations whose sets have the same files and the same hash family. -/
structure Config.SharesFiles (c d : Config) : Prop where
  /-- The directory is the same. -/
  metadir : d.metadir = c.metadir
  /-- The name is the same. -/
  name : d.name = c.name
  /-- The hash family is the same. -/
  family : d.family = c.family

namespace Config.SharesFiles

/-- A configuration shares its own files. -/
theorem refl (c : Config) : c.SharesFiles c := ⟨rfl, rfl, rfl⟩

/-- Files that are shared twice are shared. -/
theorem trans {c d e : Config} (first : c.SharesFiles d) (second : d.SharesFiles e) :
    c.SharesFiles e :=
  ⟨second.metadir.trans first.metadir, second.name.trans first.name,
    second.family.trans first.family⟩

/-- Files that are shared have the same paths. -/
theorem paths {c d : Config} (shares : c.SharesFiles d) : d.paths = c.paths := by
  simp only [Config.paths, runPath, filePath, shares.metadir, shares.name]

end Config.SharesFiles

/-- A tree has a copy and a header at two of a set's paths, room for another copy, and a place for
the set's run. -/
structure HasCheckpoint (c : Config) (f g : SetFile) (copy header : ByteArray) (t : Files) :
    Prop where
  /-- The copy is there. -/
  copied : ∃ l, t.locate (c.paths.path f) = .ok (l, .file copy)
  /-- The header is there. -/
  written : ∃ l, t.locate (c.paths.path g) = .ok (l, .file header)
  /-- The run can be put in place. -/
  takes : ∃ l, t.Takes c.paths.run l
  /-- There is room for another copy. -/
  room : excess? t.room copy.size = none

namespace HasCheckpoint

variable {c : Config} {f g : SetFile} {copy header : ByteArray} {t u : Files}

/-- The files of a checkpoint are kept when other files of the set change. -/
theorem of_keeps (has : HasCheckpoint c f g copy header t) (valid : c.validate = .ok ())
    {fs : List SetFile} (keeps : c.Keeps fs t u) (first : f ∉ fs) (second : g ∉ fs) :
    HasCheckpoint c f g copy header u := by
  obtain ⟨l, copied⟩ := has.copied
  obtain ⟨m, written⟩ := has.written
  obtain ⟨n, takes⟩ := has.takes
  exact ⟨⟨l, keeps.locate (Config.leads valid f) (Config.fileName_not_mem fs first) copied⟩,
    ⟨m, keeps.locate (Config.leads valid g) (Config.fileName_not_mem fs second) written⟩,
    ⟨n, keeps.takes (Config.leads valid .run) takes⟩, keeps.room ▸ has.room⟩

/-- A checkpoint that was written aside is in place after it was put there. -/
theorem of_commit (has : HasCheckpoint c .pendingCopy .pendingHeader copy header t)
    (valid : c.validate = .ok ()) (committed : c.paths.commit t = (.ok (), u)) :
    HasCheckpoint c .copy .header copy header u := by
  obtain ⟨l, copied⟩ := has.copied
  obtain ⟨m, written⟩ := has.written
  obtain ⟨n, takes⟩ := has.takes
  obtain ⟨keeps, copied', written'⟩ := SetPaths.locate_commit valid committed copied written
  exact ⟨copied', written', ⟨n, keeps.takes (Config.leads valid .run) takes⟩,
    keeps.room ▸ has.room⟩

/-- Where the run can be put in place a draft can be begun, if it can be spelled. -/
theorem canDraft (has : HasCheckpoint c f g copy header t) (valid : c.validate = .ok ())
    (fits : Files.DraftsFit c.paths.run) : t.CanDraft c.paths.run := by
  obtain ⟨l, takes⟩ := has.takes
  obtain ⟨here, entered, _⟩ := (Config.leads valid .run).takes takes
  have joined : c.paths.run = Path.join c.metadir (c.fileName .run) := c.path_eq_join .run
  refine ⟨fits, here, ?_⟩
  rw [joined, Files.enter_parent_join t (Config.isName_fileName valid .run), entered]

/-- The copy in the committed checkpoint can be exchanged for another run of as many entries. -/
theorem exchange (has : HasCheckpoint c .copy .header copy header t) (valid : c.validate = .ok ())
    {entries others : Array (Fingerprint w)}
    (isRun : IsRun w copy ⟨w.bytes, entries.size, defaultBlockEntries⟩ entries)
    (count : others.size = entries.size) :
    ∃ u, c.Alters [.copy] t u ∧
      HasCheckpoint c .copy .header (encodeRun defaultBlockEntries others) header u := by
  obtain ⟨l, copied⟩ := has.copied
  obtain ⟨m, written⟩ := has.written
  obtain ⟨n, runTakes⟩ := has.takes
  have takes := (Files.locate_eq_file_iff.1 copied).1
  have keeps : c.Keeps [.copy] t (t.place l (.file (encodeRun defaultBlockEntries others))) :=
    Files.keeps_place (Config.leads valid .copy) takes _
  have size : (encodeRun defaultBlockEntries others).size = copy.size := by
    rw [size_encodeRun, isRun.size_eq, count]
  refine ⟨_, keeps.alters, ⟨l, takes.locate_place _⟩, ⟨m, ?_⟩, ⟨n, ?_⟩, ?_⟩
  · exact keeps.locate (Config.leads valid .header) (Config.fileName_not_mem _ (by decide)) written
  · exact keeps.takes (Config.leads valid .run) runTakes
  · rw [keeps.room, size]
    exact has.room

end HasCheckpoint

namespace DiskSet

variable {s : DiskSet w} {h : Host} {entries : Array (Fingerprint w)} {copy header : ByteArray}

/-- A set goes back to a committed checkpoint of entries, and has them in the run. -/
theorem recover_eq_ok (checkpoint : IsCheckpoint s.config.family entries copy header)
    (has : HasCheckpoint s.config .copy .header copy header h.files)
    (valid : s.config.validate = .ok ()) (fits : Files.DraftsFit s.config.paths.run)
    (isOpen : s.closed = false) :
    (s.recover h).answer = .ok () ∧
      (s.recover h).set =
        s.recovered (.ofEntries s.config.paths.run defaultBlockEntries entries) ∧
      s.config.Keeps [.run] h.files (s.recover h).host.files := by
  obtain ⟨_, copied⟩ := has.copied
  obtain ⟨_, written⟩ := has.written
  obtain ⟨l, takes⟩ := has.takes
  have found := Files.find_of_locate written
  rw [checkpoint.header] at found
  have read : s.config.paths.readHeader w s.config.family h.files =
      .ok (.ofEntries s.config.family entries) :=
    SetPaths.readHeader_of_find checkpoint.storable found
  have restored := SetPaths.restore_of_find s.config.family checkpoint.copy takes
    (has.canDraft valid fits) (Files.find_of_locate copied) has.room
  rw [recover_of_restore isOpen read restored]
  exact ⟨rfl, rfl, Files.keeps_place (Config.leads valid .run) takes copy⟩

/-- A set among whose files is a committed checkpoint of entries: it is closed, or it is sound and
faithful. -/
structure Recoverable (c : Config) (entries : Array (Fingerprint w)) (copy header : ByteArray)
    (s : DiskSet w) (t : Files) : Prop where
  /-- It has the files of the configuration. -/
  shares : c.SharesFiles s.config
  /-- Its configuration is valid. -/
  valid : s.config.validate = .ok ()
  /-- Drafts beside its run can be spelled. -/
  fits : Files.DraftsFit s.config.paths.run
  /-- The checkpoint is there. -/
  has : HasCheckpoint s.config .copy .header copy header t
  /-- The checkpoint is one of the entries. -/
  checkpoint : IsCheckpoint s.config.family entries copy header
  /-- It is closed, or sound and faithful. -/
  whole : s.closed ∨ s.closed = false ∧ s.Sound ∧ s.Faithful t

namespace Recoverable

variable {c : Config} {t : Files}

/-- A set stays recoverable when nothing changes but its run and a checkpoint in progress. -/
theorem of_keeps {u : DiskSet w} {v : Files} (recoverable : Recoverable c entries copy header s t)
    (config : u.config = s.config)
    (keeps : s.config.Keeps [.run, .pendingCopy, .pendingHeader] t v)
    (whole : u.closed ∨ u.closed = false ∧ u.Sound ∧ u.Faithful v) :
    Recoverable c entries copy header u v := by
  have has := recoverable.has.of_keeps recoverable.valid keeps (by decide) (by decide)
  exact ⟨config ▸ recoverable.shares, config ▸ recoverable.valid, config ▸ recoverable.fits,
    config ▸ has, config ▸ recoverable.checkpoint, whole⟩

/-- A recoverable set that is open is sound and faithful. -/
theorem of_open (recoverable : Recoverable c entries copy header s t) (isOpen : s.closed = false) :
    s.Sound ∧ s.Faithful t := by
  rcases recoverable.whole with closed | ⟨_, both⟩
  · simp [isOpen] at closed
  · exact both

/-- A recoverable set that is open goes back to the checkpoint. -/
theorem recover (recoverable : Recoverable c entries copy header s h.files)
    (isOpen : s.closed = false) :
    (s.recover h).answer = .ok () ∧
      (s.recover h).set =
        s.recovered (.ofEntries s.config.paths.run defaultBlockEntries entries) ∧
      s.config.Keeps [.run] h.files (s.recover h).host.files :=
  recover_eq_ok recoverable.checkpoint recoverable.has recoverable.valid recoverable.fits isOpen

/-- A call that puts no other checkpoint in place leaves a set recoverable. -/
theorem perform (recoverable : Recoverable c entries copy header s h.files) {k : Call w}
    (other : k ≠ .commitCheckpoint) :
    Recoverable c entries copy header (k.perform s h).set (k.perform s h).host.files := by
  rcases recoverable.whole with closed | ⟨isOpen, sound, faithful⟩
  · obtain ⟨still, config, host, _⟩ := perform_of_closed (h := h) closed k
    exact recoverable.of_keeps config (by rw [host]; exact .refl ..) (.inl still)
  · obtain ⟨config, whole⟩ := faithful.perform isOpen k
    have grows (goesOn : k.goesOn) : (k.perform s h).set.Sound := by
      obtain ⟨_, grown, _⟩ := sound.perform isOpen goesOn h
      exact grown.sound
    have wholeOf (kept : (k.perform s h).set.Sound) : (k.perform s h).set.closed ∨
        (k.perform s h).set.closed = false ∧ (k.perform s h).set.Sound ∧
          (k.perform s h).set.Faithful (k.perform s h).host.files :=
      whole.imp_right fun still => ⟨still.1, kept, still.2⟩
    by_cases isPlain : k.isPlain
    · have keeps := (faithful.goes_perform isOpen isPlain).keeps
      refine recoverable.of_keeps config (keeps.mono (by simp)) (wholeOf (grows ?_))
      cases k <;> first | rfl | contradiction
    · cases k with
      | beginCheckpoint =>
        obtain ⟨_, _, _, keeps⟩ := faithful.beginCheckpoint isOpen
        exact recoverable.of_keeps config keeps (wholeOf (grows rfl))
      | recover =>
        obtain ⟨_, recovered, keeps⟩ := recoverable.recover isOpen
        have kept : ((Call.recover : Call w).perform s h).set.Sound := by
          simp only [Call.perform, Outcome.map, recovered]
          exact (sound.recovered recoverable.checkpoint.ascending
            recoverable.checkpoint.storable).1
        exact recoverable.of_keeps config (keeps.mono (by simp)) (wholeOf kept)
      | close cleanup =>
        obtain ⟨closed, _, keeps⟩ := close_closes (h := h) recoverable.valid cleanup
        exact recoverable.of_keeps config (keeps.mono (by simp)) (.inl closed)
      | commitCheckpoint => exact absurd rfl other
      | _ => exact absurd rfl isPlain

/-- A set that is opened with the same files is recoverable. -/
theorem reopened (recoverable : Recoverable c entries copy header s h.files) {d : Config}
    (shares : s.config.SharesFiles d) {machine : Machine} {u : DiskSet w} {g : Host}
    (opened : DiskSet.open w machine d h = (.ok u, g)) :
    Recoverable c entries copy header u g.files := by
  have start := opened_of_open opened
  obtain ⟨made, l, madeDirectories, takes, canDraft, placed⟩ := start.files
  have grows : Files.Grows h.files made := by
    have grown := Files.grows_makeDirectories h.files d.metadir
    rwa [madeDirectories] at grown
  have paths : ∀ f, d.paths.path f = s.config.paths.path f := fun f => by rw [shares.paths]
  obtain ⟨m, copied⟩ := recoverable.has.copied
  obtain ⟨n, written⟩ := recoverable.has.written
  have has : HasCheckpoint d .copy .header copy header made :=
    ⟨⟨m, paths .copy ▸ grows.locate copied⟩, ⟨n, paths .header ▸ grows.locate written⟩,
      ⟨l, takes⟩, grows.room ▸ recoverable.has.room⟩
  have keeps : d.Keeps [.run] made g.files := by
    rw [placed]
    exact Files.keeps_place (Config.leads start.valid .run) takes _
  have family : s.config.family = d.family := shares.family.symm
  have still := has.of_keeps start.valid keeps (by decide) (by decide)
  have config := start.config
  exact ⟨config ▸ recoverable.shares.trans shares, config ▸ start.valid, config ▸ canDraft.fits,
    config ▸ still, config ▸ family ▸ recoverable.checkpoint,
    .inr ⟨start.isOpen, start.sound, start.faithful⟩⟩

/-- What comes of a recoverable set, while no other checkpoint is put in place, is recoverable. -/
theorem of_later {u : DiskSet w} {g : Host}
    (recoverable : Recoverable c entries copy header s h.files)
    (later : Later (· ≠ .commitCheckpoint) Config.SharesFiles s h u g) :
    Recoverable c entries copy header u g.files := by
  induction later with
  | start => exact recoverable
  | call later k allowed ih => exact ih.perform allowed
  | reopened later suits opened ih => exact ih.reopened suits opened

/-- A call that neither closes a recoverable set nor puts another checkpoint in place leaves it
open: going back to the checkpoint, the one call that can close a set by itself, does not fail. -/
theorem isOpen_perform (recoverable : Recoverable c entries copy header s h.files)
    (isOpen : s.closed = false) {k : Call w} (closes : ∀ cleanup, k ≠ .close cleanup) :
    (k.perform s h).set.closed = false := by
  by_cases goesOn : k.goesOn
  · obtain ⟨sound, _⟩ := recoverable.of_open isOpen
    obtain ⟨_, grown, _⟩ := sound.perform isOpen goesOn h
    exact grown.isOpen
  · cases k with
    | recover =>
      obtain ⟨_, recovered, _⟩ := recoverable.recover isOpen
      change (s.recover h).set.closed = false
      rw [recovered]
      exact isOpen
    | close cleanup => exact absurd rfl (closes cleanup)
    | _ => exact absurd rfl goesOn

/-- What comes of a recoverable set that is open, while it is not closed by a call and no other
checkpoint is put in place, is open. -/
theorem isOpen_of_later {u : DiskSet w} {g : Host}
    (recoverable : Recoverable c entries copy header s h.files) (isOpen : s.closed = false)
    (later : Later (fun k => k ≠ .commitCheckpoint ∧ ∀ cleanup, k ≠ .close cleanup)
      Config.SharesFiles s h u g) : u.closed = false := by
  have both : Recoverable c entries copy header u g.files ∧ u.closed = false := by
    induction later with
    | start => exact ⟨recoverable, isOpen⟩
    | call later k allowed ih =>
      exact ⟨ih.1.perform allowed.1, ih.1.isOpen_perform ih.2 allowed.2⟩
    | reopened later suits opened ih =>
      exact ⟨ih.1.reopened suits opened, (opened_of_open opened).isOpen⟩
  exact both.2

end Recoverable

/-- Plain calls carry a set over to a sound one. -/
theorem goes_of_later {u : DiskSet w} {g : Host} {goesWith : Config → Config → Prop}
    (never : ∀ c d, ¬ goesWith c d) (sound : s.Sound) (faithful : s.Faithful h.files)
    (isOpen : s.closed = false)
    (later : Later (fun c => c.isPlain) goesWith s h u g) :
    u.Sound ∧ Goes s h.files u g.files := by
  induction later with
  | start => exact ⟨sound, .refl isOpen faithful⟩
  | call later k allowed ih =>
    obtain ⟨sound, goes⟩ := ih
    have goesOn : k.goesOn := by cases k <;> first | rfl | contradiction
    obtain ⟨_, grown, _⟩ := sound.perform goes.isOpen goesOn _
    exact ⟨grown.sound, goes.trans (goes.faithful.goes_perform goes.isOpen allowed)⟩
  | reopened later suits opened ih => exact absurd suits (never _ _)

/-- A recovery that leaves a set with exactly some different fingerprints, all of them in its
run. -/
structure BringsBack (fps : List (Fingerprint w)) (o : Outcome (DiskSet w) Unit) : Prop where
  /-- It succeeds. -/
  answer : o.answer = .ok ()
  /-- The fingerprints are in the set, and no others. -/
  answers : ∀ fp, (o.set.contains fp o.host).answer = .ok (decide (fp ∈ fps))
  /-- The size is their count. -/
  size : o.set.size = fps.length
  /-- The run has as many entries. -/
  count : o.set.disk.size = fps.length
  /-- Every slot of the table is empty. -/
  table : o.set.table.Blank
  /-- No slot is counted as live. -/
  live : o.set.tableLive = 0
  /-- Nothing is in overflow. -/
  overflow : o.set.overflow = .empty

/-- Going back to a checkpoint of entries brings them back. -/
theorem Recoverable.bringsBack {c : Config}
    (recoverable : Recoverable c entries copy header s h.files) (isOpen : s.closed = false) :
    BringsBack entries.toList (s.recover h) := by
  obtain ⟨sound, _⟩ := recoverable.of_open isOpen
  obtain ⟨answer, recovered, _⟩ := recoverable.recover isOpen
  obtain ⟨kept, members⟩ :=
    sound.recovered recoverable.checkpoint.ascending recoverable.checkpoint.storable
  constructor
  case answer => exact answer
  case answers =>
    intro fp
    rw [recovered, kept.contains isOpen]
    simp only [Outcome.ok, members]
  case size => rw [recovered]; rfl
  case count => rw [recovered]; rfl
  case table => rw [recovered]; exact sound.table.blank_clear
  case live => rw [recovered]; rfl
  case overflow => rw [recovered]; rfl

/-- A set that put a checkpoint in place is open. -/
theorem isOpen_of_commitCheckpoint (committed : (s.commitCheckpoint h).answer = .ok ()) :
    (s.commitCheckpoint h).set.closed = false := by
  rw [set_commitCheckpoint]
  exact isOpen_of_whenOpen committed

/-- A checkpoint that a sound set writes aside is one of everything in it, and stays that while the
set is put more, and when it is put in place. -/
theorem Steady.recoverable_commit {s₁ : DiskSet w} {h₁ : Host} (steady : s.Steady h.files)
    (isOpen : s.closed = false) (begun : (s.beginCheckpoint h).answer = .ok ())
    {goesWith : Config → Config → Prop} (never : ∀ c d, ¬ goesWith c d)
    (meanwhile : Later (fun c => c.isPlain) goesWith (s.beginCheckpoint h).set
      (s.beginCheckpoint h).host s₁ h₁)
    (committed : (s₁.commitCheckpoint h₁).answer = .ok ()) :
    ∃ copy header, Recoverable s.config (s.beginCheckpoint h).set.disk.stored copy header
      (s₁.commitCheckpoint h₁).set (s₁.commitCheckpoint h₁).host.files := by
  obtain ⟨sound, faithful⟩ := steady.of_open isOpen
  obtain ⟨copy, header, checkpoint, copied, written, room, takes⟩ :=
    sound.checkpoint_of_begin faithful isOpen begun
  have pending : HasCheckpoint s.config .pendingCopy .pendingHeader copy header
      (s.beginCheckpoint h).host.files := ⟨copied, written, takes, room⟩
  have begunSound : (s.beginCheckpoint h).set.Sound := by
    rw [set_beginCheckpoint isOpen]
    exact (sound.of_flushed (flushed_flushNow sound.mapped h)).1
  obtain ⟨begunOpen, config, begunFaithful, _⟩ := faithful.beginCheckpoint isOpen
  obtain ⟨sound₁, goes⟩ := goes_of_later never begunSound begunFaithful begunOpen meanwhile
  have config₁ : s₁.config = s.config := goes.config.trans config
  have keeps : s.config.Keeps [.run] (s.beginCheckpoint h).host.files h₁.files :=
    config ▸ goes.keeps
  have still := pending.of_keeps steady.valid keeps (by decide) (by decide)
  have placed : s.config.paths.commit h₁.files =
      (.ok (), (s₁.commitCheckpoint h₁).host.files) := by
    rw [← config₁]
    exact commitCheckpoint_eq_ok goes.isOpen committed
  have faithful₁ : s₁.Faithful (s₁.commitCheckpoint h₁).host.files :=
    goes.faithful.of_alters (alters_commitCheckpoint goes.faithful.valid) (by decide)
  refine ⟨copy, header, ?_⟩
  rw [set_commitCheckpoint]
  exact ⟨config₁ ▸ .refl _, config₁ ▸ steady.valid, config₁ ▸ steady.fits,
    config₁ ▸ still.of_commit steady.valid placed, config₁ ▸ checkpoint,
    .inr ⟨goes.isOpen, sound₁, faithful₁⟩⟩

end DiskSet

/-- After a checkpoint was written aside and later put in place, with only puts, queries and flushes
in between, going back to it brings back what was in the set when it was begun. That is so after
any calls by which no other checkpoint was put in place, recoveries among them, also in a set that
was opened later with the same files and the same hash family, and when it is done once more.
Nothing but a call that closes it closes the set meanwhile. -/
theorem recovers_of_reached {puts : List (Fingerprint w)} {s s₁ s₂ : DiskSet w} {h h₁ h₂ : Host}
    (reached : Reached (ownFiles w) puts s h) (isOpen : s.closed = false)
    (begun : (s.beginCheckpoint h).answer = .ok ())
    (meanwhile : Later (fun c => c.isPlain) (fun _ _ => False) (s.beginCheckpoint h).set
      (s.beginCheckpoint h).host s₁ h₁)
    (committed : (s₁.commitCheckpoint h₁).answer = .ok ())
    (later : Later (· ≠ .commitCheckpoint) Config.SharesFiles (s₁.commitCheckpoint h₁).set
      (s₁.commitCheckpoint h₁).host s₂ h₂) :
    ∃ fps : List (Fingerprint w), fps.Nodup ∧
      (∀ fp, (s.contains fp h).answer = .ok (decide (fp ∈ fps))) ∧ s.size = fps.length ∧
      (s₂.closed = false →
        DiskSet.BringsBack fps (s₂.recover h₂) ∧
          DiskSet.BringsBack fps ((s₂.recover h₂).set.recover (s₂.recover h₂).host)) ∧
      (Later (fun k => k ≠ .commitCheckpoint ∧ ∀ cleanup, k ≠ .close cleanup) Config.SharesFiles
        (s₁.commitCheckpoint h₁).set (s₁.commitCheckpoint h₁).host s₂ h₂ → s₂.closed = false) := by
  have steady := DiskSet.steady_of_reached reached
  obtain ⟨sound, _⟩ := steady.of_open isOpen
  obtain ⟨flushed, _⟩ := DiskSet.beginCheckpoint_eq_ok isOpen begun
  have only := (sound.members_flushNow flushed).1
  obtain ⟨_, members, _⟩ := sound.of_flushed (DiskSet.flushed_flushNow sound.mapped h)
  rw [← DiskSet.set_beginCheckpoint isOpen] at only members
  obtain ⟨copy, header, placed⟩ :=
    steady.recoverable_commit isOpen begun (fun _ _ => id) meanwhile committed
  refine ⟨_, placed.checkpoint.ascending.nodup, fun fp => ?_, ?_, fun stillOpen => ?_, ?_⟩
  · rw [sound.contains isOpen, ← only]
    simp only [Outcome.ok, members.mem_iff]
  · rw [DiskSet.size, sound.counted, ← only, members.length_eq]
  · have recoverable := placed.of_later later
    have again := recoverable.perform (k := .recover) (by simp)
    have recoveredOpen := recoverable.isOpen_perform stillOpen (k := .recover) (by simp)
    exact ⟨recoverable.bringsBack stillOpen, again.bringsBack recoveredOpen⟩
  · exact placed.isOpen_of_later (DiskSet.isOpen_of_commitCheckpoint committed)

/-! ## A checkpoint to look at -/

/-- The set to look at after the zero fingerprint was put. -/
def samplePut : Outcome (DiskSet .bits64) (List Bool) :=
  (Call.put (.ofNat _ 0)).perform sampleSet sampleHost

/-- That set after a checkpoint was written aside. -/
def sampleBegun : Outcome (DiskSet .bits64) Unit :=
  samplePut.set.beginCheckpoint samplePut.host

/-- That set after the checkpoint was put in place. -/
def samplePlaced : Outcome (DiskSet .bits64) Unit :=
  sampleBegun.set.commitCheckpoint sampleBegun.host

/-- That set after another fingerprint was put. -/
def sampleMore : Outcome (DiskSet .bits64) (List Bool) :=
  (Call.put (.ofNat _ 1)).perform samplePlaced.set samplePlaced.host

/-- The set with the zero fingerprint is reached. -/
theorem reached_samplePut :
    Reached (ownFiles .bits64) [.ofNat _ 0] samplePut.set samplePut.host :=
  reached_sample.call (.put (.ofNat _ 0)) fun isCheckpoint => nomatch isCheckpoint

/-- It is open. -/
theorem isOpen_samplePut : samplePut.set.closed = false := by decide +kernel

/-- Its checkpoint is written aside. -/
theorem answer_sampleBegun : sampleBegun.answer = .ok () := by decide +kernel

/-- The checkpoint is put in place. -/
theorem answer_samplePlaced : samplePlaced.answer = .ok () := by decide +kernel

/-- The set stays open. -/
theorem isOpen_samplePlaced : samplePlaced.set.closed = false :=
  DiskSet.isOpen_of_commitCheckpoint answer_samplePlaced

/-- The set can go back to the checkpoint. -/
theorem recoverable_sample : ∃ copy header,
    DiskSet.Recoverable samplePut.set.config sampleBegun.set.disk.stored copy header
      samplePlaced.set samplePlaced.host.files :=
  (DiskSet.steady_of_reached reached_samplePut).recoverable_commit isOpen_samplePut
    answer_sampleBegun (fun _ _ => id) .start answer_samplePlaced

/-- A set that had the zero fingerprint when a checkpoint was written aside has only that one again,
although another was put later. -/
theorem recovers_of_reached_zero :
    let back := sampleMore.set.recover sampleMore.host
    back.answer = .ok () ∧ back.set.size = 1 ∧
      (back.set.contains (.ofNat _ 0) back.host).answer = .ok true ∧
      (back.set.contains (.ofNat _ 1) back.host).answer = .ok false := by
  have meanwhile : Later (fun c => c.isPlain) (fun _ _ => False) sampleBegun.set sampleBegun.host
      sampleBegun.set sampleBegun.host := .start
  have later {allows : Call .bits64 → Prop} (allowed : allows (.put (.ofNat _ 1))) :
      Later allows Config.SharesFiles samplePlaced.set samplePlaced.host sampleMore.set
        sampleMore.host := .call .start _ allowed
  obtain ⟨fps, _, answers, size, back, stays⟩ := recovers_of_reached reached_samplePut
    isOpen_samplePut answer_sampleBegun meanwhile answer_samplePlaced (later (by simp))
  obtain ⟨brought, _⟩ := back (stays (later ⟨by simp, by simp⟩))
  have sizeOne : samplePut.set.size = 1 := by decide +kernel
  refine ⟨brought.answer, brought.size.trans (size.symm.trans sizeOne), ?_, ?_⟩
  · rw [brought.answers, ← answers]
    decide +kernel
  · rw [brought.answers, ← answers]
    decide +kernel

end SeenStates
