import SeenStates.Proofs.Accounting

/-!
# Canonical runs

What a flush writes does not depend on how the fingerprints came into the set. A set without shards
whose puts do not fail keeps, in the file of its run, exactly the entries of the run that it has
mapped (`DiskSet.InPlace`), and everything in the set is in that run after a flush that does not
fail. The entries ascend, so the fingerprints that were put determine the file to the byte and the
sparse index with it (`canonical_of_reached`), whatever the sizes of the table and the overflow, the
order of the puts and the flushes between them were.
-/
namespace SeenStates

variable {w : Width}

/-- Fingerprints that ascend are given by which ones they are. -/
theorem Ascending.eq_of_mem_iff {fps others : List (Fingerprint w)} (ascending : Ascending fps)
    (ascending' : Ascending others) (same : ∀ fp, fp ∈ fps ↔ fp ∈ others) : fps = others := by
  have perm : fps.Perm others :=
    (List.perm_ext_iff_of_nodup ascending.nodup ascending'.nodup).2 same
  refine perm.eq_of_pairwise (fun a b _ _ below above => ?_) ascending ascending'
  exact absurd below (Std.not_gt_of_lt above)

/-! ## Files of the set that stay files -/

/-- No directory is in the place of a file that a checkpoint in progress consists of. -/
structure Config.NoDirectoryAside (c : Config) (t : Files) : Prop where
  /-- None is in the place of the copy. -/
  copy : t.find c.paths.pendingCopy ≠ .ok .directory
  /-- None is in the place of the header. -/
  header : t.find c.paths.pendingHeader ≠ .ok .directory

/-- Where names in a directory change no other path into it comes to lead to a directory. -/
theorem Files.Keeps.find_ne_directory {directory : String} {names : List String} {t u : Files}
    (keeps : Files.Keeps directory names t u) {here : Location}
    (entered : t.enter directory = .ok here) {path name : String}
    (leads : Files.Leads path directory name) (free : t.find path ≠ .ok .directory) :
    u.find path ≠ .ok .directory := by
  intro found
  obtain ⟨there, entered', spotted, short, is⟩ := leads.find_eq_ok found
  obtain rfl := Files.enter_unique entered' (keeps.stays.enter entered)
  refine keeps.free there name entered (fun is => free ?_) is
  exact Files.find_of_lookup (leads.spot_eq spotted entered) short is

/-- No directory comes into the place of a checkpoint in progress where files of the set change. -/
theorem Config.NoDirectoryAside.of_keeps {c : Config} {t u : Files} {fs : List SetFile}
    (aside : c.NoDirectoryAside t) (valid : c.validate = .ok ()) (keeps : c.Keeps fs t u)
    {e : Entry} (run : t.find c.paths.run = .ok e) : c.NoDirectoryAside u := by
  obtain ⟨_, entered, _⟩ := (Config.leads valid .run).find_eq_ok run
  exact ⟨keeps.find_ne_directory entered (Config.leads valid .pendingCopy) aside.copy,
    keeps.find_ne_directory entered (Config.leads valid .pendingHeader) aside.header⟩

/-- Putting a checkpoint in place, also halfway, changes its files only, unless it moves a
directory. -/
theorem SetPaths.keeps_commit {c : Config} (valid : c.validate = .ok ()) {t : Files}
    (aside : c.NoDirectoryAside t) : c.Keeps checkpointFiles t (c.paths.commit t).2 := by
  have within {fs : List SetFile} (among : fs ⊆ checkpointFiles) :
      fs.map c.fileName ⊆ checkpointFiles.map c.fileName := List.map_subset _ among
  have moved {v : Files} (first : t.rename c.paths.pendingCopy c.paths.copy = .ok v) :
      c.Keeps [.pendingCopy, .copy] t v := by
    obtain ⟨e, found⟩ := exists_of_rename (f := .pendingCopy) (g := .copy) valid (by decide) first
    cases e with
    | directory => exact absurd found aside.copy
    | file copy =>
      exact (locate_rename (f := .pendingCopy) (g := .copy) valid (by decide) first found).1
  have ends := c.paths.commit_ends t
  generalize c.paths.commit t = o at ends ⊢
  cases ends with
  | nothing e => exact .refl ..
  | halfway v fault first => exact (moved first).mono (within (by decide))
  | done v u first second =>
    obtain ⟨e, there⟩ :=
      exists_of_rename (f := .pendingHeader) (g := .header) valid (by decide) second
    have found := (moved first).alters.find (Config.leads valid .pendingHeader)
      (Config.fileName_not_mem [.pendingCopy, .copy] (by decide)) there
    cases e with
    | directory => exact absurd found aside.header
    | file header =>
      have keeps :=
        (locate_rename (f := .pendingHeader) (g := .header) valid (by decide) second there).1
      exact ((moved first).mono (within (by decide))).trans (keeps.mono (within (by decide)))

namespace DiskSet

variable {s : DiskSet w} {h : Host}

/-! ## The file of the run -/

/-- The file of the run holds the entries of the run that the set has mapped, and nothing else. -/
def InPlace (s : DiskSet w) (t : Files) : Prop :=
  t.find s.config.paths.run = .ok (.file (encodeRun defaultBlockEntries s.disk.stored))

/-- It does so for a set with the same run. -/
theorem InPlace.of_disk_eq {u : DiskSet w} {t : Files} (inPlace : s.InPlace t)
    (config : u.config = s.config) (disk : u.disk = s.disk) : u.InPlace t := by
  rw [InPlace, config, disk]
  exact inPlace

/-- It does so where other files of the set change. -/
theorem InPlace.of_keeps {t u : Files} (inPlace : s.InPlace t)
    (valid : s.config.validate = .ok ()) {fs : List SetFile} (keeps : s.config.Keeps fs t u)
    (other : .run ∉ fs) : s.InPlace u :=
  Config.find_of_keeps valid keeps other inPlace

/-- A flush puts the run that it maps in place. -/
theorem InPlace.flushNow (inPlace : s.InPlace h.files) (mapped : s.disk.mapped.isSome) :
    (s.flushNow h).set.InPlace (s.flushNow h).host.files := by
  have ends := flushed_flushNow mapped h
  generalize s.flushNow h = o at ends ⊢
  obtain ⟨answer, u, host⟩ := o
  simp only at ends ⊢
  generalize host.files = after at ends ⊢
  cases ends with
  | failed e => exact inPlace.of_disk_eq rfl rfl
  | nothing vacant => exact inPlace.of_disk_eq rfl rfl
  | written l entries takes ascending storable all =>
    exact Files.find_of_locate (takes.locate_place (encodeRun defaultBlockEntries entries))

/-- A put leaves the run in place. -/
theorem InPlace.put (inPlace : s.InPlace h.files) (sound : s.Sound) (isOpen : s.closed = false)
    (fp : Fingerprint w) : (s.put fp h).set.InPlace (s.put fp h).host.files := by
  have inserted (opening : Option Nat) : (s.insert fp opening).InPlace h.files :=
    inPlace.of_disk_eq (config_insert ..) (disk_insert ..)
  have ends := putEnd isOpen sound.idle fp h
  generalize s.put fp h = o at ends ⊢
  cases ends with
  | seen place found isSeen =>
    exact inPlace.of_disk_eq (config_counted ..) (disk_counted ..)
  | fresh opening found => exact inserted opening
  | flushed opening found due =>
    exact (inserted opening).flushNow (sound.insert found).mapped

/-- What leaves the run of a sound set in place for each of some fingerprints does so for all of
them. -/
theorem InPlace.each {α : Type} {op : Fingerprint w → DiskSet w → Host → Outcome (DiskSet w) α}
    (step : ∀ fp {u : DiskSet w} {g : Host}, u.Sound → u.closed = false → u.InPlace g.files →
      (op fp u g).set.Sound ∧ (op fp u g).set.closed = false ∧
        (op fp u g).set.InPlace (op fp u g).host.files)
    (inPlace : s.InPlace h.files) (sound : s.Sound) (isOpen : s.closed = false)
    (fps : List (Fingerprint w)) :
    (Outcome.each op fps s h).set.InPlace (Outcome.each op fps s h).host.files :=
  (Outcome.each_keeps (fun (u : DiskSet w) g => u.Sound ∧ u.closed = false ∧ u.InPlace g.files)
    (fun fp _ _ _ kept => step fp kept.1 kept.2.1 kept.2.2) ⟨sound, isOpen, inPlace⟩).2.2

/-- Every directory stays when any call is made, unless one is in the place of a file that is
moved. -/
theorem Faithful.keeps_perform_of_noDirectoryAside (faithful : s.Faithful h.files)
    (isOpen : s.closed = false) (aside : s.config.NoDirectoryAside h.files) (c : Call w) :
    s.config.Keeps c.altered h.files (c.perform s h).host.files := by
  by_cases commit : c = .commitCheckpoint
  · subst commit
    have keeps := SetPaths.keeps_commit faithful.valid aside
    rwa [commitCheckpoint_eq isOpen] at keeps
  · exact faithful.keeps_perform isOpen commit

/-- A call that goes on with a set leaves its run in place, unless it moves a directory. -/
theorem InPlace.perform (inPlace : s.InPlace h.files) (sound : s.Sound)
    (faithful : s.Faithful h.files) (isOpen : s.closed = false) {c : Call w} (goesOn : c.goesOn)
    (aside : c = .commitCheckpoint → s.config.NoDirectoryAside h.files) :
    (c.perform s h).set.InPlace (c.perform s h).host.files := by
  have valid := faithful.valid
  cases c with
  | put fp => exact inPlace.put sound isOpen fp
  | putBlock fps =>
    refine each (fun fp u g sound isOpen inPlace => ?_) inPlace sound isOpen fps
    have grown := sound.grown_put isOpen fp g
    exact ⟨grown.sound, grown.isOpen, inPlace.put sound isOpen fp⟩
  | recoverFingerprint fp =>
    simp only [Call.perform, Outcome.map, set_recoverFingerprint, host_recoverFingerprint]
    exact inPlace.put sound isOpen fp
  | contains fp =>
    simp only [Call.perform, Outcome.map, sound.contains isOpen]
    exact inPlace.of_disk_eq (config_counted ..) (disk_counted ..)
  | containsBlock fps =>
    refine each (fun fp u g sound isOpen inPlace => ?_) inPlace sound isOpen fps
    rw [sound.contains isOpen]
    have grown := sound.grown_counted isOpen (u.find fp)
    exact ⟨grown.sound, grown.isOpen, inPlace.of_disk_eq (config_counted ..) (disk_counted ..)⟩
  | flush =>
    simp only [Call.perform, Outcome.map, flush, whenOpen, isOpen, Bool.false_eq_true, if_false]
    exact inPlace.flushNow sound.mapped
  | requestFlush => exact inPlace.of_disk_eq rfl rfl
  | beginCheckpoint =>
    have flushed := inPlace.flushNow sound.mapped
    have goes := faithful.goes_flushNow isOpen
    simp only [Call.perform, Outcome.map, set_beginCheckpoint isOpen]
    rcases beginCheckpoint_cases (h := h) isOpen with ⟨_, _, _, host⟩ | ⟨_, begun⟩
    · rw [host]
      exact flushed
    · have keeps := SetPaths.keeps_begin goes.faithful.valid (s.flushNow h).set.disk
        (s.flushNow h).set.config.family (s.flushNow h).host.files
      rw [begun] at keeps
      exact flushed.of_keeps goes.faithful.valid keeps (by decide)
  | commitCheckpoint =>
    have keeps := faithful.keeps_perform_of_noDirectoryAside isOpen (aside rfl) .commitCheckpoint
    have other : .run ∉ checkpointFiles := by decide
    have kept := inPlace.of_keeps valid keeps other
    simp only [Call.perform, Outcome.map, set_commitCheckpoint] at kept ⊢
    exact kept
  | recover => contradiction
  | close cleanup => contradiction

/-! ## Puts that do not fail -/

/-- A put that fails does so for a fault of files. -/
theorem Accounted.fault_of_put {shard : Nat} (accounted : s.Accounted shard)
    (isOpen : s.closed = false) {fp : Fingerprint w} (routes : s.config.Routes shard fp) {e : Error}
    (failed : (s.put fp h).answer = .error e) : ∃ path fault, e = .file path fault := by
  obtain ⟨opening, found, flushed, _⟩ := put_of_error isOpen accounted.sound.idle failed
  exact (accounted.insert routes found).fault_of_flushNow flushed

/-- Putting a block that fails does so for a fault of files. -/
theorem Accounted.fault_of_putBlock {shard : Nat} (accounted : s.Accounted shard)
    (isOpen : s.closed = false) {fps : List (Fingerprint w)}
    (routes : ∀ fp ∈ fps, s.config.Routes shard fp) {e : Error}
    (failed : (s.putBlock fps h).answer = .error e) : ∃ path fault, e = .file path fault := by
  induction fps generalizing s h with
  | nil => contradiction
  | cons fp rest ih =>
    obtain ⟨own, others⟩ := List.forall_mem_cons.1 routes
    have unfolded : s.putBlock (fp :: rest) h = (s.put fp h).andThen fun seen s h =>
        (s.putBlock rest h).map fun answers => seen :: answers := rfl
    rw [unfolded, Outcome.andThen] at failed
    cases first : (s.put fp h).answer with
    | error e' =>
      rw [first] at failed
      obtain rfl : e' = e := Except.error.inj failed
      exact accounted.fault_of_put isOpen own first
    | ok seen =>
      have grown := accounted.sound.grown_put isOpen fp h
      simp only [first] at failed
      exact ih (accounted.put isOpen own h) grown.isOpen
        (fun fp among => grown.config ▸ others fp among) (error_of_map failed)

/-- No put of a call fails if there are no faults of files in it. -/
theorem Accounted.putsAll {shard : Nat} (accounted : s.Accounted shard) (isOpen : s.closed = false)
    {c : Call w} (routes : ∀ fp ∈ c.puts, s.config.Routes shard fp)
    (unfailing : ∀ path fault, (c.perform s h).answer = .error (.file path fault) → c.puts = []) :
    c.putsAll s h := by
  cases c with
  | put fp =>
    change (s.put fp h).answer.isOk
    cases answer : (s.put fp h).answer with
    | ok _ => rfl
    | error e =>
      obtain ⟨path, fault, rfl⟩ :=
        accounted.fault_of_put isOpen (routes fp List.mem_cons_self) answer
      have none := unfailing path fault
        (by simp only [Call.perform, Outcome.map, answer, Except.map])
      contradiction
  | putBlock fps =>
    change (s.putBlock fps h).answer.isOk
    cases answer : (s.putBlock fps h).answer with
    | ok _ => rfl
    | error e =>
      obtain ⟨path, fault, rfl⟩ := accounted.fault_of_putBlock isOpen routes answer
      obtain rfl : fps = [] := unfailing path fault answer
      contradiction
  | recoverFingerprint fp =>
    change (s.put fp h).answer.isOk
    cases answer : (s.put fp h).answer with
    | ok _ => rfl
    | error e =>
      obtain ⟨path, fault, rfl⟩ :=
        accounted.fault_of_put isOpen (routes fp List.mem_cons_self) answer
      have none := unfailing path fault (by
        simp only [Call.perform, recoverFingerprint, Outcome.asNew, Outcome.andThen, Outcome.map,
          answer, Except.map])
      contradiction
  | _ => exact trivial

end DiskSet

/-! ## Runs -/

/-- A set without shards: any calls that go on with it and none of whose puts fails for a fault of
files. Between two calls files change in any way that leaves those of the set as they are. -/
def unsharded (w : Width) : Setting w where
  starts := fun c t => c.prefixBits = 0 ∧ c.NoDirectoryAside t
  allows := fun c s h => c.goesOn ∧
    ∀ path fault, (c.perform s h).answer = .error (.file path fault) → c.puts = []
  outside := fun s t u => ∀ f, u.find (s.config.paths.path f) = t.find (s.config.paths.path f)

/-- A call that goes on with a set and succeeds is one of these. -/
theorem unsharded_allows {c : Call w} (goesOn : c.goesOn) {s : DiskSet w} {h : Host}
    (isOk : (c.perform s h).answer.isOk) : (unsharded w).allows c s h := by
  refine ⟨goesOn, fun path fault failed => ?_⟩
  rw [failed] at isOk
  contradiction

namespace DiskSet

variable {s : DiskSet w} {h : Host}

/-- An open set without shards that has the given fingerprints and its run in place. -/
structure Canonical (puts : List (Fingerprint w)) (s : DiskSet w) (t : Files) : Prop where
  /-- It has no shards. -/
  unrouted : s.config.prefixBits = 0
  /-- It is accounted for. -/
  accounted : s.Accounted 0
  /-- It is open. -/
  isOpen : s.closed = false
  /-- It is faithful to its files. -/
  faithful : s.Faithful t
  /-- Its fingerprints are those given. -/
  members : ∀ fp, fp ∈ s.members ↔ fp ∈ puts
  /-- Its run is in place. -/
  inPlace : s.InPlace t
  /-- No directory is in the place of a checkpoint in progress. -/
  aside : s.config.NoDirectoryAside t

/-- An opened set has its run in place. -/
theorem Opened.inPlace {c : Config} {before after : Files} (opened : Opened c before s after) :
    s.InPlace after := by
  obtain ⟨made, l, _, takes, _, placed⟩ := opened.files
  rw [InPlace, opened.stored, opened.config, placed]
  exact Files.find_of_locate (takes.locate_place _)

/-- Any fingerprint goes into a set without shards. -/
theorem Canonical.routes {puts : List (Fingerprint w)} (canonical : s.Canonical puts h.files)
    (fp : Fingerprint w) : s.config.Routes 0 fp :=
  .inl canonical.unrouted

/-- A call of a set without shards adds what it puts. -/
theorem Canonical.perform {puts : List (Fingerprint w)} (canonical : s.Canonical puts h.files)
    {c : Call w} (allowed : (unsharded w).allows c s h) :
    (c.perform s h).set.Canonical (puts ++ c.puts) (c.perform s h).host.files := by
  obtain ⟨goesOn, unfailing⟩ := allowed
  have isOpen := canonical.isOpen
  have faithful := canonical.faithful
  have sound := canonical.accounted.sound
  have keeps := faithful.keeps_perform_of_noDirectoryAside isOpen canonical.aside c
  obtain ⟨added, grown, all⟩ := sound.perform isOpen goesOn h
  obtain rfl := all (canonical.accounted.putsAll isOpen (fun fp _ => canonical.routes fp) unfailing)
  refine ⟨?_, ?_, grown.isOpen, ?_, fun fp => ?_, ?_, ?_⟩
  · rw [grown.config, canonical.unrouted]
  · exact canonical.accounted.perform isOpen (fun fp _ => canonical.routes fp) goesOn h
  · rcases (faithful.perform isOpen c).2 with closed | ⟨_, still⟩
    · rw [grown.isOpen] at closed
      contradiction
    · exact still
  · rw [grown.members, canonical.members, List.mem_append, or_comm]
  · exact canonical.inPlace.perform sound faithful isOpen goesOn fun _ => canonical.aside
  · rw [grown.config]
    exact canonical.aside.of_keeps faithful.valid keeps canonical.inPlace

/-- A set stays as it is where no file of it changes. -/
theorem Canonical.of_find {puts : List (Fingerprint w)} {t u : Files}
    (canonical : s.Canonical puts t)
    (same : ∀ f, u.find (s.config.paths.path f) = t.find (s.config.paths.path f)) :
    s.Canonical puts u := by
  refine { canonical with
    faithful := canonical.faithful.of_find fun e found => (same .run).symm.trans found
    inPlace := (same .run).trans canonical.inPlace
    aside := ⟨fun found => canonical.aside.copy ((same .pendingCopy).symm.trans found),
      fun found => canonical.aside.header ((same .pendingHeader).symm.trans found)⟩ }

/-- A set without shards whose puts do not fail has the fingerprints that were put, and its run in
place. -/
theorem canonical_of_unsharded {puts : List (Fingerprint w)}
    (reached : Reached (unsharded w) puts s h) : s.Canonical puts h.files := by
  induction reached with
  | opened opened starts =>
    have start := opened_of_open opened
    refine ⟨?_, accounted_of_open opened 0, start.isOpen, start.faithful, fun fp => ?_,
      start.inPlace, ?_⟩
    · rw [start.config, starts.1]
    · rw [start.members]
    · rw [start.config]
      exact starts.2
  | call reached c allowed ih => exact ih.perform allowed
  | outside reached files allowed ih => exact ih.of_find allowed

/-- After a flush that does not fail everything in a set without shards is in its run, in ascending
order, and another flush finds nothing to do. -/
theorem Canonical.flush {puts : List (Fingerprint w)} (canonical : s.Canonical puts h.files)
    (flushed : (s.flush h).answer = .ok ()) :
    (s.flush h).set.Canonical puts (s.flush h).host.files ∧
      (∀ fp, fp ∈ (s.flush h).set.disk.stored.toList ↔ fp ∈ puts) ∧
      ((s.flush h).set.flush (s.flush h).host).answer = .ok () ∧
      ((s.flush h).set.flush (s.flush h).host).host.files = (s.flush h).host.files := by
  have isOpen := canonical.isOpen
  have after := canonical.perform (c := .flush) ⟨rfl, fun _ _ _ => rfl⟩
  have after : (s.flush h).set.Canonical puts (s.flush h).host.files := List.append_nil puts ▸ after
  rw [flush_eq isOpen] at flushed
  obtain ⟨members, table, overflow⟩ := canonical.accounted.sound.members_flushNow flushed
  rw [← flush_eq isOpen] at members table overflow
  have vacant : (s.flush h).set.tableLive + (s.flush h).set.overflow.size = 0 := by
    rw [table, overflow]
  refine ⟨after, fun fp => ?_, ?_⟩
  · rw [← members, after.members]
  · rw [flush_eq after.isOpen, flushNow, if_pos vacant]
    exact ⟨rfl, rfl⟩

end DiskSet

/-- Two sets without shards, of whatever sizes, whose puts did not fail and were of the same
fingerprints have the same run after a flush that does not fail: its header and then the
fingerprints in ascending order, to the byte, and the same sparse index. Another flush leaves all
files as they are. -/
theorem canonical_of_reached {puts others : List (Fingerprint w)} {s t : DiskSet w} {h g : Host}
    (reached : Reached (unsharded w) puts s h) (reached' : Reached (unsharded w) others t g)
    (same : ∀ fp, fp ∈ puts ↔ fp ∈ others) (flushed : (s.flush h).answer = .ok ())
    (flushed' : (t.flush g).answer = .ok ()) :
    ∃ (fps : List (Fingerprint w)) (contents : ByteArray),
      fps.Pairwise (· < ·) ∧ (∀ fp, fp ∈ fps ↔ fp ∈ puts) ∧
      contents.data.toList = RunHeader.magic ++ littleEndian 4 1 ++ littleEndian 4 w.bytes ++
        littleEndian 8 fps.length ++ littleEndian 4 1024 ++ littleEndian 4 0 ++
          fps.flatMap (fun fp => bigEndian w.bytes fp.value) ∧
      (s.flush h).host.files.find s.config.paths.run = .ok (.file contents) ∧
      (t.flush g).host.files.find t.config.paths.run = .ok (.file contents) ∧
      (s.flush h).set.disk.index = (t.flush g).set.disk.index ∧
      ((s.flush h).set.flush (s.flush h).host).answer = .ok () ∧
      ((s.flush h).set.flush (s.flush h).host).host.files = (s.flush h).host.files := by
  have start := DiskSet.canonical_of_unsharded reached
  have start' := DiskSet.canonical_of_unsharded reached'
  obtain ⟨canonical, stored, again⟩ := start.flush flushed
  obtain ⟨canonical', stored', _⟩ := start'.flush flushed'
  have sound := canonical.accounted.sound
  have sound' := canonical'.accounted.sound
  have entries : (s.flush h).set.disk.stored = (t.flush g).set.disk.stored :=
    Array.toList_inj.1 (sound.ascending.eq_of_mem_iff sound'.ascending fun fp => by
      rw [stored, stored', same])
  have config : (s.flush h).set.config = s.config := by
    have goes := start.faithful.goes_perform start.isOpen (c := .flush) rfl
    exact goes.config
  have config' : (t.flush g).set.config = t.config := by
    have goes := start'.faithful.goes_perform start'.isOpen (c := .flush) rfl
    exact goes.config
  have inPlace := canonical.inPlace
  have inPlace' := canonical'.inPlace
  rw [DiskSet.InPlace, config] at inPlace
  rw [DiskSet.InPlace, config', ← entries] at inPlace'
  refine ⟨(s.flush h).set.disk.stored.toList, _, sound.ascending, stored, ?_, inPlace, inPlace', ?_,
    again⟩
  · rw [toList_encodeRun]
    rfl
  · rw [sound.run, sound'.run, entries]
    rfl

/-- The configuration of a set of eight slots in two regions that hardly ever flushes by itself. -/
def roomyConfig : Config :=
  { sampleConfig with memory := .fingerprints 8, lockCount := some 2, collisionRatio := 100 }

/-- The set can be opened where there is nothing. -/
theorem isSome_open_roomy :
    (DiskSet.open .bits64 sampleMachine roomyConfig .empty).1.toOption.isSome := by
  decide +kernel

/-- The set, just opened. -/
def roomySet : DiskSet .bits64 :=
  (DiskSet.open .bits64 sampleMachine roomyConfig .empty).1.toOption.get isSome_open_roomy

/-- The surroundings of the set. -/
def roomyHost : Host := (DiskSet.open .bits64 sampleMachine roomyConfig .empty).2

/-- A set of four slots that was put two fingerprints and one of eight that was put them the other
way round, with a flush between and one of them again, write the same run. -/
theorem canonical_of_reached_exchanged :
    let one := (Call.put (.ofNat .bits64 1)).perform sampleSet sampleHost
    let both := (Call.put (.ofNat .bits64 0)).perform one.set one.host
    let zero := (Call.put (.ofNat .bits64 0)).perform roomySet roomyHost
    let flushed := Call.flush.perform zero.set zero.host
    let more := (Call.put (.ofNat .bits64 1)).perform flushed.set flushed.host
    let again := (Call.put (.ofNat .bits64 0)).perform more.set more.host
    Reached (unsharded .bits64) [.ofNat _ 1, .ofNat _ 0] both.set both.host ∧
      Reached (unsharded .bits64) [.ofNat _ 0, .ofNat _ 1, .ofNat _ 0] again.set again.host ∧
      both.set.disk.size = 0 ∧ again.set.disk.size = 1 ∧
      ∃ contents : ByteArray,
        (both.set.flush both.host).host.files.find both.set.config.paths.run =
          .ok (.file contents) ∧
        (again.set.flush again.host).host.files.find again.set.config.paths.run =
          .ok (.file contents) ∧
        (both.set.flush both.host).set.disk.index =
          (again.set.flush again.host).set.disk.index := by
  intro one both zero flushed more again
  have start : Reached (unsharded .bits64) [] sampleSet sampleHost :=
    .opened open_sample ⟨rfl, by decide +kernel, by decide +kernel⟩
  have start' : Reached (unsharded .bits64) [] roomySet roomyHost :=
    .opened (eq_ok_get isSome_open_roomy) ⟨rfl, by decide +kernel, by decide +kernel⟩
  have first := start.call _ (unsharded_allows (c := .put (.ofNat _ 1)) rfl (by decide +kernel))
  have reached : Reached (unsharded .bits64) [.ofNat _ 1, .ofNat _ 0] both.set both.host :=
    first.call _ (unsharded_allows (c := .put (.ofNat _ 0)) rfl (by decide +kernel))
  have first := start'.call _ (unsharded_allows (c := .put (.ofNat _ 0)) rfl (by decide +kernel))
  have second := first.call _ (unsharded_allows (c := .flush) rfl (by decide +kernel))
  have third := second.call _ (unsharded_allows (c := .put (.ofNat _ 1)) rfl (by decide +kernel))
  have reached' : Reached (unsharded .bits64) [.ofNat _ 0, .ofNat _ 1, .ofNat _ 0] again.set
      again.host :=
    third.call _ (unsharded_allows (c := .put (.ofNat _ 0)) rfl (by decide +kernel))
  obtain ⟨_, contents, _, _, _, found, found', index, _⟩ :=
    canonical_of_reached reached reached' (by simp [or_comm]) (by decide +kernel)
      (by decide +kernel)
  exact ⟨reached, reached', by decide +kernel, by decide +kernel, contents, found, found', index⟩

end SeenStates
