import SeenStates.Proofs.Copies

/-!
# Pairs of checkpoint files

A checkpoint is two files, and each of the steps that write them aside and put them in place can
fail. Putting a checkpoint in place asks only whether two files were left aside, so it is those of
one call only if no call failed while it wrote them; a run keeps that in mind as its `Progress`. As
long as it does, what is put in place is a matching pair (`DiskSet.Wrote`). A call that fails leaves
the pair that is in place as it was, and the set able to go back to it, unless it has moved the copy
and cannot move the header (`committed_of_progressed`).
-/
namespace SeenStates

variable {w : Width}

/-! ## Checkpoints in progress -/

/-- What there is of a checkpoint in progress. -/
inductive Progress (w : Width) where
  /-- There is no copy. -/
  | none
  /-- There are the two files that were written by a set in its surroundings. -/
  | begun (s : DiskSet w) (h : Host)
  /-- There can be anything: a call failed while it wrote the files, or they are not of this set. -/
  | unknown

/-- What there is of a checkpoint in progress after a call. A call that writes one aside and fails
in its flush leaves it as it was, and so does one that puts it in place and fails before it moves
the copy. -/
def Progress.after (p : Progress w) (c : Call w) (s : DiskSet w) (h : Host) : Progress w :=
  if s.closed then p
  else
    match c with
    | .beginCheckpoint =>
      if (s.beginCheckpoint h).answer.isOk then .begun s h
      else if (s.flushNow h).answer.isOk then .unknown
      else p
    | .commitCheckpoint =>
      if ((s.commitCheckpoint h).host.files.find s.config.paths.pendingCopy).isOk then p else .none
    | _ => p

/-- A set that was opened and went through any calls with any outcome, with what there is of a
checkpoint in progress. A set that goes back to a checkpoint does not take a copy for that of
another one. Between two calls files change in any way in which nothing new comes into the place of
the run. -/
inductive Progressed {w : Width} : Progress w → DiskSet w → Host → Prop where
  /-- The set was opened where no copy is in progress. -/
  | opened {machine : Machine} {c : Config} {before after : Host} {s : DiskSet w}
    (opened : DiskSet.open w machine c before = (.ok s, after))
    (nothing : ∀ e, after.files.find c.paths.pendingCopy ≠ .ok e) : Progressed .none s after
  /-- The set was opened where there can be anything. -/
  | found {machine : Machine} {c : Config} {before after : Host} {s : DiskSet w}
    (opened : DiskSet.open w machine c before = (.ok s, after)) : Progressed .unknown s after
  /-- A call was made. -/
  | call {p : Progress w} {s : DiskSet w} {h : Host} (progressed : Progressed p s h) (c : Call w)
    (allowed : (anyOutcome w).allows c s h) :
    Progressed (p.after c s h) (c.perform s h).set (c.perform s h).host
  /-- Files changed between two calls, those of a checkpoint in progress not. -/
  | outside {p : Progress w} {s : DiskSet w} {h : Host} (progressed : Progressed p s h)
    (files : Files) (allowed : (anyOutcome w).outside s h.files files)
    (aside : ∀ f ∈ [SetFile.pendingCopy, .pendingHeader],
      files.find (s.config.paths.path f) = h.files.find (s.config.paths.path f)) :
    Progressed p s (h.withFiles files)
  /-- Files changed between two calls, those of a checkpoint in progress as well. -/
  | touched {p : Progress w} {s : DiskSet w} {h : Host} (progressed : Progressed p s h)
    (files : Files) (allowed : (anyOutcome w).outside s h.files files) :
    Progressed .unknown s (h.withFiles files)

namespace DiskSet

variable {s : DiskSet w} {h : Host} {c : Config} {copy header : ByteArray}

/-- A set that wrote a checkpoint of its fingerprints aside, and the two files that it wrote. -/
structure Wrote (c : Config) (s : DiskSet w) (h : Host) (copy header : ByteArray) : Prop where
  /-- It is of the configuration. -/
  config : s.config = c
  /-- It is sound. -/
  sound : s.Sound
  /-- It is open. -/
  isOpen : s.closed = false
  /-- The checkpoint was written. -/
  answer : (s.beginCheckpoint h).answer = .ok ()
  /-- These are the files. -/
  pair : (s.beginCheckpoint h).host.files.Pair c.paths.pendingCopy c.paths.pendingHeader copy header
  /-- They are a checkpoint of the run. -/
  checkpoint : IsCheckpoint c.family (s.beginCheckpoint h).set.disk.stored copy header

/-- A checkpoint that was written aside is one of the set. -/
theorem Whole.wrote (whole : s.Whole s.config h.files) (isOpen : s.closed = false)
    (begun : (s.beginCheckpoint h).answer = .ok ()) :
    ∃ copy header, Wrote s.config s h copy header := by
  obtain ⟨sound, faithful⟩ := whole.of_open isOpen
  obtain ⟨copy, header, checkpoint, ⟨_, copied⟩, ⟨_, written⟩, _⟩ :=
    sound.checkpoint_of_begin faithful isOpen begun
  exact ⟨copy, header, rfl, sound, isOpen, begun,
    ⟨Files.find_of_locate copied, Files.find_of_locate written⟩, checkpoint⟩

/-- The checkpoint is one of exactly what was in the set. -/
theorem Wrote.members (wrote : s.Wrote c h copy header) :
    (s.beginCheckpoint h).set.disk.stored.toList.Nodup ∧
      (∀ fp, (s.contains fp h).answer =
        .ok (decide (fp ∈ (s.beginCheckpoint h).set.disk.stored.toList))) ∧
      s.size = (s.beginCheckpoint h).set.disk.stored.toList.length := by
  obtain ⟨flushed, _⟩ := beginCheckpoint_eq_ok wrote.isOpen wrote.answer
  have only := (wrote.sound.members_flushNow flushed).1
  obtain ⟨_, members, _⟩ := wrote.sound.of_flushed (flushed_flushNow wrote.sound.mapped h)
  rw [← set_beginCheckpoint wrote.isOpen] at only members
  refine ⟨wrote.checkpoint.ascending.nodup, fun fp => ?_, ?_⟩
  · rw [wrote.sound.contains wrote.isOpen, ← only]
    simp only [Outcome.ok, members.mem_iff]
  · rw [DiskSet.size, wrote.sound.counted, ← only, members.length_eq]

end DiskSet

/-- The files are as is known of a checkpoint in progress. -/
def Progress.Holds (p : Progress w) (c : Config) (t : Files) : Prop :=
  match p with
  | .none => ∀ e, t.find c.paths.pendingCopy ≠ .ok e
  | .begun s h => ∃ copy header, s.Wrote c h copy header ∧
      t.Pair c.paths.pendingCopy c.paths.pendingHeader copy header
  | .unknown => True

namespace Progress

variable {p : Progress w} {c : Config} {t u : Files}

/-- They are so where the files of a checkpoint in progress are the same. -/
theorem Holds.of_find (holds : p.Holds c t)
    (same : ∀ f ∈ [SetFile.pendingCopy, .pendingHeader],
      u.find (c.paths.path f) = t.find (c.paths.path f)) : p.Holds c u := by
  have copy : u.find c.paths.pendingCopy = t.find c.paths.pendingCopy :=
    same .pendingCopy List.mem_cons_self
  have header : u.find c.paths.pendingHeader = t.find c.paths.pendingHeader :=
    same .pendingHeader (List.mem_cons_of_mem _ List.mem_cons_self)
  cases p with
  | none =>
    intro e found
    exact holds e (copy.symm.trans found)
  | begun s h =>
    obtain ⟨_, _, wrote, pair⟩ := holds
    exact ⟨_, _, wrote, copy.trans pair.copied, header.trans pair.written⟩
  | unknown => trivial

/-- They are so where other files of the set change. -/
theorem Holds.of_keeps (holds : p.Holds c t) (valid : c.validate = .ok ()) {fs : List SetFile}
    (keeps : c.Keeps fs t u) (first : .pendingCopy ∉ fs) (second : .pendingHeader ∉ fs) :
    p.Holds c u := by
  cases p with
  | none =>
    intro e found
    exact holds e (keeps.alters.find (Config.leads valid .pendingCopy)
      (Config.fileName_not_mem fs first) found)
  | begun s h =>
    obtain ⟨_, _, wrote, pair⟩ := holds
    exact ⟨_, _, wrote, Config.find_of_keeps valid keeps first pair.copied,
      Config.find_of_keeps valid keeps second pair.written⟩
  | unknown => trivial

variable {s : DiskSet w} {h : Host}

/-- After a checkpoint was to be written aside the files are as is known then. -/
theorem Holds.beginCheckpoint (holds : p.Holds s.config h.files)
    (whole : s.Whole s.config h.files) (isOpen : s.closed = false) :
    (p.after .beginCheckpoint s h).Holds s.config (s.beginCheckpoint h).host.files := by
  obtain ⟨_, faithful⟩ := whole.of_open isOpen
  have flushed := (faithful.goes_flushNow isOpen).keeps
  simp only [Progress.after, isOpen, Bool.false_eq_true, if_false]
  cases answer : (s.beginCheckpoint h).answer with
  | ok _ =>
    obtain ⟨copy, header, wrote⟩ := whole.wrote isOpen answer
    exact ⟨copy, header, wrote, wrote.pair⟩
  | error e =>
    rcases DiskSet.beginCheckpoint_cases (h := h) isOpen with ⟨_, failed, _, host⟩ | ⟨succeeded, _⟩
    · rw [failed, host]
      exact holds.of_keeps faithful.valid flushed (by decide) (by decide)
    · rw [succeeded]
      exact trivial

/-- After a checkpoint was to be put in place the files are as is known then. -/
theorem Holds.commitCheckpoint (holds : p.Holds s.config h.files)
    (whole : s.Whole s.config h.files) (isOpen : s.closed = false) :
    (p.after .commitCheckpoint s h).Holds s.config (s.commitCheckpoint h).host.files := by
  obtain ⟨_, faithful⟩ := whole.of_open isOpen
  have ends := SetPaths.commit_cases faithful.valid h.files
  rw [DiskSet.commitCheckpoint_eq isOpen] at ends
  simp only at ends
  simp only [Progress.after, isOpen, Bool.false_eq_true, if_false]
  cases there : (s.commitCheckpoint h).host.files.find s.config.paths.pendingCopy with
  | error fault =>
    intro e found
    cases there.symm.trans found
  | ok e =>
    rcases ends with same | gone
    · exact same ▸ holds
    · exact absurd there (gone e)

/-- After a call the files are as is known then. -/
theorem Holds.perform (holds : p.Holds s.config h.files) (whole : s.Whole s.config h.files)
    (k : Call w) : (p.after k s h).Holds s.config (k.perform s h).host.files := by
  cases closed : s.closed with
  | true =>
    have same : p.after k s h = p := by
      unfold Progress.after
      exact if_pos closed
    rw [same, (DiskSet.perform_of_closed (h := h) closed k).2.2.1]
    exact holds
  | false =>
    by_cases begin : k = .beginCheckpoint
    · subst begin
      exact holds.beginCheckpoint whole closed
    · by_cases commit : k = .commitCheckpoint
      · subst commit
        exact holds.commitCheckpoint whole closed
      · obtain ⟨_, faithful⟩ := whole.of_open closed
        obtain ⟨first, second⟩ := Call.pending_not_mem_altered begin commit
        have same : p.after k s h = p := by
          unfold Progress.after
          rw [closed]
          cases k <;> first | rfl | exact absurd rfl begin | exact absurd rfl commit
        rw [same]
        exact holds.of_keeps faithful.valid (faithful.keeps_perform closed commit) first second

end Progress

namespace DiskSet

variable {s : DiskSet w} {h : Host}

/-! ## Sets under way -/

/-- A whole set beside whose run drafts can be spelled, with what there is of a checkpoint in
progress. -/
structure Underway (p : Progress w) (s : DiskSet w) (t : Files) : Prop where
  /-- It is whole. -/
  whole : s.Whole s.config t
  /-- Its configuration is valid. -/
  valid : s.config.validate = .ok ()
  /-- Drafts beside its run can be spelled. -/
  fits : Files.DraftsFit s.config.paths.run
  /-- The files of a checkpoint in progress are as is known. -/
  holds : p.Holds s.config t

/-- A set that is opened is under way. -/
theorem Opened.underway {c : Config} {before after : Files} (opened : Opened c before s after)
    {p : Progress w} (holds : p.Holds c after) : Underway p s after := by
  obtain ⟨_, _, _, _, canDraft, _⟩ := opened.files
  refine ⟨⟨.refl _, .inr ⟨opened.isOpen, opened.sound, opened.faithful⟩⟩, ?_, ?_, ?_⟩
  · exact opened.config ▸ opened.valid
  · exact opened.config ▸ canDraft.fits
  · exact opened.config ▸ holds

/-- A call leaves a set under way. -/
theorem Underway.perform {p : Progress w} (underway : Underway p s h.files) {k : Call w}
    (allowed : (anyOutcome w).allows k s h) :
    Underway (p.after k s h) (k.perform s h).set (k.perform s h).host.files := by
  have config := underway.whole.config_perform k
  refine ⟨?_, ?_, ?_, ?_⟩
  · rw [config]
    exact underway.whole.perform allowed
  · exact config ▸ underway.valid
  · exact config ▸ underway.fits
  · rw [config]
    exact underway.holds.perform underway.whole k

/-- A set stays under way where nothing new is in the place of its run, as far as is known of a
checkpoint in progress. -/
theorem Underway.of_find {p q : Progress w} {t u : Files} (underway : Underway p s t)
    (allowed : (anyOutcome w).outside s t u) (holds : q.Holds s.config u) : Underway q s u :=
  ⟨underway.whole.of_find allowed, underway.valid, underway.fits, holds⟩

/-- Every set that went through calls is under way. -/
theorem underway_of_progressed {p : Progress w} (progressed : Progressed p s h) :
    Underway p s h.files := by
  induction progressed with
  | opened opened nothing => exact (opened_of_open opened).underway nothing
  | found opened => exact (opened_of_open opened).underway trivial
  | call progressed c allowed ih => exact ih.perform allowed
  | outside progressed files allowed aside ih => exact ih.of_find allowed (ih.holds.of_find aside)
  | touched progressed files allowed ih => exact ih.of_find allowed trivial

/-- A checkpoint that is put in place is the pair that was written aside, as far as that is known,
and going back to it brings back what was in the set then. -/
theorem Underway.commitCheckpoint {p : Progress w} (underway : Underway p s h.files)
    (committed : (s.commitCheckpoint h).answer = .ok ()) (known : p ≠ .unknown) :
    ∃ s₀ h₀ copy header, p = .begun s₀ h₀ ∧ s₀.Wrote s.config h₀ copy header ∧
      (s.commitCheckpoint h).host.files.Pair s.config.paths.copy s.config.paths.header copy header ∧
      ((∃ l, (s.commitCheckpoint h).host.files.Takes s.config.paths.run l) →
        excess? (s.commitCheckpoint h).host.files.room copy.size = none →
          BringsBack (s₀.beginCheckpoint h₀).set.disk.stored.toList
            ((s.commitCheckpoint h).set.recover (s.commitCheckpoint h).host)) := by
  have isOpen : s.closed = false := isOpen_of_whenOpen committed
  have valid := underway.valid
  have placed := commitCheckpoint_eq_ok isOpen committed
  obtain ⟨sound, faithful⟩ := underway.whole.of_open isOpen
  have holds := underway.holds
  cases p with
  | none =>
    obtain ⟨⟨e, found⟩, _⟩ := SetPaths.exists_of_commit valid placed
    exact absurd found (holds e)
  | unknown => exact absurd rfl known
  | begun s₀ h₀ =>
    obtain ⟨copy, header, wrote, pair⟩ := holds
    obtain ⟨l, copied⟩ := Files.locate_of_find pair.copied
    obtain ⟨m, written⟩ := Files.locate_of_find pair.written
    obtain ⟨keeps, ⟨_, copied⟩, ⟨_, written⟩⟩ :=
      SetPaths.locate_commit valid placed copied written
    refine ⟨s₀, h₀, copy, header, rfl, wrote,
      ⟨Files.find_of_locate copied, Files.find_of_locate written⟩, fun takes room => ?_⟩
    have has : HasCheckpoint s.config .copy .header copy header
        (s.commitCheckpoint h).host.files := ⟨⟨_, copied⟩, ⟨_, written⟩, takes, room⟩
    have faithful := faithful.of_alters keeps.alters (by decide)
    have set := set_commitCheckpoint s h
    have recoverable : Recoverable s.config (s₀.beginCheckpoint h₀).set.disk.stored copy header
        (s.commitCheckpoint h).set (s.commitCheckpoint h).host.files := by
      rw [set]
      exact ⟨.refl _, valid, underway.fits, has, wrote.checkpoint, .inr ⟨isOpen, sound, faithful⟩⟩
    exact recoverable.bringsBack ((congrArg DiskSet.closed set).trans isOpen)

/-- A call that fails to write a checkpoint aside or to put it in place leaves the set open, and
changes nothing but its run and the checkpoint in progress, unless it cannot move the header. -/
theorem Underway.keeps_of_error {p : Progress w} (underway : Underway p s h.files)
    (isOpen : s.closed = false) {k : Call w} (isCheckpoint : k.isCheckpoint) {e : Error}
    (failed : (k.perform s h).answer = .error e)
    (other : k = .commitCheckpoint → ∀ fault, e ≠ .file s.config.paths.header fault) :
    (k.perform s h).set.closed = false ∧
      s.config.Keeps [.run, .pendingCopy, .pendingHeader] h.files
        (k.perform s h).host.files := by
  obtain ⟨_, faithful⟩ := underway.whole.of_open isOpen
  cases k with
  | beginCheckpoint =>
    obtain ⟨stillOpen, _, _, keeps⟩ := faithful.beginCheckpoint isOpen
    exact ⟨stillOpen, keeps⟩
  | commitCheckpoint =>
    have set : (Call.commitCheckpoint.perform s h).set = s := set_commitCheckpoint s h
    refine ⟨set.symm ▸ isOpen, ?_⟩
    have placed := commitCheckpoint_eq (h := h) isOpen
    rw [error_of_map failed] at placed
    rcases SetPaths.commit_eq_error placed with same | ⟨fault, header⟩
    · have same : (Call.commitCheckpoint.perform s h).host.files = h.files := same
      exact same.symm ▸ .refl ..
    · exact absurd header (other rfl fault)
  | _ => exact absurd isCheckpoint Bool.false_ne_true

/-! ## What recoveries bring back -/

/-- A recovery that succeeds reads the header in place and restores a run by it. -/
theorem restore_of_recover (isOpen : s.closed = false) (recovered : (s.recover h).answer = .ok ()) :
    ∃ header disk after, s.config.paths.readHeader w s.config.family h.files = .ok header ∧
      s.config.paths.restore header h.files = (.ok disk, after) := by
  cases read : s.config.paths.readHeader w s.config.family h.files with
  | error e =>
    rw [recover_of_unreadable isOpen read] at recovered
    cases recovered
  | ok header =>
    cases restored : s.config.paths.restore header h.files with
    | mk answer after =>
      cases answer with
      | ok disk => exact ⟨header, disk, after, rfl, restored⟩
      | error e =>
        rw [recover_of_unrestored isOpen read restored] at recovered
        cases recovered

/-- A recovery brings back what is in the run that is restored. -/
theorem Sound.bringsBack_iff (sound : s.Sound) (isOpen : s.closed = false)
    {header : CheckpointHeader w} {disk : Run w} {after : Files}
    (read : s.config.paths.readHeader w s.config.family h.files = .ok header)
    (restored : s.config.paths.restore header h.files = (.ok disk, after))
    {fps : List (Fingerprint w)} :
    BringsBack fps (s.recover h) ↔
      (∀ fp, disk.contains fp = decide (fp ∈ fps)) ∧ disk.size = fps.length := by
  have recovers := recover_of_restore isOpen read restored
  have answer : (s.recover h).answer = .ok () := congrArg Outcome.answer recovers
  have set : (s.recover h).set = s.recovered disk := congrArg Outcome.set recovers
  have contains (fp : Fingerprint w) :
      ((s.recover h).set.contains fp (s.recover h).host).answer = .ok (disk.contains fp) := by
    have seen : ((s.recovered disk).find fp).isSeen = disk.contains fp :=
      isSeen_find_of_blank sound.table.blank_clear rfl fp
    have still : (s.recovered disk).closed = false := isOpen
    rw [set]
    simp [DiskSet.contains, whenOpen, still, seen, Outcome.ok]
  constructor
  · intro brings
    refine ⟨fun fp => ?_, ?_⟩
    · exact Except.ok.inj ((contains fp).symm.trans (brings.answers fp))
    · exact (congrArg size set).symm.trans brings.size
  · rintro ⟨same, count⟩
    constructor
    case answer => exact answer
    case answers => exact fun fp => (contains fp).trans (congrArg Except.ok (same fp))
    case size => exact (congrArg size set).trans count
    case count => exact (congrArg (fun s => s.disk.size) set).trans count
    case table => rw [set]; exact sound.table.blank_clear
    case live => rw [set]; rfl
    case overflow => rw [set]; rfl

/-- What a recovery brings back is brought back as well where nothing else changed but the run and
a checkpoint in progress. -/
theorem BringsBack.of_keeps {fps : List (Fingerprint w)} (brings : BringsBack fps (s.recover h))
    (sound : s.Sound) (isOpen : s.closed = false) (valid : s.config.validate = .ok ())
    {u : DiskSet w} {g : Host} (sound' : u.Sound) (stillOpen : u.closed = false)
    (config : u.config = s.config)
    (keeps : s.config.Keeps [.run, .pendingCopy, .pendingHeader] h.files g.files) :
    BringsBack fps (u.recover g) := by
  obtain ⟨header, disk, after, read, restored⟩ := restore_of_recover isOpen brings.answer
  have read' : u.config.paths.readHeader w u.config.family g.files = .ok header := by
    rw [config]
    exact SetPaths.readHeader_of_keeps valid keeps (by decide) read
  obtain ⟨after', restored'⟩ :
      ∃ after', u.config.paths.restore header g.files = (.ok disk, after') := by
    rw [config]
    exact SetPaths.restore_of_keeps valid keeps (by decide) restored
  rw [sound.bringsBack_iff isOpen read restored] at brings
  exact (sound'.bringsBack_iff stillOpen read' restored').2 brings

/-- A call that fails to write a checkpoint aside or to put it in place leaves what a recovery
brings back as it was, unless it cannot move the header. -/
theorem Underway.bringsBack_of_error {p : Progress w} (underway : Underway p s h.files)
    {k : Call w} (isCheckpoint : k.isCheckpoint) {e : Error}
    (failed : (k.perform s h).answer = .error e)
    (other : k = .commitCheckpoint → ∀ fault, e ≠ .file s.config.paths.header fault)
    {fps : List (Fingerprint w)} (brings : BringsBack fps (s.recover h)) :
    BringsBack fps ((k.perform s h).set.recover (k.perform s h).host) := by
  have isOpen : s.closed = false := isOpen_of_whenOpen brings.answer
  have allowed : (anyOutcome w).allows k s h := by
    rintro rfl
    exact absurd isCheckpoint Bool.false_ne_true
  have after := underway.perform allowed
  obtain ⟨stillOpen, keeps⟩ := underway.keeps_of_error isOpen isCheckpoint failed other
  exact brings.of_keeps (underway.whole.of_open isOpen).1 isOpen underway.valid
    (after.whole.of_open stillOpen).1 stillOpen (underway.whole.config_perform k) keeps

/-- The files in place are as before after a call that fails to write a checkpoint aside or to put
it in place, unless it cannot move the header. -/
theorem Underway.find_of_error {p : Progress w} (underway : Underway p s h.files)
    {k : Call w} (isCheckpoint : k.isCheckpoint) {e : Error}
    (failed : (k.perform s h).answer = .error e)
    (other : k = .commitCheckpoint → ∀ fault, e ≠ .file s.config.paths.header fault)
    {f : SetFile} (inPlace : f ∈ [SetFile.copy, .header]) {contents : ByteArray}
    (found : h.files.find (s.config.paths.path f) = .ok (.file contents)) :
    (k.perform s h).host.files.find (s.config.paths.path f) = .ok (.file contents) := by
  cases closed : s.closed with
  | true =>
    rw [(perform_of_closed (h := h) closed k).2.2.1]
    exact found
  | false =>
    obtain ⟨_, keeps⟩ := underway.keeps_of_error closed isCheckpoint failed other
    have apart : f ∉ [SetFile.run, .pendingCopy, .pendingHeader] := by
      revert inPlace
      cases f <;> decide
    exact Config.find_of_keeps underway.valid keeps apart found

end DiskSet

/-- A checkpoint in progress is one that was written aside earlier. -/
theorem Progressed.earlier {p : Progress w} {s s₀ : DiskSet w} {h h₀ : Host}
    (progressed : Progressed p s h) (begun : p = .begun s₀ h₀) : ∃ q, Progressed q s₀ h₀ := by
  induction progressed with
  | opened opened nothing => exact nomatch begun
  | found opened => exact nomatch begun
  | @call p s h progressed c allowed ih =>
    unfold Progress.after at begun
    split at begun
    · exact ih begun
    · split at begun
      · split at begun
        · obtain ⟨rfl, rfl⟩ := Progress.begun.inj begun
          exact ⟨p, progressed⟩
        · split at begun
          · contradiction
          · exact ih begun
      · split at begun
        · exact ih begun
        · contradiction
      · exact ih begun
  | outside progressed files allowed aside ih => exact ih begun
  | touched progressed files allowed ih => exact nomatch begun

/-! ## Pairs in place -/

/-- The set to look at has written a checkpoint aside. -/
theorem progressed_sampleBegun :
    Progressed (.begun samplePut.set samplePut.host) sampleBegun.set sampleBegun.host := by
  have absent : sampleHost.files.find sampleConfig.paths.pendingCopy = .error .notFound := by
    decide +kernel
  have start : Progressed .none sampleSet sampleHost :=
    .opened open_sample fun e found => nomatch absent.symm.trans found
  have put : Progressed .none samplePut.set samplePut.host := by
    have call := start.call (.put (.ofNat _ 0)) nofun
    have same : Progress.after .none (.put (.ofNat _ 0)) sampleSet sampleHost = .none := by
      unfold Progress.after
      exact ite_self _
    rw [same] at call
    exact call
  have call := put.call .beginCheckpoint nofun
  have known : Progress.after .none .beginCheckpoint samplePut.set samplePut.host =
      .begun samplePut.set samplePut.host := by
    have succeeds : (samplePut.set.beginCheckpoint samplePut.host).answer = .ok () :=
      answer_sampleBegun
    simp only [Progress.after, isOpen_samplePut, succeeds]
    rfl
  rw [known] at call
  exact call

/-- In every run of a set in which calls can fail in any way, a checkpoint that is put in place
consists of the two files that one earlier call wrote aside, and going back to it right away brings
back what was in the set then, as long as since then no call failed while it wrote the two files and
nobody else changed them. Whether they are of one call is not looked at when they are put in place.
A call that fails to write a checkpoint aside leaves the pair in place as it was, and the set able
to go back to it; so does one that fails to put a checkpoint in place, unless it has moved the copy
already and cannot move the header, for the copy is not moved back. -/
theorem committed_of_progressed {p : Progress w} {s : DiskSet w} {h : Host}
    (progressed : Progressed p s h) :
    ((s.commitCheckpoint h).answer = .ok () → p ≠ .unknown →
      ∃ q s₀ h₀ copy header fps, p = .begun s₀ h₀ ∧ Progressed q s₀ h₀ ∧
        (s₀.beginCheckpoint h₀).answer = .ok () ∧
        (s₀.beginCheckpoint h₀).host.files.Pair s.config.paths.pendingCopy
          s.config.paths.pendingHeader copy header ∧
        (s.commitCheckpoint h).host.files.Pair s.config.paths.copy s.config.paths.header copy
          header ∧
        fps.Nodup ∧ (∀ fp, (s₀.contains fp h₀).answer = .ok (decide (fp ∈ fps))) ∧
        s₀.size = fps.length ∧
        ((∃ l, (s.commitCheckpoint h).host.files.Takes s.config.paths.run l) →
          excess? (s.commitCheckpoint h).host.files.room copy.size = none →
            DiskSet.BringsBack fps
              ((s.commitCheckpoint h).set.recover (s.commitCheckpoint h).host))) ∧
      ∀ k : Call w, k.isCheckpoint → ∀ e, (k.perform s h).answer = .error e →
        (k = .commitCheckpoint → ∀ fault, e ≠ .file s.config.paths.header fault) →
          (∀ f ∈ [SetFile.copy, .header], ∀ contents,
            h.files.find (s.config.paths.path f) = .ok (.file contents) →
              (k.perform s h).host.files.find (s.config.paths.path f) = .ok (.file contents)) ∧
          ∀ fps, DiskSet.BringsBack fps (s.recover h) →
            DiskSet.BringsBack fps ((k.perform s h).set.recover (k.perform s h).host) := by
  have underway := DiskSet.underway_of_progressed progressed
  refine ⟨fun committed known => ?_, fun k isCheckpoint e failed other => ⟨?_, ?_⟩⟩
  · obtain ⟨s₀, h₀, copy, header, begun, wrote, placed, back⟩ :=
      underway.commitCheckpoint committed known
    obtain ⟨q, earlier⟩ := progressed.earlier begun
    obtain ⟨nodup, answers, size⟩ := wrote.members
    exact ⟨q, s₀, h₀, copy, header, _, begun, earlier, wrote.answer, wrote.pair, placed, nodup,
      answers, size, back⟩
  · exact fun f inPlace contents found =>
      underway.find_of_error isCheckpoint failed other inPlace found
  · exact fun fps brings => underway.bringsBack_of_error isCheckpoint failed other brings

/-- A set with the zero fingerprint that writes a checkpoint aside and puts it in place can go back
to it. Nothing is left aside then, so putting a checkpoint in place fails, and the set can still go
back to the one in place. -/
theorem committed_of_progressed_zero :
    let again := Call.commitCheckpoint.perform samplePlaced.set samplePlaced.host
    let back := samplePlaced.set.recover samplePlaced.host
    let later := again.set.recover again.host
    back.answer = .ok () ∧ back.set.size = 1 ∧
      (back.set.contains (.ofNat _ 0) back.host).answer = .ok true ∧
      (back.set.contains (.ofNat _ 1) back.host).answer = .ok false ∧
      again.answer.isOk = false ∧ later.answer = .ok () ∧ later.set.size = 1 := by
  intro again back later
  obtain ⟨committing, _⟩ := committed_of_progressed progressed_sampleBegun
  obtain ⟨_, s₀, h₀, copy, _, fps, same, _, _, _, placed, _, answers, size, brings⟩ :=
    committing answer_samplePlaced nofun
  obtain ⟨rfl, rfl⟩ := Progress.begun.inj same
  obtain ⟨copy', _, recoverable⟩ := recoverable_sample
  obtain ⟨_, copied⟩ := recoverable.has.copied
  have config : samplePlaced.set.config = sampleBegun.set.config :=
    congrArg DiskSet.config (DiskSet.set_commitCheckpoint ..)
  have brings : DiskSet.BringsBack fps back := by
    have found := Files.find_of_locate copied
    have takes := recoverable.has.takes
    rw [config] at found takes
    obtain rfl := Entry.file.inj (Except.ok.inj (found.symm.trans placed.copied))
    exact brings takes recoverable.has.room
  have after : Progressed _ samplePlaced.set samplePlaced.host :=
    progressed_sampleBegun.call .commitCheckpoint nofun
  obtain ⟨_, failing⟩ := committed_of_progressed after
  have fails : again.answer = .error (.checkpoint (.notBegun sampleConfig.paths.run)) := by
    decide +kernel
  obtain ⟨_, still⟩ := failing .commitCheckpoint rfl _ fails fun _ _ same => nomatch same
  have later : DiskSet.BringsBack fps later := still fps brings
  have sizeOne : samplePut.set.size = 1 := by decide +kernel
  have count : fps.length = 1 := size.symm.trans sizeOne
  refine ⟨brings.answer, brings.size.trans count, ?_, ?_, ?_, later.answer,
    later.size.trans count⟩
  · rw [brings.answers, ← answers]
    decide +kernel
  · rw [brings.answers, ← answers]
    decide +kernel
  · rw [fails]
    rfl

/-- Surroundings in which a directory stands where the header of a checkpoint is written aside. -/
def barred (h : Host) : Host :=
  h.withFiles ((h.files.makeDirectory sampleConfig.paths.pendingHeader).toOption.getD h.files)

/-- Where only the copy of a checkpoint could be written aside, a directory is put in place as its
header. Where one is in place already, its copy is replaced before the new header cannot be moved,
and the set cannot go back to it any more. -/
theorem unmatched_pair_in_place :
    (let begun := samplePut.set.beginCheckpoint (barred samplePut.host)
      let placed := begun.set.commitCheckpoint begun.host
      begun.answer.isOk = false ∧ placed.answer = .ok () ∧
        placed.host.files.isDirectory sampleConfig.paths.header = true ∧
        (placed.set.recover placed.host).answer.isOk = false) ∧
      (let before := barred sampleMore.host
        let begun := sampleMore.set.beginCheckpoint before
        let placed := begun.set.commitCheckpoint begun.host
        (sampleMore.set.recover before).answer = .ok () ∧ begun.answer.isOk = false ∧
          placed.answer.isOk = false ∧
          placed.host.files.find sampleConfig.paths.copy ≠
            before.files.find sampleConfig.paths.copy ∧
          (placed.set.recover placed.host).answer.isOk = false) :=
  ⟨by decide +kernel, by decide +kernel⟩

end SeenStates
