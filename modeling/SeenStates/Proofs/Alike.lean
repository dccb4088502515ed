import SeenStates.Proofs.CallFiles

/-!
# Files in which a run can be written alike

Calls that put, ask or flush do the same to a set in two trees that differ in nothing but what is
in the place of its run, as long as a run can be put there (`Files.Alike`): they read no file, and a
flush writes the run as a whole.
-/
namespace SeenStates

variable {w : Width}

namespace Files

/-- Two trees in which a run at a path can be written, with as much room in both. -/
structure Alike (path : String) (t u : Files) : Prop where
  /-- There is as much room. -/
  room : u.room = t.room
  /-- The drafts are the same. -/
  drafts : u.drafts = t.drafts
  /-- The directory of the path is there. -/
  entered : ∃ here, t.enter (Path.directory path) = .ok here ∧
    u.enter (Path.directory path) = .ok here
  /-- A file can be there. -/
  takes : ∃ l, t.Takes path l ∧ u.Takes path l

variable {path : String} {t u : Files}

/-- Where a draft can be begun the directory is there. -/
theorem CanDraft.enter_directory (canDraft : t.CanDraft path) :
    ∃ here, t.enter (Path.directory path) = .ok here := by
  unfold Path.directory
  simp only
  split
  · exact ⟨start, rfl⟩
  · exact canDraft.entered

/-- Trees are alike where a file was put in the place of the run in one of them. -/
theorem Alike.of_place {l : Location} (takes : t.Takes path l) (canDraft : t.CanDraft path)
    (contents : ByteArray) : Alike path t (t.place l (.file contents)) := by
  obtain ⟨here, entered⟩ := canDraft.enter_directory
  have stays := stays_place takes.free (.file contents)
  have located := takes.locate_place contents
  exact ⟨rfl, rfl, ⟨here, entered, stays.enter entered⟩, l, takes,
    (locate_eq_file_iff.1 located).1⟩

/-- Trees in which the run is written stay alike, and it goes to one place. -/
theorem Alike.place (alike : Alike path t u) :
    ∃ l, t.Takes path l ∧ u.Takes path l ∧ ∀ contents : ByteArray,
      Alike path (t.place l (.file contents)) (u.place l (.file contents)) := by
  obtain ⟨l, takes, takes'⟩ := alike.takes
  refine ⟨l, takes, takes', fun contents => ?_⟩
  obtain ⟨here, entered, entered'⟩ := alike.entered
  have stays := stays_place takes.free (.file contents)
  have stays' := stays_place takes'.free (.file contents)
  exact ⟨alike.room, alike.drafts, ⟨here, stays.enter entered, stays'.enter entered'⟩, l,
    (locate_eq_file_iff.1 (takes.locate_place contents)).1,
    (locate_eq_file_iff.1 (takes'.locate_place contents)).1⟩

/-- A draft is begun beside the run in both trees or in neither. -/
theorem Alike.beginDraft (alike : Alike path t u) (name : String) :
    (∃ fault, t.beginDraft (Path.directory path) name = .error fault ∧
        u.beginDraft (Path.directory path) name = .error fault) ∨
      ∃ d t' u', t.beginDraft (Path.directory path) name = .ok (d, t') ∧
        u.beginDraft (Path.directory path) name = .ok (d, u') := by
  obtain ⟨here, entered, entered'⟩ := alike.entered
  have fresh : u.freshNumber = t.freshNumber := by rw [freshNumber, alike.drafts, freshNumber]
  simp only [Files.beginDraft, entered, entered', fresh]
  split
  · exact .inl ⟨_, rfl, rfl⟩
  · split
    · exact .inl ⟨_, rfl, rfl⟩
    · split
      · exact .inl ⟨_, rfl, rfl⟩
      · exact .inr ⟨_, _, _, rfl, rfl⟩

/-- A run is started in both trees or in neither. -/
theorem Alike.start (alike : Alike path t u) (w : Width) (blockEntries : Nat) :
    (∃ e, RunWriter.start w t path blockEntries = .error e ∧
        RunWriter.start w u path blockEntries = .error e) ∨
      ∃ r t' u', RunWriter.start w t path blockEntries = .ok (r, t') ∧
        RunWriter.start w u path blockEntries = .ok (r, u') := by
  unfold RunWriter.start
  simp only
  rcases alike.beginDraft (Path.fileName path) with
    ⟨fault, failed, failed'⟩ | ⟨d, t', u', begun, begun'⟩
  · rw [failed, failed']
    exact .inl ⟨_, rfl, rfl⟩
  · obtain ⟨_, room, _⟩ := beginDraft_eq_ok begun
    obtain ⟨_, room', _⟩ := beginDraft_eq_ok begun'
    have same : u'.room = t'.room := by rw [room, room', alike.room]
    simp only [begun, begun', same]
    split
    · exact .inl ⟨_, rfl, rfl⟩
    · exact .inr ⟨_, _, _, rfl, rfl⟩

end Files

/-- Two outcomes of which one differs from the other in its files only, which are alike. -/
structure Outcome.Alike {α : Type} (path : String) (o p : Outcome (DiskSet w) α) : Prop where
  /-- The answers are the same. -/
  answer : p.answer = o.answer
  /-- The sets are the same. -/
  set : p.set = o.set
  /-- The files are alike. -/
  files : o.host.files.Alike path p.host.files

/-- What is made of the answer of outcomes that are alike is alike. -/
theorem Outcome.Alike.map {α β : Type} {path : String} {o p : Outcome (DiskSet w) α}
    (alike : o.Alike path p) (f : α → β) : (o.map f).Alike path (p.map f) :=
  ⟨congrArg (Except.map f) alike.answer, alike.set, alike.files⟩

/-- What outcomes that are alike come to for a fingerprint that is to be new is alike. -/
theorem Outcome.Alike.asNew {path : String} {o p : Outcome (DiskSet w) Bool}
    (alike : o.Alike path p) (shown : String) : (o.asNew shown).Alike path (p.asNew shown) := by
  obtain ⟨answer, s, h⟩ := o
  obtain ⟨answer', u, g⟩ := p
  obtain ⟨sameAnswer, sameSet, files⟩ := alike
  simp only at sameAnswer sameSet files
  subst sameAnswer sameSet
  cases answer' with
  | error e => exact ⟨rfl, rfl, files⟩
  | ok seen => cases seen <;> exact ⟨rfl, rfl, files⟩

namespace DiskSet

variable {s : DiskSet w} {h g : Host}

/-! ## Flushes -/

/-- A merge comes to the same in trees that are alike. -/
theorem mergeRun_of_alike {t u : Files} (alike : t.Alike s.config.paths.run u) :
    (∃ e, s.mergeRun t = (.error e, t) ∧ s.mergeRun u = (.error e, u)) ∨
      ∃ r counts t' u', s.mergeRun t = (.ok (r, counts), t') ∧
        s.mergeRun u = (.ok (r, counts), u') := by
  have ends : (∃ e t' u', s.mergeRun t = (.error e, t') ∧ s.mergeRun u = (.error e, u')) ∨
      ∃ r counts t' u', s.mergeRun t = (.ok (r, counts), t') ∧
        s.mergeRun u = (.ok (r, counts), u') := by
    unfold mergeRun
    rcases alike.start w defaultBlockEntries with
      ⟨e, failed, failed'⟩ | ⟨r, t', u', started, started'⟩
    · rw [failed, failed']
      exact .inl ⟨e, _, _, rfl, rfl⟩
    · rw [started, started']
      simp only
      split
      · exact .inr ⟨_, _, _, _, rfl, rfl⟩
      · exact .inl ⟨_, _, _, rfl, rfl⟩
  refine ends.imp_left fun ⟨e, t', u', failed, failed'⟩ => ⟨e, ?_, ?_⟩
  · rw [failed, mergeRun_eq_error failed]
  · rw [failed', mergeRun_eq_error failed']

/-- A run of which the draft was begun is put in place where it can be. -/
theorem replaceRun_of_takes {r : RunWriter w} (inStep : r.InStep)
    (blocks : r.blockEntries = defaultBlockEntries) {before : Files} {directory name : String}
    (drafted : before.beginDraft directory name = .ok (r.draft, h.files)) {l : Location}
    (takes : before.Takes s.config.paths.run l) :
    s.replaceRun r h = .ok () (s.flushed (.ofEntries s.config.paths.run r.blockEntries r.entries))
      ((h.withFiles (before.place l (.file r.contents))).report .flushed) := by
  have committed := Files.commitDraft_of_begun drafted takes r.contents
  have few : r.blockEntries < smallLimit := by
    rw [blocks]
    decide
  unfold replaceRun
  rw [inStep.finish_of_commitDraft few takes committed]

/-- A flush comes to the same in trees that are alike. -/
theorem alike_flushNow (alike : h.files.Alike s.config.paths.run g.files) :
    (s.flushNow h).Alike s.config.paths.run (s.flushNow g) := by
  unfold flushNow
  split
  · exact ⟨rfl, rfl, alike⟩
  · rcases mergeRun_of_alike alike with
      ⟨e, failed, failed'⟩ | ⟨r, counts, t', u', merged, merged'⟩
    · rw [failed, failed']
      exact ⟨rfl, rfl, alike⟩
    · obtain ⟨inStep, blocks, ⟨_, drafted⟩, _⟩ := mergeRun_eq_ok merged
      obtain ⟨_, _, ⟨_, drafted'⟩, _⟩ := mergeRun_eq_ok merged'
      obtain ⟨l, takes, takes', placed⟩ := alike.place
      have files (k : Host) (after : Files) :
          (s.afterMerge counts (k.withFiles after)).files = after := by
        unfold afterMerge
        split <;> rfl
      rw [← files h t'] at drafted
      rw [← files g u'] at drafted'
      have finished := replaceRun_of_takes (s := s.unrequested) inStep blocks drafted takes
      have finished' := replaceRun_of_takes (s := s.unrequested) inStep blocks drafted' takes'
      rw [merged, merged']
      simp only [finished, finished']
      exact ⟨rfl, rfl, placed r.contents⟩

/-! ## Calls -/

/-- A put comes to the same in trees that are alike. -/
theorem alike_put (isOpen : s.closed = false) (idle : s.flusherChosen = false)
    (alike : h.files.Alike s.config.paths.run g.files) (fp : Fingerprint w) :
    (s.put fp h).Alike s.config.paths.run (s.put fp g) := by
  by_cases isSeen : (s.find fp).isSeen
  · rw [put_of_isSeen isOpen rfl isSeen, put_of_isSeen isOpen rfl isSeen]
    exact ⟨rfl, rfl, alike⟩
  · obtain ⟨opening, found⟩ : ∃ opening, s.find fp = .absent opening := by
      cases place : s.find fp with
      | absent opening => exact ⟨opening, rfl⟩
      | _ => simp [place, Place.isSeen] at isSeen
    by_cases due : (s.insert fp opening).needsFlush
    · rw [put_of_absent isOpen idle found due, put_of_absent isOpen idle found due]
      have config := config_insert s fp opening
      rw [← config] at alike ⊢
      exact (alike_flushNow alike).map _
    · rw [put_of_fresh isOpen found due, put_of_fresh isOpen found due]
      exact ⟨rfl, rfl, alike⟩

/-- A query comes to the same in trees that are alike. -/
theorem alike_contains (isOpen : s.closed = false)
    (alike : h.files.Alike s.config.paths.run g.files) (fp : Fingerprint w) :
    (s.contains fp h).Alike s.config.paths.run (s.contains fp g) := by
  simp only [DiskSet.contains, whenOpen, isOpen, Bool.false_eq_true, if_false]
  exact ⟨rfl, rfl, alike⟩

/-- What comes to the same for each of some fingerprints does so for all of them. -/
theorem alike_each {α : Type} {op : Fingerprint w → DiskSet w → Host → Outcome (DiskSet w) α}
    (goes : ∀ {s h}, s.closed = false → s.Faithful h.files → ∀ fp,
      Goes s h.files (op fp s h).set (op fp s h).host.files)
    (step : ∀ {s h g}, s.closed = false → s.Faithful h.files →
      h.files.Alike s.config.paths.run g.files → ∀ fp,
        (op fp s h).Alike s.config.paths.run (op fp s g))
    (isOpen : s.closed = false) (faithful : s.Faithful h.files)
    (alike : h.files.Alike s.config.paths.run g.files) (fps : List (Fingerprint w)) :
    (Outcome.each op fps s h).Alike s.config.paths.run (Outcome.each op fps s g) := by
  induction fps generalizing s h g with
  | nil => exact ⟨rfl, rfl, alike⟩
  | cons fp rest ih =>
    have first := goes isOpen faithful fp
    have same := step isOpen faithful alike fp
    simp only [Outcome.each, Outcome.andThen, same.answer, same.set]
    split
    · have files := same.files
      rw [← first.config] at files ⊢
      exact (ih first.isOpen first.faithful files).map _
    · exact ⟨rfl, rfl, same.files⟩

/-- A plain call comes to the same in trees that are alike. -/
theorem Faithful.alike_perform (faithful : s.Faithful h.files) (isOpen : s.closed = false)
    (alike : h.files.Alike s.config.paths.run g.files) {c : Call w} (isPlain : c.isPlain) :
    (c.perform s h).Alike s.config.paths.run (c.perform s g) := by
  cases c with
  | put fp => exact (alike_put isOpen faithful.idle alike fp).map _
  | putBlock fps =>
    exact alike_each (fun o f fp => f.goes_put o fp) (fun o f a fp => alike_put o f.idle a fp)
      isOpen faithful alike fps
  | recoverFingerprint fp =>
    exact ((alike_put isOpen faithful.idle alike fp).asNew fp.shown).map _
  | contains fp => exact (alike_contains isOpen alike fp).map _
  | containsBlock fps =>
    exact alike_each (fun o f fp => f.goes_contains o fp) (fun o _ a fp => alike_contains o a fp)
      isOpen faithful alike fps
  | flush =>
    simp only [Call.perform, flush, whenOpen, isOpen, Bool.false_eq_true, if_false]
    exact (alike_flushNow alike).map _
  | requestFlush => exact ⟨rfl, rfl, alike⟩
  | beginCheckpoint => contradiction
  | commitCheckpoint => contradiction
  | recover => contradiction
  | close cleanup => contradiction

end DiskSet

end SeenStates
