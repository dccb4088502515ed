import SeenStates.Proofs.Alike
import SeenStates.Proofs.RoundTrip

/-!
# Failed recoveries

Whatever stands in the place of the committed checkpoint, a set that fails to go back to it is
closed or goes on as if nothing had been asked, with one exception: a copy that the header of the
checkpoint does not fit, but that has the header of the set's own run, takes the place of that run
and stays there (`DiskSet.Mistaken`). The set is still open then and has the entries of the copy in
place of its own; what it had in its run alone is lost (`DiskSet.Mistaken.forgets`).
-/
namespace SeenStates

variable {w : Width}

/-- Any calls with any outcome, among files of which that of the run is not changed by anything
else. -/
def anyCheckpoints (w : Width) : Setting w where
  starts := fun _ _ => True
  allows := fun _ _ _ => True
  outside := fun s t u =>
    ∀ e, u.find s.config.paths.run = .ok e → t.find s.config.paths.run = .ok e

/-- The copy in the committed checkpoint can be exchanged there. -/
theorem outside_of_alters {s : DiskSet w} {t u : Files} (valid : s.config.validate = .ok ())
    (alters : s.config.Alters [.copy] t u) : (anyCheckpoints w).outside s t u :=
  fun _ found =>
    alters.find (Config.leads valid .run) (Config.fileName_not_mem _ (by decide)) found

namespace DiskSet

variable {s : DiskSet w} {h : Host}

/-- A set that is reached among any checkpoints is closed or faithful. -/
theorem faithful_of_reached {puts : List (Fingerprint w)}
    (reached : Reached (anyCheckpoints w) puts s h) :
    s.closed ∨ s.closed = false ∧ s.Faithful h.files := by
  induction reached with
  | opened opened starts =>
    have start := opened_of_open opened
    exact .inr ⟨start.isOpen, start.faithful⟩
  | call reached c allowed ih =>
    rcases ih with closed | ⟨isOpen, faithful⟩
    · exact .inl (perform_of_closed closed c).1
    · exact (faithful.perform isOpen c).2
  | outside reached files allowed ih =>
    exact ih.imp_right fun ⟨isOpen, faithful⟩ => ⟨isOpen, faithful.of_find allowed⟩

/-! ## Ends of a failed recovery -/

/-- A set refuses everything that it has to be open for, after any calls. -/
def Refuses (s : DiskSet w) (h : Host) : Prop :=
  ∀ u g, Later (fun _ => True) (fun _ _ => False) s h u g → ∀ c : Call w, c.needsOpen →
    (c.perform u g).answer = .error .closed

/-- A set answers as another one and becomes the same, whatever is put, asked or flushed. -/
def GoesOnAs (s : DiskSet w) (h : Host) (u : DiskSet w) (g : Host) : Prop :=
  ∀ calls : List (Call w), (∀ c ∈ calls, c.isPlain) →
    Call.answers calls u g = Call.answers calls s h ∧ Call.after calls u g = Call.after calls s h

/-- A closed set refuses everything. -/
theorem refuses_of_closed (closed : s.closed) : s.Refuses h := by
  intro u g later c needsOpen
  have still : u.closed := by
    induction later with
    | start => exact closed
    | call later k allowed ih => exact (perform_of_closed ih k).1
    | reopened later suits opened ih => exact suits.elim
  exact (perform_of_closed still c).2.2.2 needsOpen

/-- A set goes on as itself. -/
theorem GoesOnAs.refl (s : DiskSet w) (h : Host) : s.GoesOnAs h s h :=
  fun _ _ => ⟨rfl, rfl⟩

/-- A set goes on as it does in other files that are alike. -/
theorem Faithful.goesOnAs (faithful : s.Faithful h.files) (isOpen : s.closed = false) {g : Host}
    (alike : h.files.Alike s.config.paths.run g.files) : s.GoesOnAs h s g := by
  intro calls plain
  induction calls generalizing s h g with
  | nil => exact ⟨rfl, rfl⟩
  | cons c rest ih =>
    have isPlain := plain c List.mem_cons_self
    have goes := faithful.goes_perform isOpen isPlain
    have same := faithful.alike_perform isOpen alike isPlain
    have files := same.files
    rw [← goes.config] at files
    obtain ⟨answers, sets⟩ :=
      ih goes.faithful goes.isOpen files fun d among => plain d (List.mem_cons_of_mem c among)
    simp only [Call.answers, Call.after, same.answer, same.set]
    exact ⟨congrArg _ answers, sets⟩

/-! ## Mistaken recoveries -/

/-- A recovery gets as far as to put a copy in the place of the run that has the header of the run
but other entries. -/
structure Mistaken (s : DiskSet w) (t : Files) (entries : Array (Fingerprint w)) : Prop where
  /-- The header of the checkpoint can be read. -/
  readable : ∃ header, s.config.paths.readHeader w s.config.family t = .ok header
  /-- The copy can be put in the place of the run. -/
  replaces : (s.config.paths.replaceRun t).1 = .ok ()
  /-- It has the header of the run. -/
  copy : ∃ contents, t.find s.config.paths.copy = .ok (.file contents) ∧
    IsRun w contents s.disk.header entries
  /-- Its entries are not those of the run. -/
  other : entries ≠ s.disk.stored

/-- A mistaken recovery that fails leaves the set with the entries of the copy. -/
theorem Mistaken.recover {entries : Array (Fingerprint w)} (mistaken : s.Mistaken h.files entries)
    (faithful : s.Faithful h.files) (isOpen : s.closed = false) {e : Error}
    (failed : (s.recover h).answer = .error e) :
    (s.recover h).set = s.withEntries entries := by
  obtain ⟨contents, copy, isRun⟩ := mistaken.copy
  obtain ⟨header, read⟩ := mistaken.readable
  rcases s.config.paths.replaceRun_cases h.files with
    ⟨e, kept⟩ | ⟨l, contents', takes, _, copy', _, replaced⟩
  · have replaces := mistaken.replaces
    simp [kept] at replaces
  · obtain rfl := Entry.file.inj (Except.ok.inj (copy.symm.trans copy'))
    cases opened : s.config.paths.openRestored header (h.files.place l (.file contents)) with
    | ok disk =>
      have restored : s.config.paths.restore header h.files =
          (.ok disk, h.files.place l (.file contents)) := by
        rw [SetPaths.restore, replaced, ← opened]
      have succeeds : (s.recover h).answer = .ok () :=
        congrArg Outcome.answer (recover_of_restore isOpen read restored)
      cases failed.symm.trans succeeds
    | error e' =>
      have there := Files.find_of_locate (takes.locate_place contents)
      rw [← faithful.own] at there
      rw [recover_of_replaced isOpen read replaced opened]
      have again := remapOrClose_of_isRun (h := h.withFiles (h.files.place l (.file contents)))
        there isRun
      simp only [again]
      rfl

/-- A set with nothing in memory finds nothing but entries of its run. -/
theorem not_isSeen_find (blank : s.table.Blank) (vacant : s.overflow = .empty)
    {fp : Fingerprint w} (absent : fp ∉ s.disk.stored) : (s.find fp).isSeen = false := by
  rw [isSeen_find_of_blank blank vacant]
  exact Bool.eq_false_iff.2 fun found => absent (Run.mem_stored_of_contains found)

/-- An entry of the run that the copy does not have is lost by a mistaken recovery of a set that has
nothing in memory. -/
theorem Mistaken.forgets {entries : Array (Fingerprint w)} (mistaken : s.Mistaken h.files entries)
    (sound : s.Sound) (faithful : s.Faithful h.files) (isOpen : s.closed = false) {e : Error}
    (failed : (s.recover h).answer = .error e) (blank : s.table.Blank)
    (vacant : s.overflow = .empty) {fp : Fingerprint w} (own : fp ∈ s.disk.stored)
    (missing : fp ∉ entries) (g : Host) :
    (s.contains fp g).answer = .ok true ∧ ((s.recover h).set.contains fp g).answer = .ok false := by
  constructor
  · have member : fp ∈ s.members := List.mem_append_right _ (Array.mem_toList_iff.2 own)
    rw [sound.contains isOpen]
    simp only [Outcome.ok, member, decide_true]
  · rw [mistaken.recover faithful isOpen failed]
    have stillOpen : (s.withEntries entries).closed = false := by rw [closed_withEntries, isOpen]
    have unseen : ((s.withEntries entries).find fp).isSeen = false :=
      not_isSeen_find (s := s.withEntries entries) blank vacant missing
    simp only [DiskSet.contains, whenOpen, stillOpen, Bool.false_eq_true, if_false, Outcome.ok,
      unseen]

/-! ## Exchanged copies -/

/-- A recovery is mistaken, and fails, when the copy in the committed checkpoint is a run of as many
entries as the header and the set's own run have, but of other ones and with another one at the
end. -/
theorem mistaken_of_hasCheckpoint {entries others : Array (Fingerprint w)}
    {original copy header : ByteArray} (isOpen : s.closed = false)
    (valid : s.config.validate = .ok ()) (fits : Files.DraftsFit s.config.paths.run)
    (checkpoint : IsCheckpoint s.config.family entries original header)
    (has : HasCheckpoint s.config .copy .header copy header h.files)
    (isRun : IsRun w copy ⟨w.bytes, others.size, defaultBlockEntries⟩ others)
    (shape : s.disk.header = ⟨w.bytes, others.size, defaultBlockEntries⟩)
    (many : 0 < others.size) (count : others.size = entries.size)
    (last : entries.back? ≠ others.back?) (other : others ≠ s.disk.stored) :
    s.Mistaken h.files others ∧
      (s.recover h).answer = .error (.corruptRun s.config.paths.run .indexEnd) := by
  obtain ⟨_, copied⟩ := has.copied
  obtain ⟨_, written⟩ := has.written
  obtain ⟨_, takes⟩ := has.takes
  have found := Files.find_of_locate copied
  have replaced :=
    SetPaths.replaceRun_of_find takes (has.canDraft valid fits) found has.room
  have read : s.config.paths.readHeader w s.config.family h.files =
      .ok (.ofEntries s.config.family entries) := by
    rw [checkpoint.header] at written
    exact SetPaths.readHeader_of_find checkpoint.storable (Files.find_of_locate written)
  have placed := Files.find_of_locate (takes.locate_place copy)
  have refused := SetPaths.openRestored_of_back?_ne s.config.family isRun placed many count last
  refine ⟨⟨⟨_, read⟩, by rw [replaced], ⟨copy, found, by rw [shape]; exact isRun⟩, other⟩, ?_⟩
  exact congrArg Outcome.answer (recover_of_replaced isOpen read replaced refused)

/-- A set that went back to a checkpoint has all of it in its run. When the copy is exchanged then
for another run of as many entries and with another one at the end, the set fails to go back once
more, is not closed, and loses what is not in the other run. -/
theorem Recoverable.forgets {c : Config} {entries others : Array (Fingerprint w)}
    {copy header : ByteArray} (recoverable : Recoverable c entries copy header s h.files)
    (isOpen : s.closed = false) (storable : Storable defaultBlockEntries others)
    (many : 0 < others.size) (count : others.size = entries.size)
    (last : entries.back? ≠ others.back?) :
    let back := s.recover h
    back.set.closed = false ∧ back.set.config.validate = .ok () ∧
    ∃ t e, back.set.config.Alters [.copy] back.host.files t ∧
      (back.set.recover (back.host.withFiles t)).answer = .error e ∧
      back.set.Mistaken t others ∧ ∀ fp ∈ entries, fp ∉ others → ∀ g,
        (back.set.contains fp g).answer = .ok true ∧
          ((back.set.recover (back.host.withFiles t)).set.contains fp g).answer = .ok false := by
  intro back
  obtain ⟨sound, _⟩ := recoverable.of_open isOpen
  obtain ⟨_, recovered, _⟩ := recoverable.recover isOpen
  have again : Recoverable c entries copy header back.set back.host.files :=
    recoverable.perform (k := .recover) nofun
  have backOpen : back.set.closed = false := by
    rw [show back.set = _ from recovered]
    exact isOpen
  obtain ⟨backSound, backFaithful⟩ := again.of_open backOpen
  have stored : back.set.disk.stored = entries := by
    rw [show back.set = _ from recovered]
    rfl
  have shape : back.set.disk.header = ⟨w.bytes, others.size, defaultBlockEntries⟩ := by
    rw [show back.set = _ from recovered, count]
    rfl
  have blank : back.set.table.Blank := by
    rw [show back.set = _ from recovered]
    exact sound.table.blank_clear
  have vacant : back.set.overflow = .empty := by
    rw [show back.set = _ from recovered]
    rfl
  have other : others ≠ back.set.disk.stored := by
    rw [stored]
    rintro rfl
    exact last rfl
  obtain ⟨t, alters, has⟩ := again.has.exchange again.valid again.checkpoint.copy count
  obtain ⟨mistaken, failed⟩ := mistaken_of_hasCheckpoint (h := back.host.withFiles t) backOpen
    again.valid again.fits again.checkpoint has (isRun_encodeRun storable) shape many count last
    other
  have faithful : back.set.Faithful t := backFaithful.of_alters alters (by decide)
  refine ⟨backOpen, again.valid, t, _, alters, failed, mistaken, fun fp own missing g => ?_⟩
  exact mistaken.forgets (h := back.host.withFiles t) backSound faithful backOpen failed blank
    vacant (stored ▸ own) missing g

end DiskSet

/-- A set that fails to go back to a checkpoint, whatever stands in the place of that, refuses
everything from then on or goes on as if nothing had been asked, unless the recovery is mistaken. If
it is, the set has the entries of the copy in place of those of its run, and is not closed. -/
theorem failed_recovery_of_reached {puts : List (Fingerprint w)} {s : DiskSet w} {h : Host}
    (reached : Reached (anyCheckpoints w) puts s h) (isOpen : s.closed = false) {e : Error}
    (failed : (s.recover h).answer = .error e) :
    ((∀ entries, ¬ s.Mistaken h.files entries) →
      (s.recover h).set.Refuses (s.recover h).host ∨
        (s.recover h).set = s ∧ s.GoesOnAs h (s.recover h).set (s.recover h).host) ∧
    ∀ entries, s.Mistaken h.files entries →
      (s.recover h).set = s.withEntries entries ∧ (s.recover h).set ≠ s ∧
        (s.recover h).set.closed = false := by
  obtain ⟨_, faithful⟩ : s.closed = false ∧ s.Faithful h.files := by
    rcases DiskSet.faithful_of_reached reached with closed | open'
    · simp [isOpen] at closed
    · exact open'
  refine ⟨fun sane => ?_, fun entries mistaken => ?_⟩
  case refine_2 =>
    have exchanged := mistaken.recover faithful isOpen failed
    refine ⟨exchanged, fun same => mistaken.other ?_, ?_⟩
    · rw [← DiskSet.stored_withEntries s entries, ← exchanged, same]
    · rw [exchanged, DiskSet.closed_withEntries, isOpen]
  have recovery := faithful.recovery isOpen
  rw [failed] at recovery
  generalize (s.recover h).set = u at recovery ⊢
  generalize (s.recover h).host = g at recovery ⊢
  cases recovery with
  | kept e => exact .inr ⟨rfl, .refl s h⟩
  | lost e g keeps => exact .inl (DiskSet.refuses_of_closed rfl)
  | replaced e l contents entries g takes canDraft readable replaces copy isRun placed =>
    have same : entries = s.disk.stored := Classical.not_not.1 fun other =>
      sane entries ⟨readable, replaces, ⟨contents, copy, isRun⟩, other⟩
    have alike : h.files.Alike s.config.paths.run g.files := by
      rw [placed]
      exact .of_place takes canDraft contents
    rw [same, DiskSet.withEntries_stored faithful.mapped]
    exact .inr ⟨rfl, faithful.goesOnAs isOpen alike⟩

/-- The set to look at, gone back to its checkpoint. -/
def sampleBack : Outcome (DiskSet .bits64) Unit := samplePlaced.set.recover samplePlaced.host

/-- Where all calls are allowed a set can write a checkpoint, put it in place and go back to it. -/
theorem Reached.back {σ : Setting w} (all : ∀ c s h, σ.allows c s h)
    {puts : List (Fingerprint w)} {s : DiskSet w} {h : Host} (reached : Reached σ puts s h) :
    let begun := s.beginCheckpoint h
    let placed := begun.set.commitCheckpoint begun.host
    let back := placed.set.recover placed.host
    Reached σ puts back.set back.host := by
  intro begun placed back
  have written : Reached σ (puts ++ []) begun.set begun.host :=
    reached.call .beginCheckpoint (all ..)
  have committed : Reached σ (puts ++ [] ++ []) placed.set placed.host :=
    written.call .commitCheckpoint (all ..)
  have recovered : Reached σ (puts ++ [] ++ [] ++ []) back.set back.host :=
    committed.call .recover (all ..)
  rwa [List.append_nil, List.append_nil, List.append_nil] at recovered

/-- The set to look at is reached among any checkpoints. -/
theorem reached_sampleBack :
    Reached (anyCheckpoints .bits64) [.ofNat _ 0] sampleBack.set sampleBack.host := by
  have start : Reached (anyCheckpoints .bits64) [] sampleSet sampleHost :=
    .opened open_sample trivial
  have put : Reached (anyCheckpoints .bits64) [.ofNat _ 0] samplePut.set samplePut.host :=
    start.call (.put (.ofNat _ 0)) trivial
  exact put.back fun _ _ _ => trivial

/-- The set has the zero fingerprint in its run. -/
theorem stored_sampleBegun : sampleBegun.set.disk.stored = #[.ofNat _ 0] := by
  rw [sampleBegun, DiskSet.set_beginCheckpoint isOpen_samplePut]
  decide +kernel

/-- A set that has the zero fingerprint does not have it any more, and is not closed, after it
failed to go back to a checkpoint whose copy was exchanged. -/
theorem failed_recovery_of_reached_exchanged :
    ∃ (s : DiskSet .bits64) (h : Host) (e : Error),
      Reached (anyCheckpoints .bits64) [.ofNat _ 0] s h ∧ (s.recover h).answer = .error e ∧
        (s.recover h).set.closed = false ∧ (s.contains (.ofNat _ 0) h).answer = .ok true ∧
        ((s.recover h).set.contains (.ofNat _ 0) (s.recover h).host).answer = .ok false := by
  obtain ⟨_, _, recoverable⟩ := recoverable_sample
  rw [stored_sampleBegun] at recoverable
  have storable : Storable defaultBlockEntries #[Fingerprint.ofNat .bits64 1] :=
    ⟨by decide, by decide, by decide⟩
  have differ : Fingerprint.ofNat .bits64 0 ≠ .ofNat .bits64 1 := by decide
  obtain ⟨isOpen, valid, t, e, alters, failed, mistaken, forgets⟩ :=
    recoverable.forgets isOpen_samplePlaced storable (by decide) rfl (by simpa using differ)
  rw [← sampleBack] at isOpen valid alters failed mistaken forgets
  have reached := reached_sampleBack.outside t (outside_of_alters valid alters)
  have stillOpen := ((failed_recovery_of_reached reached isOpen failed).2 _ mistaken).2.2
  have lost := forgets (.ofNat _ 0) (by simp) (by simpa using differ)
  exact ⟨_, _, e, reached, failed, stillOpen, (lost _).1, (lost _).2⟩

end SeenStates
