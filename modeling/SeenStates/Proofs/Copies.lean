import SeenStates.Proofs.ExactSets

/-!
# Copies of runs

Writing a checkpoint aside and putting it in place can stop anywhere. Whatever they leave, a copy
that is a run at all is the run of a checkpoint that was begun (`Config.CopiesOf`), because the
front of a run is none. A set that goes back to a copy with the header of that copy has the
fingerprints of the copy.
-/
namespace SeenStates

variable {w : Width}

/-! ## Files in the place of a copy -/

/-- What is a run at a file of a set has the members of one of some sets. -/
def Config.CopiesOf (c : Config) (f : SetFile) (among : List (Fingerprint w) → Prop)
    (t : Files) : Prop :=
  ∀ contents, t.find (c.paths.path f) = .ok (.file contents) →
    ∀ header (entries : Array (Fingerprint w)), IsRun w contents header entries →
      ∃ members, among members ∧ ∀ fp, fp ∈ entries ↔ fp ∈ members

namespace Config.CopiesOf

variable {c : Config} {f : SetFile} {among more : List (Fingerprint w) → Prop} {t u : Files}

/-- It stays one where the path leads to nothing new. -/
theorem of_find (copies : c.CopiesOf f among t)
    (kept : ∀ contents, u.find (c.paths.path f) = .ok (.file contents) →
      t.find (c.paths.path f) = .ok (.file contents)) : c.CopiesOf f among u :=
  fun contents found => copies contents (kept contents found)

/-- It stays one where other files are altered. -/
theorem of_alters (copies : c.CopiesOf f among t) (valid : c.validate = .ok ())
    {names : List String} (alters : Files.Alters c.metadir names t u)
    (other : c.fileName f ∉ names) : c.CopiesOf f among u :=
  copies.of_find fun _ found => alters.find (Config.leads valid f) other found

/-- It is one of more sets. -/
theorem mono (copies : c.CopiesOf f among t) (weaker : ∀ members, among members → more members) :
    c.CopiesOf f more t := by
  intro contents found header entries isRun
  obtain ⟨members, is, same⟩ := copies contents found header entries isRun
  exact ⟨members, weaker members is, same⟩

/-- It is one where nothing is. -/
theorem of_absent (absent : (t.find (c.paths.path f)).isOk = false) : c.CopiesOf f among t := by
  intro contents found
  exact absurd found (Files.find_ne_ok absent _)

end Config.CopiesOf

/-- What two paths lead to, if both lead to files, is a checkpoint of the members of one of some
sets. -/
def Files.PairsOf (t : Files) (copyPath headerPath : String) (family : Family)
    (among : List (Fingerprint w) → Prop) : Prop :=
  ∀ copy header, t.Pair copyPath headerPath copy header →
    ∃ entries : Array (Fingerprint w), IsCheckpoint family entries copy header ∧
      ∃ members, among members ∧ ∀ fp, fp ∈ entries ↔ fp ∈ members

/-- It stays one where the paths lead to nothing new. -/
theorem Files.PairsOf.of_find {t u : Files} {copyPath headerPath : String} {family : Family}
    {among : List (Fingerprint w) → Prop} (pairs : t.PairsOf copyPath headerPath family among)
    (kept : ∀ path ∈ [copyPath, headerPath], ∀ contents, u.find path = .ok (.file contents) →
      t.find path = .ok (.file contents)) : u.PairsOf copyPath headerPath family among :=
  fun copy header pair => pairs copy header
    ⟨kept _ List.mem_cons_self _ pair.copied,
      kept _ (List.mem_cons_of_mem _ List.mem_cons_self) _ pair.written⟩

/-- It is one of more sets. -/
theorem Files.PairsOf.mono {t : Files} {copyPath headerPath : String} {family : Family}
    {among more : List (Fingerprint w) → Prop} (pairs : t.PairsOf copyPath headerPath family among)
    (weaker : ∀ members, among members → more members) :
    t.PairsOf copyPath headerPath family more := by
  intro copy header pair
  obtain ⟨entries, checkpoint, members, is, same⟩ := pairs copy header pair
  exact ⟨entries, checkpoint, members, weaker members is, same⟩

/-- A stored checkpoint is one. -/
theorem Config.Stores.pairsOf {c : Config} {f g : SetFile} {fps : Finset (Fingerprint w)}
    {t : Files} (stores : c.Stores f g fps t) :
    t.PairsOf (c.paths.path f) (c.paths.path g) c.family
      (fun members => ∀ fp, fp ∈ members ↔ fp ∈ fps) := by
  obtain ⟨entries, copy, header, checkpoint, pair, all⟩ := stores
  intro copy' header' pair'
  obtain rfl := Entry.file.inj (Except.ok.inj (pair.copied.symm.trans pair'.copied))
  obtain rfl := Entry.file.inj (Except.ok.inj (pair.written.symm.trans pair'.written))
  exact ⟨entries, checkpoint, entries.toList,
    fun fp => Array.mem_toList_iff.trans (all fp), fun fp => Array.mem_toList_iff.symm⟩

/-- What is checked of a run that is opened with the header of a checkpoint. -/
structure CheckpointHeader.Fits (h : CheckpointHeader w) (shape : RunHeader)
    (entries : Array (Fingerprint w)) : Prop where
  /-- The run has as many entries as the header says. -/
  count : shape.count = h.count
  /-- It has blocks of the same size. -/
  blockEntries : shape.blockEntries = h.blockEntries
  /-- The index is of as many blocks. -/
  blocks : h.index.length = shape.blockCount
  /-- The index ends where the run does. -/
  last : 0 < shape.count → h.index.getLast? = entries.back?

/-- A run that is opened with a header fits it. -/
theorem CheckpointHeader.fits_of_openRestored {h : CheckpointHeader w} {p : SetPaths} {t : Files}
    {disk : Run w} {contents : ByteArray} {shape : RunHeader} {entries : Array (Fingerprint w)}
    (opened : p.openRestored h t = .ok disk) (found : t.find p.run = .ok (.file contents))
    (isRun : IsRun w contents shape entries) : h.Fits shape entries := by
  simp only [SetPaths.openRestored, Run.openWithIndex, Run.map_of_find isRun found, bind,
    Except.bind] at opened
  split at opened
  · contradiction
  · next r opens =>
    split at opens
    · contradiction
    · next blocks =>
      split at opens
      · contradiction
      · next last =>
        obtain rfl := Except.ok.inj opens
        split at opened
        · contradiction
        · next same =>
          obtain ⟨count, blockEntries⟩ := not_or.1 same
          refine ⟨Classical.not_not.1 count, Classical.not_not.1 blockEntries,
            by simpa using blocks, fun some => ?_⟩
          have last := Classical.not_not.1 (not_and.1 last some)
          rwa [List.back?_toArray] at last

/-- Where the copy in place has the header of the run, or the header in place fits it, the two in
place are those of one checkpoint. -/
def Config.Matched (c : Config) (own : RunHeader) (w : Width) (t : Files) : Prop :=
  ∀ copy header, t.Pair c.paths.copy c.paths.header copy header →
    ∀ text (h : CheckpointHeader w), String.fromUTF8? header = some text →
      CheckpointHeader.read w c.family text = .ok h →
        ∀ shape (entries : Array (Fingerprint w)), IsRun w copy shape entries →
          shape = own ∨ h.Fits shape entries → IsCheckpoint c.family entries copy header

/-- They stay so where their paths lead to nothing new. -/
theorem Config.Matched.of_alters {c : Config} {own : RunHeader} {t u : Files}
    {names : List String} (matched : c.Matched own w t) (valid : c.validate = .ok ())
    (alters : Files.Alters c.metadir names t u) (copy : c.fileName .copy ∉ names)
    (header : c.fileName .header ∉ names) : c.Matched own w u :=
  fun contents text pair => matched contents text
    ⟨alters.find (Config.leads valid .copy) copy pair.copied,
      alters.find (Config.leads valid .header) header pair.written⟩

namespace DiskSet

variable {s : DiskSet w} {h : Host} {c : Config}

/-! ## Going back to a copy -/

/-- Going back to a copy that is neither opened with the header in place nor mapped as the run was
fails, with the set closed or as it was. -/
theorem Faithful.recover_unfit (faithful : s.Faithful h.files) (isOpen : s.closed = false)
    {header : CheckpointHeader w}
    (read : s.config.paths.readHeader w s.config.family h.files = .ok header)
    (unfit : ∀ copy, h.files.find s.config.paths.copy = .ok (.file copy) →
      ∀ shape (entries : Array (Fingerprint w)), IsRun w copy shape entries →
        ¬ (shape = s.disk.header ∨ header.Fits shape entries)) :
    ∃ e, (s.recover h).answer = .error e ∧ ((s.recover h).set.closed ∨ (s.recover h).set = s) := by
  rcases s.config.paths.replaceRun_cases h.files with
    ⟨e, failed⟩ | ⟨l, contents, takes, _, copied, _, replaced⟩
  · have refused : s.config.paths.restore header h.files = (.error e, h.files) := by
      rw [SetPaths.restore, failed]
    rcases faithful.recover_of_unchanged isOpen read refused with ⟨lost, closed⟩ | kept
    · rw [closed]
      exact ⟨e, rfl, .inl rfl⟩
    · rw [kept]
      exact ⟨e, rfl, .inr rfl⟩
  · -- The copy is in the place of the run, and there it fits no more than before.
    have placed := Files.find_of_locate (takes.locate_place contents)
    cases opened : s.config.paths.openRestored header (h.files.place l (.file contents)) with
    | ok disk =>
      obtain ⟨contents', found, _, _, isRun⟩ := openRestored_eq_ok opened
      obtain rfl := Entry.file.inj (Except.ok.inj (placed.symm.trans found))
      have fits := CheckpointHeader.fits_of_openRestored opened placed isRun
      exact absurd (.inr fits) (unfit _ copied _ _ isRun)
    | error e =>
      rw [recover_of_replaced isOpen read replaced opened]
      refine ⟨e, rfl, .inl ?_⟩
      simp only [remapOrClose, Host.withFiles]
      rcases remap_unmap_cases s.disk (h.files.place l (.file contents)) with
        ⟨_, lost⟩ | ⟨contents', entries, found, isRun, _⟩
      · rw [lost]
        rfl
      · rw [faithful.own] at found
        obtain rfl := Entry.file.inj (Except.ok.inj (placed.symm.trans found))
        exact absurd (.inl rfl) (unfit _ copied _ _ isRun)

/-- Going back to a copy with its own header makes its run that of the set. With another one, or
with a copy that is no run, it fails with the set closed or as it was. -/
theorem Faithful.recover_matched (faithful : s.Faithful h.files) (isOpen : s.closed = false)
    (matched : s.config.Matched s.disk.header w h.files) :
    (∃ e, (s.recover h).answer = .error e ∧ ((s.recover h).set.closed ∨ (s.recover h).set = s)) ∨
      ∃ (entries : Array (Fingerprint w)) (copy header : ByteArray),
        h.files.Pair s.config.paths.copy s.config.paths.header copy header ∧
        IsCheckpoint s.config.family entries copy header ∧ (s.recover h).answer = .ok () ∧
        (s.recover h).set =
          s.recovered (.ofEntries s.config.paths.run defaultBlockEntries entries) := by
  cases read : s.config.paths.readHeader w s.config.family h.files with
  | error e =>
    rw [recover_of_unreadable isOpen read]
    exact .inl ⟨e, rfl, .inr rfl⟩
  | ok header =>
    obtain ⟨bytes, text, written, readable, reads⟩ := SetPaths.readHeader_eq_ok read
    have spelled := Files.fromUTF8?_of_readText written readable
    by_cases own : ∃ copy entries, h.files.find s.config.paths.copy = .ok (.file copy) ∧
        IsCheckpoint s.config.family (w := w) entries copy bytes
    · obtain ⟨copy, entries, copied, checkpoint⟩ := own
      refine faithful.recover_cases isOpen fun copy' header' found found' => ?_
      obtain rfl := Entry.file.inj (Except.ok.inj (copied.symm.trans found))
      obtain rfl := Entry.file.inj (Except.ok.inj (written.symm.trans found'))
      exact ⟨w, _, entries, checkpoint⟩
    · refine .inl (faithful.recover_unfit isOpen read fun copy copied _ entries isRun fits => ?_)
      exact own ⟨copy, entries, copied,
        matched copy bytes ⟨copied, written⟩ text header spelled reads _ _ isRun fits⟩

/-! ## Sets through failures -/

/-- A set of the files of a configuration that is closed, or is sound and faithful to its files. -/
structure Whole (c : Config) (s : DiskSet w) (t : Files) : Prop where
  /-- It has the files of the configuration. -/
  shares : c.SharesFiles s.config
  /-- It is closed, or sound and faithful. -/
  whole : s.closed ∨ s.closed = false ∧ s.Sound ∧ s.Faithful t

/-- A whole set that is open is sound and faithful. -/
theorem Whole.of_open {t : Files} (whole : s.Whole c t) (isOpen : s.closed = false) :
    s.Sound ∧ s.Faithful t := by
  rcases whole.whole with closed | ⟨_, both⟩
  · rw [isOpen] at closed
    contradiction
  · exact both

/-- A whole set stays whole where the path of its run leads to nothing new. -/
theorem Whole.of_find {t u : Files} (whole : s.Whole c t)
    (kept : ∀ contents, u.find c.paths.run = .ok (.file contents) →
      t.find c.paths.run = .ok (.file contents)) : s.Whole c u := by
  refine ⟨whole.shares, whole.whole.imp_right fun ⟨isOpen, sound, faithful⟩ => ?_⟩
  rw [← whole.shares.paths] at kept
  exact ⟨isOpen, sound, { faithful with
    file := fun contents found => faithful.file contents (kept contents found) }⟩

/-- A call with any outcome alters no other files than it may. -/
theorem Whole.alters_perform (whole : s.Whole c h.files) (k : Call w) :
    c.Alters k.altered h.files (k.perform s h).host.files := by
  rcases whole.whole with closed | ⟨isOpen, _, faithful⟩
  · exact .nothing (congrArg Host.files (perform_of_closed (h := h) closed k).2.2.1)
  · exact whole.shares.alters_iff.1 (faithful.alters_perform isOpen k)

/-- A call with any outcome leaves a set its configuration. -/
theorem Whole.config_perform (whole : s.Whole c h.files) (k : Call w) :
    (k.perform s h).set.config = s.config := by
  rcases whole.whole with closed | ⟨isOpen, _, faithful⟩
  · exact (perform_of_closed closed k).2.1
  · exact (faithful.perform isOpen k).1

/-- A call with any outcome leaves a set whole, as long as a set that goes back to a copy does not
take it for another one. -/
theorem Whole.perform (whole : s.Whole c h.files) {k : Call w}
    (matched : k = .recover → c.Matched s.disk.header w h.files) :
    (k.perform s h).set.Whole c (k.perform s h).host.files := by
  have shares := whole.shares
  rcases whole.whole with closed | ⟨isOpen, sound, faithful⟩
  · obtain ⟨still, config, _, _⟩ := perform_of_closed (h := h) closed k
    exact ⟨config ▸ shares, .inl still⟩
  · obtain ⟨config, after⟩ := faithful.perform isOpen k
    refine ⟨config ▸ shares, after.imp_right fun ⟨stillOpen, still⟩ => ⟨stillOpen, ?_, still⟩⟩
    by_cases goesOn : k.goesOn
    · obtain ⟨_, grown, _⟩ := sound.perform isOpen goesOn h
      exact grown.sound
    · cases k with
      | recover =>
        have matched := matched rfl
        rw [Config.Matched, ← shares.paths, ← shares.family] at matched
        simp only [Call.perform, Outcome.map] at stillOpen ⊢
        rcases faithful.recover_matched isOpen matched with
          ⟨e, _, closed | same⟩ | ⟨entries, copy, header, _, checkpoint, _, recovered⟩
        · rw [closed] at stillOpen
          contradiction
        · rw [same]
          exact sound
        · rw [recovered]
          exact (sound.recovered checkpoint.ascending checkpoint.storable).1
      | close cleanup =>
        have closed := (close_closes (h := h) faithful.valid cleanup).1
        simp only [Call.perform, Outcome.map, closed] at stillOpen
        contradiction
      | _ => exact absurd rfl goesOn

end DiskSet

/-- A set of any configuration through any calls with any outcome, as long as one that goes back to
a checkpoint does not take a copy for that of another checkpoint. Between two calls files change in
any way in which nothing new comes into the place of the run. -/
def anyOutcome (w : Width) : Setting w where
  starts := fun _ _ => True
  allows := fun c s h => c = .recover → s.config.Matched s.disk.header w h.files
  outside := fun s t u => ∀ contents, u.find s.config.paths.run = .ok (.file contents) →
    t.find s.config.paths.run = .ok (.file contents)

namespace DiskSet

variable {s : DiskSet w} {h : Host} {c : Config}

/-- In such a setting a set stays whole. -/
theorem whole_of_anyOutcome {puts : List (Fingerprint w)}
    (reached : Reached (anyOutcome w) puts s h) : s.Whole s.config h.files := by
  induction reached with
  | opened opened starts =>
    have start := opened_of_open opened
    exact ⟨.refl _, .inr ⟨start.isOpen, start.sound, start.faithful⟩⟩
  | @call puts s h reached c allowed ih =>
    have whole := ih.perform allowed
    exact ⟨.refl _, whole.whole⟩
  | outside reached files allowed ih => exact ih.of_find allowed

/-! ## Copies through failures -/

/-- A checkpoint that was written aside, or of which something was, leaves copies of the given sets,
if the members of an open set are one of them. -/
theorem Whole.copies_beginCheckpoint (whole : s.Whole c h.files) (valid : c.validate = .ok ())
    {among : List (Fingerprint w) → Prop} (copies : c.CopiesOf .pendingCopy among h.files)
    (own : s.closed = false → s.Sound → among s.members) :
    c.CopiesOf .pendingCopy among (s.beginCheckpoint h).host.files := by
  rcases whole.whole with closed | ⟨isOpen, sound, faithful⟩
  · obtain ⟨_, _, host, _⟩ := perform_of_closed (h := h) closed .beginCheckpoint
    exact (congrArg Host.files host : (s.beginCheckpoint h).host.files = h.files) ▸ copies
  · have goes := faithful.goes_flushNow isOpen
    have shares : c.SharesFiles (s.flushNow h).set.config := goes.config ▸ whole.shares
    have keeps := whole.shares.keeps_iff.1 goes.keeps
    have before : c.CopiesOf .pendingCopy among (s.flushNow h).host.files :=
      copies.of_alters valid keeps.alters (Config.fileName_not_mem [.run] (by decide))
    rcases beginCheckpoint_cases (h := h) isOpen with ⟨_, _, _, host⟩ | ⟨flushed, begun⟩
    · rw [host]
      exact before
    · intro contents found header entries isRun
      rw [shares.paths] at begun
      have found := (congrArg (fun o => o.2.find c.paths.pendingCopy) begun).trans found
      rcases SetPaths.find_of_begin valid (shares.paths ▸ goes.faithful.own) found with
        there | ⟨run, n, stored, front⟩
      · exact before contents there header entries isRun
      · obtain rfl := Entry.file.inj front
        rw [← shares.paths] at stored
        obtain rfl := (goes.faithful.file run stored).of_extract isRun
        obtain ⟨_, same, _, _⟩ := sound.of_flushed (flushed_flushNow sound.mapped h)
        refine ⟨s.members, own isOpen sound, fun fp => ?_⟩
        rw [← Run.mem_toList_stored, ← (sound.members_flushNow flushed).1, same.mem_iff]

/-- A checkpoint that was put in place, or of which something was, leaves copies of the same
sets. -/
theorem Whole.copies_commitCheckpoint (whole : s.Whole c h.files) (valid : c.validate = .ok ())
    {among : List (Fingerprint w) → Prop} (copies : c.CopiesOf .copy among h.files)
    (pending : c.CopiesOf .pendingCopy among h.files) :
    c.CopiesOf .copy among (s.commitCheckpoint h).host.files ∧
      c.CopiesOf .pendingCopy among (s.commitCheckpoint h).host.files := by
  by_cases closed : s.closed
  · obtain ⟨_, _, host, _⟩ := perform_of_closed (h := h) closed .commitCheckpoint
    have same : (s.commitCheckpoint h).host.files = h.files := congrArg Host.files host
    exact same ▸ ⟨copies, pending⟩
  · have committed : (s.commitCheckpoint h).host.files = (c.paths.commit h.files).2 := by
      rw [← whole.shares.paths, commitCheckpoint_eq (Bool.eq_false_iff.2 closed)]
    rw [committed]
    refine ⟨fun contents found => ?_, fun contents found => ?_⟩
    · rcases (SetPaths.find_copies_of_commit valid h.files _).1 found with there | aside
      · exact copies contents there
      · exact pending contents aside
    · exact pending contents ((SetPaths.find_copies_of_commit valid h.files _).2 found)

/-- A set that goes back to a copy has the fingerprints of one of the sets it is of. -/
theorem Whole.members_recover (whole : s.Whole c h.files)
    (matched : c.Matched s.disk.header w h.files)
    {among : List (Fingerprint w) → Prop} (copies : c.CopiesOf .copy among h.files)
    (recovered : (s.recover h).answer = .ok ()) :
    (s.recover h).set.closed = false ∧ (s.recover h).set.Sound ∧
      ∃ members, among members ∧ ∀ fp, fp ∈ (s.recover h).set.members ↔ fp ∈ members := by
  have isOpen := isOpen_of_whenOpen recovered
  obtain ⟨sound, faithful⟩ := whole.of_open isOpen
  rw [Config.Matched, ← whole.shares.paths, ← whole.shares.family] at matched
  rcases faithful.recover_matched isOpen matched with
    ⟨e, failed, _⟩ | ⟨entries, copy, header, pair, checkpoint, _, set⟩
  · rw [failed] at recovered
    contradiction
  · obtain ⟨sound', members⟩ := sound.recovered checkpoint.ascending checkpoint.storable
    have copied := pair.copied
    rw [whole.shares.paths] at copied
    obtain ⟨own, is, same⟩ := copies copy copied _ entries checkpoint.copy
    rw [set]
    refine ⟨isOpen, sound', own, is, fun fp => ?_⟩
    rw [members, Array.mem_toList_iff, same]

/-- A set that is open after it went back to a copy, whether or not that succeeded, is as it was or
has the fingerprints of one of the sets that the copy is of. -/
theorem Whole.recover_ends (whole : s.Whole c h.files)
    (matched : c.Matched s.disk.header w h.files)
    {among : List (Fingerprint w) → Prop} (copies : c.CopiesOf .copy among h.files)
    (isOpen : (s.recover h).set.closed = false) :
    (s.recover h).set = s ∨
      ∃ members, among members ∧ ∀ fp, fp ∈ (s.recover h).set.members ↔ fp ∈ members := by
  cases answer : (s.recover h).answer with
  | ok _ =>
    obtain ⟨_, _, members⟩ := whole.members_recover matched copies answer
    exact .inr members
  | error e =>
    have closed := isOpen_of_perform (c := .recover) isOpen
    obtain ⟨_, faithful⟩ := whole.of_open closed
    rw [Config.Matched, ← whole.shares.paths, ← whole.shares.family] at matched
    rcases faithful.recover_matched closed matched with
      ⟨_, _, shut | same⟩ | ⟨_, _, _, _, _, recovered, _⟩
    · rw [shut] at isOpen
      contradiction
    · exact .inl same
    · rw [recovered] at answer
      contradiction

/-- A set that goes back to what was written as a checkpoint has the fingerprints of one of the sets
that this is of. -/
theorem Whole.members_recover_of_pairs {v : Width} {s : DiskSet v} (whole : s.Whole c h.files)
    {family : Family} {among : List (Fingerprint w) → Prop}
    (pairs : h.files.PairsOf c.paths.copy c.paths.header family among)
    (recovered : (s.recover h).answer = .ok ()) :
    ∃ same : v = w, c.family = family ∧ (s.recover h).set.closed = false ∧
      (s.recover h).set.Sound ∧
        ∃ members, among members ∧ ∀ fp, fp ∈ (s.recover h).set.members ↔ same ▸ fp ∈ members := by
  have isOpen := isOpen_of_whenOpen recovered
  obtain ⟨sound, faithful⟩ := whole.of_open isOpen
  have genuine : h.files.Genuine s.config.paths.copy s.config.paths.header := by
    rw [whole.shares.paths]
    intro copy header copied written
    obtain ⟨entries, checkpoint, _⟩ := pairs copy header ⟨copied, written⟩
    exact ⟨w, family, entries, checkpoint⟩
  rcases faithful.recover_cases isOpen genuine with
    ⟨e, failed, _⟩ | ⟨entries, copy, header, pair, checkpoint, _, set⟩
  · rw [failed] at recovered
    contradiction
  · rw [whole.shares.paths] at pair
    obtain ⟨others, checkpoint', members, is, all⟩ := pairs copy header pair
    obtain ⟨rfl, sameFamily, same⟩ := checkpoint.unique checkpoint'
    obtain rfl := eq_of_heq same
    obtain ⟨sound', inside⟩ := sound.recovered checkpoint.ascending checkpoint.storable
    rw [set]
    refine ⟨rfl, whole.shares.family.symm.trans sameFamily, isOpen, sound', members, is,
      fun fp => ?_⟩
    rw [inside, Array.mem_toList_iff, all]

/-- A whole set with copies of some sets, whose members are all of one kind. -/
structure Backed (c : Config) (among : List (Fingerprint w) → Prop)
    (kind : Fingerprint w → Prop) (s : DiskSet w) (t : Files) : Prop where
  /-- It is whole. -/
  whole : s.Whole c t
  /-- The committed copy is of one of the sets. -/
  committed : c.CopiesOf .copy among t
  /-- So is the copy in progress. -/
  pending : c.CopiesOf .pendingCopy among t
  /-- Its members are of the kind. -/
  members : s.closed = false → ∀ fp ∈ s.members, kind fp

/-- It is backed by copies of more sets. -/
theorem Backed.mono {among more : List (Fingerprint w) → Prop} {kind : Fingerprint w → Prop}
    {t : Files} (backed : s.Backed c among kind t)
    (weaker : ∀ members, among members → more members) : s.Backed c more kind t :=
  ⟨backed.whole, backed.committed.mono weaker, backed.pending.mono weaker, backed.members⟩

/-- A set stays backed where the paths of its files lead to nothing new. -/
theorem Backed.of_find {among : List (Fingerprint w) → Prop} {kind : Fingerprint w → Prop}
    {t u : Files} (backed : s.Backed c among kind t)
    (kept : ∀ f contents, u.find (c.paths.path f) = .ok (.file contents) →
      t.find (c.paths.path f) = .ok (.file contents)) : s.Backed c among kind u :=
  ⟨backed.whole.of_find (kept .run), backed.committed.of_find (kept .copy),
    backed.pending.of_find (kept .pendingCopy), backed.members⟩

/-- A call with any outcome leaves a set backed. -/
theorem Backed.perform {among : List (Fingerprint w) → Prop} {kind : Fingerprint w → Prop}
    (backed : s.Backed c among kind h.files) (valid : c.validate = .ok ()) {k : Call w}
    (matched : k = .recover → c.Matched s.disk.header w h.files) (puts : ∀ fp ∈ k.puts, kind fp)
    (begins : k = .beginCheckpoint → s.closed = false → s.Sound → among s.members)
    (kinds : ∀ members, among members → ∀ fp ∈ members, kind fp) :
    (k.perform s h).set.Backed c among kind (k.perform s h).host.files := by
  have whole := backed.whole.perform matched
  have alters := backed.whole.alters_perform k
  have stays {f : SetFile} (copies : c.CopiesOf f among h.files) (other : f ∉ k.altered) :
      c.CopiesOf f among (k.perform s h).host.files :=
    copies.of_alters valid alters (Config.fileName_not_mem _ other)
  cases closed : s.closed with
  | true =>
    obtain ⟨still, _, host, _⟩ := perform_of_closed (h := h) closed k
    have same : (k.perform s h).host.files = h.files := congrArg Host.files host
    refine ⟨whole, by rw [same]; exact backed.committed, by rw [same]; exact backed.pending,
      fun isOpen => ?_⟩
    rw [still] at isOpen
    contradiction
  | false =>
    obtain ⟨sound, faithful⟩ := backed.whole.of_open closed
    have inside := backed.members closed
    by_cases isPlain : k.isPlain
    · have only := Call.altered_of_isPlain isPlain
      refine ⟨whole, stays backed.committed (by simp [only]), stays backed.pending (by simp [only]),
        fun _ fp member => ?_⟩
      exact (sound.mem_perform closed (Call.goesOn_of_isPlain isPlain) h member).elim (puts fp)
        (inside fp)
    · cases k with
      | beginCheckpoint =>
        refine ⟨whole, stays backed.committed (by simp [Call.altered]),
          backed.whole.copies_beginCheckpoint valid backed.pending (begins rfl),
          fun _ fp member => ?_⟩
        have same := (sound.of_flushed (flushed_flushNow sound.mapped h)).2.1
        rw [← set_beginCheckpoint closed] at same
        exact inside fp (same.mem_iff.1 member)
      | commitCheckpoint =>
        obtain ⟨committed, pending⟩ :=
          backed.whole.copies_commitCheckpoint valid backed.committed backed.pending
        refine ⟨whole, committed, pending, fun _ fp member => inside fp ?_⟩
        rwa [← set_commitCheckpoint s h]
      | recover =>
        refine ⟨whole, stays backed.committed (by simp [Call.altered]),
          stays backed.pending (by simp [Call.altered]), fun isOpen fp member => ?_⟩
        simp only [Call.perform, Outcome.map] at isOpen member
        rcases backed.whole.recover_ends (matched rfl) backed.committed isOpen with
          same | ⟨members, is, same⟩
        · exact inside fp (same ▸ member)
        · exact kinds members is fp ((same fp).1 member)
      | close cleanup =>
        refine ⟨whole, stays backed.committed (by simp [Call.altered]),
          stays backed.pending (by simp [Call.altered]), fun isOpen => ?_⟩
        have shut := (close_closes (h := h) faithful.valid cleanup).1
        simp only [Call.perform, Outcome.map, shut] at isOpen
        contradiction
      | _ => exact absurd rfl isPlain

end DiskSet

end SeenStates
