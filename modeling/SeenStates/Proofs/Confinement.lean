import SeenStates.Proofs.Scopes
import SeenStates.Proofs.ShardCalls

/-!
# Calls that keep to their own files

A set works on the five files of its stem and on nothing else: in trees that agree on those its
calls have the same answers and leave the same set, and what is not one of them stays as it is
(`Confined`). Both are said of the parts of a call first and then of calls of sets and of opening
them, each of which is made of the former one after the other.
-/
namespace SeenStates

variable {w : Width}

/-! ## Confined operations -/

/-- The result of an operation besides the host, and the host. -/
def Outcome.parts {σ α : Type} (o : Outcome σ α) : (Except Error α × σ) × Host :=
  ((o.answer, o.set), o.host)

/-- An operation with good results that changes nothing outside of a scope and depends on nothing
outside of it. -/
structure Confined (p : Scope) {β : Type} (good : β → Prop) (f : Host → β × Host) : Prop where
  /-- Its result is good. -/
  good : ∀ h, good (f h).1
  /-- It changes nothing outside of the scope. -/
  edits : ∀ h, h.files.enter p.directory = .ok p.here → Files.Edits p h.files (f h).2.files
  /-- It comes to the same where the scope is the same. -/
  same : ∀ {h g}, Files.Agree p h.files g.files →
    (f g).1 = (f h).1 ∧ Files.Agree p (f h).2.files (f g).2.files

/-- A call of a set that is confined, and leaves a set of which the same is known. -/
abbrev ConfinedCall (p : Scope) {σ α : Type} (own : σ → Prop) (o : Host → Outcome σ α) : Prop :=
  Confined p (fun r => own r.2) fun h => (o h).parts

namespace Confined

variable {p : Scope} {β γ : Type} {q : β → Prop} {fine : γ → Prop} {f : Host → β × Host}

/-- An operation with one result that leaves the files alone is confined. -/
theorem still {b : β} (holds : q b) (result : ∀ h, (f h).1 = b)
    (files : ∀ h, (f h).2.files = h.files) : Confined p q f := by
  refine ⟨fun h => result h ▸ holds, fun h entered => ?_, fun {h g} agree => ?_⟩
  · rw [files]
    exact .refl entered
  · rw [result, result, files, files]
    exact ⟨rfl, agree⟩

/-- What comes to a confined operation and then confined ones is confined. -/
theorem bind (first : Confined p q f) {k : β → Host → γ × Host}
    (then' : ∀ b, q b → Confined p fine (k b)) {whole : Host → γ × Host}
    (comes : ∀ h, whole h = k (f h).1 (f h).2) : Confined p fine whole := by
  refine ⟨fun h => ?_, fun h entered => ?_, fun {h g} agree => ?_⟩
  · rw [comes]
    exact (then' _ (first.good h)).good _
  · have edits := first.edits h entered
    rw [comes]
    exact edits.trans ((then' _ (first.good h)).edits _ edits.entered)
  · obtain ⟨result, after⟩ := first.same agree
    rw [comes, comes, result]
    exact (then' _ (first.good h)).same after

/-- A confined action on the files of the host is confined. -/
theorem onFiles {act : Files → β × Files} (confined : Files.Confined p act)
    (holds : ∀ t, q (act t).1) :
    Confined p q fun h => ((act h.files).1, h.withFiles (act h.files).2) :=
  ⟨fun h => holds h.files, fun h => confined.edits h.files, confined.same⟩

section Calls

variable {σ τ α δ : Type} {own : σ → Prop} {owns : τ → Prop} {o : Host → Outcome σ α}

/-- A call is confined that goes on from a confined one. -/
theorem andThen (first : ConfinedCall p own o)
    {next : α → σ → Host → Outcome σ δ}
    (then' : ∀ a s, own s → ConfinedCall p own (next a s)) :
    ConfinedCall p own fun h => (o h).andThen next := by
  refine first.bind (k := fun r h => (Outcome.andThen ⟨r.1, r.2, h⟩ next).parts)
    (fun r owned => ?_) fun _ => rfl
  obtain ⟨answer, s⟩ := r
  cases answer with
  | ok a => exact then' a s owned
  | error e => exact .still (b := (.error e, s)) owned (fun _ => rfl) fun _ => rfl

/-- A call is confined that goes on in one way from a confined action on the files that succeeds
and in another from one that fails. -/
theorem settle {ε : Type} {q : δ → Prop} {act : Files → Except ε δ × Files}
    (confined : Files.Confined p act) (gives : ∀ t d, (act t).1 = .ok d → q d)
    (onward : δ → Host → Outcome σ α) (back : ε → Host → Outcome σ α)
    (succeeds : ∀ d, q d → ConfinedCall p own (onward d))
    (fails : ∀ e, ConfinedCall p own (back e))
    (succeeded : ∀ h d t, act h.files = (.ok d, t) → o h = onward d (h.withFiles t))
    (failed : ∀ h e t, act h.files = (.error e, t) → o h = back e (h.withFiles t)) :
    ConfinedCall p own o := by
  refine (onFiles confined (q := fun r => ∀ d, r = .ok d → q d) gives).bind
    (k := fun r h => (Except.casesOn (motive := fun _ => Outcome σ α) r (back · h)
      (onward · h)).parts) (fun r gives => ?_) fun h => congrArg Outcome.parts ?_
  · cases r with
    | ok d => exact succeeds d (gives d rfl)
    | error e => exact fails e
  · rcases acted : act h.files with ⟨_ | _, t⟩
    · exact failed h _ t acted
    · exact succeeded h _ t acted

/-- A call is confined that makes another answer of that of a confined one. -/
theorem map (confined : ConfinedCall p own o) (f : α → δ) :
    ConfinedCall p own fun h => (o h).map f := by
  refine ⟨confined.good, confined.edits, fun agree => ?_⟩
  obtain ⟨result, files⟩ := confined.same agree
  simp only [Outcome.parts, Prod.mk.injEq] at result
  simp only [Outcome.parts, Outcome.map, result.1, result.2]
  exact ⟨trivial, files⟩

/-- A call of what holds a set is confined if the call of the set is. -/
theorem onSet (confined : ConfinedCall p own o) {f : σ → τ}
    (holds : ∀ s, own s → owns (f s)) :
    ConfinedCall p owns fun h => (o h).onSet f := by
  refine ⟨fun h => holds _ (confined.good h), confined.edits, fun agree => ?_⟩
  obtain ⟨result, files⟩ := confined.same agree
  simp only [Outcome.parts, Prod.mk.injEq] at result
  simp only [Outcome.parts, Outcome.onSet, result.1, result.2]
  exact ⟨trivial, files⟩

/-- Calls for each of several arguments are confined if each of them is. -/
theorem each {op : δ → σ → Host → Outcome σ α} {args : List δ}
    (confined : ∀ d ∈ args, ∀ s, own s → ConfinedCall p own (op d s))
    {s : σ} (owned : own s) :
    ConfinedCall p own (Outcome.each op args s) := by
  induction args generalizing s with
  | nil => exact .still (b := (.ok [], s)) owned (fun _ => rfl) fun _ => rfl
  | cons d rest ih =>
    refine (confined d List.mem_cons_self s owned).andThen fun a u owned => ?_
    exact (ih (fun d member => confined d (List.mem_cons_of_mem _ member)) owned).map _

end Calls

end Confined

/-! ## Files of a set -/

/-- The files of a configuration are among the names of a scope, and the path to their directory
does not go through one that is written for a checkpoint in progress. -/
structure Config.Within (p : Scope) (c : Config) : Prop where
  /-- The configuration is valid. -/
  valid : c.validate = .ok ()
  /-- The directory is that of the scope. -/
  directory : c.metadir = p.directory
  /-- The names are among those of the scope. -/
  names : ∀ f, p.names (c.fileName f)
  /-- The path of the directory is clear of the pending names. -/
  clear : ∀ f, f = .pendingCopy ∨ f = .pendingHeader →
    (c.fileName f).toList ∉ Path.pieces p.directory.toList

variable {p : Scope} {c : Config} {t u : Files}

/-- A path leads to its name in the scope. -/
theorem Config.Within.leads (within : c.Within p) (f : SetFile) :
    Files.Leads (c.paths.path f) p.directory (c.fileName f) :=
  within.directory ▸ Config.leads within.valid f

/-- Drafts for a file are begun in the directory of the scope. -/
theorem Config.Within.enter_parent (within : c.Within p) (v : Files) :
    v.enter (Path.parent c.paths.run) = v.enter p.directory := by
  have joined : c.paths.run = Path.join c.metadir (c.fileName .run) := c.path_eq_join .run
  rw [joined, Files.enter_parent_join v (c.isName_fileName within.valid .run), within.directory]

/-- They are also if the directory is spelled as one that has to have a name. -/
theorem Config.Within.enter_directory (within : c.Within p) (v : Files) :
    v.enter (Path.directory c.paths.run) = v.enter p.directory := by
  rw [← within.enter_parent v]
  unfold Path.directory
  simp only
  split
  · next nothing =>
    rw [String.isEmpty_iff.1 nothing]
    rfl
  · rfl

/-! ## Runs -/

/-- A run is mapped alike in trees that agree. -/
theorem Files.Agree.map (agree : Files.Agree p t u) {path name : String}
    (leads : Files.Leads path p.directory name) (own : p.names name) :
    Run.map w u path = Run.map w t path := by
  rw [Run.map, Run.map, agree.find leads own]

/-- It is opened alike. -/
theorem Files.Agree.openWithIndex (agree : Files.Agree p t u) {path name : String}
    (leads : Files.Leads path p.directory name) (own : p.names name)
    (index : Array (Fingerprint w)) :
    Run.openWithIndex u path index = Run.openWithIndex t path index := by
  rw [Run.openWithIndex, Run.openWithIndex, agree.map leads own]

/-- It is mapped again alike. -/
theorem Files.Agree.remap {r : Run w} (agree : Files.Agree p t u) {name : String}
    (leads : Files.Leads r.path p.directory name) (own : p.names name) :
    r.remap u = r.remap t := by
  rw [Run.remap, Run.remap, agree.map leads own]

/-- A run that was opened is the one at its path. -/
theorem Run.path_openWithIndex {path : String} {index : Array (Fingerprint w)} {r : Run w}
    (opened : Run.openWithIndex t path index = .ok r) : r.path = path := by
  unfold Run.openWithIndex at opened
  cases mapped : Run.map w t path with
  | error e => simp [mapped, bind, Except.bind] at opened
  | ok pair =>
    simp only [mapped, bind, Except.bind] at opened
    split at opened
    · contradiction
    · split at opened
      · contradiction
      · rw [← Except.ok.inj opened]

/-- A run that is mapped again is the one at the same path. -/
theorem Run.path_remap {r disk : Run w} (mapped : r.remap t = .ok disk) : disk.path = r.path := by
  unfold Run.remap at mapped
  split at mapped
  · rw [Except.ok.inj mapped]
  · cases again : Run.map w t r.path with
    | error e => simp [again, bind, Except.bind] at mapped
    | ok pair =>
      simp only [again, bind, Except.bind] at mapped
      split at mapped
      · contradiction
      · rw [← Except.ok.inj mapped]

/-- A run that was put in place is the one at its path. -/
theorem RunWriter.path_finish {r : RunWriter w} {target : String} {disk : Run w}
    (finished : (r.finish t target).1 = .ok disk) : disk.path = target := by
  unfold RunWriter.finish at finished
  split at finished
  · simp at finished
  · exact Run.path_openWithIndex finished

/-- A run that was created is the one at its path. -/
theorem Run.path_createEmpty {path : String} {disk : Run w}
    (created : (Run.createEmpty w t path).1 = .ok disk) : disk.path = path := by
  unfold Run.createEmpty at created
  split at created
  · contradiction
  · exact RunWriter.path_finish created

namespace Config.Within

/-- A run of a set is started in both of two trees that agree or in neither. -/
theorem start (within : c.Within p) (agree : Files.Agree p t u) (blockEntries : Nat) :
    (∃ e, RunWriter.start w t c.paths.run blockEntries = .error e ∧
        RunWriter.start w u c.paths.run blockEntries = .error e) ∨
      ∃ r t' u', RunWriter.start w t c.paths.run blockEntries = .ok (r, t') ∧
        RunWriter.start w u c.paths.run blockEntries = .ok (r, u') ∧ Files.Agree p t' u' ∧
        r.draft.directory = Path.directory c.paths.run := by
  unfold RunWriter.start
  simp only
  rcases agree.beginDraft (Path.fileName c.paths.run) within.enter_directory with
    ⟨fault, failed, failed'⟩ | ⟨d, t', u', begun, begun', after⟩
  · rw [failed, failed']
    exact .inl ⟨_, rfl, rfl⟩
  · simp only [begun, begun', after.room]
    split
    · exact .inl ⟨_, rfl, rfl⟩
    · exact .inr ⟨_, _, _, rfl, rfl, after, Files.directory_of_beginDraft begun⟩

/-- A run of a set is finished alike in trees that agree. -/
theorem finish (within : c.Within p) (agree : Files.Agree p t u) {r : RunWriter w}
    (beside : r.draft.directory = Path.directory c.paths.run) :
    (r.finish u c.paths.run).1 = (r.finish t c.paths.run).1 ∧
      Files.Agree p (r.finish t c.paths.run).2 (r.finish u c.paths.run).2 := by
  have enters (v : Files) : v.enter r.draft.directory = v.enter p.directory := by
    rw [beside, within.enter_directory]
  have leads := within.leads .run
  have own := within.names .run
  unfold RunWriter.finish RunWriter.commit
  rcases agree.commitDraft enters leads own r.contents with
    ⟨fault, failed, failed'⟩ | ⟨t', u', put, put', after⟩
  · have failed : t.commitDraft r.draft c.paths.run r.contents = .error fault := failed
    have failed' : u.commitDraft r.draft c.paths.run r.contents = .error fault := failed'
    rw [failed, failed']
    exact ⟨rfl, agree.dropDraft enters⟩
  · have put : t.commitDraft r.draft c.paths.run r.contents = .ok t' := put
    have put' : u.commitDraft r.draft c.paths.run r.contents = .ok u' := put'
    rw [put, put']
    exact ⟨after.openWithIndex leads own _, after⟩

/-- The empty run of a set is created alike in trees that agree. -/
theorem createEmpty (within : c.Within p) (agree : Files.Agree p t u) :
    (Run.createEmpty w u c.paths.run).1 = (Run.createEmpty w t c.paths.run).1 ∧
      Files.Agree p (Run.createEmpty w t c.paths.run).2 (Run.createEmpty w u c.paths.run).2 := by
  unfold Run.createEmpty
  rcases within.start (w := w) agree defaultBlockEntries with
    ⟨e, failed, failed'⟩ | ⟨r, t', u', started, started', after, beside⟩
  · rw [failed, failed']
    exact ⟨rfl, agree⟩
  · rw [started, started']
    exact within.finish after beside

/-- Creating it edits its name. -/
theorem edits_createEmpty (within : c.Within p) (w : Width)
    (entered : t.enter p.directory = .ok p.here) :
    Files.Edits p t (Run.createEmpty w t c.paths.run).2 := by
  rcases Run.createEmpty_cases w t c.paths.run with ⟨e, failed⟩ | ⟨l, takes, _, created⟩
  · rw [failed]
    exact .refl entered
  · rw [created]
    exact Files.edits_place (within.leads .run) (within.names .run) entered takes _

/-! ## Checkpoints -/

/-- Writing a checkpoint of the set's run aside is confined. -/
theorem begin (within : c.Within p) {r : Run w} (own : r.path = c.paths.run) (family : Family) :
    Files.Confined p (c.paths.begin r family) := by
  have copies : Files.Confined p fun t => t.copy r.path c.paths.pendingCopy :=
    .copy (own ▸ within.leads .run) (within.names .run) (within.leads .pendingCopy)
      (within.names .pendingCopy)
  have writes : Files.Confined p fun t =>
      t.write c.paths.pendingHeader (CheckpointHeader.ofRun r family).text.toUTF8 :=
    .write (within.leads .pendingHeader) (within.names .pendingHeader) _
  exact copies.attempt (writes.attempt (.done (Except.ok ())))

/-- Putting a checkpoint in place is confined. -/
theorem commit (within : c.Within p) : Files.Confined p c.paths.commit := by
  have moves {f g : SetFile} (differ : f ≠ g) (pending : f = .pendingCopy ∨ f = .pendingHeader) :
      Files.Confined p fun t => t.orAsBefore (t.rename (c.paths.path f) (c.paths.path g)) :=
    .rename (within.leads f) (within.leads g) (within.names f) (within.names g)
      (c.isName_fileName within.valid f) (c.isName_fileName within.valid g)
      (fun same => differ (Config.fileName_inj same)) (within.clear f pending)
  have copies := moves (f := .pendingCopy) (g := .copy) (by decide) (.inl rfl)
  have headers := moves (f := .pendingHeader) (g := .header) (by decide) (.inr rfl)
  have both := (copies.attempt (e := .file c.paths.copy)
    (headers.attempt (e := .file c.paths.header) (.done (Except.ok ()))))
  have there (f : SetFile) {t u : Files} (agree : Files.Agree p t u) :
      u.isThere (c.paths.path f) = t.isThere (c.paths.path f) := by
    rw [Files.isThere, agree.find (within.leads f) (within.names f), Files.isThere]
  have begun : Files.Confined p fun t =>
      (t.isThere c.paths.pendingCopy && t.isThere c.paths.pendingHeader, t) :=
    .look fun agree => congrArg₂ _ (there .pendingCopy agree) (there .pendingHeader agree)
  refine begun.bind (k := fun begun t =>
    if begun then
      Files.attempt (.file c.paths.copy)
        (fun t => t.orAsBefore (t.rename c.paths.pendingCopy c.paths.copy))
        (Files.attempt (.file c.paths.header)
          (fun t => t.orAsBefore (t.rename c.paths.pendingHeader c.paths.header))
          fun t => (.ok (), t)) t
    else (.error (.checkpoint (.notBegun c.paths.run)), t)) (fun begun => ?_) fun t => ?_
  · cases begun with
    | false => exact .done _
    | true => exact both
  · simp only [Files.attempt_orAsBefore]
    rfl

/-- The header in place is read alike in trees that agree. -/
theorem readHeader (within : c.Within p) (agree : Files.Agree p t u) (w : Width)
    (family : Family) : c.paths.readHeader w family u = c.paths.readHeader w family t := by
  have read : u.read c.paths.header = t.read c.paths.header :=
    agree.read (within.leads .header) (within.names .header)
  unfold SetPaths.readHeader Files.readText
  rw [read]

/-- The copy in place is read alike in trees that agree. -/
theorem copied (within : c.Within p) (agree : Files.Agree p t u) :
    c.paths.copied u = c.paths.copied t := by
  have read : u.read c.paths.copy = t.read c.paths.copy :=
    agree.read (within.leads .copy) (within.names .copy)
  unfold SetPaths.copied
  rw [read, agree.room]

/-- Putting the copy in the place of the run is confined. -/
theorem replaceRun (within : c.Within p) : Files.Confined p c.paths.replaceRun := by
  refine ⟨fun t entered => ?_, fun {t u} agree => ?_⟩
  · rcases c.paths.replaceRun_cases t with
      ⟨e, failed⟩ | ⟨l, contents, takes, _, _, _, replaced⟩
    · rw [failed]
      exact .refl entered
    · rw [replaced]
      exact Files.edits_place (within.leads .run) (within.names .run) entered takes contents
  · unfold SetPaths.replaceRun
    simp only
    rcases agree.beginDraft "" within.enter_parent with
      ⟨fault, failed, failed'⟩ | ⟨d, t', u', begun, begun', after⟩
    · rw [failed, failed']
      exact ⟨rfl, agree⟩
    · have beside (v : Files) : v.enter d.directory = v.enter p.directory := by
        rw [Files.directory_of_beginDraft begun, within.enter_parent]
      rw [begun, begun']
      simp only [within.copied after]
      split
      · exact ⟨rfl, after.dropDraft beside⟩
      · next contents _ =>
        rcases after.commitDraft beside (within.leads .run) (within.names .run) contents with
          ⟨fault, failed, failed'⟩ | ⟨t'', u'', put, put', placed⟩
        · simp only [SetPaths.path] at failed failed'
          rw [failed, failed']
          exact ⟨rfl, after.dropDraft beside⟩
        · simp only [SetPaths.path] at put put'
          rw [put, put']
          exact ⟨rfl, placed⟩

/-- Putting the copy in the place of the run and opening it is confined. -/
theorem restore (within : c.Within p) (header : CheckpointHeader w) :
    Files.Confined p (c.paths.restore header) := by
  have opens : Files.Confined p fun t => (c.paths.openRestored header t, t) :=
    .look fun {t u} agree => by
      have same : Run.openWithIndex u c.paths.run header.index.toArray =
          Run.openWithIndex t c.paths.run header.index.toArray :=
        agree.openWithIndex (within.leads .run) (within.names .run) _
      rw [SetPaths.openRestored, SetPaths.openRestored, same]
  refine within.replaceRun.bind
    (k := fun answer t => (answer.bind fun _ => c.paths.openRestored header t, t))
    (fun answer => ?_) fun t => ?_
  · cases answer with
    | error e => exact .done _
    | ok _ => exact opens
  · unfold SetPaths.restore
    split
    · next failed =>
      rw [failed]
      rfl
    · next replaced =>
      rw [replaced]
      rfl

end Config.Within

/-- A restored run is the set's. -/
theorem Config.path_restore {header : CheckpointHeader w} {disk : Run w}
    (restored : (c.paths.restore header t).1 = .ok disk) : disk.path = c.paths.run := by
  unfold SetPaths.restore at restored
  split at restored
  · simp at restored
  · next files _ =>
    unfold SetPaths.openRestored at restored
    simp only at restored
    cases opened : Run.openWithIndex files c.paths.run header.index.toArray with
    | error e => simp [opened, bind, Except.bind] at restored
    | ok r =>
      simp only [opened, bind, Except.bind] at restored
      split at restored
      · contradiction
      · rw [← Except.ok.inj restored]
        exact Run.path_openWithIndex opened

/-! ## Disk-backed sets -/

namespace DiskSet

variable {s : DiskSet w} {p : Scope}

/-- The files of a set and its run are among the names of a scope. -/
structure Within (p : Scope) (s : DiskSet w) : Prop where
  /-- The files are. -/
  config : s.config.Within p
  /-- The run is the one of its configuration. -/
  run : s.disk.path = s.config.paths.run

/-- A set with the configuration and the run of another one is in its scope. -/
theorem Within.of_eq {u : DiskSet w} (within : s.Within p) (config : u.config = s.config)
    (disk : u.disk.path = s.disk.path) : u.Within p :=
  ⟨config ▸ within.config, by rw [disk, config, within.run]⟩

/-- An answer is confined. -/
theorem Within.answers {α : Type} (within : s.Within p) (answer : Except Error α) :
    ConfinedCall p (Within p) fun h => ⟨answer, s, h⟩ :=
  .still (b := (answer, s)) within (fun _ => rfl) fun _ => rfl

/-- An answer that is reported is confined. -/
theorem Within.reports {α : Type} (within : s.Within p) (answer : Except Error α) (e : Event) :
    ConfinedCall p (Within p) fun h => ⟨answer, s, h.report e⟩ :=
  .still (b := (answer, s)) within (fun _ => rfl) fun _ => rfl

/-- A call of a set that may be closed is confined if it is for an open one. -/
theorem Within.whenOpen {α : Type} (within : s.Within p)
    {op : DiskSet w → Host → Outcome (DiskSet w) α} (confined : ConfinedCall p (Within p) (op s)) :
    ConfinedCall p (Within p) fun h => s.whenOpen h op := by
  unfold DiskSet.whenOpen
  cases s.closed with
  | true => exact within.answers (.error .closed)
  | false => exact confined

/-- Mapping the run again, or closing the set, is confined. -/
theorem Within.remapOrClose (within : s.Within p) :
    Confined p (fun u : DiskSet w => u.Within p) s.remapOrClose := by
  have leads : Files.Leads s.disk.path p.directory (s.config.fileName .run) :=
    within.run ▸ within.config.leads .run
  refine ⟨fun h => ?_, fun h entered => ?_, fun {h g} agree => ?_⟩
  · unfold DiskSet.remapOrClose
    split
    · next mapped => exact within.of_eq rfl (Run.path_remap mapped)
    · exact within.of_eq rfl rfl
  · unfold DiskSet.remapOrClose
    split <;> exact .refl entered
  · unfold DiskSet.remapOrClose
    rw [agree.remap leads (within.config.names .run)]
    split <;> exact ⟨rfl, agree⟩

/-- A run is merged in both of two trees that agree or in neither. -/
theorem Within.mergeRun (within : s.Within p) {t u : Files} (agree : Files.Agree p t u) :
    (∃ e, s.mergeRun t = (.error e, t) ∧ s.mergeRun u = (.error e, u)) ∨
      ∃ r counts t' u', s.mergeRun t = (.ok (r, counts), t') ∧
        s.mergeRun u = (.ok (r, counts), u') ∧ Files.Agree p t' u' := by
  have ends : (∃ e t' u', s.mergeRun t = (.error e, t') ∧ s.mergeRun u = (.error e, u')) ∨
      ∃ r counts t' u', s.mergeRun t = (.ok (r, counts), t') ∧
        s.mergeRun u = (.ok (r, counts), u') ∧ Files.Agree p t' u' := by
    unfold DiskSet.mergeRun
    rcases within.config.start (w := w) agree defaultBlockEntries with
      ⟨e, failed, failed'⟩ | ⟨r, t', u', started, started', after, _⟩
    · rw [failed, failed']
      exact .inl ⟨e, _, _, rfl, rfl⟩
    · rw [started, started']
      simp only
      split
      · exact .inr ⟨_, _, _, _, rfl, rfl, after⟩
      · exact .inl ⟨_, _, _, rfl, rfl⟩
  refine ends.imp_left fun ⟨e, t', u', failed, failed'⟩ => ⟨e, ?_, ?_⟩
  · rw [failed, mergeRun_eq_error failed]
  · rw [failed', mergeRun_eq_error failed']

/-- A merged run is in progress beside the set's. -/
theorem beside_of_mergeRun {t u : Files} {r : RunWriter w} {counts : MergeCounts}
    (merged : s.mergeRun t = (.ok (r, counts), u)) :
    r.draft.directory = Path.directory s.config.paths.run := by
  obtain ⟨_, _, ⟨_, begun⟩, _⟩ := mergeRun_eq_ok merged
  exact Files.directory_of_beginDraft begun

/-- The host after a merge has the files that it had. -/
theorem files_afterMerge (s : DiskSet w) (counts : MergeCounts) (h : Host) :
    (s.afterMerge counts h).files = h.files := by
  unfold afterMerge
  split <;> rfl

/-- A merged run that is put in place leaves a set of the scope. -/
theorem Within.replaceRun (within : s.Within p) (r : RunWriter w) (h : Host) :
    (s.replaceRun r h).set.Within p := by
  unfold DiskSet.replaceRun
  split
  · next disk files finished =>
    have own : disk.path = s.config.paths.run := RunWriter.path_finish (congrArg Prod.fst finished)
    exact ⟨within.config, own⟩
  · exact within.remapOrClose.good _

/-- A merged run is put in place alike in trees that agree. -/
theorem Within.same_replaceRun (within : s.Within p) {r : RunWriter w}
    (beside : r.draft.directory = Path.directory s.config.paths.run) {h g : Host}
    (agree : Files.Agree p h.files g.files) :
    (s.replaceRun r g).parts.1 = (s.replaceRun r h).parts.1 ∧
      Files.Agree p (s.replaceRun r h).host.files (s.replaceRun r g).host.files := by
  have finished := within.config.finish agree beside
  unfold DiskSet.replaceRun
  generalize r.finish h.files s.config.paths.run = first at finished ⊢
  generalize r.finish g.files s.config.paths.run = second at finished ⊢
  obtain ⟨answer, t⟩ := first
  obtain ⟨answer', u⟩ := second
  obtain ⟨same, after⟩ := finished
  simp only at same after
  subst same
  cases answer' with
  | ok disk => exact ⟨rfl, after⟩
  | error e =>
    have both : Files.Agree p (h.withFiles t).files (g.withFiles u).files := after
    obtain ⟨set, files⟩ := within.remapOrClose.same both
    exact ⟨congrArg (Prod.mk _) set, files⟩

/-- Putting a merged run in place edits its name. -/
theorem Within.edits_replaceRun (within : s.Within p) {before : Files} {r : RunWriter w}
    (inStep : r.InStep) (blocks : r.blockEntries < smallLimit) {h : Host}
    (begun : r.Begun before h.files) (entered : before.enter p.directory = .ok p.here) :
    Files.Edits p before (s.replaceRun r h).host.files := by
  have remaps (g : Host) : (s.remapOrClose g).2.files = g.files := by
    unfold DiskSet.remapOrClose
    split <;> rfl
  unfold DiskSet.replaceRun
  rcases inStep.finish_cases blocks h.files s.config.paths.run with
    ⟨fault, failed⟩ | ⟨l, takes, finished⟩
  · rw [failed, begun.discard]
    simp only [Outcome.fail, remaps]
    exact .refl entered
  · rw [finished, begun.withoutDraft]
    exact Files.edits_place (within.config.leads .run) (within.config.names .run) entered
      (begun.takes takes) r.contents

/-- A flush is confined. -/
theorem Within.flushNow (within : s.Within p) : ConfinedCall p (Within p) s.flushNow := by
  have within' : s.unrequested.Within p := within.of_eq rfl rfl
  by_cases vacant : s.tableLive + s.overflow.size = 0
  · have nothing : s.flushNow = fun h =>
        .ok () s.unrequested (h.report (.nothingToFlush s.config.name)) := by
      funext h
      rw [DiskSet.flushNow, if_pos vacant]
    rw [nothing]
    exact within'.reports (.ok ()) _
  refine ⟨fun h => ?_, fun h entered => ?_, fun {h g} agree => ?_⟩
  · simp only [DiskSet.flushNow, if_neg vacant]
    split
    · exact within'
    · exact within'.replaceRun ..
  · simp only [DiskSet.flushNow, if_neg vacant]
    split
    · next merged =>
      rw [mergeRun_eq_error merged]
      exact .refl entered
    · next r counts files merged =>
      obtain ⟨inStep, blocks, ⟨_, drafted⟩, _⟩ := mergeRun_eq_ok merged
      have begun := RunWriter.begun_of_beginDraft drafted
      refine within'.edits_replaceRun inStep (by rw [blocks]; decide) ?_ entered
      rw [files_afterMerge]
      exact begun
  · simp only [DiskSet.flushNow, if_neg vacant]
    rcases within.mergeRun agree with
      ⟨e, failed, failed'⟩ | ⟨r, counts, t', u', merged, merged', after⟩
    · rw [failed, failed']
      exact ⟨rfl, agree⟩
    · have beside := beside_of_mergeRun merged
      rw [merged, merged']
      refine within'.same_replaceRun beside ?_
      rw [files_afterMerge, files_afterMerge]
      exact after

/-- A flush by a chosen flusher is confined. -/
theorem Within.flushChosen (within : s.Within p) :
    ConfinedCall p (Within p) s.flushChosen := by
  have within' : (s.withFlusher true).Within p := within.of_eq rfl rfl
  have due : ConfinedCall p (Within p) (s.withFlusher true).flushIfDue := by
    unfold flushIfDue
    split
    · exact within'.flushNow
    · exact within'.reports (.ok ()) _
  exact (within'.whenOpen due).onSet fun u own => own.of_eq rfl rfl

/-- A put is confined. -/
theorem Within.put (within : s.Within p) (fp : Fingerprint w) :
    ConfinedCall p (Within p) (s.put fp) := by
  refine within.whenOpen ?_
  have counted (place : Place) : (s.counted place).Within p :=
    within.of_eq (config_counted ..) (congrArg Run.path (disk_counted ..))
  cases s.find fp with
  | absent opening =>
    have within' : (s.insert fp opening).Within p :=
      within.of_eq (config_insert ..) (congrArg Run.path (disk_insert ..))
    simp only
    split
    · exact within'.flushChosen.map _
    · exact within'.answers (.ok false)
  | memory => exact (counted .memory).answers (.ok true)
  | disk => exact (counted .disk).answers (.ok true)

/-- A query is confined. -/
theorem Within.contains (within : s.Within p) (fp : Fingerprint w) :
    ConfinedCall p (Within p) (s.contains fp) := by
  refine within.whenOpen ?_
  have within' : (s.counted (s.find fp)).Within p :=
    within.of_eq (config_counted ..) (congrArg Run.path (disk_counted ..))
  exact within'.answers (.ok (s.find fp).isSeen)

/-- Writing a checkpoint aside is confined. -/
theorem Within.beginCheckpoint (within : s.Within p) :
    ConfinedCall p (Within p) s.beginCheckpoint := by
  refine within.whenOpen (within.flushNow.andThen fun _ u within => ?_)
  refine .settle (within.config.begin within.run u.config.family) (q := fun _ => True)
    (fun _ _ _ => trivial) _ _
    (fun _ _ => within.reports (.ok ()) (.checkpointWritten u.config.name u.disk.size))
    (fun e => within.answers (.error e)) (fun h _ t began => ?_) fun h e t failed => ?_
  · simp only [began]
    rfl
  · simp only [failed]
    rfl

/-- Putting a checkpoint in place is confined. -/
theorem Within.commitCheckpoint (within : s.Within p) :
    ConfinedCall p (Within p) s.commitCheckpoint := by
  refine within.whenOpen ?_
  refine .settle within.config.commit (q := fun _ => True) (fun _ _ _ => trivial) _ _
    (fun _ _ => within.reports (.ok ()) (.checkpointCommitted s.config.name))
    (fun e => within.answers (.error e)) (fun h _ t placed => ?_) fun h e t failed => ?_
  · simp only [placed]
    rfl
  · simp only [failed]
    rfl

/-- A restored run is taken, or the run is mapped again, in a confined way. -/
theorem Within.restored (within : s.Within p) (header : CheckpointHeader w) :
    ConfinedCall p (Within p) fun h =>
      match s.config.paths.restore header h.files with
      | (.ok disk, files) =>
        .ok () (s.recovered disk)
          ((h.withFiles files).report (.recovered s.config.name disk.size))
      | (.error e, files) =>
        let (s, h) := ({ s with disk := s.disk.unmap }).remapOrClose (h.withFiles files)
        .fail e s h := by
  have unmapped : ({ s with disk := s.disk.unmap } : DiskSet w).Within p := within.of_eq rfl rfl
  refine .settle (within.config.restore header)
    (q := fun disk => disk.path = s.config.paths.run) (fun t disk => Config.path_restore)
    (fun disk h => .ok () (s.recovered disk) (h.report (.recovered s.config.name disk.size)))
    (fun e h =>
      let r := ({ s with disk := s.disk.unmap } : DiskSet w).remapOrClose h
      .fail e r.1 r.2)
    (fun disk own => ?_) (fun e => ?_) (fun h disk t restored => ?_) fun h e t failed => ?_
  · have within' : (s.recovered disk).Within p := ⟨within.config, own⟩
    exact within'.reports (.ok ()) _
  · exact unmapped.remapOrClose.bind (k := fun s h => ((.error e, s), h))
      (fun s own => own.answers (.error e)) fun _ => rfl
  · simp only [restored]
  · simp only [failed]

/-- Going back to a checkpoint is confined. -/
theorem Within.recover (within : s.Within p) : ConfinedCall p (Within p) s.recover := by
  refine within.whenOpen ?_
  have reads : Files.Confined p fun t =>
      (s.config.paths.readHeader w s.config.family t, t) :=
    .look fun agree => within.config.readHeader agree w s.config.family
  refine .settle reads (q := fun _ => True) (fun _ _ _ => trivial) _ _
    (fun header _ => within.restored header) (fun e => within.answers (.error e))
    (fun h header t read => ?_) fun h e t failed => ?_
  -- Nothing is written by reading, so the host with the files that were read is the host.
  · have same : h.withFiles h.files = h := rfl
    have read : s.config.paths.readHeader w s.config.family h.files = .ok header ∧ h.files = t :=
      Prod.mk.inj read
    rcases restored : s.config.paths.restore header h.files with ⟨_ | _, files⟩ <;>
      simp only [read.1, ← read.2, same, restored]
  · have same : h.withFiles h.files = h := rfl
    have failed : s.config.paths.readHeader w s.config.family h.files = .error e ∧ h.files = t :=
      Prod.mk.inj failed
    simp only [failed.1, ← failed.2, same]
    rfl

/-- Closing a set is confined. -/
theorem Within.close (within : s.Within p) (cleanup : Bool) :
    ConfinedCall p (Within p) (s.close cleanup) := by
  have within' : s.released.Within p := within.of_eq rfl rfl
  unfold DiskSet.close
  cases s.closed with
  | true => exact within.answers (.ok ())
  | false =>
    cases cleanup with
    | false => exact within'.reports (.ok ()) _
    | true =>
      have removes : Files.Confined p fun t =>
          t.orAsBefore (t.removeFile s.config.paths.run) :=
        .removeFile (within.config.leads .run) (within.config.names .run)
      have path : s.released.config.paths.run = s.config.paths.run := rfl
      refine .settle removes (q := fun _ => True) (fun _ _ _ => trivial)
        (fun _ h => .ok () s.released (h.report (.setClosed s.config.name)))
        (fun fault h => if fault = .notFound
          then .ok () s.released (h.report (.setClosed s.config.name))
          else .fail (.file s.config.paths.run fault) s.released
            (h.report (.deletionFailed s.config.paths.run)))
        (fun _ _ => within'.reports (.ok ()) _)
        (fun fault => ?_) (fun h _ t removed => ?_) fun h fault t failed => ?_
      · split
        · exact within'.reports (.ok ()) _
        · exact within'.reports (.error _) _
      · simp only [path, Bool.false_eq_true, if_false, if_true, Files.orAsBefore_eq_ok removed]
        rfl
      · have same : h.withFiles h.files = h := rfl
        obtain ⟨refused, rfl⟩ := Files.orAsBefore_eq_error failed
        simp only [path, Bool.false_eq_true, if_false, if_true, refused, same]
        cases fault with
        | notFound => rfl
        | _ => rfl

/-- Every call of a set is confined. -/
theorem Within.perform (within : s.Within p) (c : Call w) :
    ConfinedCall p (Within p) (c.perform s) := by
  cases c with
  | put fp => exact (within.put fp).map _
  | putBlock fps => exact .each (fun fp _ u own => own.put fp) within
  | recoverFingerprint fp =>
    refine ((within.put fp).andThen fun seen u own => ?_).map _
    cases seen with
    | true => exact own.answers (.error _)
    | false => exact own.answers (.ok ())
  | contains fp => exact (within.contains fp).map _
  | containsBlock fps => exact .each (fun fp _ u own => own.contains fp) within
  | flush => exact (within.whenOpen within.flushNow).map _
  | requestFlush =>
    have within' : s.requestFlush.Within p := within.of_eq rfl rfl
    exact within'.answers (.ok [])
  | beginCheckpoint => exact within.beginCheckpoint.map _
  | commitCheckpoint => exact within.commitCheckpoint.map _
  | recover => exact within.recover.map _
  | close cleanup => exact (within.close cleanup).map _

end DiskSet

end SeenStates
