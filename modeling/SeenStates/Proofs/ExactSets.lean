import Mathlib.Data.Finset.Card
import SeenStates.Proofs.Alike
import SeenStates.Proofs.ShardFiles

/-!
# Sets as they are meant

What a set is to do with fingerprints and checkpoints, without tables, runs and files, is an
`ExactSet`. A disk-backed set tracks one when it has the same fingerprints and its files have the
same checkpoints (`DiskSet.Tracks`). A call that neither of them fails answers the same in both and
leaves the one tracking the other (`DiskSet.Tracks.perform`).
-/
namespace SeenStates

variable {w : Width}

/-- A set as it is meant: the fingerprints in it and in its checkpoints. -/
structure ExactSet (w : Width) where
  /-- The fingerprints in the set. -/
  members : Finset (Fingerprint w)
  /-- Those of the checkpoint in progress, if there is one. -/
  pending : Option (Finset (Fingerprint w))
  /-- Those of the committed checkpoint, if there is one. -/
  committed : Option (Finset (Fingerprint w))

namespace ExactSet

/-- The set of no fingerprints, without checkpoints. -/
def empty : ExactSet w := ⟨∅, none, none⟩

/-- Put fingerprints one after the other among others: whether each of them was there, and what is
there afterwards. -/
def putAll : List (Fingerprint w) → Finset (Fingerprint w) → List Bool × Finset (Fingerprint w)
  | [], members => ([], members)
  | fp :: rest, members =>
    let (seen, after) := putAll rest (insert fp members)
    (decide (fp ∈ members) :: seen, after)

/-- What a call comes to: the answer and the set afterwards, or nothing if the call is refused. A
checkpoint cannot be put in place before one was begun, nor can the set go back to one before one
was put in place. A closed set is none any more. -/
def perform : Call w → ExactSet w → Option (List Bool × ExactSet w)
  | .put fp, s => some ([decide (fp ∈ s.members)], { s with members := insert fp s.members })
  | .putBlock fps, s =>
    let (seen, members) := putAll fps s.members
    some (seen, { s with members })
  | .recoverFingerprint fp, s =>
    if fp ∈ s.members then none else some ([], { s with members := insert fp s.members })
  | .contains fp, s => some ([decide (fp ∈ s.members)], s)
  | .containsBlock fps, s => some (fps.map fun fp => decide (fp ∈ s.members), s)
  | .flush, s => some ([], s)
  | .requestFlush, s => some ([], s)
  | .beginCheckpoint, s => some ([], { s with pending := some s.members })
  | .commitCheckpoint, s =>
    s.pending.map fun fps => ([], { s with pending := none, committed := some fps })
  | .recover, s => s.committed.map fun fps => ([], { s with members := fps })
  | .close _, _ => none

/-- What calls that are made one after the other make of a set, if none is refused. -/
def after (calls : List (Call w)) (start : ExactSet w) : Option (ExactSet w) :=
  calls.foldlM (fun s c => (s.perform c).map Prod.snd) start

/-- The last call is made of what the calls before it make of a set. -/
theorem after_concat (calls : List (Call w)) (k : Call w) (start : ExactSet w) :
    after (calls ++ [k]) start = (after calls start).bind fun s => (s.perform k).map Prod.snd := by
  unfold after
  rw [List.foldlM_append]
  simp [bind, pure]

/-- After fingerprints were put they are there, with what was there before. -/
theorem mem_putAll {fp : Fingerprint w} (fps : List (Fingerprint w))
    (members : Finset (Fingerprint w)) :
    fp ∈ (putAll fps members).2 ↔ fp ∈ fps ∨ fp ∈ members := by
  induction fps generalizing members with
  | nil => simp [putAll]
  | cons first rest ih =>
    rw [putAll, ih, Finset.mem_insert, List.mem_cons]
    exact or_left_comm.trans or_assoc.symm

end ExactSet

/-- A plain call puts its fingerprints and leaves the checkpoints. -/
theorem ExactSet.perform_of_isPlain {exact after : ExactSet w} {k : Call w} (isPlain : k.isPlain)
    {answers : List Bool} (performed : exact.perform k = some (answers, after)) :
    (∀ fp, fp ∈ after.members ↔ fp ∈ k.puts ∨ fp ∈ exact.members) ∧
      after.pending = exact.pending ∧ after.committed = exact.committed := by
  cases k with
  | put fp =>
    obtain ⟨rfl, rfl⟩ := Prod.mk.inj (Option.some.inj performed)
    exact ⟨fun other => by simp [Call.puts], rfl, rfl⟩
  | putBlock fps =>
    obtain ⟨rfl, rfl⟩ := Prod.mk.inj (Option.some.inj performed)
    exact ⟨fun other => mem_putAll fps exact.members, rfl, rfl⟩
  | recoverFingerprint fp =>
    simp only [perform] at performed
    split at performed
    · contradiction
    · obtain ⟨rfl, rfl⟩ := Prod.mk.inj (Option.some.inj performed)
      exact ⟨fun other => by simp [Call.puts], rfl, rfl⟩
  | beginCheckpoint => contradiction
  | commitCheckpoint => contradiction
  | recover => contradiction
  | close cleanup => contradiction
  | _ =>
    obtain ⟨rfl, rfl⟩ := Prod.mk.inj (Option.some.inj performed)
    exact ⟨fun other => by simp [Call.puts], rfl, rfl⟩

/-- A plain call goes on with the set that it is made of. -/
theorem Call.goesOn_of_isPlain {k : Call w} (isPlain : k.isPlain) : k.goesOn := by
  cases k with
  | recover => contradiction
  | close cleanup => contradiction
  | _ => rfl

/-- None of the puts of a call that succeeds fails. -/
theorem Call.putsAll_of_isOk {k : Call w} {s : DiskSet w} {h : Host}
    (isOk : (k.perform s h).answer.isOk) : k.putsAll s h := by
  cases k with
  | put fp => exact DiskSet.isOk_of_isOk_map isOk
  | putBlock fps => exact isOk
  | recoverFingerprint fp =>
    have isOk := DiskSet.isOk_of_isOk_map isOk
    unfold DiskSet.recoverFingerprint Outcome.asNew Outcome.andThen at isOk
    split at isOk
    · next seen answer =>
      change (s.put fp h).answer.isOk
      rw [answer]
      rfl
    · contradiction
  | _ => trivial

/-! ## Stored checkpoints -/

/-- Two files of a set are a checkpoint of exactly the given fingerprints. -/
def Config.Stores (c : Config) (f g : SetFile) (fps : Finset (Fingerprint w)) (t : Files) : Prop :=
  ∃ (entries : Array (Fingerprint w)) (copy header : ByteArray),
    IsCheckpoint c.family entries copy header ∧
      t.Pair (c.paths.path f) (c.paths.path g) copy header ∧ ∀ fp, fp ∈ entries ↔ fp ∈ fps

/-- A checkpoint stays stored where other files are changed. -/
theorem Config.Stores.of_keeps {c : Config} {f g : SetFile} {fps : Finset (Fingerprint w)}
    {t u : Files} {names : List String} (stores : c.Stores f g fps t)
    (valid : c.validate = .ok ()) (keeps : Files.Keeps c.metadir names t u)
    (first : c.fileName f ∉ names) (second : c.fileName g ∉ names) : c.Stores f g fps u := by
  obtain ⟨entries, copy, header, checkpoint, pair, all⟩ := stores
  obtain ⟨_, copied⟩ := Files.locate_of_find pair.copied
  obtain ⟨_, written⟩ := Files.locate_of_find pair.written
  exact ⟨entries, copy, header, checkpoint,
    ⟨Files.find_of_locate (keeps.locate (leads valid f) first copied),
      Files.find_of_locate (keeps.locate (leads valid g) second written)⟩, all⟩

/-- A checkpoint that a set has, if it has one, stays stored where other files of it change. -/
theorem Config.stores_of_keeps {c : Config} {f g : SetFile} {held : Option (Finset (Fingerprint w))}
    {t u : Files} {fs : List SetFile} (stored : ∀ fps, held = some fps → c.Stores f g fps t)
    (valid : c.validate = .ok ()) (keeps : c.Keeps fs t u) (first : f ∉ fs) (second : g ∉ fs) :
    ∀ fps, held = some fps → c.Stores f g fps u := fun fps is =>
  (stored fps is).of_keeps valid keeps (fileName_not_mem fs first) (fileName_not_mem fs second)

/-- The checkpoint of a shard stays stored when a set is opened that has the same files of a shard
of that number. -/
theorem Config.Stores.of_opens {c d : Config} {k : Nat} {opened : Nat → Prop} {f g : SetFile}
    {fps : Finset (Fingerprint w)} {t u : Files} (stores : (c.part k).Stores f g fps t)
    (opens : d.Opens opened t u) (paths : (d.part k).paths = (c.part k).paths) (first : f ≠ .run)
    (second : g ≠ .run) : (c.part k).Stores f g fps u := by
  obtain ⟨entries, copy, header, checkpoint, pair, all⟩ := stores
  rw [← paths] at pair
  obtain ⟨_, copied⟩ := Files.locate_of_find pair.copied
  obtain ⟨_, written⟩ := Files.locate_of_find pair.written
  refine ⟨entries, copy, header, checkpoint, ?_, all⟩
  rw [← paths]
  exact ⟨Files.find_of_locate (opens.locate k f (fun run => absurd run first) _ _ copied),
    Files.find_of_locate (opens.locate k g (fun run => absurd run second) _ _ written)⟩

/-- Trees in which a run can be written stay so when files of its directory change. -/
theorem Files.Alike.of_keeps {c : Config} {t u : Files} {names : List String}
    (alike : t.Alike c.paths.run t) (valid : c.validate = .ok ())
    (keeps : Files.Keeps c.metadir names t u) : u.Alike c.paths.run u := by
  obtain ⟨here, entered, _⟩ := alike.entered
  obtain ⟨l, takes, _⟩ := alike.takes
  have entered' := keeps.stays.enter entered
  have takes' := keeps.takes (Config.leads valid .run) takes
  exact ⟨rfl, rfl, ⟨here, entered', entered'⟩, l, takes', takes'⟩

/-- Two files of a set are not both there. -/
def Config.Lacks (c : Config) (f g : SetFile) (t : Files) : Prop :=
  (∀ e, t.find (c.paths.path f) ≠ .ok e) ∨ ∀ e, t.find (c.paths.path g) ≠ .ok e

/-- Where one of two files is lacking it still is when others are altered. -/
theorem Config.Lacks.of_alters {c : Config} {f g : SetFile} {t u : Files} {names : List String}
    (lacks : c.Lacks f g t) (valid : c.validate = .ok ())
    (alters : Files.Alters c.metadir names t u) (first : c.fileName f ∉ names)
    (second : c.fileName g ∉ names) : c.Lacks f g u :=
  lacks.imp (fun none e found => none e (alters.find (leads valid f) first found))
    fun none e found => none e (alters.find (leads valid g) second found)

namespace DiskSet

variable {s : DiskSet w} {h : Host} {c : Config}

/-- A set that has the fingerprints of one as it is meant, among files that have its
checkpoints. -/
structure Tracks (exact : ExactSet w) (c : Config) (s : DiskSet w) (t : Files) : Prop where
  /-- It has the files of the configuration. -/
  shares : c.SharesFiles s.config
  /-- It is open. -/
  isOpen : s.closed = false
  /-- It is sound. -/
  sound : s.Sound
  /-- It is faithful to its files. -/
  faithful : s.Faithful t
  /-- Its run can be written. -/
  alike : t.Alike c.paths.run t
  /-- The same fingerprints are in it. -/
  members : ∀ fp, fp ∈ s.members ↔ fp ∈ exact.members
  /-- Its checkpoint in progress is stored. -/
  pending : ∀ fps, exact.pending = some fps → c.Stores .pendingCopy .pendingHeader fps t
  /-- Its committed checkpoint is stored. -/
  committed : ∀ fps, exact.committed = some fps → c.Stores .copy .header fps t

/-- The checkpoint that a set writes aside is stored. -/
theorem Sound.stores_beginCheckpoint (sound : s.Sound) (faithful : s.Faithful h.files)
    (isOpen : s.closed = false) (shares : c.SharesFiles s.config)
    (begun : (s.beginCheckpoint h).answer = .ok ()) {fps : Finset (Fingerprint w)}
    (members : ∀ fp, fp ∈ s.members ↔ fp ∈ fps) :
    c.Stores .pendingCopy .pendingHeader fps (s.beginCheckpoint h).host.files := by
  obtain ⟨copy, header, checkpoint, ⟨_, copied⟩, ⟨_, written⟩, _⟩ :=
    sound.checkpoint_of_begin faithful isOpen begun
  obtain ⟨flushed, _⟩ := beginCheckpoint_eq_ok isOpen begun
  obtain ⟨_, same, _, _⟩ := sound.of_flushed (flushed_flushNow sound.mapped h)
  have stored := (sound.members_flushNow flushed).1
  rw [shares.paths] at copied written
  refine ⟨_, copy, header, shares.family ▸ checkpoint,
    ⟨Files.find_of_locate copied, Files.find_of_locate written⟩, fun fp => ?_⟩
  rw [set_beginCheckpoint isOpen, ← Run.mem_toList_stored, ← stored, same.mem_iff, members]

/-- A checkpoint that is put in place is stored there, and no other files are changed. -/
theorem stores_commitCheckpoint (valid : s.config.validate = .ok ()) (isOpen : s.closed = false)
    (shares : c.SharesFiles s.config) (committed : (s.commitCheckpoint h).answer = .ok ())
    {fps : Finset (Fingerprint w)} (stores : c.Stores .pendingCopy .pendingHeader fps h.files) :
    c.Stores .copy .header fps (s.commitCheckpoint h).host.files ∧
      c.Keeps checkpointFiles h.files (s.commitCheckpoint h).host.files := by
  obtain ⟨entries, copy, header, checkpoint, pair, all⟩ := stores
  obtain ⟨_, copied⟩ := Files.locate_of_find pair.copied
  obtain ⟨_, written⟩ := Files.locate_of_find pair.written
  have placed := commitCheckpoint_eq_ok isOpen committed
  rw [← shares.paths] at copied written
  obtain ⟨keeps, ⟨_, copied'⟩, _, written'⟩ :=
    SetPaths.locate_commit valid placed copied written
  rw [shares.paths] at copied' written'
  exact ⟨⟨entries, copy, header, checkpoint,
    ⟨Files.find_of_locate copied', Files.find_of_locate written'⟩, all⟩, shares.keeps_iff.1 keeps⟩

/-- A checkpoint that is not there cannot be put in place. -/
theorem commitCheckpoint_of_lacks (valid : s.config.validate = .ok ()) (isOpen : s.closed = false)
    (shares : c.SharesFiles s.config) (lacks : c.Lacks .pendingCopy .pendingHeader h.files) :
    (s.commitCheckpoint h).answer ≠ .ok () := by
  intro committed
  obtain ⟨⟨e, copied⟩, e', written⟩ :=
    SetPaths.exists_of_commit valid (commitCheckpoint_eq_ok isOpen committed)
  rw [shares.paths] at copied written
  exact lacks.elim (· e copied) (· e' written)

/-- A set cannot go back to a checkpoint that is not there. -/
theorem Faithful.recover_of_lacks (faithful : s.Faithful h.files) (isOpen : s.closed = false)
    (shares : c.SharesFiles s.config) (lacks : c.Lacks .copy .header h.files) :
    (s.recover h).answer ≠ .ok () := by
  intro recovered
  have missing {copy header : ByteArray}
      (found : h.files.find s.config.paths.copy = .ok (.file copy))
      (found' : h.files.find s.config.paths.header = .ok (.file header)) : False := by
    rw [shares.paths] at found found'
    exact lacks.elim (· _ found) (· _ found')
  rcases faithful.recover_cases isOpen fun _ _ found found' => (missing found found').elim with
    ⟨e, failed, _⟩ | ⟨_, copy, header, pair, _⟩
  · rw [failed] at recovered
    contradiction
  · exact missing pair.copied pair.written

/-- A set that goes back to a stored checkpoint has its fingerprints. -/
theorem Sound.members_recover (sound : s.Sound) (faithful : s.Faithful h.files)
    (isOpen : s.closed = false) (shares : c.SharesFiles s.config) {fps : Finset (Fingerprint w)}
    (stores : c.Stores .copy .header fps h.files) (recovered : (s.recover h).answer = .ok ()) :
    (s.recover h).set.closed = false ∧ (s.recover h).set.Sound ∧
      ∀ fp, fp ∈ (s.recover h).set.members ↔ fp ∈ fps := by
  obtain ⟨entries, copy, header, checkpoint, pair, all⟩ := stores
  have paths := shares.paths
  have genuine : h.files.Genuine s.config.paths.copy s.config.paths.header := by
    intro copy' header' found found'
    rw [paths] at found found'
    obtain rfl := Entry.file.inj (Except.ok.inj (pair.copied.symm.trans found))
    obtain rfl := Entry.file.inj (Except.ok.inj (pair.written.symm.trans found'))
    exact ⟨w, _, entries, checkpoint⟩
  rcases faithful.recover_cases isOpen genuine with
    ⟨e, failed, _⟩ | ⟨others, copy', header', pair', checkpoint', _, set⟩
  · rw [failed] at recovered
    contradiction
  · rw [paths] at pair'
    obtain rfl := Entry.file.inj (Except.ok.inj (pair.copied.symm.trans pair'.copied))
    obtain rfl := Entry.file.inj (Except.ok.inj (pair.written.symm.trans pair'.written))
    obtain ⟨_, _, same⟩ := checkpoint.unique checkpoint'
    obtain rfl := eq_of_heq same
    obtain ⟨sound', members⟩ := sound.recovered checkpoint.ascending checkpoint.storable
    rw [set]
    refine ⟨isOpen, sound', fun fp => ?_⟩
    rw [members, Array.mem_toList_iff, all]

namespace Tracks

variable {exact after : ExactSet w}

/-- A set goes over to one that tracks another, by changes of its own files, when that has its
fingerprints and the files have its checkpoints. -/
theorem goes {t v : Files} {u : DiskSet w} {fs : List SetFile} (tracks : s.Tracks exact c t)
    (valid : c.validate = .ok ()) (config : u.config = s.config) (isOpen : u.closed = false)
    (sound : u.Sound) (faithful : u.Faithful v) (keeps : c.Keeps fs t v)
    (members : ∀ fp, fp ∈ u.members ↔ fp ∈ after.members)
    (pending : ∀ fps, after.pending = some fps → c.Stores .pendingCopy .pendingHeader fps v)
    (committed : ∀ fps, after.committed = some fps → c.Stores .copy .header fps v) :
    u.Tracks after c v ∧ c.Keeps setFiles t v :=
  ⟨⟨config ▸ tracks.shares, isOpen, sound, faithful, tracks.alike.of_keeps valid keeps, members,
    pending, committed⟩, keeps.mono (List.map_subset _ (subset_setFiles fs))⟩

/-- A plain call that succeeds leaves a set tracking what the call makes of the other one. -/
theorem plain (tracks : s.Tracks exact c h.files) (valid : c.validate = .ok ()) {k : Call w}
    (isPlain : k.isPlain) (isOk : (k.perform s h).answer.isOk) {answers : List Bool}
    (performed : exact.perform k = some (answers, after)) :
    (k.perform s h).set.Tracks after c (k.perform s h).host.files ∧
      c.Keeps setFiles h.files (k.perform s h).host.files := by
  have goes := tracks.faithful.goes_perform tracks.isOpen isPlain
  have keeps := tracks.shares.keeps_iff.1 goes.keeps
  obtain ⟨_, grown, all⟩ := tracks.sound.perform tracks.isOpen (Call.goesOn_of_isPlain isPlain) h
  obtain rfl := all (Call.putsAll_of_isOk isOk)
  obtain ⟨members, pending, committed⟩ := ExactSet.perform_of_isPlain isPlain performed
  refine tracks.goes valid goes.config goes.isOpen grown.sound goes.faithful keeps (fun fp => ?_)
    ?_ ?_
  · rw [grown.members, members, tracks.members]
  · rw [pending]
    exact Config.stores_of_keeps tracks.pending valid keeps (by decide) (by decide)
  · rw [committed]
    exact Config.stores_of_keeps tracks.committed valid keeps (by decide) (by decide)

/-- A set that wrote a checkpoint aside tracks the other one with its fingerprints in progress. -/
theorem beginCheckpoint (tracks : s.Tracks exact c h.files) (valid : c.validate = .ok ())
    (begun : (s.beginCheckpoint h).answer = .ok ()) :
    (s.beginCheckpoint h).set.Tracks { exact with pending := some exact.members } c
        (s.beginCheckpoint h).host.files ∧
      c.Keeps setFiles h.files (s.beginCheckpoint h).host.files := by
  obtain ⟨isOpen, config, faithful, keeps⟩ := tracks.faithful.beginCheckpoint tracks.isOpen
  have keeps := tracks.shares.keeps_iff.1 keeps
  have same := tracks.sound.of_flushed (flushed_flushNow tracks.sound.mapped h)
  rw [← set_beginCheckpoint tracks.isOpen] at same
  obtain ⟨sound, members, _, _⟩ := same
  refine tracks.goes valid config isOpen sound faithful keeps
    (fun fp => members.mem_iff.trans (tracks.members fp)) (fun fps is => ?_)
    (Config.stores_of_keeps tracks.committed valid keeps (by decide) (by decide))
  obtain rfl := Option.some.inj is
  exact tracks.sound.stores_beginCheckpoint tracks.faithful tracks.isOpen tracks.shares begun
    tracks.members

/-- A set that put its checkpoint in place tracks the other one with that committed. -/
theorem commitCheckpoint (tracks : s.Tracks exact c h.files) (valid : c.validate = .ok ())
    (committed : (s.commitCheckpoint h).answer = .ok ()) {fps : Finset (Fingerprint w)}
    (pending : exact.pending = some fps) :
    (s.commitCheckpoint h).set.Tracks { exact with pending := none, committed := some fps } c
        (s.commitCheckpoint h).host.files ∧
      c.Keeps setFiles h.files (s.commitCheckpoint h).host.files := by
  obtain ⟨stored, keeps⟩ := stores_commitCheckpoint tracks.faithful.valid tracks.isOpen
    tracks.shares committed (tracks.pending fps pending)
  rw [set_commitCheckpoint]
  have faithful := tracks.faithful.of_alters (tracks.shares.keeps_iff.2 keeps).alters (by decide)
  refine tracks.goes valid rfl tracks.isOpen tracks.sound faithful keeps tracks.members
    (fun others is => ?_) fun others is => ?_
  · contradiction
  · obtain rfl := Option.some.inj is
    exact stored

/-- A set that went back to its checkpoint tracks the other one with the committed fingerprints. -/
theorem recover (tracks : s.Tracks exact c h.files) (valid : c.validate = .ok ())
    (recovered : (s.recover h).answer = .ok ()) {fps : Finset (Fingerprint w)}
    (committed : exact.committed = some fps) :
    (s.recover h).set.Tracks { exact with members := fps } c (s.recover h).host.files ∧
      c.Keeps setFiles h.files (s.recover h).host.files := by
  have recovery := tracks.faithful.recovery tracks.isOpen
  obtain ⟨config, keeps, whole⟩ := recovery.goes tracks.faithful tracks.isOpen
  obtain ⟨isOpen, sound, members⟩ := tracks.sound.members_recover tracks.faithful tracks.isOpen
    tracks.shares (tracks.committed fps committed) recovered
  have faithful : (s.recover h).set.Faithful (s.recover h).host.files := by
    rcases whole with closed | ⟨_, faithful⟩
    · rw [isOpen] at closed
      contradiction
    · exact faithful
  have keeps := tracks.shares.keeps_iff.1 keeps
  exact tracks.goes valid config isOpen sound faithful keeps members
    (Config.stores_of_keeps tracks.pending valid keeps (by decide) (by decide))
    (Config.stores_of_keeps tracks.committed valid keeps (by decide) (by decide))

/-- A call that neither set refuses leaves the one tracking the other. -/
theorem perform (tracks : s.Tracks exact c h.files) (valid : c.validate = .ok ()) {k : Call w}
    (isOk : (k.perform s h).answer.isOk) {answers : List Bool}
    (performed : exact.perform k = some (answers, after)) :
    (k.perform s h).set.Tracks after c (k.perform s h).host.files ∧
      c.Keeps setFiles h.files (k.perform s h).host.files := by
  by_cases isPlain : k.isPlain
  · exact tracks.plain valid isPlain isOk performed
  · cases k with
    | beginCheckpoint =>
      obtain rfl := (Prod.mk.inj (Option.some.inj performed)).2
      exact tracks.beginCheckpoint valid (eq_ok_of_isOk_map isOk)
    | commitCheckpoint =>
      obtain ⟨fps, pending, placed⟩ := Option.map_eq_some_iff.1 performed
      obtain rfl := (Prod.mk.inj placed).2
      exact tracks.commitCheckpoint valid (eq_ok_of_isOk_map isOk) pending
    | recover =>
      obtain ⟨fps, committed, back⟩ := Option.map_eq_some_iff.1 performed
      obtain rfl := (Prod.mk.inj back).2
      exact tracks.recover valid (eq_ok_of_isOk_map isOk) committed
    | close cleanup => contradiction
    | _ => exact absurd rfl isPlain

/-- A checkpoint in progress that the other set has not the files lack still, after a call that
succeeds. -/
theorem lacks_pending (tracks : s.Tracks exact c h.files) (valid : c.validate = .ok ())
    {k : Call w} (isOk : (k.perform s h).answer.isOk) {answers : List Bool}
    (performed : exact.perform k = some (answers, after))
    (lacks : exact.pending = none → c.Lacks .pendingCopy .pendingHeader h.files)
    (none : after.pending = none) :
    c.Lacks .pendingCopy .pendingHeader (k.perform s h).host.files := by
  have alters := tracks.shares.alters_iff.1 (tracks.faithful.alters_perform tracks.isOpen k)
  have still (same : after.pending = exact.pending) (only : k.altered = [.run]) :
      c.Lacks .pendingCopy .pendingHeader (k.perform s h).host.files := by
    rw [only] at alters
    exact (lacks (same.symm.trans none)).of_alters valid alters
      (Config.fileName_not_mem _ (by decide)) (Config.fileName_not_mem _ (by decide))
  by_cases isPlain : k.isPlain
  · exact still (ExactSet.perform_of_isPlain isPlain performed).2.1
      (Call.altered_of_isPlain isPlain)
  · cases k with
    | beginCheckpoint =>
      obtain rfl := (Prod.mk.inj (Option.some.inj performed)).2
      contradiction
    | commitCheckpoint =>
      have placed := commitCheckpoint_eq_ok tracks.isOpen (eq_ok_of_isOk_map isOk)
      have gone := (SetPaths.find_of_commit tracks.faithful.valid placed).2.2
      rw [tracks.shares.paths] at gone
      exact .inl gone
    | recover =>
      obtain ⟨_, _, back⟩ := Option.map_eq_some_iff.1 performed
      obtain rfl := (Prod.mk.inj back).2
      exact still rfl rfl
    | close cleanup => contradiction
    | _ => exact absurd rfl isPlain

/-- A committed checkpoint that the other set has not the files lack still, after a call that
succeeds. -/
theorem lacks_committed (tracks : s.Tracks exact c h.files) (valid : c.validate = .ok ())
    {k : Call w} {answers : List Bool} (performed : exact.perform k = some (answers, after))
    (lacks : exact.committed = none → c.Lacks .copy .header h.files)
    (none : after.committed = none) : c.Lacks .copy .header (k.perform s h).host.files := by
  have alters := tracks.shares.alters_iff.1 (tracks.faithful.alters_perform tracks.isOpen k)
  have still (same : after.committed = exact.committed) (copy : .copy ∉ k.altered)
      (header : .header ∉ k.altered) : c.Lacks .copy .header (k.perform s h).host.files :=
    (lacks (same.symm.trans none)).of_alters valid alters (Config.fileName_not_mem _ copy)
      (Config.fileName_not_mem _ header)
  by_cases isPlain : k.isPlain
  · have only := Call.altered_of_isPlain isPlain
    exact still (ExactSet.perform_of_isPlain isPlain performed).2.2 (by simp [only])
      (by simp [only])
  · cases k with
    | beginCheckpoint =>
      obtain rfl := (Prod.mk.inj (Option.some.inj performed)).2
      exact still rfl (by simp [Call.altered]) (by simp [Call.altered])
    | commitCheckpoint =>
      obtain ⟨_, _, placed⟩ := Option.map_eq_some_iff.1 performed
      obtain rfl := (Prod.mk.inj placed).2
      contradiction
    | recover =>
      obtain ⟨_, _, back⟩ := Option.map_eq_some_iff.1 performed
      obtain rfl := (Prod.mk.inj back).2
      exact still rfl (by simp [Call.altered]) (by simp [Call.altered])
    | close cleanup => contradiction
    | _ => exact absurd rfl isPlain

end Tracks

end DiskSet

end SeenStates
