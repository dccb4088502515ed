import SeenStates.Proofs.CallSteps
import SeenStates.Proofs.ShardConfinement

/-!
# Deleted runs

Closing a set with its runs to be deleted does not come to the runs of those shards that are closed
already: by being closed without that, by being closed when the run could not be deleted, or by
failing to go back to a checkpoint. Of every shard that is still open no run is there any more when
closing succeeds, and of every closed one it is as it was (`cleaned_of_close`).
-/
namespace SeenStates

variable {w : Width}

/-! ## Files -/

/-- A file that was deleted is not there. -/
theorem Files.isThere_of_removeFile {t u : Files} {path directory name : String}
    (leads : Leads path directory name) (removed : t.removeFile path = .ok u) :
    u.isThere path = false := by
  have keeps := keeps_removeFile leads removed
  unfold removeFile at removed
  split at removed
  · contradiction
  · contradiction
  · next l contents located =>
    obtain rfl := Except.ok.inj removed
    obtain ⟨takes, _⟩ := locate_eq_file_iff.1 located
    obtain ⟨here, entered, rfl⟩ := leads.takes takes
    rw [isThere]
    cases found : (t.clear (here ++ [name])).find path with
    | error fault => rfl
    | ok e =>
      obtain ⟨there, entered', _, _, stands⟩ := leads.find_eq_ok found
      obtain rfl := enter_unique entered' (keeps.stays.enter entered)
      rw [lookup_clear_self (free_of_lookup_ne takes.free)] at stands
      contradiction

/-- A file that is not found when it is to be deleted is not there. -/
theorem Files.isThere_of_notFound {t : Files} {path : String}
    (missing : t.removeFile path = .error .notFound) : t.isThere path = false := by
  unfold removeFile at missing
  split at missing
  · next fault lost =>
    rw [isThere, find, lost]
    rfl
  · cases missing
  · contradiction

namespace Config

variable {c : Config} {j k : Nat} {t u : Files}

/-- What one shard does to its files makes no file of another one. -/
theorem isThere_of_keeps_part (valid : c.validate = .ok ()) (differ : j ≠ k) {fs : List SetFile}
    (keeps : (c.part k).Keeps fs t u) (f : SetFile)
    (gone : t.isThere ((c.part j).paths.path f) = false) :
    u.isThere ((c.part j).paths.path f) = false := by
  unfold Files.isThere at gone ⊢
  cases found : u.find ((c.part j).paths.path f) with
  | error fault => rfl
  | ok e =>
    rw [find_of_alters_part valid differ keeps.alters f found] at gone
    contradiction

/-- What one shard does to its files neither makes, deletes nor changes one of another shard. -/
theorem find_iff_of_keeps_part (valid : c.validate = .ok ()) (differ : j ≠ k) {fs : List SetFile}
    (keeps : (c.part k).Keeps fs t u) (f : SetFile) (contents : ByteArray) :
    u.find ((c.part j).paths.path f) = .ok (.file contents) ↔
      t.find ((c.part j).paths.path f) = .ok (.file contents) := by
  constructor
  · exact find_of_alters_part valid differ keeps.alters f
  · intro found
    obtain ⟨l, located⟩ := Files.locate_of_find found
    exact Files.find_of_locate (locate_of_keeps_part valid differ keeps f located)

end Config

/-! ## Closing a set -/

namespace DiskSet

/-- What deleting its run when it is closed makes of the files for a set. -/
structure Cleaned (s : DiskSet w) (t u : Files) : Prop where
  /-- An open set has no run any more. -/
  gone : s.closed = false → u.isThere s.config.paths.run = false
  /-- A set that is closed already has the run that it had. -/
  left : s.closed → ∀ contents,
    u.find s.config.paths.run = .ok (.file contents) ↔
      t.find s.config.paths.run = .ok (.file contents)

/-- Closing a set with its run to be deleted deletes it, if the set is open. -/
theorem cleaned_close {s : DiskSet w} {h : Host} (valid : s.config.validate = .ok ())
    (closes : (s.close true h).answer = .ok ()) :
    s.Cleaned h.files (s.close true h).host.files := by
  cases closed : s.closed with
  | true =>
    have same : s.close true h = .ok () s h := if_pos closed
    rw [same]
    refine ⟨fun isOpen => ?_, fun _ contents => .rfl⟩
    rw [closed] at isOpen
    contradiction
  | false =>
    refine ⟨fun _ => ?_, fun shut => ?_⟩
    · simp only [close, closed, Bool.false_eq_true, if_false, if_true] at closes ⊢
      split at closes
      · next files removed => exact Files.isThere_of_removeFile (Config.leads valid .run) removed
      · next missing => exact Files.isThere_of_notFound missing
      · contradiction
    · rw [closed] at shut
      contradiction

/-- What one shard does to its files leaves what was done to the run of another one. -/
theorem Cleaned.of_keeps_part {c : Config} {j k : Nat} {d : DiskSet w} {t u v : Files}
    (cleaned : d.Cleaned t u) (shares : (c.part j).SharesFiles d.config)
    (valid : c.validate = .ok ()) (differ : j ≠ k) (keeps : (c.part k).Keeps [.run] u v) :
    d.Cleaned t v := by
  have run : d.config.paths.run = (c.part j).paths.path .run := by rw [shares.paths]; rfl
  constructor
  case gone =>
    intro isOpen
    have gone := cleaned.gone isOpen
    rw [run] at gone ⊢
    exact Config.isThere_of_keeps_part valid differ keeps .run gone
  case left =>
    intro closed contents
    have left := cleaned.left closed contents
    rw [run] at left ⊢
    exact (Config.find_iff_of_keeps_part valid differ keeps .run contents).trans left

/-- What is left of a run from one tree to another, and then when it is to be deleted. -/
theorem Cleaned.after {d : DiskSet w} {t u v : Files} (cleaned : d.Cleaned u v)
    (same : ∀ contents, u.find d.config.paths.run = .ok (.file contents) ↔
      t.find d.config.paths.run = .ok (.file contents)) : d.Cleaned t v :=
  ⟨cleaned.gone, fun closed contents => (cleaned.left closed contents).trans (same contents)⟩

end DiskSet

/-! ## Parts of sets -/

/-- A disk-backed set of the files of a configuration. -/
structure DiskSet.Of (c : Config) (d : DiskSet w) : Prop where
  /-- It has the files of the configuration. -/
  shares : c.SharesFiles d.config
  /-- It is of a valid one. -/
  valid : d.config.validate = .ok ()

/-- A set of disk-backed sets of which something holds, each with the configuration of its files:
the whole one, or that of a shard. -/
inductive FingerprintSet.Parts (c : Config) (holds : Config → DiskSet w → Prop) :
    FingerprintSet w → Prop where
  /-- It is one set. -/
  | single {d : DiskSet w} (here : holds c d) : Parts c holds (.single (.disk d))
  /-- It is cut into shards. -/
  | sharded {p : Nat} {s : ShardedSet w p}
    (each : ∀ i, ∃ d, s.shards.get i = .disk d ∧ holds (c.part i) d) : Parts c holds (.sharded p s)

/-- A disk-backed set that opens consists of disk-backed sets that are fresh. -/
theorem Way.fresh_of_open {way : Way} {machine : Machine} {c : Config} (kind : c.kind = .disk)
    {h after : Host} {s : FingerprintSet w}
    (opened : way.open w machine c h = (.ok s, after)) :
    c.validate = .ok () ∧ s.Parts c fun e d => d.Fresh e after.files := by
  rcases open_eq_ok kind opened with ⟨_, d, rfl, opens⟩ | ⟨_, shards, rfl, opens⟩
  · have start := DiskSet.opened_of_open opens
    exact ⟨start.valid, .single (start.fresh ⟨rfl, rfl, rfl⟩)⟩
  · obtain ⟨valid, fresh, _⟩ := ShardedSet.fresh_of_open opens
    refine ⟨valid, .sharded fun i => ?_⟩
    have here := fresh i
    cases shard : shards.shards.get i with
    | disk d =>
      rw [shard] at here
      exact ⟨d, rfl, here.2⟩
    | bloom f =>
      rw [shard] at here
      cases kind.symm.trans here

/-- A shard that a disk-backed one is related to is disk-backed. -/
theorem Shard.Related.of_disk {r : DiskSet w → DiskSet w → Prop} {d : DiskSet w} {s : Shard w}
    (related : (Shard.disk d).Related r s) : ∃ e, s = .disk e ∧ r d e := by
  cases related with
  | disk related => exact ⟨_, rfl, related⟩

namespace FingerprintSet.Parts

variable {c : Config} {holds after : Config → DiskSet w → Prop} {s u : FingerprintSet w}

/-- Disk-backed sets of which something holds go over to related ones of which something else
holds. -/
theorem of_related {r : DiskSet w → DiskSet w → Prop} (parts : s.Parts c holds)
    (related : s.Related r u) (goes : ∀ e d d', holds e d → r d d' → after e d') :
    u.Parts c after := by
  cases parts with
  | single here =>
    cases related with
    | single related =>
      obtain ⟨d', rfl, same⟩ := related.of_disk
      exact .single (goes _ _ _ here same)
  | sharded each =>
    cases related with
    | sharded related =>
      refine .sharded fun i => ?_
      obtain ⟨d, disk, here⟩ := each i
      obtain ⟨d', disk', same⟩ := (disk ▸ related i).of_disk
      exact ⟨d', disk', goes _ _ _ here same⟩

/-- What holds of each part can be weakened. -/
theorem mono (parts : s.Parts c holds) (weaker : ∀ e d, holds e d → after e d) :
    s.Parts c after := by
  cases parts with
  | single here => exact .single (weaker _ _ here)
  | sharded each =>
    refine .sharded fun i => ?_
    obtain ⟨d, disk, here⟩ := each i
    exact ⟨d, disk, weaker _ _ here⟩

end FingerprintSet.Parts

/-! ## Closing shards -/

/-- Closing a sharded set with its runs to be deleted, when it succeeds, deletes the run of each
shard that is open. -/
theorem ShardedSet.cleaned_close {p : Nat} {c : Config} {s : ShardedSet w p} {h : Host}
    (valid : c.validate = .ok ())
    (parts : ∀ i, ∃ d, s.shards.get i = .disk d ∧ d.Of (c.part i))
    (closes : (s.close true h).answer = .ok ()) (i : Fin (Nat.pow 2 p)) {d : DiskSet w}
    (disk : s.shards.get i = .disk d) : d.Cleaned h.files (s.close true h).host.files := by
  -- a shard that is still to be closed, with the run it had, and one that was closed
  let before (i : Fin (Nat.pow 2 p)) (d : DiskSet w) (t : Files) : Prop :=
    s.shards.get i = .disk d ∧ d.Of (c.part i) ∧ ∀ contents,
      t.find d.config.paths.run = .ok (.file contents) ↔
        h.files.find d.config.paths.run = .ok (.file contents)
  let after (i : Fin (Nat.pow 2 p)) (_ : DiskSet w) (t : Files) : Prop :=
    ∃ d, s.shards.get i = .disk d ∧ d.Of (c.part i) ∧ d.Cleaned h.files t
  let changes (i : Fin (Nat.pow 2 p)) (t u : Files) : Prop := (c.part i).Keeps [.run] t u
  have start : Each before s h.files := by
    intro i
    obtain ⟨d, disk, part⟩ := parts i
    exact ⟨d, disk, disk, part, fun _ => .rfl⟩
  have own : ∀ part ∈ (Call.close true).parts p, ∀ (d : DiskSet w) g, before part.1 d g.files →
      (part.2.perform d g).answer.isOk →
      after part.1 (part.2.perform d g).set (part.2.perform d g).host.files ∧
        changes part.1 g.files (part.2.perform d g).host.files := by
    intro part among d g here isOk
    obtain ⟨i, _, rfl⟩ := List.mem_map.1 among
    obtain ⟨disk, part, same⟩ := here
    have cleaned := DiskSet.cleaned_close part.valid (DiskSet.eq_ok_of_isOk_map isOk)
    have keeps := (DiskSet.close_closes (h := g) part.valid true).2.2
    exact ⟨⟨d, disk, part, cleaned.after same⟩, part.shares.keeps_iff.1 keeps⟩
  have others : ∀ i j, i ≠ j → ∀ (d : DiskSet w) t u, changes j t u →
      (before i d t → before i d u) ∧ (after i d t → after i d u) := by
    intro i j differ d t u keeps
    have apart : i.val ≠ j.val := fun same => differ (Fin.ext same)
    constructor
    · rintro ⟨disk, part, same⟩
      refine ⟨disk, part, fun contents => .trans ?_ (same contents)⟩
      rw [part.shares.paths]
      exact Config.find_iff_of_keeps_part valid apart keeps .run contents
    · rintro ⟨d, disk, part, cleaned⟩
      exact ⟨d, disk, part, cleaned.of_keeps_part part.shares valid apart keeps⟩
  have rest : ∀ i, i ∉ ((Call.close true : Call w).parts p).map Prod.fst →
      ∀ (d : DiskSet w) t, before i d t → after i d t := by
    intro i absent
    simp [Call.parts] at absent
  have all := Each.run (c := .close true) changes start own rest others (by
    show ((s.close true h).map fun _ => []).answer.isOk
    rw [Outcome.map, closes]
    rfl)
  obtain ⟨_, _, e, same, _, cleaned⟩ := all i
  rw [disk, Shard.disk.injEq] at same
  exact same ▸ cleaned

/-- The disk-backed sets that a set consists of are the parts of it. -/
theorem FingerprintSet.Parts.of_mem_disks {c : Config} {holds : Config → DiskSet w → Prop}
    {s : FingerprintSet w} (parts : s.Parts c holds) {d : DiskSet w} (among : d ∈ s.disks) :
    ∃ e, holds e d := by
  cases parts with
  | single here => exact ⟨c, List.mem_singleton.1 among ▸ here⟩
  | sharded each =>
    obtain ⟨i, _, disk⟩ := List.mem_filterMap.1 among
    obtain ⟨e, here, part⟩ := each i
    rw [here] at disk
    exact ⟨_, Option.some.inj disk ▸ part⟩

/-- Closing a set with its runs to be deleted, when it succeeds, deletes the run of each part that
is open. -/
theorem FingerprintSet.Parts.cleaned {c : Config} {s : FingerprintSet w} {h : Host}
    (parts : s.Parts c DiskSet.Of) (valid : c.validate = .ok ())
    (closes : (s.close true h).answer = .ok ()) :
    ∀ d ∈ s.disks, d.Cleaned h.files (s.close true h).host.files := by
  intro d among
  cases parts with
  | single here =>
    obtain rfl := List.mem_singleton.1 among
    exact DiskSet.cleaned_close here.valid closes
  | sharded each =>
    obtain ⟨i, _, disk⟩ := List.mem_filterMap.1 among
    obtain ⟨e, here, part⟩ := each i
    rw [here] at disk
    obtain rfl := Option.some.inj disk
    exact ShardedSet.cleaned_close valid each closes i here

/-! ## Sets that nothing closes -/

namespace DiskSet

/-- A set that can go on: it is open, and sturdy. -/
structure Afloat (d : DiskSet w) : Prop where
  /-- It is open. -/
  isOpen : d.closed = false
  /-- It is sturdy. -/
  sturdy : d.Sturdy

/-- A call that is not to close a set leaves it open, unless it fails to go back to a checkpoint. -/
theorem Afloat.perform {d : DiskSet w} (afloat : d.Afloat) {c : Call w}
    (other : ∀ cleanup, c ≠ .close cleanup) (h : Host)
    (recovers : c = .recover → (c.perform d h).answer.isOk) : (c.perform d h).set.Afloat :=
  ⟨(afloat.sturdy.closed_perform other h recovers).trans afloat.isOpen,
    afloat.sturdy.course (afloat.sturdy.course_perform c h)⟩

end DiskSet

/-- A call that is not to close a sharded set leaves all shards open, unless it fails to go back to
a checkpoint. -/
theorem ShardedSet.afloat_onShards {p : Nat} {s : ShardedSet w p} {h : Host}
    (each : ∀ i, ∃ d, s.shards.get i = .disk d ∧ d.Afloat) {c : Call w}
    (other : ∀ cleanup, c ≠ .close cleanup)
    (recovers : c = .recover → (c.onShards s h).answer.isOk) :
    ∀ i, ∃ d, (c.onShards s h).set.shards.get i = .disk d ∧ d.Afloat := by
  let holds (_ : Fin (Nat.pow 2 p)) (d : DiskSet w) (_ : Files) : Prop := d.Afloat
  let changes (_ : Fin (Nat.pow 2 p)) (_ _ : Files) : Prop := True
  have start : Each holds s h.files := each
  have others : ∀ i j, i ≠ j → ∀ (d : DiskSet w) t u, changes j t u →
      (holds i d t → holds i d u) ∧ (holds i d t → holds i d u) :=
    fun _ _ _ _ _ _ _ => ⟨id, id⟩
  by_cases back : c = .recover
  · subst back
    refine Each.run changes start (fun part among d g afloat isOk => ?_) (fun _ _ _ _ => id)
      others (recovers rfl)
    obtain ⟨i, _, rfl⟩ := List.mem_map.1 among
    exact ⟨afloat.perform other g fun _ => isOk, trivial⟩
  · refine Each.keeps changes start (fun _ _ _ => id) (fun part among d g afloat => ?_) others
    refine ⟨afloat.perform ?_ g fun same => ?_, trivial⟩
    · rcases Call.eq_or_isPlain among with same | ⟨isPlain, _⟩
      · exact same ▸ other
      · rintro cleanup same
        rw [same] at isPlain
        contradiction
    · rcases Call.eq_or_isPlain among with same' | ⟨isPlain, _⟩
      · exact absurd (same'.symm.trans same) back
      · rw [same] at isPlain
        contradiction

namespace FingerprintSet

/-- What can come of a set and its surroundings as long as nothing closes it: no call is to, those
that go back to a checkpoint succeed, and the files change between calls. -/
inductive Continues (s : FingerprintSet w) (h : Host) : FingerprintSet w → Host → Prop where
  /-- Nothing has come of it yet. -/
  | start : Continues s h s h
  /-- A call was made. -/
  | call {u : FingerprintSet w} {g : Host} (continues : Continues s h u g) (c : Call w)
    (other : ∀ cleanup, c ≠ .close cleanup)
    (recovers : c = .recover → (c.onFingerprintSet u g).answer.isOk) :
    Continues s h (c.onFingerprintSet u g).set (c.onFingerprintSet u g).host
  /-- The files changed. -/
  | outside {u : FingerprintSet w} {g : Host} (continues : Continues s h u g) (files : Files) :
    Continues s h u (g.withFiles files)

variable {s u : FingerprintSet w} {h g : Host}

/-- What can come of a set that nothing closes can come of it. -/
theorem Continues.sequel (continues : s.Continues h u g) : s.Sequel h u g := by
  induction continues with
  | start => exact .start
  | call continues c other recovers ih => exact ih.call c
  | outside continues files ih => exact ih.outside files

/-- A set that nothing closes stays open. -/
theorem Continues.afloat {c : Config} (continues : s.Continues h u g)
    (start : s.Parts c fun _ d => d.Afloat) : u.Parts c fun _ d => d.Afloat := by
  induction continues with
  | start => exact start
  | outside continues files ih => exact ih
  | @call u g continues call other recovers ih =>
    cases ih with
    | @single d afloat =>
      rw [Call.onFingerprintSet_single, Call.onShard_disk] at recovers ⊢
      exact .single (afloat.perform other g recovers)
    | sharded each =>
      rw [Call.onFingerprintSet_sharded] at recovers ⊢
      exact .sharded (ShardedSet.afloat_onShards each other recovers)

end FingerprintSet

/-- When closing a disk-backed set with its runs to be deleted succeeds, whatever came of the set
before, no run is there any more of those sets that it consists of and that were still open, and
the others have the runs that they had. If nothing has closed the set before, no run is there. -/
theorem cleaned_of_close {way : Way} {machine : Machine} {c : Config} (kind : c.kind = .disk)
    {h after : Host} {s : FingerprintSet w}
    (opened : way.open w machine c h = (.ok s, after)) :
    (∀ u g, s.Sequel after u g → u.disks.map DiskSet.config = s.disks.map DiskSet.config ∧
      ((u.close true g).answer = .ok () →
        ∀ d ∈ u.disks, d.Cleaned g.files (u.close true g).host.files)) ∧
      ∀ u g, s.Continues after u g → (u.close true g).answer = .ok () →
        ∀ d ∈ u.disks, (u.close true g).host.files.isThere d.config.paths.run = false := by
  obtain ⟨valid, fresh⟩ := Way.fresh_of_open kind opened
  have parts (u : FingerprintSet w) (g : Host) (sequel : s.Sequel after u g) :
      u.Parts c DiskSet.Of := by
    refine fresh.of_related (sequel.related DiskSet.lasting_config) fun e d d' start goes => ?_
    obtain ⟨_, config⟩ := goes ⟨start.sound.idle, fun _ => start.sound.mapped⟩
    exact ⟨config ▸ start.shares, config ▸ start.faithful.valid⟩
  have afloat : s.Parts c fun _ d => d.Afloat := fresh.mono fun e d start =>
    ⟨start.isOpen, start.sound.idle, fun _ => start.sound.mapped⟩
  refine ⟨fun u g sequel => ⟨?_, (parts u g sequel).cleaned valid⟩, ?_⟩
  · have sturdy : ∀ d ∈ s.disks, d.Sturdy := fun d among => by
      obtain ⟨_, afloat⟩ := afloat.of_mem_disks among
      exact afloat.sturdy
    have related := FingerprintSet.related_of_sequel DiskSet.lasting_config sturdy sequel
    refine List.forall₂_eq_eq_eq ▸ ?_
    rw [List.forall₂_map_left_iff, List.forall₂_map_right_iff]
    exact (related.imp fun _ _ both => both.2).flip
  · intro u g continues closes d among
    obtain ⟨_, afloat⟩ := (continues.afloat afloat).of_mem_disks among
    exact ((parts u g continues.sequel).cleaned valid closes d among).gone afloat.isOpen

/-- The set of two shards is opened in shards. -/
theorem open_inShards : Way.inShards.open .bits64 sampleMachine shardedConfig .empty =
    (.ok (.sharded _ shardedSet), shardedHost) := by
  simp only [Way.open, open_sharded, Except.map]

/-- The two shards, closed with their runs kept. -/
def closedShards : Outcome (FingerprintSet .bits64) (List Bool) :=
  (Call.close false).onFingerprintSet (.sharded _ shardedSet) shardedHost

/-- Both shards are closed then, closing them again with their runs to be deleted succeeds, and a
run is still there. -/
theorem closedShards_answers :
    (∀ d ∈ closedShards.set.disks, d.closed) ∧
      (closedShards.set.close true closedShards.host).answer = .ok () ∧
      (closedShards.set.close true closedShards.host).host.files.isThere
        (shardedConfig.part 0).paths.run := by
  decide +kernel

/-- Two open shards have no run any more after they were closed with their runs to be deleted. Two
that were closed before have the runs that they had, and one is there. -/
theorem cleaned_of_close_twice :
    (∀ d ∈ (FingerprintSet.sharded _ shardedSet).disks,
        (FingerprintSet.close true (.sharded _ shardedSet) shardedHost).host.files.isThere
          d.config.paths.run = false) ∧
      (∀ d ∈ closedShards.set.disks, d.closed ∧ d.Cleaned closedShards.host.files
        (closedShards.set.close true closedShards.host).host.files) ∧
      (closedShards.set.close true closedShards.host).host.files.isThere
        (shardedConfig.part 0).paths.run := by
  obtain ⟨sequel, continues⟩ := cleaned_of_close (by rfl) open_inShards
  obtain ⟨closed, again, there⟩ := closedShards_answers
  have first : (FingerprintSet.close true (.sharded _ shardedSet) shardedHost).answer = .ok () := by
    decide +kernel
  have closing : FingerprintSet.Sequel (.sharded _ shardedSet) shardedHost closedShards.set
      closedShards.host := .call .start (.close false)
  have left := (sequel _ _ closing).2 again
  exact ⟨continues _ _ .start first, fun d among => ⟨closed d among, left d among⟩, there⟩

end SeenStates
