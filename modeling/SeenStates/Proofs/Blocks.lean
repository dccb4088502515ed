import SeenStates.Proofs.Alike
import SeenStates.Proofs.ShardCalls

/-!
# Blocks of a sharded set

A block of fingerprints is handed to the shards batch by batch, and comes to what its fingerprints
come to one after the other (`ShardedSet.block_inTurn`). Both are lists of calls of shards for some
fingerprints, which give each shard the same fingerprints in the same order; and what a shard does
with its fingerprints does not depend on what other shards did before (`IsLocal`), so it can be
told from the shard alone, in the files as they were at first (`each_of_inTurn`).
-/
namespace SeenStates

variable {w : Width} {p : Nat}

/-! ## Local operations -/

/-- From one tree to another a set's run is put in place any number of times, and nothing else
changes. -/
structure Config.Rewrites (c : Config) (t u : Files) : Prop where
  /-- No other file changes. -/
  keeps : c.Keeps [.run] t u
  /-- No draft is left behind. -/
  drafts : u.drafts = t.drafts

/-- No change rewrites nothing. -/
theorem Config.Rewrites.refl (c : Config) (t : Files) : c.Rewrites t t := ⟨.refl .., rfl⟩

/-- What is rewritten in one step and in the next is rewritten in both. -/
theorem Config.Rewrites.trans {c : Config} {t u v : Files} (first : c.Rewrites t u)
    (second : c.Rewrites u v) : c.Rewrites t v :=
  ⟨first.keeps.trans second.keeps, second.drafts.trans first.drafts⟩

/-- A set that is open and faithful to its files, in which its run can be written. -/
structure DiskSet.Ready (c : Config) (s : DiskSet w) (t : Files) : Prop where
  /-- It has the files of the configuration. -/
  shares : c.SharesFiles s.config
  /-- It is open. -/
  isOpen : s.closed = false
  /-- It is faithful to its files. -/
  faithful : s.Faithful t
  /-- Its run can be written. -/
  alike : t.Alike c.paths.run t

namespace Shard

/-- A shard that is ready for puts and queries. A Bloom filter does not depend on files. -/
def Ready (c : Config) : Shard w → Files → Prop
  | disk s, t => s.Ready c t
  | bloom _, _ => True

/-- Trees in which a shard does the same. -/
def Alike (c : Config) : Shard w → Files → Files → Prop
  | disk _, t, u => t.Alike c.paths.run u
  | bloom _, _, _ => True

end Shard

/-- An operation of shards that leaves a shard ready and changes no file but its run, and does the
same wherever that can be written alike. -/
structure IsLocal {α : Type} (op : Shard w → Host → Outcome (Shard w) α) : Prop where
  /-- It leaves a shard ready. -/
  ready : ∀ {c : Config} {shard : Shard w} {h : Host}, shard.Ready c h.files →
    (op shard h).set.Ready c (op shard h).host.files
  /-- It changes no file but the run. -/
  rewrites : ∀ {c : Config} {shard : Shard w} {h : Host}, shard.Ready c h.files →
    c.Rewrites h.files (op shard h).host.files
  /-- It does the same in trees that are alike, which it leaves alike. -/
  alike : ∀ {c : Config} {shard : Shard w} {h g : Host}, shard.Ready c h.files →
    shard.Alike c h.files g.files →
    (op shard g).answer = (op shard h).answer ∧ (op shard g).set = (op shard h).set ∧
      (op shard h).set.Alike c (op shard h).host.files (op shard g).host.files

/-- An operation on each of several fingerprints is local if it is for each. -/
theorem IsLocal.each {α : Type} {op : Fingerprint w → Shard w → Host → Outcome (Shard w) α}
    (isLocal : ∀ fp, IsLocal (op fp)) (fps : List (Fingerprint w)) :
    IsLocal (Outcome.each op fps) := by
  induction fps with
  | nil => exact ⟨fun ready => ready, fun _ => .refl .., fun _ alike => ⟨rfl, rfl, alike⟩⟩
  | cons fp rest ih =>
    constructor
    case ready =>
      intro c shard h ready
      have first := (isLocal fp).ready ready
      simp only [Outcome.each, Outcome.andThen]
      split
      · exact ih.ready first
      · exact first
    case rewrites =>
      intro c shard h ready
      have first := (isLocal fp).rewrites ready
      simp only [Outcome.each, Outcome.andThen]
      split
      · exact first.trans (ih.rewrites ((isLocal fp).ready ready))
      · exact first
    case alike =>
      intro c shard h g ready alike
      obtain ⟨answer, set, files⟩ := (isLocal fp).alike ready alike
      simp only [Outcome.each, Outcome.andThen, answer, set]
      split
      · obtain ⟨answers, sets, after⟩ := ih.alike ((isLocal fp).ready ready) files
        exact ⟨congrArg (Except.map _) answers, sets, after⟩
      · exact ⟨rfl, rfl, files⟩

namespace DiskSet

variable {s : DiskSet w} {h g : Host}

/-- A flush leaves no draft behind. -/
theorem drafts_flushNow (mapped : s.disk.mapped.isSome) (h : Host) :
    (s.flushNow h).host.files.drafts = h.files.drafts := by
  have ends := flushed_flushNow mapped h
  generalize s.flushNow h = o at ends
  obtain ⟨answer, u, host⟩ := o
  simp only at ends ⊢
  generalize host.files = after at ends
  cases ends with
  | failed e => rfl
  | nothing vacant => rfl
  | written l entries takes ascending storable all => rfl

/-- A put leaves no draft behind. -/
theorem drafts_put (isOpen : s.closed = false) (faithful : s.Faithful h.files)
    (fp : Fingerprint w) : (s.put fp h).host.files.drafts = h.files.drafts := by
  have ends := putEnd isOpen faithful.idle fp h
  generalize s.put fp h = o at ends
  cases ends with
  | seen place found isSeen => rfl
  | fresh opening found => rfl
  | flushed opening found due =>
    refine drafts_flushNow ?_ h
    cases opening <;> exact faithful.mapped

end DiskSet

/-- An operation is local that changes no file but the run of a disk-backed shard, does the same in
trees that are alike, and has no use for files in a Bloom filter. -/
theorem isLocal_of {α : Type} {op : Shard w → Host → Outcome (Shard w) α}
    {onDisk : DiskSet w → Host → Outcome (DiskSet w) α}
    {onBloom : BloomFilter w → Host → Outcome (BloomFilter w) α}
    (disk : ∀ s h, op (.disk s) h = (onDisk s h).onSet .disk)
    (bloom : ∀ f h, op (.bloom f) h = (onBloom f h).onSet .bloom)
    (goes : ∀ {s : DiskSet w} {h : Host}, s.closed = false → s.Faithful h.files →
      DiskSet.Goes s h.files (onDisk s h).set (onDisk s h).host.files)
    (drafts : ∀ {s : DiskSet w} {h : Host}, s.closed = false → s.Faithful h.files →
      (onDisk s h).host.files.drafts = h.files.drafts)
    (alike : ∀ {s : DiskSet w} {h g : Host}, s.closed = false → s.Faithful h.files →
      h.files.Alike s.config.paths.run g.files →
        (onDisk s h).Alike s.config.paths.run (onDisk s g))
    (pure : ∀ f h g, onBloom f g = ⟨(onBloom f h).answer, (onBloom f h).set, g⟩) : IsLocal op := by
  have same {c : Config} {s : DiskSet w} {h g : Host} (ready : s.Ready c h.files)
      (files : h.files.Alike c.paths.run g.files) :
      (onDisk s h).Alike c.paths.run (onDisk s g) := by
    rw [← ready.shares.paths] at files ⊢
    exact alike ready.isOpen ready.faithful files
  constructor
  case ready =>
    intro c shard h ready
    cases shard with
    | disk s =>
      have ready : s.Ready c h.files := ready
      have went := goes ready.isOpen ready.faithful
      rw [disk]
      exact ⟨went.config ▸ ready.shares, went.isOpen, went.faithful,
        (same ready ready.alike).files⟩
    | bloom f =>
      rw [bloom]
      trivial
  case rewrites =>
    intro c shard h ready
    cases shard with
    | disk s =>
      have ready : s.Ready c h.files := ready
      rw [disk]
      exact ⟨ready.shares.keeps_iff.1 (goes ready.isOpen ready.faithful).keeps,
        drafts ready.isOpen ready.faithful⟩
    | bloom f =>
      rw [bloom, pure f h h]
      exact .refl ..
  case alike =>
    intro c shard h g ready files
    cases shard with
    | disk s =>
      obtain ⟨answer, set, after⟩ := same ready files
      rw [disk, disk]
      exact ⟨answer, congrArg Shard.disk set, after⟩
    | bloom f =>
      rw [bloom, bloom, pure f h g]
      exact ⟨rfl, rfl, trivial⟩

/-- Puts are local. -/
theorem isLocal_put (fp : Fingerprint w) : IsLocal (Shard.put fp) := by
  refine isLocal_of (fun _ _ => rfl) (fun _ _ => rfl) (fun o f => f.goes_put o fp)
    (fun o f => DiskSet.drafts_put o f fp) (fun o f a => DiskSet.alike_put o f.idle a fp)
    fun f h g => ?_
  unfold BloomFilter.put
  split <;> rfl

/-- Queries are local. -/
theorem isLocal_contains (fp : Fingerprint w) : IsLocal (Shard.contains fp) := by
  refine isLocal_of (fun _ _ => rfl) (fun _ _ => rfl) (fun o f => f.goes_contains o fp)
    (fun {s h} o _ => ?_) (fun o _ a => DiskSet.alike_contains o a fp) fun f h g => ?_
  · simp only [DiskSet.contains, DiskSet.whenOpen, o, Bool.false_eq_true, if_false]
    rfl
  · unfold BloomFilter.contains
    split <;> rfl

/-! ## Shards by themselves -/

/-- What one shard rewrites leaves another one ready, in a tree in which it does the same. -/
theorem Shard.Ready.of_rewrites {c : Config} (valid : c.validate = .ok ()) {j k : Nat}
    (differ : j ≠ k) {shard : Shard w} {t u : Files} (ready : shard.Ready (c.part j) t)
    (rewrites : (c.part k).Rewrites t u) :
    shard.Ready (c.part j) u ∧ shard.Alike (c.part j) t u := by
  cases shard with
  | bloom f => exact ⟨trivial, trivial⟩
  | disk s =>
    have ready : s.Ready (c.part j) t := ready
    have keeps := rewrites.keeps
    obtain ⟨here, entered, _⟩ := ready.alike.entered
    obtain ⟨l, takes, _⟩ := ready.alike.takes
    have entered' := keeps.stays.enter entered
    have takes' := Config.takes_of_keeps_part valid keeps .run takes
    have faithful : s.Faithful u := by
      refine ready.faithful.of_find fun e found => ?_
      rw [ready.shares.paths] at found ⊢
      exact Config.find_of_alters_part valid differ keeps.alters .run found
    exact ⟨⟨ready.shares, ready.isOpen, faithful, rfl, rfl, ⟨here, entered', entered'⟩, l, takes',
      takes'⟩, keeps.room, rewrites.drafts, ⟨here, entered, entered'⟩, l, takes, takes'⟩

/-- An operation on two lists one after the other. -/
theorem Outcome.each_append {σ α β : Type} (op : β → σ → Host → Outcome σ α) (first rest : List β)
    (set : σ) (host : Host) :
    each op (first ++ rest) set host =
      (each op first set host).andThen fun answers set host =>
        (each op rest set host).map (answers ++ ·) := by
  induction first generalizing set host with
  | nil =>
    simp only [List.nil_append, each, andThen, Outcome.ok, Outcome.map]
    cases each op rest set host with
    | mk answer set host => cases answer <;> rfl
  | cons b first ih =>
    simp only [List.cons_append, each, ih, andThen]
    cases op b set host with
    | mk answer set host =>
      cases answer with
      | error e => rfl
      | ok a =>
        simp only [Outcome.map]
        cases each op first set host with
        | mk answers set host =>
          cases answers with
          | error e => rfl
          | ok answers =>
            simp only [Except.map]
            cases each op rest set host with
            | mk others set host => cases others <;> rfl

/-- A mapped answer is one exactly if there was one. -/
theorem Outcome.isOk_map {σ α β : Type} (o : Outcome σ α) (f : α → β) :
    (o.map f).answer.isOk = o.answer.isOk := by
  obtain ⟨answer, set, host⟩ := o
  cases answer <;> rfl

/-- What succeeds has an answer. -/
theorem Except.exists_eq_ok {ε α : Type} {answer : Except ε α} (isOk : answer.isOk) :
    ∃ a, answer = .ok a := by
  cases answer with
  | error e => contradiction
  | ok a => exact ⟨a, rfl⟩

/-- There is an answer for each argument. -/
theorem Outcome.length_each {σ α β : Type} {op : β → σ → Host → Outcome σ α} {bs : List β} {set : σ}
    {host : Host} {answers : List α} (all : (each op bs set host).answer = .ok answers) :
    answers.length = bs.length := by
  induction bs generalizing set host answers with
  | nil =>
    obtain rfl := Except.ok.inj all
    rfl
  | cons b rest ih =>
    simp only [each, andThen] at all
    split at all
    · simp only [Outcome.map] at all
      cases others : (each op rest (op b set host).set (op b set host).host).answer with
      | error e => simp [others, Except.map] at all
      | ok found =>
        rw [others] at all
        obtain rfl := Except.ok.inj all
        rw [List.length_cons, List.length_cons, ih others]
    · contradiction

/-- An operation succeeds exactly if another one does, and then it has the same answer and leaves
the same set. -/
structure Outcome.ComesTo {σ α : Type} (o p : Outcome σ α) : Prop where
  /-- Both succeed, or both fail. -/
  succeeds : o.answer.isOk ↔ p.answer.isOk
  /-- The answers are the same. -/
  answer : o.answer.isOk → o.answer = p.answer
  /-- So are the sets. -/
  set : o.answer.isOk → o.set = p.set

namespace ShardedSet

/-- Fingerprints for shards: each entry is a shard and some fingerprints for it. -/
abbrev Errands (w : Width) (p : Nat) := List (Fin (Nat.pow 2 p) × List (Fingerprint w))

/-- The fingerprints for a shard, in order. -/
def Errands.fingerprints (errands : Errands w p) (i : Fin (Nat.pow 2 p)) : List (Fingerprint w) :=
  (errands.filter fun errand => errand.1 = i).flatMap Prod.snd

/-- What is answered for a shard, of all answers. -/
def Errands.answers {α : Type} (errands : Errands w p) (answers : List (List α))
    (i : Fin (Nat.pow 2 p)) : List α :=
  ((errands.zip answers).filter fun answered => answered.1.1 = i).flatMap Prod.snd

/-- The fingerprints of the first errand come first. -/
theorem Errands.fingerprints_cons (errand : Fin (Nat.pow 2 p) × List (Fingerprint w))
    (rest : Errands w p) (i : Fin (Nat.pow 2 p)) :
    Errands.fingerprints (errand :: rest) i =
      if errand.1 = i then errand.2 ++ rest.fingerprints i else rest.fingerprints i := by
  unfold fingerprints
  rw [List.filter_cons]
  split <;> simp_all

/-- The answers of the first errand come first. -/
theorem Errands.answers_cons {α : Type} (errand : Fin (Nat.pow 2 p) × List (Fingerprint w))
    (rest : Errands w p) (found : List α) (others : List (List α)) (i : Fin (Nat.pow 2 p)) :
    Errands.answers (errand :: rest) (found :: others) i =
      if errand.1 = i then found ++ rest.answers others i else rest.answers others i := by
  unfold answers
  rw [List.zip_cons_cons, List.filter_cons]
  split <;> simp_all

section

variable {α : Type} {op : Fingerprint w → Shard w → Host → Outcome (Shard w) α}
  {s : ShardedSet w p} {h : Host} {c : Config}

/-- An operation on the fingerprints of each errand in its shard, one errand after the other. -/
def inTurn (op : Fingerprint w → Shard w → Host → Outcome (Shard w) α) (errands : Errands w p) :
    ShardedSet w p → Host → Outcome (ShardedSet w p) (List (List α)) :=
  Outcome.each (fun errand => onShard (Outcome.each op errand.2) errand.1) errands

/-- The first errand is done first. -/
theorem inTurn_cons (errand : Fin (Nat.pow 2 p) × List (Fingerprint w)) (rest : Errands w p)
    (s : ShardedSet w p) (h : Host) :
    inTurn op (errand :: rest) s h =
      (onShard (Outcome.each op errand.2) errand.1 s h).andThen fun found u g =>
        (inTurn op rest u g).map (found :: ·) := rfl

/-- What an errand comes to: its shard does it by itself, and the others do afterwards what they
would have done before. -/
structure Done (c : Config) (op : Fingerprint w → Shard w → Host → Outcome (Shard w) α)
    (errand : Fin (Nat.pow 2 p) × List (Fingerprint w)) (s : ShardedSet w p) (h : Host)
    (o : Outcome (ShardedSet w p) (List α)) : Prop where
  /-- The answer is that of the shard. -/
  answer : o.answer = (Outcome.each op errand.2 (s.shards.get errand.1) h).answer
  /-- So is the host. -/
  host : o.host = (Outcome.each op errand.2 (s.shards.get errand.1) h).host
  /-- The shard is as it would be by itself. -/
  own : o.set.shards.get errand.1 = (Outcome.each op errand.2 (s.shards.get errand.1) h).set
  /-- All shards are ready. -/
  ready : ∀ i : Fin (Nat.pow 2 p), (o.set.shards.get i).Ready (c.part i) o.host.files
  /-- The others are as they were. -/
  others : ∀ i ≠ errand.1, o.set.shards.get i = s.shards.get i
  /-- They answer as before. -/
  answers : ∀ i ≠ errand.1, ∀ fps, (Outcome.each op fps (s.shards.get i) o.host).answer =
    (Outcome.each op fps (s.shards.get i) h).answer
  /-- They become what they would have become before. -/
  sets : ∀ i ≠ errand.1, ∀ fps, (Outcome.each op fps (s.shards.get i) o.host).set =
    (Outcome.each op fps (s.shards.get i) h).set

/-- A local operation on a shard does an errand. -/
theorem done_onShard (isLocal : ∀ fp, IsLocal (op fp)) (valid : c.validate = .ok ())
    (ready : ∀ i : Fin (Nat.pow 2 p), (s.shards.get i).Ready (c.part i) h.files)
    (errand : Fin (Nat.pow 2 p) × List (Fingerprint w)) :
    Done c op errand s h (onShard (Outcome.each op errand.2) errand.1 s h) := by
  have all := IsLocal.each isLocal errand.2
  have rewrites := all.rewrites (ready errand.1)
  have alike (i : Fin (Nat.pow 2 p)) (differ : i ≠ errand.1) (fps : List (Fingerprint w)) :=
    (IsLocal.each isLocal fps).alike (ready i)
      ((ready i).of_rewrites valid (fun eq => differ (Fin.ext eq)) rewrites).2
  rw [onShard_eq]
  constructor
  case answer => rfl
  case host => rfl
  case own => exact (get_set ..).trans (if_pos rfl)
  case ready =>
    intro i
    change Shard.Ready _ ((s.shards.set errand.1 _).get i) _
    rw [get_set]
    split
    · next same => exact same ▸ all.ready (ready errand.1)
    · next differ =>
      exact ((ready i).of_rewrites valid (fun eq => differ (Fin.ext eq.symm)) rewrites).1
  case others => exact fun i differ => (get_set ..).trans (if_neg (Ne.symm differ))
  case answers => exact fun i differ fps => (alike i differ fps).1
  case sets => exact fun i differ fps => (alike i differ fps).2.1

/-- Errands that are all done come to what each shard does by itself with its fingerprints. -/
theorem each_of_inTurn (isLocal : ∀ fp, IsLocal (op fp)) (valid : c.validate = .ok ())
    {errands : Errands w p}
    (ready : ∀ i : Fin (Nat.pow 2 p), (s.shards.get i).Ready (c.part i) h.files)
    {answers : List (List α)} (done : (inTurn op errands s h).answer = .ok answers)
    (i : Fin (Nat.pow 2 p)) :
    (Outcome.each op (errands.fingerprints i) (s.shards.get i) h).answer =
        .ok (errands.answers answers i) ∧
      (Outcome.each op (errands.fingerprints i) (s.shards.get i) h).set =
        (inTurn op errands s h).set.shards.get i := by
  induction errands generalizing s h answers with
  | nil =>
    obtain rfl := Except.ok.inj done
    exact ⟨rfl, rfl⟩
  | cons errand rest ih =>
    have first := done_onShard isLocal valid ready errand
    rw [inTurn_cons, Outcome.andThen] at done ⊢
    generalize onShard (Outcome.each op errand.2) errand.1 s h = o at first done ⊢
    cases found : o.answer with
    | error e => simp [found] at done
    | ok here =>
      simp only [found, Outcome.map] at done ⊢
      cases later : (inTurn op rest o.set o.host).answer with
      | error e => simp [later, Except.map] at done
      | ok others =>
        rw [later] at done
        obtain rfl := Except.ok.inj done
        obtain ⟨answer, set⟩ := ih first.ready later
        rw [Errands.fingerprints_cons, Errands.answers_cons]
        by_cases same : errand.1 = i
        · subst same
          rw [if_pos rfl, if_pos rfl, Outcome.each_append, Outcome.andThen, ← first.answer, found]
          simp only [Outcome.map, ← first.own, ← first.host, answer]
          exact ⟨rfl, set⟩
        · have other := Ne.symm same
          rw [first.others i other] at answer set
          rw [if_neg same, if_neg same]
          exact ⟨(first.answers i other _).symm.trans answer, (first.sets i other _).symm.trans set⟩

/-- Errands are all done if each shard can do what it has to by itself. -/
theorem isOk_inTurn (isLocal : ∀ fp, IsLocal (op fp)) (valid : c.validate = .ok ())
    {errands : Errands w p}
    (ready : ∀ i : Fin (Nat.pow 2 p), (s.shards.get i).Ready (c.part i) h.files)
    (alone : ∀ i, (Outcome.each op (errands.fingerprints i) (s.shards.get i) h).answer.isOk) :
    (inTurn op errands s h).answer.isOk := by
  induction errands generalizing s h with
  | nil => rfl
  | cons errand rest ih =>
    have first := done_onShard isLocal valid ready errand
    have own := alone errand.1
    rw [Errands.fingerprints_cons, if_pos rfl, Outcome.each_append, Outcome.andThen,
      ← first.answer] at own
    rw [inTurn_cons, Outcome.andThen]
    generalize onShard (Outcome.each op errand.2) errand.1 s h = o at first own ⊢
    cases found : o.answer with
    | error e =>
      rw [found] at own
      contradiction
    | ok here =>
      simp only [found] at own ⊢
      have later : (inTurn op rest o.set o.host).answer.isOk := by
        refine ih first.ready fun i => ?_
        by_cases same : errand.1 = i
        · subst same
          rw [first.own, first.host]
          exact DiskSet.isOk_of_isOk_map own
        · have other := Ne.symm same
          have alone := alone i
          rw [Errands.fingerprints_cons, if_neg same, ← first.answers i other] at alone
          rwa [first.others i other]
      simp only [Outcome.map]
      cases answer : (inTurn op rest o.set o.host).answer with
      | error e =>
        rw [answer] at later
        contradiction
      | ok others => rfl

end

/-! ## Batches -/

/-- One errand for each fingerprint gives each shard its fingerprints in order. -/
theorem fingerprints_singletons (fps : List (Fingerprint w)) (i : Fin (Nat.pow 2 p)) :
    Errands.fingerprints (fps.map fun fp => (fp.shard p, [fp])) i =
      fps.filter fun fp => fp.shard p = i := by
  induction fps with
  | nil => rfl
  | cons fp rest ih =>
    rw [List.map_cons, Errands.fingerprints_cons, ih, List.filter_cons]
    simp only [decide_eq_true_eq, List.singleton_append]

/-- Each fingerprint is answered for in its shard. -/
theorem answers_singletons {α : Type} {fps : List (Fingerprint w)} {answers : List α}
    (length : answers.length = fps.length) (i : Fin (Nat.pow 2 p)) :
    Errands.answers (fps.map fun fp => (fp.shard p, [fp]))
        (List.zipWith (fun _ a => [a]) fps answers) i =
      ((fps.zip answers).filter fun answered => answered.1.shard p = i).map Prod.snd := by
  induction fps generalizing answers with
  | nil => rfl
  | cons fp rest ih =>
    cases answers with
    | nil => contradiction
    | cons a others =>
      rw [List.map_cons, List.zipWith_cons_cons, Errands.answers_cons, List.zip_cons_cons,
        List.filter_cons, ih (Nat.succ.inj length)]
      by_cases same : fp.shard p = i
      · rw [if_pos same, if_pos (by simpa using same), List.map_cons, List.singleton_append]
      · rw [if_neg same, if_neg (by simpa using same)]

/-- One errand for each of different shards gives a shard what it has for it. -/
theorem fingerprints_map {is : List (Fin (Nat.pow 2 p))} (distinct : is.Nodup)
    (batch : Fin (Nat.pow 2 p) → List (Fingerprint w)) (i : Fin (Nat.pow 2 p)) :
    Errands.fingerprints (is.map fun k => (k, batch k)) i = if i ∈ is then batch i else [] := by
  induction is with
  | nil => rfl
  | cons k rest ih =>
    obtain ⟨fresh, distinct⟩ := List.nodup_cons.1 distinct
    rw [List.map_cons, Errands.fingerprints_cons, ih distinct]
    by_cases same : k = i
    · subst same
      simp [fresh]
    · simp only [same, if_false, List.mem_cons, Ne.symm (a := k) same, false_or]

/-- Nothing is answered for a shard without errand. -/
theorem answers_of_not_mem {α : Type} {errands : Errands w p} {i : Fin (Nat.pow 2 p)}
    (absent : i ∉ errands.map Prod.fst) (answers : List (List α)) :
    errands.answers answers i = [] := by
  induction errands generalizing answers with
  | nil => rfl
  | cons errand rest ih =>
    rw [List.map_cons, List.mem_cons, not_or] at absent
    cases answers with
    | nil => rfl
    | cons found others =>
      rw [Errands.answers_cons, if_neg (Ne.symm absent.1), ih absent.2]

/-- The answers to errands for different shards are those for their shards. -/
theorem answers_map {α : Type} {errands : Errands w p} (distinct : (errands.map Prod.fst).Nodup)
    {answers : List (List α)} (length : answers.length = errands.length) :
    (errands.map Prod.fst).map (errands.answers answers) = answers := by
  induction errands generalizing answers with
  | nil => exact (List.eq_nil_of_length_eq_zero length).symm
  | cons errand rest ih =>
    cases answers with
    | nil => contradiction
    | cons found others =>
      obtain ⟨fresh, distinct⟩ := List.nodup_cons.1 distinct
      rw [List.map_cons, List.map_cons, Errands.answers_cons, if_pos rfl,
        answers_of_not_mem fresh, List.append_nil]
      refine congrArg (found :: ·) (Eq.trans ?_ (ih distinct (Nat.succ.inj length)))
      refine List.map_congr_left fun i among => ?_
      rw [Errands.answers_cons, if_neg fun same : errand.1 = i => fresh (same ▸ among)]

/-- The answers that are scattered are those whose positions all have their own answer. -/
theorem scatter_eq {n : Nat} {pairs : List (Nat × Bool)} {answers : List Bool}
    (length : answers.length = n) (right : ∀ pair ∈ pairs, answers[pair.1]? = some pair.2)
    (all : ∀ k < n, ∃ b, (k, b) ∈ pairs) : scatter n pairs = answers := by
  have main (pairs : List (Nat × Bool)) (found : Array Bool) (size : found.size = n)
      (right : ∀ pair ∈ pairs, answers[pair.1]? = some pair.2)
      (each : ∀ k < n, (∃ b, (k, b) ∈ pairs) ∨ found[k]? = answers[k]?) :
      (pairs.foldl (fun found answer => found.setIfInBounds answer.1 answer.2) found).toList =
        answers := by
    induction pairs generalizing found with
    | nil =>
      refine List.ext_getElem? fun k => ?_
      by_cases inside : k < n
      · simpa using (each k inside).resolve_left (by simp)
      · rw [List.getElem?_eq_none (by simpa [size] using inside),
          List.getElem?_eq_none (by omega)]
    | cons pair rest ih =>
      refine ih _ (by simpa using size) (fun other among => right other
        (List.mem_cons_of_mem _ among)) fun k inside => ?_
      by_cases here : pair.1 = k
      · subst here
        right
        rw [right pair List.mem_cons_self]
        simp [size, inside]
      · rcases each k inside with ⟨b, among⟩ | same
        · refine .inl ⟨b, (List.mem_cons.1 among).resolve_left fun eq => here ?_⟩
          rw [← eq]
        · right
          rw [Array.getElem?_setIfInBounds_ne here, same]
  exact main pairs _ (by simp) right fun k inside => .inl (all k inside)

/-- The answers of a shard with the positions of its fingerprints are those of the block there. -/
theorem zip_positions {fps : List (Fingerprint w)} {answers : List Bool}
    (length : answers.length = fps.length) (i : Fin (Nat.pow 2 p)) (start : Nat) :
    (((fps.zipIdx start).filter fun entry => entry.1.shard p = i).map Prod.snd).zip
        (((fps.zip answers).filter fun answered => answered.1.shard p = i).map Prod.snd) =
      (((fps.zipIdx start).zip answers).filter fun answered => answered.1.1.shard p = i).map
        fun answered => (answered.1.2, answered.2) := by
  induction fps generalizing answers start with
  | nil => rfl
  | cons fp rest ih =>
    cases answers with
    | nil => contradiction
    | cons a others =>
      have rest := ih (Nat.succ.inj length) (start + 1)
      rw [List.zipIdx_cons, List.zip_cons_cons, List.zip_cons_cons, List.filter_cons,
        List.filter_cons, List.filter_cons]
      by_cases same : fp.shard p = i
      · simp only [same, decide_true, if_true, List.map_cons, List.zip_cons_cons, rest]
      · simp only [same, decide_false, Bool.false_eq_true, if_false, rest]

/-- Put together from those of the shards the answers to a block are in the order of the block. -/
theorem gather_eq {fps : List (Fingerprint w)} {answers : List Bool}
    (length : answers.length = fps.length) :
    gather p fps ((List.finRange (Nat.pow 2 p)).map fun i =>
      ((fps.zip answers).filter fun answered => answered.1.shard p = i).map Prod.snd) =
        answers := by
  have pairs : ∀ k b,
      (k, b) ∈ (List.zipWith
        (fun i found => (((batches fps : Batches w p).get i).map Prod.snd).zip found)
        (List.finRange (Nat.pow 2 p)) ((List.finRange (Nat.pow 2 p)).map fun i =>
          ((fps.zip answers).filter fun answered => answered.1.shard p = i).map
            Prod.snd)).flatten ↔ ∃ fp, ((fp, k), b) ∈ fps.zipIdx.zip answers := by
    intro k b
    rw [List.zipWith_map_right, List.zipWith_self]
    simp only [get_batches, zip_positions length, List.mem_flatten, List.mem_map,
      List.mem_finRange, true_and, exists_exists_eq_and, List.mem_filter, decide_eq_true_eq,
      Prod.mk.injEq, Prod.exists]
    constructor
    · rintro ⟨i, fp, k, b, ⟨among, _⟩, rfl, rfl⟩
      exact ⟨fp, among⟩
    · rintro ⟨fp, among⟩
      exact ⟨fp.shard p, fp, k, b, ⟨among, rfl⟩, rfl, rfl⟩
  refine scatter_eq length (fun ⟨k, b⟩ among => ?_) fun k inside => ?_
  · obtain ⟨fp, among⟩ := (pairs k b).1 among
    obtain ⟨j, there⟩ := List.mem_iff_getElem?.1 among
    obtain ⟨entry, found⟩ := List.getElem?_zip_eq_some.1 there
    obtain ⟨_, _, _, rfl⟩ : ∃ a, fps[j]? = some a ∧ a = fp ∧ j = k := by simpa using entry
    exact found
  · have listed : k < (fps.zipIdx.zip answers).length := by simp [length, inside]
    have among := List.getElem_mem listed
    rw [List.getElem_zip, List.getElem_zipIdx, Nat.zero_add] at among
    exact ⟨_, (pairs k _).2 ⟨_, among⟩⟩

variable {op : Fingerprint w → Shard w → Host → Outcome (Shard w) Bool} {s : ShardedSet w p}
  {h : Host} {c : Config}

/-- Errands are all done if others are that have the same fingerprints for each shard. -/
theorem isOk_inTurn_of_same (isLocal : ∀ fp, IsLocal (op fp)) (valid : c.validate = .ok ())
    (ready : ∀ i : Fin (Nat.pow 2 p), (s.shards.get i).Ready (c.part i) h.files)
    {errands others : Errands w p} (same : ∀ i, errands.fingerprints i = others.fingerprints i)
    (done : (inTurn op others s h).answer.isOk) : (inTurn op errands s h).answer.isOk := by
  refine isOk_inTurn isLocal valid ready fun i => ?_
  obtain ⟨answers, done⟩ := Except.exists_eq_ok done
  rw [same, (each_of_inTurn isLocal valid ready done i).1]
  rfl

/-- Errands that are all done and have the same fingerprints for each shard have the same answers
for it and leave the same set. -/
theorem inTurn_of_same (isLocal : ∀ fp, IsLocal (op fp)) (valid : c.validate = .ok ())
    (ready : ∀ i : Fin (Nat.pow 2 p), (s.shards.get i).Ready (c.part i) h.files)
    {errands others : Errands w p} (same : ∀ i, errands.fingerprints i = others.fingerprints i)
    {answers found : List (List Bool)} (done : (inTurn op errands s h).answer = .ok answers)
    (done' : (inTurn op others s h).answer = .ok found) :
    (∀ i, errands.answers answers i = others.answers found i) ∧
      (inTurn op errands s h).set = (inTurn op others s h).set := by
  have both (i : Fin (Nat.pow 2 p)) : errands.answers answers i = others.answers found i ∧
      (inTurn op errands s h).set.shards.get i = (inTurn op others s h).set.shards.get i := by
    obtain ⟨answer, set⟩ := each_of_inTurn isLocal valid ready done i
    obtain ⟨answer', set'⟩ := each_of_inTurn isLocal valid ready done' i
    rw [same] at answer set
    exact ⟨Except.ok.inj (answer.symm.trans answer'), set.symm.trans set'⟩
  exact ⟨fun i => (both i).1,
    congrArg ShardedSet.mk (Vector.ext fun i inside => (both ⟨i, inside⟩).2)⟩

/-- A local operation on a block of fingerprints comes to the operation on one fingerprint after the
other. -/
theorem block_inTurn (isLocal : ∀ fp, IsLocal (op fp)) (valid : c.validate = .ok ())
    (ready : ∀ i : Fin (Nat.pow 2 p), (s.shards.get i).Ready (c.part i) h.files)
    (fps : List (Fingerprint w)) :
    (onBlock op fps s h).ComesTo
      (Outcome.each (fun fp => onShard (op fp) (fp.shard p)) fps s h) := by
  let block := onBlock op fps s h
  let scalar := Outcome.each (fun fp => onShard (op fp) (fp.shard p)) fps s h
  let batches : Errands w p :=
    (List.finRange (Nat.pow 2 p)).map fun i => (i, fps.filter fun fp => fp.shard p = i)
  let singletons : Errands w p := fps.map fun fp => (fp.shard p, [fp])
  have byBatch : block = (inTurn op batches s h).map (gather p fps) := by
    rw [inTurn, Outcome.each_map]
    exact onBlock_eq op fps s h
  have bySingle : inTurn op singletons s h =
      scalar.map (List.zipWith (fun _ a => [a]) fps) := by
    rw [inTurn, Outcome.each_map]
    exact Outcome.each_of_map (fun fp _ s h => onShard_map
      (fun shard h => Outcome.each_singleton op fp shard h) (fp.shard p) s h) s h
  have same (i : Fin (Nat.pow 2 p)) : batches.fingerprints i = singletons.fingerprints i := by
    rw [fingerprints_map (List.nodup_finRange _), if_pos (List.mem_finRange i),
      fingerprints_singletons]
  have succeed : block.answer.isOk ↔ scalar.answer.isOk := by
    rw [byBatch, Outcome.isOk_map, ← Outcome.isOk_map scalar, ← bySingle]
    exact ⟨isOk_inTurn_of_same isLocal valid ready fun i => (same i).symm,
      isOk_inTurn_of_same isLocal valid ready same⟩
  suffices both : block.answer.isOk → block.answer = scalar.answer ∧ block.set = scalar.set from
    ⟨succeed, fun isOk => (both isOk).1, fun isOk => (both isOk).2⟩
  intro isOk
  obtain ⟨answers, found⟩ := Except.exists_eq_ok (succeed.1 isOk)
  rw [byBatch, Outcome.isOk_map] at isOk
  obtain ⟨parts, done⟩ := Except.exists_eq_ok isOk
  have done' : (inTurn op singletons s h).answer =
      .ok (List.zipWith (fun _ a => [a]) fps answers) := by
    rw [bySingle, Outcome.map, found]
    rfl
  obtain ⟨alike, sets⟩ := inTurn_of_same isLocal valid ready same done done'
  constructor
  · have length : answers.length = fps.length := Outcome.length_each found
    have firsts : batches.map Prod.fst = List.finRange _ := by
      rw [List.map_map]
      exact List.map_id _
    have eachPart : parts = (List.finRange (Nat.pow 2 p)).map fun i =>
        ((fps.zip answers).filter fun answered => answered.1.shard p = i).map Prod.snd := by
      rw [← answers_map (firsts ▸ List.nodup_finRange _) (Outcome.length_each done), firsts]
      exact List.map_congr_left fun i _ => (alike i).trans (answers_singletons length i)
    rw [byBatch, Outcome.map, done, found, eachPart]
    exact congrArg Except.ok (gather_eq length)
  · calc block.set = (inTurn op batches s h).set := byBatch ▸ rfl
      _ = (inTurn op singletons s h).set := sets
      _ = scalar.set := bySingle ▸ rfl

end ShardedSet

end SeenStates
