import SeenStates.Proofs.RoundTrip
import SeenStates.ShardedSet

/-!
# Files of shards

The shards of a set keep files of different names in one directory, so what one of them does to its
files leaves those of the others where they are. Opening a set opens its shards one after the
other, each empty and with its own run in place (`ShardedSet.fresh_of_open`).
-/
namespace SeenStates

variable {w : Width}

/-- All files of a set. -/
def setFiles : List SetFile := .run :: checkpointFiles

/-- Some files of a set are among all of them. -/
theorem subset_setFiles (fs : List SetFile) : fs ⊆ setFiles := by
  intro f _
  cases f <;> decide

namespace Config

/-! ## Names -/

/-- A configuration whose files are those of a shard. -/
def part (c : Config) (k : Nat) : Config := { c with name := s!"{c.name}_{k}" }

/-- The configuration of a shard is of the kind of the whole set and has the shard's files. -/
theorem shard_eq_ok {available k : Nat} {c d : Config} (cut : c.shard available k = .ok d) :
    (c.part k).SharesFiles d ∧ d.kind = c.kind := by
  unfold shard at cut
  split at cut
  · obtain rfl := Except.ok.inj cut
    exact ⟨⟨rfl, rfl, rfl⟩, rfl⟩
  · cases resolved : c.memoryBytes available with
    | error e => simp [resolved, Except.map, bind, Except.bind] at cut
    | ok n =>
      rw [resolved] at cut
      obtain rfl := Except.ok.inj cut
      exact ⟨⟨rfl, rfl, rfl⟩, rfl⟩

/-- The name of a part in characters. -/
theorem toList_name_part (c : Config) (k : Nat) :
    (c.part k).name.toList = c.name.toList ++ '_' :: Nat.toDigits 10 k := by
  change (c.name ++ "_" ++ k.repr).toList = _
  simp only [String.toList_append, Nat.toList_repr, List.append_assoc]
  rfl

/-- A part of a usable configuration is usable. -/
theorem validate_part {c : Config} (valid : c.validate = .ok ()) (k : Nat) :
    (c.part k).validate = .ok () := by
  have stem := (usable_of_validate valid).name
  have stem' : isStem (c.part k).name := by
    have filled : (c.part k).name.isEmpty = false := by
      rw [Bool.eq_false_iff, Ne, String.isEmpty_iff, ← String.toList_eq_nil_iff, toList_name_part]
      simp
    simp only [isStem, Bool.and_eq_true, Bool.not_eq_true', List.any_eq_false, Bool.or_eq_true,
      decide_eq_true_eq, not_or] at stem ⊢
    refine ⟨filled, fun d among => ?_⟩
    rw [toList_name_part, List.mem_append, List.mem_cons] at among
    rcases among with own | rfl | digit
    · exact stem.2 d own
    · decide
    · have isDigit := Nat.isDigit_of_mem_toDigits (by decide) (by decide) digit
      constructor <;> rintro rfl <;> contradiction
  have same : (c.part k).fault? = c.fault? := by
    unfold fault?
    rw [stem, stem']
    rfl
  rw [validate, same]
  exact valid

/-- The files of different shards have different names. -/
theorem fileName_part_inj {c : Config} {j k : Nat} {f g : SetFile}
    (same : (c.part j).fileName f = (c.part k).fileName g) : j = k := by
  have spelled := congrArg String.toList same
  simp only [fileName, String.toList_append, toList_name_part, List.append_assoc,
    List.append_cancel_left_eq, List.cons_append, List.cons.injEq, true_and] at spelled
  have digits (n : Nat) (f : SetFile) :
      (Nat.toDigits 10 n ++ (".".toList ++ f.extension.toList)).takeWhile Char.isDigit =
        Nat.toDigits 10 n := by
    rw [List.takeWhile_append_of_pos fun d digit =>
      Nat.isDigit_of_mem_toDigits (by decide) (by decide) digit]
    exact List.append_nil _
  have parts := congrArg (List.takeWhile Char.isDigit) spelled
  rw [digits, digits] at parts
  have numbers := congrArg (Nat.ofDigitChars 10 · 0) parts
  simpa only [Nat.ofDigitChars_ten_toDigits] using numbers

/-- A file of one shard has not the name of a file of another one. -/
theorem fileName_part_not_mem {c : Config} {j k : Nat} (differ : j ≠ k) (f : SetFile)
    (fs : List SetFile) : (c.part j).fileName f ∉ fs.map (c.part k).fileName := by
  intro among
  obtain ⟨g, _, same⟩ := List.mem_map.1 among
  exact differ (fileName_part_inj same.symm)

/-- A set of other files is altered where its namesake is. -/
theorem SharesFiles.alters_iff {c d : Config} (shares : c.SharesFiles d) {fs : List SetFile}
    {t u : Files} : d.Alters fs t u ↔ c.Alters fs t u := by
  have names : d.fileName = c.fileName := by
    funext f
    rw [fileName, fileName, shares.name]
  rw [Alters, Alters, names, shares.metadir]

/-- What is kept for a configuration is kept for one that shares its files. -/
theorem SharesFiles.keeps_iff {c d : Config} (shares : c.SharesFiles d) {fs : List SetFile}
    {t u : Files} : d.Keeps fs t u ↔ c.Keeps fs t u := by
  have names : d.fileName = c.fileName := by
    funext f
    rw [fileName, fileName, shares.name]
  rw [Keeps, Keeps, names, shares.metadir]

/-! ## Frames -/

section

variable {c : Config} {j k : Nat} {fs : List SetFile} {t u : Files}

/-- What a path of one shard leads to after another one altered files it led to before. -/
theorem find_of_alters_part (valid : c.validate = .ok ()) (differ : j ≠ k)
    (alters : (c.part k).Alters fs t u) (f : SetFile) {e : Entry}
    (found : u.find ((c.part j).paths.path f) = .ok e) :
    t.find ((c.part j).paths.path f) = .ok e :=
  Files.Alters.find alters (leads (validate_part valid j) f) (fileName_part_not_mem differ f fs)
    found

/-- What one shard does to its files leaves a file of another one where it is. -/
theorem locate_of_keeps_part (valid : c.validate = .ok ()) (differ : j ≠ k)
    (keeps : (c.part k).Keeps fs t u) (f : SetFile) {l : Location} {contents : ByteArray}
    (located : t.locate ((c.part j).paths.path f) = .ok (l, .file contents)) :
    u.locate ((c.part j).paths.path f) = .ok (l, .file contents) :=
  Files.Keeps.locate keeps (leads (validate_part valid j) f) (fileName_part_not_mem differ f fs)
    located

/-- What one shard does to its files leaves room for a file of another one where there was. -/
theorem takes_of_keeps_part (valid : c.validate = .ok ()) (keeps : (c.part k).Keeps fs t u)
    (f : SetFile) {l : Location} (takes : t.Takes ((c.part j).paths.path f) l) :
    u.Takes ((c.part j).paths.path f) l :=
  Files.Keeps.takes keeps (leads (validate_part valid j) f) takes

end

end Config

/-! ## Opening -/

/-- A set of the files of a configuration that was just opened: it is empty, its run is in place,
and another one can be put there. -/
structure DiskSet.Fresh (c : Config) (s : DiskSet w) (t : Files) : Prop where
  /-- It has the files of the configuration. -/
  shares : c.SharesFiles s.config
  /-- It is sound. -/
  sound : s.Sound
  /-- Nothing is in it. -/
  members : s.members = []
  /-- It is open. -/
  isOpen : s.closed = false
  /-- It is faithful to its files. -/
  faithful : s.Faithful t
  /-- Its run is in place. -/
  located : ∃ l contents, t.locate c.paths.run = .ok (l, .file contents)
  /-- A draft can be begun beside it. -/
  canDraft : t.CanDraft c.paths.run

/-- From one tree to another every directory stays, and so does every file of a shard but the runs
of those that are opened. -/
structure Config.Opens (c : Config) (opened : Nat → Prop) (t u : Files) : Prop where
  /-- Every directory stays. -/
  stays : Files.Stays t u
  /-- A file that is not such a run stays where it is. -/
  locate : ∀ k f, (f = .run → ¬ opened k) → ∀ l contents,
    t.locate ((c.part k).paths.path f) = .ok (l, .file contents) →
      u.locate ((c.part k).paths.path f) = .ok (l, .file contents)

/-- When nothing is opened all stays. -/
theorem Config.Opens.refl (c : Config) (opened : Nat → Prop) (t : Files) : c.Opens opened t t :=
  ⟨.refl t, fun _ _ _ _ _ located => located⟩

/-- What stays over one opening and over others stays over all of them. -/
theorem Config.Opens.trans {c : Config} {opened more all : Nat → Prop} {t u v : Files}
    (first : c.Opens opened t u) (second : c.Opens more u v)
    (among : ∀ k, opened k ∨ more k → all k) : c.Opens all t v :=
  ⟨first.stays.trans second.stays, fun k f other l contents located =>
    second.locate k f (fun run is => other run (among k (.inr is))) l contents
      (first.locate k f (fun run is => other run (among k (.inl is))) l contents located)⟩

namespace DiskSet

/-- Opening a shard changes no file but its run. -/
theorem Opened.opens {c d : Config} {k : Nat} {before after : Files} {s : DiskSet w}
    (opened : Opened d before s after) (valid : c.validate = .ok ())
    (shares : (c.part k).SharesFiles d) : c.Opens (· = k) before after := by
  obtain ⟨made, l, madeDirectories, takes, _, placed⟩ := opened.files
  have grows : Files.Grows before made := by
    have grown := Files.grows_makeDirectories before d.metadir
    rwa [madeDirectories] at grown
  have keeps : (c.part k).Keeps [.run] made after := by
    rw [← shares.keeps_iff, placed]
    exact Files.keeps_place (Config.leads opened.valid .run) takes _
  refine ⟨grows.stays.trans keeps.stays, fun j f other l contents located => ?_⟩
  have still := grows.locate located
  by_cases same : j = k
  · subst same
    refine keeps.locate (Config.leads (Config.validate_part valid j) f) ?_ still
    exact Config.fileName_not_mem _ fun run => other (List.mem_singleton.1 run) rfl
  · exact Config.locate_of_keeps_part valid same keeps f still

/-- A set that was opened is fresh. -/
theorem Opened.fresh {c d : Config} {before after : Files} {s : DiskSet w}
    (opened : Opened d before s after) (shares : c.SharesFiles d) : s.Fresh c after := by
  obtain ⟨made, l, _, takes, canDraft, placed⟩ := opened.files
  have config := opened.config
  have run : d.paths.run = c.paths.run := by rw [shares.paths]
  refine ⟨config ▸ shares, opened.sound, opened.members, opened.isOpen, opened.faithful, ?_, ?_⟩
  · exact ⟨l, _, run ▸ placed ▸ takes.locate_place _⟩
  · obtain ⟨here, entered⟩ := canDraft.entered
    rw [← run, placed]
    exact ⟨canDraft.fits, here, (Files.stays_place takes.free _).enter entered⟩

/-- A set stays fresh when other shards are opened. -/
theorem Fresh.of_opens {c : Config} {j : Nat} {opened : Nat → Prop} {s : DiskSet w} {t u : Files}
    (fresh : s.Fresh (c.part j) t) (opens : c.Opens opened t u) (other : ¬ opened j) :
    s.Fresh (c.part j) u := by
  obtain ⟨l, contents, located⟩ := fresh.located
  have still := opens.locate j .run (fun _ => other) l contents located
  refine { fresh with
    faithful := fresh.faithful.of_find ?_
    located := ⟨l, contents, still⟩
    canDraft := ?_ }
  · intro e found
    rw [fresh.shares.paths] at found ⊢
    rw [← (Files.find_of_locate still).symm.trans found]
    exact Files.find_of_locate located
  · obtain ⟨here, entered⟩ := fresh.canDraft.entered
    exact ⟨fresh.canDraft.fits, here, opens.stays.enter entered⟩

end DiskSet

/-- A shard of a configuration that was just opened. -/
def Shard.Fresh (c : Config) (k : Nat) : Shard w → Files → Prop
  | disk s, t => c.kind = .disk ∧ s.Fresh (c.part k) t
  | bloom _, _ => c.kind = .bloom

/-- A shard stays fresh when others are opened. -/
theorem Shard.Fresh.of_opens {c : Config} {k : Nat} {opened : Nat → Prop} {shard : Shard w}
    {t u : Files} (fresh : shard.Fresh c k t) (opens : c.Opens opened t u) (other : ¬ opened k) :
    shard.Fresh c k u := by
  cases shard with
  | disk s => exact ⟨fresh.1, fresh.2.of_opens opens other⟩
  | bloom f => exact fresh

/-- A disk-backed shard that opens is a set that opens. -/
theorem Shard.open_eq_ok {machine : Machine} {d : Config} {h g : Host} {shard : Shard w}
    (disk : d.kind = .disk) (opens : Shard.open w machine d h = (.ok shard, g)) :
    ∃ s, shard = .disk s ∧ DiskSet.open w machine d h = (.ok s, g) := by
  simp only [Shard.open, disk] at opens
  generalize DiskSet.open w machine d h = result at opens ⊢
  obtain ⟨answer, host⟩ := result
  cases answer with
  | error e => simp [Except.map] at opens
  | ok s =>
    obtain ⟨rfl, rfl⟩ : Shard.disk s = shard ∧ host = g := by simpa [Except.map] using opens
    exact ⟨s, rfl, rfl⟩

namespace ShardedSet

/-- A shard that was opened is fresh, and no file was changed but its run. -/
theorem fresh_of_openShard {machine : Machine} {k : Nat} {c d : Config}
    (valid : c.validate = .ok ()) (shares : (c.part k).SharesFiles d) (kind : d.kind = c.kind)
    {h g : Host} {shard : Shard w}
    (opens : Shard.open w machine d h = (.ok shard, g)) :
    shard.Fresh c k g.files ∧ c.Opens (· = k) h.files g.files := by
  cases disk : d.kind with
  | disk =>
    obtain ⟨s, rfl, opened⟩ := Shard.open_eq_ok disk opens
    have start := DiskSet.opened_of_open opened
    exact ⟨⟨kind ▸ disk, start.fresh shares⟩, start.opens valid shares⟩
  | bloom =>
    simp only [Shard.open, disk] at opens
    generalize opened : BloomFilter.open w machine d h = result at opens
    obtain ⟨answer, host⟩ := result
    cases answer with
    | error e => simp [Except.map] at opens
    | ok f =>
      obtain ⟨rfl, rfl⟩ : Shard.bloom f = shard ∧ host = g := by simpa [Except.map] using opens
      have files : host.files = h.files := by
        unfold BloomFilter.open at opened
        split at opened
        · simp at opened
        · obtain rfl := (Prod.mk.inj opened).2
          rfl
      exact ⟨kind.symm.trans disk, files ▸ .refl ..⟩

/-- What opening a shard keeps, over those that are open and the files, opening all that are left
keeps. -/
theorem openShards_induct {machine : Machine} {c : Config}
    (holds : {k : Nat} → Vector (Shard w) k → Files → Prop)
    (step : ∀ {k : Nat} {opened : Vector (Shard w) k} {d : Config} {shard : Shard w} {h g : Host},
      holds opened h.files → c.shard machine.available k = .ok d →
        Shard.open w machine d h = (.ok shard, g) → holds (opened.push shard) g.files)
    {total left k : Nat} {opened : Vector (Shard w) k} {complete : k + left = total}
    {h after : Host} {shards : Vector (Shard w) total} (start : holds opened h.files)
    (result : openShards w machine c left opened complete h = (.ok shards, after)) :
    holds shards after.files := by
  induction left generalizing k h with
  | zero =>
    subst complete
    obtain ⟨same, rfl⟩ := Prod.mk.inj result
    obtain rfl := Except.ok.inj same
    exact start
  | succ left ih =>
    unfold openShards at result
    split at result
    · simp at result
    · next d cut =>
      split at result
      · simp at result
      · next shard g opens => exact ih (step start cut opens) result

/-- Of shards with one more behind them, that is the last, and the others stand where they stood. -/
theorem get_push {α : Type} {k : Nat} (xs : Vector α k) (a : α) (i : Fin (k + 1)) :
    (i.val = k ∧ (xs.push a).get i = a) ∨
      ∃ before : i.val < k, (xs.push a).get i = xs.get ⟨i, before⟩ := by
  by_cases last : i.val = k
  · refine .inl ⟨last, ?_⟩
    change (xs.push a)[i.val] = a
    simp only [last, Vector.getElem_push_eq]
  · have before : i.val < k := by omega
    refine .inr ⟨before, ?_⟩
    change (xs.push a)[i.val] = xs[i.val]
    rw [Vector.getElem_push_lt before]

/-- Opening all shards opens each of them fresh, and changes no files but their runs. -/
theorem openShards_eq_ok {machine : Machine} {c : Config} (valid : c.validate = .ok ())
    {total : Nat} {complete : 0 + total = total} {h after : Host}
    {shards : Vector (Shard w) total}
    (result : openShards w machine c total #v[] complete h = (.ok shards, after)) :
    (∀ i : Fin total, (shards.get i).Fresh c i after.files) ∧
      c.Opens (fun _ => True) h.files after.files := by
  refine openShards_induct (fun {k} opened t => (∀ i : Fin k, (opened.get i).Fresh c i t) ∧
    c.Opens (fun _ => True) h.files t) (fun {k opened d shard g g'} all cut opens => ?_)
    ⟨fun i => i.elim0, .refl ..⟩ result
  obtain ⟨fresh, before⟩ := all
  obtain ⟨shares, kind⟩ := Config.shard_eq_ok cut
  obtain ⟨first, step⟩ := fresh_of_openShard valid shares kind opens
  refine ⟨fun i => ?_, before.trans step fun _ _ => trivial⟩
  rcases get_push opened shard i with ⟨last, here⟩ | ⟨inFront, here⟩
  · rw [here, last]
    exact first
  · rw [here]
    exact (fresh ⟨i, inFront⟩).of_opens step (Nat.ne_of_lt inFront)

/-- All shards of a set that was opened are fresh, and no files were changed but their runs. -/
theorem fresh_of_open {machine : Machine} {c : Config} {h after : Host}
    {s : ShardedSet w c.prefixBits} (opened : ShardedSet.open w machine c h = (.ok s, after)) :
    c.validate = .ok () ∧ (∀ i, (s.shards.get i).Fresh c i after.files) ∧
      c.Opens (fun _ => True) h.files after.files := by
  unfold ShardedSet.open at opened
  split at opened
  · simp at opened
  · next valid =>
    split at opened
    · simp at opened
    · next shards g result =>
      obtain ⟨rfl, rfl⟩ : (⟨shards⟩ : ShardedSet w c.prefixBits) = s ∧ _ = after := by
        simpa using opened
      obtain ⟨every, opens⟩ := openShards_eq_ok valid result
      exact ⟨valid, every, opens⟩

end ShardedSet

end SeenStates
