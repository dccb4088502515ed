import SeenStates.Proofs.Confinement
import SeenStates.Proofs.MadeDirectories

/-!
# Sets that keep to their own files

Calls of a set, cut into shards or not, are confined to the files of its stems, and so is opening
it where its directory is there. Where the directory is not there yet, opening a set makes it first
or fails without touching anything, so it comes to the same as after the directory was made.
-/
namespace SeenStates

variable {w : Width} {p : Scope}

/-! ## Calls -/

/-- A disk-backed shard in a scope. -/
def Shard.Within (p : Scope) : Shard w → Prop
  | .disk s => s.Within p
  | .bloom _ => False

/-- A set of disk-backed shards in a scope. -/
def ShardedSet.Within {n : Nat} (p : Scope) (s : ShardedSet w n) : Prop :=
  ∀ i, (s.shards.get i).Within p

/-- A disk-backed set in a scope, cut into shards or not. -/
def FingerprintSet.Within (p : Scope) : FingerprintSet w → Prop
  | .single s => s.Within p
  | .sharded _ s => s.Within p

/-- Every call of a shard is confined. -/
theorem Shard.Within.onShard {s : Shard w} (within : s.Within p) (c : Call w) :
    ConfinedCall p (Shard.Within p) (c.onShard s) := by
  cases s with
  | bloom f => exact within.elim
  | disk s =>
    have within : s.Within p := within
    have same : c.onShard (.disk s) = fun h => (c.perform s h).onSet .disk :=
      funext (c.onShard_disk s)
    rw [same]
    exact (within.perform c).onSet fun _ own => own

/-- Every call of a sharded set is confined. -/
theorem ShardedSet.Within.onShards {n : Nat} {s : ShardedSet w n} (within : s.Within p)
    (c : Call w) : ConfinedCall p (ShardedSet.Within p) (c.onShards s) := by
  have part (i : Fin (Nat.pow 2 n)) (c : Call w) (s : ShardedSet w n) (within : s.Within p) :
      ConfinedCall p (ShardedSet.Within p) (ShardedSet.onShard c.onShard i s) := by
    have same : ShardedSet.onShard c.onShard i s = fun h =>
        (c.onShard (s.shards.get i) h).onSet fun shard => ⟨s.shards.set i shard⟩ :=
      funext (ShardedSet.onShard_eq c.onShard i s)
    rw [same]
    refine ((within i).onShard c).onSet fun shard own j => ?_
    simp only [ShardedSet.get_set]
    split
    · exact own
    · exact within j
  obtain ⟨f, parts⟩ := c.onShards_eq n
  rw [show c.onShards s = _ from funext (parts s)]
  exact (Confined.each (fun called _ s within => part called.1 called.2 s within) within).map f

/-- Every call of a set is confined. -/
theorem FingerprintSet.Within.onFingerprintSet {s : FingerprintSet w} (within : s.Within p)
    (c : Call w) : ConfinedCall p (FingerprintSet.Within p) (c.onFingerprintSet s) := by
  cases s with
  | single s =>
    have within : s.Within p := within
    rw [show c.onFingerprintSet (.single s) = _ from funext (c.onFingerprintSet_single s)]
    exact (within.onShard c).onSet fun _ own => own
  | sharded n s =>
    have within : s.Within p := within
    rw [show c.onFingerprintSet (.sharded n s) = _ from funext (c.onFingerprintSet_sharded s)]
    exact (within.onShards c).onSet fun _ own => own

/-! ## Opening -/

/-- The files of a stem are among the names of a scope, whose path does not go through one that is
written for a checkpoint in progress. -/
structure Scope.Has (p : Scope) (stem : String) : Prop where
  /-- The names are among those of the scope. -/
  names : ∀ f : SetFile, p.names (stem ++ "." ++ f.extension)
  /-- The path of the directory is clear of the pending names. -/
  clear : ∀ f : SetFile, f = .pendingCopy ∨ f = .pendingHeader →
    (stem ++ "." ++ f.extension).toList ∉ Path.pieces p.directory.toList

/-- The result of an opening is a set of which something is known. -/
abbrev ConfinedOpening (p : Scope) {σ : Type} (own : σ → Prop)
    (f : Host → Except Error σ × Host) : Prop :=
  Confined p (fun r => ∀ s, r = .ok s → own s) f

/-- A failure to open is confined. -/
theorem Confined.refuse {σ : Type} {own : σ → Prop} (e : Error) :
    ConfinedOpening p own fun h => (.error e, h) :=
  .still (b := .error e) (fun _ result => nomatch result) (fun _ => rfl) fun _ => rfl

/-- An opening is confined that goes on from a confined one unless that fails. -/
theorem Confined.onwards {σ τ : Type} {own : σ → Prop} {owns : τ → Prop}
    {f : Host → Except Error σ × Host} (confined : ConfinedOpening p own f)
    {k : σ → Host → Except Error τ × Host} (then' : ∀ s, own s → ConfinedOpening p owns (k s))
    {whole : Host → Except Error τ × Host}
    (comes : ∀ h, whole h = match f h with
      | (.error e, h) => (.error e, h)
      | (.ok s, h) => k s h) : ConfinedOpening p owns whole := by
  refine confined.bind (k := fun r h =>
    match r with
    | .error e => (.error e, h)
    | .ok s => k s h) (fun r own => ?_) fun h => ?_
  · cases r with
    | error e => exact .refuse e
    | ok s => exact then' s (own s rfl)
  · rw [comes]
    cases f h with
    | mk answer g => cases answer <;> rfl

/-- A set that was opened is what is opened. -/
theorem Confined.accept {σ : Type} {own : σ → Prop} {s : σ} (owned : own s) {f : Host → Host}
    (files : ∀ h, (f h).files = h.files) : ConfinedOpening p own fun h => (.ok s, f h) := by
  refine .still (b := .ok s) (fun u result => ?_) (fun _ => rfl) files
  obtain rfl := Except.ok.inj result
  exact owned

/-- Opening something that holds a set is confined if opening the set is. -/
theorem Confined.hold {σ τ : Type} {own : σ → Prop} {owns : τ → Prop}
    {f : Host → Except Error σ × Host} (confined : ConfinedOpening p own f) {hold : σ → τ}
    (holds : ∀ s, own s → owns (hold s)) :
    ConfinedOpening p owns fun h => ((f h).1.map hold, (f h).2) := by
  refine confined.onwards (k := fun s h => (.ok (hold s), h))
    (fun s own => .accept (f := id) (holds s own) fun _ => rfl) fun h => ?_
  cases f h with
  | mk answer g => cases answer <;> rfl

/-- Opening a disk-backed set is confined to the files of its stem. -/
theorem DiskSet.confined_open {c : Config} (directory : c.metadir = p.directory)
    (has : p.Has c.name) (canHold : Files.CanHold p.directory) (w : Width) (machine : Machine) :
    ConfinedOpening p (DiskSet.Within p) (DiskSet.open w machine c) := by
  unfold DiskSet.open
  cases laidOut : DiskSet.layOut w machine c with
  | error e => exact .refuse e
  | ok table =>
    have within : c.Within p :=
      ⟨(DiskSet.layout_of_layOut laidOut).valid, directory, has.names, has.clear⟩
    have made : Files.Confined p fun t => t.makeDirectories c.metadir :=
      directory ▸ .makeDirectories canHold
    have created : Files.Confined p fun t => Run.createEmpty w t c.paths.run :=
      ⟨fun _ entered => within.edits_createEmpty w entered, fun agree => within.createEmpty agree⟩
    have both := made.attempt (e := .file c.metadir) created
    have creates := Confined.onFiles both (q := fun r => ∀ disk, r = .ok disk →
      disk.path = c.paths.run) fun t disk result => by
        unfold Files.attempt at result
        split at result
        · contradiction
        · exact Run.path_createEmpty result
    refine creates.onwards (k := fun disk h =>
      (.ok (DiskSet.ofParts c table disk), h.report (.tableAllocated w)))
        (fun disk own => .accept (f := (·.report _)) ⟨within, own⟩ fun _ => rfl) fun h => ?_
    unfold Files.attempt
    simp only
    cases h.files.makeDirectories c.metadir with
    | mk answer t =>
      cases answer with
      | error fault => rfl
      | ok _ =>
        simp only
        cases Run.createEmpty w t c.paths.run with
        | mk answer u => cases answer <;> rfl

/-- Opening a disk-backed shard is confined to the files of its stem. -/
theorem Shard.confined_open {c : Config} (directory : c.metadir = p.directory)
    (kind : c.kind = .disk) (has : p.Has c.name) (canHold : Files.CanHold p.directory) (w : Width)
    (machine : Machine) : ConfinedOpening p (Shard.Within p) (Shard.open w machine c) := by
  unfold Shard.open
  rw [kind]
  exact (DiskSet.confined_open directory has canHold w machine).hold fun _ own => own

/-- Opening shards one after the other is confined to the files of their stems. -/
theorem ShardedSet.confined_openShards {c : Config} (directory : c.metadir = p.directory)
    (kind : c.kind = .disk) {total : Nat} (has : ∀ k < total, p.Has (c.part k).name)
    (canHold : Files.CanHold p.directory) (machine : Machine) {left k : Nat}
    {v : Vector (Shard w) k} (complete : k + left = total)
    (within : ∀ i : Fin k, (v.get i).Within p) :
    ConfinedOpening p (fun shards : Vector (Shard w) total => ∀ i, (shards.get i).Within p)
      (openShards w machine c left v complete) := by
  induction left generalizing k with
  | zero =>
    subst complete
    exact .accept (f := id) within fun _ => rfl
  | succ left ih =>
    cases cut : c.shard machine.available k with
    | error e =>
      have refused : openShards w machine c (left + 1) v complete = fun h =>
          (.error e, h) := by
        funext h
        rw [openShards, cut]
      exact refused ▸ .refuse e
    | ok d =>
      obtain ⟨shares, same⟩ := Config.shard_eq_ok cut
      have has' : p.Has d.name := by
        rw [shares.name]
        exact has k (by omega)
      have opens := Shard.confined_open (shares.metadir.trans directory) (same.trans kind) has'
        canHold w machine
      refine opens.onwards (k := fun shard h =>
        openShards w machine c left (v.push shard) (by omega) h) (fun shard own => ?_) fun h => ?_
      · refine ih (by omega) fun i => ?_
        rcases get_push v shard i with ⟨_, here⟩ | ⟨inFront, here⟩
        · rw [here]
          exact own
        · rw [here]
          exact within ⟨i, inFront⟩
      · rw [openShards, cut]
        simp only
        cases Shard.open w machine d h with
        | mk answer g => cases answer <;> rfl

/-- Opening a sharded set is confined to the files of its shards' stems. -/
theorem ShardedSet.confined_open {c : Config} (directory : c.metadir = p.directory)
    (kind : c.kind = .disk) (has : ∀ k < Nat.pow 2 c.prefixBits, p.Has (c.part k).name)
    (canHold : Files.CanHold p.directory) (w : Width) (machine : Machine) :
    ConfinedOpening p (ShardedSet.Within p) (ShardedSet.open w machine c) := by
  unfold ShardedSet.open
  cases c.validate with
  | error e => exact .refuse e
  | ok _ =>
    have opens := confined_openShards (w := w) (v := #v[]) directory kind has canHold machine
      (Nat.zero_add _) fun i => i.elim0
    refine opens.onwards (k := fun shards h =>
      (.ok ⟨shards⟩, h.report (.shardsOpened c.shardCount c.name c.kind.logName)))
      (fun shards own => .accept (f := (·.report _)) own fun _ => rfl) fun h => ?_
    simp only
    cases openShards w machine c _ _ _ h with
    | mk answer g => cases answer <;> rfl

/-- The ways in which a set is opened. -/
inductive Way where
  /-- Whole, whatever its configuration says of routing bits. -/
  | whole
  /-- In shards, also if that is only one. -/
  | inShards
  /-- As its configuration says. -/
  | configured

namespace Way

/-- Open the set of a configuration. -/
def «open» (way : Way) (w : Width) (machine : Machine) (c : Config) (h : Host) :
    Except Error (FingerprintSet w) × Host :=
  match way with
  | whole =>
    let (s, h) := Shard.open w machine c h
    (s.map .single, h)
  | inShards =>
    let (s, h) := ShardedSet.open w machine c h
    (s.map (.sharded c.prefixBits), h)
  | configured => FingerprintSet.open w machine c h

/-- Whether the set of a configuration is opened in shards. -/
def cuts (c : Config) : Way → Bool
  | whole => false
  | inShards => true
  | configured => 0 < c.prefixBits

/-- Whether a set of a configuration keeps files of a stem. -/
def HasStem (way : Way) (c : Config) (stem : String) : Prop :=
  if way.cuts c then ∃ k < Nat.pow 2 c.prefixBits, stem = (c.part k).name else stem = c.name

/-- What the ways come to: opening a set whole or in shards, if it is not refused before. -/
theorem open_cases (way : Way) (w : Width) (machine : Machine) (c : Config) :
    (∃ e, way.open w machine c = fun h => (.error e, h)) ∨
      way.cuts c = false ∧ way.open w machine c =
          (fun h => ((Shard.open w machine c h).1.map .single, (Shard.open w machine c h).2)) ∨
      way.cuts c = true ∧ way.open w machine c = fun h =>
        ((ShardedSet.open w machine c h).1.map (.sharded c.prefixBits),
          (ShardedSet.open w machine c h).2) := by
  cases way with
  | whole => exact .inr (.inl ⟨rfl, rfl⟩)
  | inShards => exact .inr (.inr ⟨rfl, rfl⟩)
  | configured =>
    cases valid : c.validate with
    | error e => exact .inl ⟨e, funext fun h => by simp only [«open», FingerprintSet.open, valid]⟩
    | ok _ =>
      by_cases width : c.width ≠ w
      · refine .inl ⟨.widthMismatch c.width.bits w.bits, funext fun h => ?_⟩
        simp only [«open», FingerprintSet.open, valid, if_pos width]
      · by_cases sharded : 0 < c.prefixBits
        · refine .inr (.inr ⟨by simp [cuts, sharded], funext fun h => ?_⟩)
          simp only [«open», FingerprintSet.open, valid, if_neg width, if_pos sharded]
        · refine .inr (.inl ⟨by simp [cuts, sharded], funext fun h => ?_⟩)
          simp only [«open», FingerprintSet.open, valid, if_neg width, if_neg sharded]

/-- A disk-backed set that opens is one set that opens, or it is cut into shards that do. -/
theorem open_eq_ok {way : Way} {machine : Machine} {c : Config} (kind : c.kind = .disk)
    {h after : Host} {s : FingerprintSet w}
    (opened : way.open w machine c h = (.ok s, after)) :
    (way.cuts c = false ∧ ∃ d, s = .single (.disk d) ∧
        DiskSet.open w machine c h = (.ok d, after)) ∨
      way.cuts c = true ∧ ∃ shards, s = .sharded c.prefixBits shards ∧
        ShardedSet.open w machine c h = (.ok shards, after) := by
  rcases way.open_cases w machine c with ⟨e, refused⟩ | ⟨whole, opens⟩ | ⟨cut, opens⟩
  · rw [refused] at opened
    cases (Prod.mk.inj opened).1
  · rw [opens] at opened
    cases result : Shard.open w machine c h with
    | mk answer g =>
      cases answer with
      | error e => simp [result, Except.map] at opened
      | ok shard =>
        obtain ⟨d, rfl, opens⟩ := Shard.open_eq_ok kind result
        simp only [result, Except.map, Prod.mk.injEq, Except.ok.injEq] at opened
        obtain ⟨rfl, rfl⟩ := opened
        exact .inl ⟨whole, d, rfl, opens⟩
  · rw [opens] at opened
    cases result : ShardedSet.open w machine c h with
    | mk answer g =>
      cases answer with
      | error e => simp [result, Except.map] at opened
      | ok shards =>
        simp only [result, Except.map, Prod.mk.injEq, Except.ok.injEq] at opened
        obtain ⟨rfl, rfl⟩ := opened
        exact .inr ⟨cut, shards, rfl, rfl⟩

end Way

/-- Opening a set is confined to the files of its stems. -/
theorem Way.confined_open {way : Way} {c : Config} (directory : c.metadir = p.directory)
    (kind : c.kind = .disk) (has : ∀ stem, way.HasStem c stem → p.Has stem)
    (canHold : Files.CanHold p.directory) (w : Width) (machine : Machine) :
    ConfinedOpening p (FingerprintSet.Within p) (way.open w machine c) := by
  rcases way.open_cases w machine c with
    ⟨e, refused⟩ | ⟨whole, opens⟩ | ⟨cut, opens⟩
  · exact refused ▸ .refuse e
  · have own : p.Has c.name := has _ (by simp [HasStem, whole])
    rw [opens]
    exact (Shard.confined_open directory kind own canHold w machine).hold fun _ own => own
  · have own : ∀ k < Nat.pow 2 c.prefixBits, p.Has (c.part k).name := fun k within =>
      has _ (by simpa [HasStem, cut] using ⟨k, within, rfl⟩)
    rw [opens]
    exact (ShardedSet.confined_open directory kind own canHold w machine).hold fun _ own => own

/-! ## Opening where the directory is made -/

/-- An opening comes to the same on one host as on another one, or it fails with the same error on
both without touching them. -/
def OpensAlike {σ : Type} (f : Host → Except Error σ × Host) (h g : Host) : Prop :=
  f h = f g ∨ ∃ e, f h = (.error e, h) ∧ f g = (.error e, g)

/-- What holds a set that is opened alike is. -/
theorem OpensAlike.hold {σ τ : Type} {f : Host → Except Error σ × Host} {h g : Host}
    (alike : OpensAlike f h g) (hold : σ → τ) :
    OpensAlike (fun h => ((f h).1.map hold, (f h).2)) h g := by
  rcases alike with same | ⟨e, fails, fails'⟩
  · exact .inl (by simp only [same])
  · exact .inr ⟨e, by simp only [fails, Except.map], by simp only [fails', Except.map]⟩

section Making

variable {c : Config} {h : Host} {t : Files}

/-- A disk-backed set is opened as if its directory had been there. -/
theorem DiskSet.opensAlike (made : h.files.makeDirectories c.metadir = (.ok (), t)) (w : Width)
    (machine : Machine) : OpensAlike (DiskSet.open w machine c) h (h.withFiles t) := by
  obtain ⟨canHold, l, entered⟩ := Files.enter_of_makeDirectories made
  have again := Files.makeDirectories_of_enter canHold entered
  unfold OpensAlike DiskSet.open
  cases DiskSet.layOut w machine c with
  | error e => exact .inr ⟨e, rfl, rfl⟩
  | ok table =>
    have files : (h.withFiles t).files = t := rfl
    have twice (u : Files) : (h.withFiles t).withFiles u = h.withFiles u := rfl
    simp only [made, files, again, twice]
    exact .inl trivial

/-- A disk-backed shard is. -/
theorem Shard.opensAlike (kind : c.kind = .disk)
    (made : h.files.makeDirectories c.metadir = (.ok (), t)) (w : Width) (machine : Machine) :
    OpensAlike (Shard.open w machine c) h (h.withFiles t) := by
  have same : Shard.open w machine c = fun h =>
      ((DiskSet.open w machine c h).1.map .disk, (DiskSet.open w machine c h).2) := by
    funext h
    simp only [Shard.open, kind]
  exact same ▸ (DiskSet.opensAlike made w machine).hold _

/-- A sharded set is, since it has a shard. -/
theorem ShardedSet.opensAlike (kind : c.kind = .disk)
    (made : h.files.makeDirectories c.metadir = (.ok (), t)) (w : Width) (machine : Machine) :
    OpensAlike (ShardedSet.open w machine c) h (h.withFiles t) := by
  unfold OpensAlike ShardedSet.open
  cases c.validate with
  | error e => exact .inr ⟨e, rfl, rfl⟩
  | ok _ =>
    have opens {total left : Nat} (some : 0 < left) (complete : 0 + left = total) :
        OpensAlike (openShards w machine c left #v[] complete) h (h.withFiles t) := by
      obtain ⟨left, rfl⟩ := Nat.exists_eq_add_one.2 some
      unfold OpensAlike
      rw [openShards, openShards]
      cases cut : c.shard machine.available 0 with
      | error e => exact .inr ⟨e, rfl, rfl⟩
      | ok d =>
        obtain ⟨shares, same⟩ := Config.shard_eq_ok cut
        have made' : h.files.makeDirectories d.metadir = (.ok (), t) := by
          rw [shares.metadir]
          exact made
        rcases Shard.opensAlike (same.trans kind) made' w machine with
          first | ⟨e, fails, fails'⟩
        · exact .inl (by simp only [first])
        · exact .inr ⟨e, by simp only [fails], by simp only [fails']⟩
    have some : 0 < Nat.pow 2 c.prefixBits := Nat.two_pow_pos _
    rcases opens some (Nat.zero_add _) with same | ⟨e, fails, fails'⟩
    · exact .inl (by simp only [same])
    · exact .inr ⟨e, by simp only [fails], by simp only [fails']⟩

/-- A set is opened as if its directory had been there. -/
theorem Way.opensAlike (way : Way) (kind : c.kind = .disk)
    (made : h.files.makeDirectories c.metadir = (.ok (), t)) (w : Width) (machine : Machine) :
    OpensAlike (way.open w machine c) h (h.withFiles t) := by
  rcases way.open_cases w machine c with ⟨e, refused⟩ | ⟨_, opens⟩ | ⟨_, opens⟩
  · exact .inr ⟨e, by rw [refused], by rw [refused]⟩
  · exact opens ▸ (Shard.opensAlike kind made w machine).hold _
  · exact opens ▸ (ShardedSet.opensAlike kind made w machine).hold _

end Making

end SeenStates
