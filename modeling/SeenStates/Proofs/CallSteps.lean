import Mathlib.Data.List.Forall2
import Mathlib.Logic.Relation
import SeenStates.Proofs.CallFiles
import SeenStates.Proofs.Closing

/-!
# The steps of calls

A set that is open has its run mapped, and no put is flushing when a call begins
(`DiskSet.Sturdy`). That stays so whatever becomes of its files, and then a call comes to steps
that a set goes on with (`DiskSet.Step`) or to one that going back to a checkpoint or closing ends
with (`DiskSet.Ending`). What these steps do not change no call of a set changes, whether the set
is cut into shards or not (`FingerprintSet.related_of_sequel`).
-/
namespace SeenStates

variable {w : Width}

namespace DiskSet

variable {s u : DiskSet w} {h : Host}

/-- A set that no put is flushing and that has its run mapped as long as it is open. -/
structure Sturdy (s : DiskSet w) : Prop where
  /-- No put is flushing. -/
  idle : s.flusherChosen = false
  /-- An open set has its run mapped. -/
  mapped : s.closed = false → s.disk.mapped.isSome

/-- One step of calls that a set goes on with. -/
inductive Step (s : DiskSet w) : DiskSet w → Prop where
  /-- A fingerprint is taken as new. -/
  | inserted (fp : Fingerprint w) (opening : Option Nat) : Step s (s.insert fp opening)
  /-- A look-up is counted. -/
  | counted (place : Place) : Step s (s.counted place)
  /-- A flush is asked for. -/
  | requested : Step s s.requestFlush
  /-- No flush is asked for any more. -/
  | unrequested : Step s s.unrequested
  /-- What is in the set moves into a run. -/
  | settled (entries : Array (Fingerprint w)) : Step s (s.settled entries)

/-- What going back to a checkpoint or closing makes of a set. -/
inductive Ending (s : DiskSet w) : DiskSet w → Prop where
  /-- It is as it was. -/
  | kept : Ending s s
  /-- Its run is mapped again. -/
  | remapped (disk : Run w) (mapped : disk.mapped.isSome) : Ending s { s with disk }
  /-- It has what a checkpoint has. -/
  | recovered (disk : Run w) (mapped : disk.mapped.isSome) : Ending s (s.recovered disk)
  /-- Its run cannot be used, and it is closed. -/
  | lost (disk : Run w) : Ending s { s with disk, closed := true }
  /-- It is closed. -/
  | released : Ending s s.released

/-- Steps one after the other. -/
abbrev Steps : DiskSet w → DiskSet w → Prop := Relation.ReflTransGen Step

/-- What calls make of a set: the steps that it goes on with, or an ending. -/
inductive Course (s : DiskSet w) : DiskSet w → Prop where
  /-- It goes on. -/
  | steps {u : DiskSet w} (steps : Steps s u) : Course s u
  /-- It comes to an ending. -/
  | ending {u : DiskSet w} (ending : Ending s u) : Course s u

/-! ## Sturdiness -/

/-- A step leaves a set open or closed. -/
theorem Step.closed (step : Step s u) : u.closed = s.closed := by
  cases step with
  | inserted fp opening => exact closed_insert ..
  | counted place => exact closed_counted ..
  | requested => rfl
  | unrequested => rfl
  | settled entries => rfl

/-- Steps leave a set open or closed. -/
theorem Steps.closed (steps : Steps s u) : u.closed = s.closed := by
  induction steps with
  | refl => rfl
  | tail steps step ih => exact step.closed.trans ih

/-- A step leaves a set sturdy. -/
theorem Sturdy.step (sturdy : s.Sturdy) (step : Step s u) : u.Sturdy := by
  cases step with
  | inserted fp opening => cases opening <;> exact ⟨sturdy.idle, sturdy.mapped⟩
  | counted place => cases place <;> exact ⟨sturdy.idle, sturdy.mapped⟩
  | requested => exact ⟨sturdy.idle, sturdy.mapped⟩
  | unrequested => exact ⟨sturdy.idle, sturdy.mapped⟩
  | settled entries => exact ⟨sturdy.idle, fun _ => rfl⟩

/-- An ending leaves a set sturdy. -/
theorem Sturdy.ending (sturdy : s.Sturdy) (ending : Ending s u) : u.Sturdy := by
  cases ending with
  | kept => exact sturdy
  | remapped disk mapped => exact ⟨sturdy.idle, fun _ => mapped⟩
  | recovered disk mapped => exact ⟨sturdy.idle, fun _ => mapped⟩
  | lost disk => exact ⟨sturdy.idle, fun isOpen => by contradiction⟩
  | released => exact ⟨sturdy.idle, fun isOpen => by contradiction⟩

/-- What calls make of a sturdy set is sturdy. -/
theorem Sturdy.course (sturdy : s.Sturdy) (course : Course s u) : u.Sturdy := by
  cases course with
  | steps steps =>
    induction steps with
    | refl => exact sturdy
    | tail steps step ih => exact ih.step step
  | ending ending => exact sturdy.ending ending

/-- A sturdy set goes on to a sturdy one. -/
theorem Sturdy.steps (sturdy : s.Sturdy) (steps : Steps s u) : u.Sturdy :=
  sturdy.course (.steps steps)

/-! ## Calls that a set goes on with -/

/-- What is asked of a closed set leaves it as it is. -/
theorem set_whenOpen_of_closed {α : Type} (closed : s.closed)
    (op : DiskSet w → Host → Outcome (DiskSet w) α) : (s.whenOpen h op).set = s := by
  rw [whenOpen, if_pos closed]
  rfl

/-- A flush is steps. -/
theorem Sturdy.steps_flushNow (sturdy : s.Sturdy) (isOpen : s.closed = false) (h : Host) :
    Steps s (s.flushNow h).set := by
  have ends := flushed_flushNow (sturdy.mapped isOpen) h
  generalize (s.flushNow h).set = u at ends ⊢
  generalize (s.flushNow h).answer = answer at ends
  generalize (s.flushNow h).host.files = after at ends
  cases ends with
  | failed e => exact .single .unrequested
  | nothing vacant => exact .single .unrequested
  | written l entries takes ascending storable all => exact .single (.settled entries)

/-- A put is steps. -/
theorem Sturdy.steps_put (sturdy : s.Sturdy) (fp : Fingerprint w) (h : Host) :
    Steps s (s.put fp h).set := by
  cases closed : s.closed with
  | true => rw [put, set_whenOpen_of_closed closed]
  | false =>
    have ends := putEnd closed sturdy.idle fp h
    generalize s.put fp h = o at ends ⊢
    cases ends with
    | seen place found isSeen => exact .single (.counted place)
    | fresh opening found => exact .single (.inserted fp opening)
    | flushed opening found due =>
      have inserted : Step s (s.insert fp opening) := .inserted fp opening
      have isOpen : (s.insert fp opening).closed = false := inserted.closed.trans closed
      exact .head inserted ((sturdy.step inserted).steps_flushNow isOpen h)

/-- A query is steps. -/
theorem steps_contains (s : DiskSet w) (fp : Fingerprint w) (h : Host) :
    Steps s (s.contains fp h).set := by
  cases closed : s.closed with
  | true => rw [contains, set_whenOpen_of_closed closed]
  | false =>
    simp only [contains, whenOpen, closed, Bool.false_eq_true, if_false, Outcome.ok]
    exact .single (.counted _)

/-- What is steps for each of several fingerprints is steps for all of them. -/
theorem Sturdy.steps_each {α : Type} {op : Fingerprint w → DiskSet w → Host → Outcome (DiskSet w) α}
    (each : ∀ fp (u : DiskSet w) g, u.Sturdy → Steps u (op fp u g).set) (sturdy : s.Sturdy)
    (fps : List (Fingerprint w)) (h : Host) : Steps s (Outcome.each op fps s h).set :=
  Outcome.each_keeps (fun u _ => Steps s u)
    (fun fp _ u g steps => steps.trans (each fp u g (sturdy.steps steps))) .refl

/-- A call that a sturdy set goes on with is steps. -/
theorem Sturdy.steps_perform (sturdy : s.Sturdy) {c : Call w} (goesOn : c.goesOn) (h : Host) :
    Steps s (c.perform s h).set := by
  cases c with
  | put fp => exact sturdy.steps_put fp h
  | putBlock fps => exact sturdy.steps_each (fun fp _ g sturdy => sturdy.steps_put fp g) fps h
  | recoverFingerprint fp =>
    show Steps s (s.recoverFingerprint fp h).set
    rw [set_recoverFingerprint]
    exact sturdy.steps_put fp h
  | contains fp => exact s.steps_contains fp h
  | containsBlock fps => exact sturdy.steps_each (fun fp u g _ => u.steps_contains fp g) fps h
  | flush =>
    show Steps s (s.flush h).set
    cases closed : s.closed with
    | true => rw [flush, set_whenOpen_of_closed closed]
    | false =>
      rw [flush_eq closed]
      exact sturdy.steps_flushNow closed h
  | requestFlush => exact .single .requested
  | beginCheckpoint =>
    show Steps s (s.beginCheckpoint h).set
    cases closed : s.closed with
    | true => rw [beginCheckpoint, set_whenOpen_of_closed closed]
    | false =>
      rw [set_beginCheckpoint closed]
      exact sturdy.steps_flushNow closed h
  | commitCheckpoint =>
    show Steps s (s.commitCheckpoint h).set
    rw [set_commitCheckpoint]
  | recover => contradiction
  | close cleanup => contradiction

/-! ## Endings -/

/-- A run that is mapped again is mapped. -/
theorem mapped_of_remap {r disk : Run w} {t : Files} (remapped : r.remap t = .ok disk) :
    disk.mapped.isSome := by
  cases mapped : r.mapped with
  | some entries =>
    simp only [Run.remap, mapped, Except.ok.injEq] at remapped
    rw [← remapped, mapped]
    rfl
  | none =>
    have already : r = r.unmap := by
      cases r
      cases mapped
      rfl
    rw [already] at remapped
    rcases remap_unmap_cases r t with ⟨e, lost⟩ | ⟨contents, entries, _, _, again⟩
    · rw [lost] at remapped
      contradiction
    · rw [again] at remapped
      rw [← Except.ok.inj remapped]
      rfl

/-- A restored run is mapped. -/
theorem mapped_of_restore {p : SetPaths} {header : CheckpointHeader w} {t after : Files}
    {disk : Run w} (restored : p.restore header t = (.ok disk, after)) : disk.mapped.isSome := by
  rw [SetPaths.restore] at restored
  split at restored
  · next e files failed => cases (Prod.mk.inj restored).1
  · next files replaced =>
    obtain ⟨_, _, _, mapped, _⟩ := openRestored_eq_ok (Prod.mk.inj restored).1
    exact mapped

/-- Going back to a checkpoint is an ending, and when it does not fail it does not close the set. -/
theorem ending_recover (s : DiskSet w) (h : Host) :
    Ending s (s.recover h).set ∧
      ((s.recover h).answer = .ok () → (s.recover h).set.closed = s.closed) := by
  rw [recover, whenOpen]
  split
  · exact ⟨.kept, fun _ => rfl⟩
  · split
    · exact ⟨.kept, fun _ => rfl⟩
    · split
      · next disk files restored =>
        exact ⟨.recovered disk (mapped_of_restore restored), fun _ => rfl⟩
      · next e files failed =>
        simp only [remapOrClose]
        split
        · next disk remapped =>
          exact ⟨.remapped disk (mapped_of_remap remapped), fun _ => rfl⟩
        · exact ⟨.lost _, fun answer => by cases answer⟩

/-- Closing is an ending. -/
theorem ending_close (cleanup : Bool) (s : DiskSet w) (h : Host) :
    Ending s (s.close cleanup h).set := by
  rw [close]
  split
  · exact .kept
  · simp only
    split <;> exact .released

/-! ## Calls -/

/-- A call of a sturdy set comes to steps or to an ending. -/
theorem Sturdy.course_perform (sturdy : s.Sturdy) (c : Call w) (h : Host) :
    Course s (c.perform s h).set := by
  by_cases goesOn : c.goesOn
  · exact .steps (sturdy.steps_perform goesOn h)
  · cases c with
    | recover => exact .ending (s.ending_recover h).1
    | close cleanup => exact .ending (ending_close cleanup s h)
    | _ => exact absurd rfl goesOn

/-- No call closes a sturdy set but one that is to close it and one that fails to go back to a
checkpoint. -/
theorem Sturdy.closed_perform (sturdy : s.Sturdy) {c : Call w}
    (other : ∀ cleanup, c ≠ .close cleanup) (h : Host)
    (recovers : c = .recover → (c.perform s h).answer.isOk) :
    (c.perform s h).set.closed = s.closed := by
  by_cases goesOn : c.goesOn
  · exact (sturdy.steps_perform goesOn h).closed
  · cases c with
    | recover => exact (s.ending_recover h).2 (eq_ok_of_isOk_map (recovers rfl))
    | close cleanup => exact absurd rfl (other cleanup)
    | _ => exact absurd rfl goesOn

/-- An opened set is sturdy. -/
theorem sturdy_of_open {machine : Machine} {c : Config} {before after : Host}
    (opened : DiskSet.open w machine c before = (.ok s, after)) : s.Sturdy := by
  have start := opened_of_open opened
  exact ⟨start.sound.idle, fun _ => start.sound.mapped⟩

/-! ## What calls do not change -/

/-- A relation from a set to what becomes of it that steps and endings are in. -/
structure Lasting (r : DiskSet w → DiskSet w → Prop) : Prop where
  /-- A set is related to itself. -/
  refl : ∀ s, r s s
  /-- What becomes of a set becomes of what it comes from. -/
  trans : ∀ {s t u}, r s t → r t u → r s u
  /-- A step is in the relation. -/
  step : ∀ {s u}, Step s u → r s u
  /-- So is an ending. -/
  ending : ∀ {s u}, Ending s u → r s u

/-- A set is related to what calls make of it. -/
theorem Lasting.course {r : DiskSet w → DiskSet w → Prop} (lasting : Lasting r)
    (course : Course s u) : r s u := by
  cases course with
  | steps steps =>
    induction steps with
    | refl => exact lasting.refl s
    | tail steps step ih => exact lasting.trans ih (lasting.step step)
  | ending ending => exact lasting.ending ending

/-- The configuration of a set stays. -/
theorem lasting_config : Lasting fun s u : DiskSet w => u.config = s.config where
  refl _ := rfl
  trans left right := right.trans left
  step step := by
    cases step with
    | inserted fp opening => exact config_insert ..
    | counted place => exact config_counted ..
    | requested => rfl
    | unrequested => rfl
    | settled entries => rfl
  ending ending := by cases ending <;> rfl

end DiskSet

/-! ## Calls of sets cut into shards or not -/

/-- The disk-backed set that a shard is, if it is one. -/
def Shard.disk? : Shard w → Option (DiskSet w)
  | disk s => some s
  | bloom _ => none

/-- Two shards of one kind. If they are disk-backed, they are related. -/
inductive Shard.Related (r : DiskSet w → DiskSet w → Prop) : Shard w → Shard w → Prop where
  /-- Two disk-backed sets that are related. -/
  | disk {s u : DiskSet w} (related : r s u) : Related r (.disk s) (.disk u)
  /-- Two Bloom filters. -/
  | bloom (f g : BloomFilter w) : Related r (.bloom f) (.bloom g)

/-- Two sets that are cut alike into shards that are related. -/
inductive FingerprintSet.Related (r : DiskSet w → DiskSet w → Prop) :
    FingerprintSet w → FingerprintSet w → Prop where
  /-- Two sets without shards. -/
  | single {s u : Shard w} (related : s.Related r u) : Related r (.single s) (.single u)
  /-- Two sets of as many shards. -/
  | sharded {p : Nat} {s u : ShardedSet w p}
    (related : ∀ i, (s.shards.get i).Related r (u.shards.get i)) :
    Related r (.sharded p s) (.sharded p u)

section

variable {r : DiskSet w → DiskSet w → Prop}

/-- A shard is related to itself. -/
theorem Shard.Related.refl (refl : ∀ s, r s s) (s : Shard w) : s.Related r s := by
  cases s with
  | disk s => exact .disk (refl s)
  | bloom f => exact .bloom f f

/-- What becomes of a shard becomes of what it comes from. -/
theorem Shard.Related.trans (trans : ∀ s t u, r s t → r t u → r s u) {s t u : Shard w}
    (first : s.Related r t) (second : t.Related r u) : s.Related r u := by
  cases first with
  | disk first =>
    cases second with
    | disk second => exact .disk (trans _ _ _ first second)
  | bloom f g =>
    cases second with
    | bloom _ g => exact .bloom f g

/-- A shard is related to what a call makes of it if disk-backed sets are. -/
theorem Shard.related_onShard {c : Call w} (each : ∀ s h, r s (c.perform s h).set) (s : Shard w)
    (h : Host) : s.Related r (c.onShard s h).set := by
  cases s with
  | disk s =>
    rw [Call.onShard_disk]
    exact .disk (each s h)
  | bloom f =>
    obtain ⟨g, same⟩ := c.onShard_bloom f h
    rw [same]
    exact .bloom f g

namespace FingerprintSet

/-- The disk-backed sets that a set consists of, in the order of its shards. -/
def disks : FingerprintSet w → List (DiskSet w)
  | single s => s.disk?.toList
  | sharded p s => (List.finRange (Nat.pow 2 p)).filterMap fun i => (s.shards.get i).disk?

/-- The disk-backed sets of two sets that are related are related in order. -/
theorem Related.disks {s u : FingerprintSet w} (related : s.Related r u) :
    List.Forall₂ r s.disks u.disks := by
  cases related with
  | single related =>
    cases related with
    | disk related => exact .cons related .nil
    | bloom f g => exact .nil
  | @sharded p s u related =>
    show List.Forall₂ r ((List.finRange _).filterMap _) ((List.finRange _).filterMap _)
    induction List.finRange (Nat.pow 2 p) with
    | nil => exact .nil
    | cons i rest ih =>
      have here := related i
      rw [List.filterMap_cons, List.filterMap_cons]
      cases first : s.shards.get i <;> cases second : u.shards.get i <;>
        rw [first, second] at here <;> cases here
      · next related => exact .cons related ih
      · exact ih

/-- A set is related to itself. -/
theorem Related.refl (refl : ∀ s, r s s) (s : FingerprintSet w) : s.Related r s := by
  cases s with
  | single s => exact .single (.refl refl s)
  | sharded p s => exact .sharded fun i => .refl refl _

/-- What becomes of a set becomes of what it comes from. -/
theorem Related.trans (trans : ∀ s t u, r s t → r t u → r s u) {s t u : FingerprintSet w}
    (first : s.Related r t) (second : t.Related r u) : s.Related r u := by
  cases first with
  | single first =>
    cases second with
    | single second => exact .single (first.trans trans second)
  | sharded first =>
    cases second with
    | sharded second => exact .sharded fun i => (first i).trans trans (second i)

/-- A set is related to what a call makes of it if disk-backed sets are. -/
theorem related_onFingerprintSet (refl : ∀ s, r s s) (trans : ∀ s t u, r s t → r t u → r s u)
    (each : ∀ (c : Call w) s h, r s (c.perform s h).set) (c : Call w) (s : FingerprintSet w)
    (h : Host) : s.Related r (c.onFingerprintSet s h).set := by
  cases s with
  | single s =>
    rw [Call.onFingerprintSet_single]
    exact .single (s.related_onShard (each c) h)
  | sharded p s =>
    rw [Call.onFingerprintSet_sharded]
    refine .sharded ?_
    apply ShardedSet.keeps_onShards (fun u _ => ∀ i, (s.shards.get i).Related r (u.shards.get i)) c
    · intro part _ u g related i
      rw [ShardedSet.onShard_eq]
      show (s.shards.get i).Related r ((u.shards.set part.1 _).get i)
      rw [ShardedSet.get_set]
      by_cases same : part.1 = i
      · subst same
        rw [if_pos rfl]
        exact (related part.1).trans trans ((u.shards.get part.1).related_onShard (each part.2) g)
      · rw [if_neg same]
        exact related i
    · exact fun i => .refl refl _

/-- Whatever comes of a set, its sturdy sets stay sturdy, and what lasts of each of them lasts. -/
theorem Sequel.related (lasting : DiskSet.Lasting r) {s u : FingerprintSet w} {h g : Host}
    (sequel : s.Sequel h u g) : s.Related (fun d e => d.Sturdy → e.Sturdy ∧ r d e) u := by
  have refl (d : DiskSet w) : d.Sturdy → d.Sturdy ∧ r d d := fun sturdy =>
    ⟨sturdy, lasting.refl d⟩
  have trans (d e f : DiskSet w) (first : d.Sturdy → e.Sturdy ∧ r d e)
      (second : e.Sturdy → f.Sturdy ∧ r e f) : d.Sturdy → f.Sturdy ∧ r d f := by
    intro sturdy
    obtain ⟨still, left⟩ := first sturdy
    obtain ⟨last, right⟩ := second still
    exact ⟨last, lasting.trans left right⟩
  have each (c : Call w) (d : DiskSet w) (h : Host) :
      d.Sturdy → (c.perform d h).set.Sturdy ∧ r d (c.perform d h).set := by
    intro sturdy
    have course := sturdy.course_perform c h
    exact ⟨sturdy.course course, lasting.course course⟩
  induction sequel with
  | start => exact .refl refl s
  | call sequel c ih => exact ih.trans trans (related_onFingerprintSet refl trans each c _ _)
  | outside sequel files ih => exact ih

/-- Whatever comes of a set of sturdy sets, these stay sturdy in order, and what lasts of each of
them lasts. -/
theorem related_of_sequel (lasting : DiskSet.Lasting r) {s u : FingerprintSet w} {h g : Host}
    (sturdy : ∀ d ∈ s.disks, d.Sturdy) (sequel : s.Sequel h u g) :
    List.Forall₂ (fun d e => e.Sturdy ∧ r d e) s.disks u.disks := by
  have both := (List.forall₂_and_left _ _).2 ⟨sturdy, (sequel.related lasting).disks⟩
  exact both.imp fun d e kept => kept.2 kept.1

end FingerprintSet

end

end SeenStates
