import SeenStates.Proofs.TableSlots

/-!
# Fingerprints of several shards in one table

A table strips the routing bits of an address before it picks the bucket, whatever they are. With
fingerprints of one shard the buckets are in the order of the fingerprints. With fingerprints of
several shards they need not be, and nothing keeps them from being put into one set: then a flush
is refused although nothing is wrong with the files (`outOfOrder_of_reached`). There is no other
way in which a put, a flush or a checkpoint that is begun can find the set out of order.
-/
namespace SeenStates

variable {w : Width}

/-- Whether a call can flush the set that it was made of. -/
def Call.flushes : Call w → Bool
  | put _ => true
  | putBlock _ => true
  | flush => true
  | beginCheckpoint => true
  | _ => false

namespace DiskSet

variable {s : DiskSet w} {h : Host}

/-! ## What was put -/

/-- The live fingerprints of the table are among the given ones. -/
def LiveAmong (fps : List (Fingerprint w)) (s : DiskSet w) : Prop :=
  ∀ fp ∈ s.table.scan, fp ∈ fps

/-- Puts of the given fingerprints, look-ups and flushes keep it so. -/
theorem LiveAmong.keeps (c : Config) (fps : List (Fingerprint w)) :
    Keeps c (· ∈ fps) (LiveAmong fps) where
  insert := fun s fp opening _ sound among found live other member => by
    cases opening with
    | none => exact live other member
    | some position =>
      obtain ⟨front, slot, back, opening, rfl⟩ := sound.table.opening (Sound.probe_of_find found)
      rcases List.mem_cons.1 (opening.perm_scan.mem_iff.1 member) with rfl | before
      · exact among
      · exact live other before
  counted := fun _ place _ live => by cases place <;> exact live
  requestFlush := fun _ _ live => live
  unrequested := fun _ _ live => live
  settled := fun s entries _ _ _ _ _ fp member => by
    have nothing : (s.settled entries).table.scan = [] := Table.scan_archiveLive s.table
    rw [nothing] at member
    contradiction

/-- Only what was put is live in the table of an open set. -/
theorem liveAmong_of_anyOutcome {puts : List (Fingerprint w)}
    (reached : Reached (anyOutcome w) puts s h) (isOpen : s.closed = false) :
    s.LiveAmong puts := by
  refine kept_of_anyOutcome LiveAmong (fun opened fp member => ?_)
    (fun added live fp member => List.mem_append_left added (live fp member)) LiveAmong.keeps
    (fun {_ s} entries sound _ fp member => ?_) reached isOpen
  · have vacant := (opened_of_open opened).members
    simp only [members, List.append_eq_nil_iff] at vacant
    rw [vacant.1.1] at member
    contradiction
  · have nothing : (s.recovered (.ofEntries s.config.paths.run defaultBlockEntries
        entries)).table.scan = [] := sound.table.blank_clear.scan_eq
    rw [nothing] at member
    contradiction

/-! ## Flushes that are refused -/

/-- A flush that finds the set out of order leaves it so. -/
theorem Sound.disordered_of_flushNow (sound : s.Sound) {fault : InvariantFault}
    (failed : (s.flushNow h).answer = .error (.invariant fault)) :
    (s.flushNow h).set.table.Disordered := by
  have ends := flushed_flushNow sound.mapped h
  rw [failed] at ends
  rw [(Flushed.eq_of_error ends).1]
  rcases sound.fault_of_flushNow failed with ⟨path, fault, other⟩ | ⟨disordered, _⟩
  · contradiction
  · exact disordered

/-- So does a put. -/
theorem Sound.disordered_of_put (sound : s.Sound) (isOpen : s.closed = false)
    {fp : Fingerprint w} {fault : InvariantFault}
    (failed : (s.put fp h).answer = .error (.invariant fault)) :
    (s.put fp h).set.table.Disordered := by
  obtain ⟨opening, found, flushed, same⟩ := put_of_error isOpen sound.idle failed
  rw [same]
  exact (sound.insert found).disordered_of_flushNow flushed

/-- And puts one after the other. -/
theorem Sound.disordered_of_putBlock (sound : s.Sound) (isOpen : s.closed = false)
    {fps : List (Fingerprint w)} {fault : InvariantFault}
    (failed : (s.putBlock fps h).answer = .error (.invariant fault)) :
    (s.putBlock fps h).set.table.Disordered := by
  induction fps generalizing s h with
  | nil => contradiction
  | cons fp rest ih =>
    have unfolded : s.putBlock (fp :: rest) h = (s.put fp h).andThen fun seen s h =>
        (s.putBlock rest h).map fun answers => seen :: answers := rfl
    rw [unfolded, Outcome.andThen] at failed ⊢
    cases answer : (s.put fp h).answer with
    | error e =>
      simp only [answer, Except.error.injEq] at failed ⊢
      exact sound.disordered_of_put isOpen (answer.trans (congrArg Except.error failed))
    | ok seen =>
      simp only [answer] at failed ⊢
      have grown := sound.grown_put isOpen fp h
      exact ih grown.sound grown.isOpen (error_of_map failed)

/-- Every call that flushes a set and finds it out of order leaves it so. -/
theorem Sound.disordered_of_perform (sound : s.Sound) (isOpen : s.closed = false) {c : Call w}
    (flushes : c.flushes) {fault : InvariantFault}
    (failed : (c.perform s h).answer = .error (.invariant fault)) :
    (c.perform s h).set.table.Disordered := by
  cases c with
  | put fp => exact sound.disordered_of_put isOpen (error_of_map failed)
  | putBlock fps => exact sound.disordered_of_putBlock isOpen failed
  | flush =>
    have failed := error_of_map failed
    simp only [Call.perform, Outcome.map]
    rw [flush_eq isOpen] at failed ⊢
    exact sound.disordered_of_flushNow failed
  | beginCheckpoint =>
    have failed := error_of_map failed
    simp only [Call.perform, Outcome.map, set_beginCheckpoint isOpen]
    rcases beginCheckpoint_cases (h := h) isOpen with ⟨e, flushed, same, _⟩ | ⟨_, begun⟩
    · rw [failed] at same
      exact sound.disordered_of_flushNow (flushed.trans same.symm)
    · rw [failed] at begun
      obtain ⟨path, fault, other⟩ := SetPaths.begin_eq_error begun
      contradiction
  | _ => contradiction

/-- Two fingerprints that are out of order are of different shards. -/
theorem Housed.apart (housed : s.Housed) {a b : Fingerprint w}
    (before : (s.table.locate a).bucket < (s.table.locate b).bucket) (below : b < a) :
    ¬ SameShard s.config.prefixBits a b := by
  intro shared
  rw [← housed.shaped.routing] at shared
  exact Std.not_gt_of_lt below (Table.lt_of_bucket_lt shared before)

end DiskSet

/-- In every open state of a set, whatever was put into it: a flush hands its live fingerprints to
the writer in ascending order unless a bucket of the table has a fingerprint that is greater than
one of a bucket behind it, and two such fingerprints were put into the set and are of different
shards. A put, a flush or a checkpoint that is begun fails with a broken invariant only in such a
state, and so never in a set without routing bits. In such a state a flush does fail so, unless a
run cannot be started or there is no room for it. -/
theorem outOfOrder_of_reached {puts : List (Fingerprint w)} {s : DiskSet w} {h : Host}
    (reached : Reached (anyOutcome w) puts s h) (isOpen : s.closed = false) :
    (Ascending s.table.scan ↔ ¬ s.table.Disordered) ∧
      (s.table.Disordered →
        ∃ a ∈ puts, ∃ b ∈ puts, ¬ SameShard s.config.prefixBits a b) ∧
      (∀ c : Call w, c.flushes → ∀ fault,
        (c.perform s h).answer = .error (.invariant fault) →
          (c.perform s h).set.table.Disordered ∧
            ∃ a ∈ puts ++ c.puts, ∃ b ∈ puts ++ c.puts, ¬ SameShard s.config.prefixBits a b) ∧
      (s.config.prefixBits = 0 → ∀ c : Call w, c.flushes → ∀ fault,
        (c.perform s h).answer ≠ .error (.invariant fault)) ∧
      (s.table.Disordered → ∀ r begun,
        RunWriter.start w h.files s.config.paths.run defaultBlockEntries = .ok (r, begun) →
          excess? r.room (RunWriter.bytesOf w s.size) = none →
            ∃ fp last, (s.flush h).answer = .error (.invariant (.unordered fp last))) := by
  -- Whatever is out of order in a state that is reached was put and is of different shards.
  have mixed {puts : List (Fingerprint w)} {u : DiskSet w} {g : Host}
      (reached : Reached (anyOutcome w) puts u g) (isOpen : u.closed = false)
      (disordered : u.table.Disordered) :
      ∃ a ∈ puts, ∃ b ∈ puts, ¬ SameShard u.config.prefixBits a b := by
    obtain ⟨a, first, b, second, before, below⟩ := disordered
    have live := DiskSet.liveAmong_of_anyOutcome reached isOpen
    exact ⟨a, live a first, b, live b second,
      (DiskSet.housed_of_anyOutcome reached isOpen).apart before below⟩
  obtain ⟨sound, _⟩ := (DiskSet.whole_of_anyOutcome reached).of_open isOpen
  have only (c : Call w) (flushes : c.flushes) (fault : InvariantFault)
      (failed : (c.perform s h).answer = .error (.invariant fault)) :
      (c.perform s h).set.table.Disordered ∧
        ∃ a ∈ puts ++ c.puts, ∃ b ∈ puts ++ c.puts, ¬ SameShard s.config.prefixBits a b := by
    have disordered := sound.disordered_of_perform isOpen flushes failed
    have goesOn : c.goesOn := by cases c <;> first | rfl | contradiction
    have allowed : (anyOutcome w).allows c s h := by
      rintro rfl
      contradiction
    obtain ⟨_, grown, _⟩ := sound.perform isOpen goesOn h
    have apart := mixed (reached.call c allowed) grown.isOpen disordered
    rw [grown.config] at apart
    exact ⟨disordered, apart⟩
  refine ⟨sound.table.ascending_scan_iff, mixed reached isOpen, only,
    fun unrouted c flushes fault failed => ?_, fun disordered r begun started room => ?_⟩
  · obtain ⟨_, a, _, b, _, apart⟩ := only c flushes fault failed
    rw [SameShard, unrouted, shardIndex_zero a.address_lt, shardIndex_zero b.address_lt] at apart
    exact apart rfl
  · rw [DiskSet.flush_eq isOpen]
    exact sound.flushNow_of_disordered disordered started room

/-! ## A set of two shards -/

/-- The configuration of a set of two buckets that is one of two shards. -/
def crossedConfig : Config :=
  { Config.named "m" "states" with
    memory := .fingerprints 32, prefixBits := 1, lockCount := some 1 }

/-- The set can be opened where there is nothing. -/
theorem isSome_open_crossed :
    (DiskSet.open .bits64 sampleMachine crossedConfig .empty).1.toOption.isSome := by
  decide +kernel

/-- The set, just opened. -/
def crossedSet : DiskSet .bits64 :=
  (DiskSet.open .bits64 sampleMachine crossedConfig .empty).1.toOption.get isSome_open_crossed

/-- The surroundings of the set. -/
def crossedHost : Host := (DiskSet.open .bits64 sampleMachine crossedConfig .empty).2

/-- The first fingerprint of the second shard, and one of the second half of the first. -/
def crossedPuts : List (Fingerprint .bits64) :=
  [.ofNat _ (Nat.pow 2 63), .ofNat _ (Nat.pow 2 62)]

/-- A set that was put a fingerprint of each shard cannot be flushed. -/
theorem outOfOrder_of_reached_crossed :
    let o := (Call.putBlock crossedPuts).perform crossedSet crossedHost
    Reached (anyOutcome .bits64) crossedPuts o.set o.host ∧ o.answer.isOk ∧
      o.set.table.Disordered ∧
      (∃ fp last, (o.set.flush o.host).answer = .error (.invariant (.unordered fp last))) ∧
      ∃ a ∈ crossedPuts, ∃ b ∈ crossedPuts, ¬ SameShard crossedConfig.prefixBits a b := by
  intro o
  have start : Reached (anyOutcome .bits64) [] crossedSet crossedHost :=
    .opened (eq_ok_get isSome_open_crossed) trivial
  have reached : Reached (anyOutcome .bits64) crossedPuts o.set o.host :=
    start.call (.putBlock crossedPuts) (by simp [anyOutcome])
  have isOpen : o.set.closed = false := by decide +kernel
  obtain ⟨_, mixed, _, _, refused⟩ := outOfOrder_of_reached reached isOpen
  have scanned : o.set.table.scan = crossedPuts := by decide +kernel
  have disordered : o.set.table.Disordered := by
    refine ⟨.ofNat _ (Nat.pow 2 63), ?_, .ofNat _ (Nat.pow 2 62), ?_, by decide +kernel⟩
    · simp [scanned, crossedPuts]
    · simp [scanned, crossedPuts]
  have starts : (RunWriter.start .bits64 o.host.files o.set.config.paths.run
      defaultBlockEntries).toOption.any (fun started =>
        decide (excess? started.1.room (RunWriter.bytesOf .bits64 o.set.size) = none)) := by
    decide +kernel
  refine ⟨reached, by decide +kernel, disordered, ?_, mixed disordered⟩
  cases started : RunWriter.start .bits64 o.host.files o.set.config.paths.run
      defaultBlockEntries with
  | error e => simp [started, Except.toOption] at starts
  | ok begun =>
    simp only [started, Except.toOption, Option.any_some, decide_eq_true_eq] at starts
    exact refused disordered begun.1 begun.2 started starts

end SeenStates
