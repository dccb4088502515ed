import SeenStates.Proofs.FlushOrder
import SeenStates.Proofs.LiveSlots

/-!
# The accounts of a set

As long as all fingerprints of a set are of one shard, its counters say how many fingerprints are
in each of its places and no fingerprint is in two of them (`accounted_of_reached`). So a flush
merges lists that ascend and have nothing in common: it writes each fingerprint of the set once,
and a fault of files is all that it can fail with (`DiskSet.FlushesCleanly`).
-/
namespace SeenStates

variable {w : Width}

/-- A fingerprint is of the given shard. Without routing bits there is only one. -/
def Config.Routes (c : Config) (shard : Nat) (fp : Fingerprint w) : Prop :=
  c.prefixBits = 0 ∨ shardIndex fp.address c.prefixBits = shard

/-- Fingerprints of the given shard are of one shard. -/
theorem Config.Routes.sameShard {c : Config} {shard : Nat} {a b : Fingerprint w}
    (first : c.Routes shard a) (second : c.Routes shard b) : SameShard c.prefixBits a b := by
  rcases first with unrouted | first
  · rw [SameShard, unrouted, shardIndex_zero a.address_lt, shardIndex_zero b.address_lt]
  · rcases second with unrouted | second
    · rw [SameShard, unrouted, shardIndex_zero a.address_lt, shardIndex_zero b.address_lt]
    · exact first.trans second.symm

/-- Two files are a checkpoint of fingerprints of the given shard. -/
def Config.IsRoutedCheckpoint (c : Config) (w : Width) (shard : Nat) (copy header : ByteArray) :
    Prop :=
  ∃ (family : Family) (entries : Array (Fingerprint w)), IsCheckpoint family entries copy header ∧
    ∀ fp ∈ entries, c.Routes shard fp

/-- What stands in the place of a checkpoint was written as one of fingerprints of the given
shard. -/
structure Config.RoutedCheckpoints (c : Config) (w : Width) (shard : Nat) (t : Files) : Prop where
  /-- A checkpoint in progress. -/
  pending : ∀ copy header, t.Pair c.paths.pendingCopy c.paths.pendingHeader copy header →
    c.IsRoutedCheckpoint w shard copy header
  /-- The committed checkpoint. -/
  committed : ∀ copy header, t.Pair c.paths.copy c.paths.header copy header →
    c.IsRoutedCheckpoint w shard copy header

/-- Where the paths of checkpoints lead to nothing, nothing stands in their place. -/
theorem Config.RoutedCheckpoints.of_absent {c : Config} {shard : Nat} {t : Files}
    (pending : (t.find c.paths.pendingCopy).isOk = false)
    (committed : (t.find c.paths.copy).isOk = false) : c.RoutedCheckpoints w shard t := by
  constructor
  · intro copy header pair
    exact absurd pair.copied (Files.find_ne_ok pending _)
  · intro copy header pair
    exact absurd pair.copied (Files.find_ne_ok committed _)

/-- The puts of a call are of fingerprints of the given shard. -/
def Call.PutsInto (c : Call w) (config : Config) (shard : Nat) : Prop :=
  ∀ fp ∈ c.puts, config.Routes shard fp

/-- A set all of whose fingerprints are of the given shard: any calls that put only such
fingerprints, with any outcome, where a set that goes back to a checkpoint finds in its place what
was written as one of such fingerprints. Between two calls nothing writes the file of the run;
files can go, and so can the room for them, and directories can come in their way. -/
def oneShard (w : Width) (shard : Nat) : Setting w where
  starts := fun _ _ => True
  allows := fun c s h => c.PutsInto s.config shard ∧ (c = .recover → ∀ copy header,
    h.files.Pair s.config.paths.copy s.config.paths.header copy header →
      s.config.IsRoutedCheckpoint w shard copy header)
  outside := fun s t u => ∀ contents, u.find s.config.paths.run = .ok (.file contents) →
    t.find s.config.paths.run = .ok (.file contents)

/-- A set all of whose fingerprints are of the given shard, among its own files: any calls that put
only such fingerprints, with any outcome, except that one that writes a checkpoint or puts one in
place does not stop halfway. Between two calls nothing writes a file of the set. -/
def oneShardFiles (w : Width) (shard : Nat) : Setting w where
  starts := fun c t => c.RoutedCheckpoints w shard t
  allows := fun c s h => c.PutsInto s.config shard ∧ (ownFiles w).allows c s h
  outside := fun s t u => ∀ f contents, u.find (s.config.paths.path f) = .ok (.file contents) →
    t.find (s.config.paths.path f) = .ok (.file contents)

/-- Checkpoints that are carried over stay those of one shard, if the one written aside is. -/
theorem Config.RoutedCheckpoints.of_carries {c : Config} {shard : Nat} {t u : Files}
    {entries : Array (Fingerprint w)} (routed : c.RoutedCheckpoints w shard t)
    (carries : DiskSet.Carries c entries t u) (all : ∀ fp ∈ entries, c.Routes shard fp) :
    c.RoutedCheckpoints w shard u := by
  constructor
  · intro copy header pair
    rcases carries.pending copy header pair with before | begun
    · exact routed.pending copy header before
    · exact ⟨c.family, entries, begun, all⟩
  · intro copy header pair
    rcases carries.committed copy header pair with before | placed
    · exact routed.committed copy header before
    · exact routed.pending copy header placed

namespace DiskSet

/-- A sound set of fingerprints of one shard, with a table of its shape and its overflow counted. -/
structure Accounted (shard : Nat) (s : DiskSet w) : Prop where
  /-- It is sound. -/
  sound : s.Sound
  /-- Its table has the shape that its configuration asks for. -/
  shaped : s.table.Shaped s.config.prefixBits
  /-- Overflow is counted. -/
  overflowLive : s.overflowLive = s.overflow.size
  /-- Its fingerprints are of the shard. -/
  routed : ∀ fp ∈ s.members, s.config.Routes shard fp

/-- The counters of a set say what is in each of its places, and no fingerprint is in two of them
or in one of them twice. -/
structure Balanced (s : DiskSet w) : Prop where
  /-- The live slots over all regions are counted. -/
  tableLive : s.tableLive = s.table.liveCount
  /-- Overflow is counted. -/
  overflowLive : s.overflowLive = s.overflow.size
  /-- The run can be read. -/
  entries : s.disk.entries = .ok s.disk.stored.toList
  /-- No fingerprint is in two places, or in one twice. -/
  distinct : (s.table.live ++ s.overflow.entries ++ s.disk.stored.toList).Nodup
  /-- The size is the count of all fingerprints. -/
  size : s.size = s.tableLive + s.overflowLive + s.disk.size

/-- A flush of a set finds nothing in two places, writes each of its fingerprints once, and fails
with faults of files only. -/
structure FlushesCleanly (s : DiskSet w) (h : Host) : Prop where
  /-- The merged run has every fingerprint of the set, and none was in two places. -/
  merged : ∀ r counts files, s.mergeRun h.files = (.ok (r, counts), files) → counts = ⟨s.size, 0⟩
  /-- Only files can be at fault. -/
  faults : ∀ e, (s.flushNow h).answer = .error e → ∃ path fault, e = .file path fault
  /-- The run has as many entries as there are fingerprints in the set. -/
  written : (s.flushNow h).answer = .ok () → (s.flushNow h).set.disk.size = s.size

namespace Accounted

variable {shard : Nat} {s : DiskSet w} {h : Host}

/-! ## Flushes -/

/-- Everything in the table is scanned in ascending order. -/
theorem ascending_scan (accounted : s.Accounted shard) : Ascending s.table.scan := by
  refine accounted.sound.table.ascending_scan fun a member b member' => ?_
  have inSet : ∀ fp ∈ s.table.scan, fp ∈ s.members := fun fp member =>
    List.mem_append_left _ (List.mem_append_left _ member)
  rw [accounted.shaped.routing]
  exact (accounted.routed a (inSet a member)).sameShard (accounted.routed b (inSet b member'))

/-- A flush that does not succeed fails with a fault of files. -/
theorem fault_of_flushNow (accounted : s.Accounted shard) {e : Error}
    (failed : (s.flushNow h).answer = .error e) : ∃ path fault, e = .file path fault :=
  (accounted.sound.fault_of_flushNow failed).resolve_right fun out =>
    accounted.sound.table.ascending_scan_iff.1 accounted.ascending_scan out.1

/-- A flush finds nothing in two places and writes each fingerprint once. -/
theorem flushesCleanly (accounted : s.Accounted shard) (isOpen : s.closed = false) (h : Host) :
    s.FlushesCleanly h := by
  constructor
  case merged => exact fun _ _ _ merged => accounted.sound.counts_of_mergeRun merged
  case faults => exact fun e failed => accounted.fault_of_flushNow failed
  case written => exact (accounted.sound.lossless isOpen h).count

/-! ## Counters -/

/-- The counters are those of the places. -/
theorem balanced (accounted : s.Accounted shard) : s.Balanced := by
  have sound := accounted.sound
  have live := Table.perm_live sound.table.regions accounted.shaped
  have count : s.disk.size = s.disk.stored.toList.length := by
    conv => lhs; rw [sound.run]
    rw [Array.length_toList]
    rfl
  constructor
  case tableLive => rw [Table.liveCount_eq, live.length_eq, sound.live]
  case overflowLive => exact accounted.overflowLive
  case entries =>
    have mapped := sound.holds.mapped
    unfold Run.entries
    split
    · next nothing =>
      rw [count] at nothing
      rw [List.eq_nil_of_length_eq_zero nothing]
    · rw [mapped]
  case distinct => exact ((live.append_right _).append_right _).nodup_iff.2 sound.distinct
  case size =>
    have counted : s.size = s.members.length := sound.counted
    rw [counted, members, List.length_append, List.length_append, Overflow.length_entries,
      ← sound.live, ← count, accounted.overflowLive]

/-! ## Steps -/

/-- A set stays accounted for when a fingerprint of its shard is taken as new. -/
theorem insert (accounted : s.Accounted shard) {fp : Fingerprint w} {opening : Option Nat}
    (routes : s.config.Routes shard fp) (found : s.find fp = .absent opening) :
    (s.insert fp opening).Accounted shard := by
  have sound := accounted.sound
  have routed : ∀ other ∈ (s.insert fp opening).members,
      (s.insert fp opening).config.Routes shard other := by
    intro other member
    rw [config_insert]
    rcases List.mem_cons.1 ((sound.perm_members_insert found).mem_iff.1 member) with rfl | before
    · exact routes
    · exact accounted.routed other before
  have shaped : (s.insert fp opening).table.Shaped (s.insert fp opening).config.prefixBits := by
    rw [config_insert]
    cases opening with
    | none => exact accounted.shaped
    | some position => exact accounted.shaped.store fp position
  refine ⟨sound.insert found, shaped, ?_, routed⟩
  cases opening with
  | some position => exact accounted.overflowLive
  | none =>
    change s.overflowLive + 1 = (s.overflow.insert fp).size
    rw [sound.size_overflow_insert found, accounted.overflowLive]

/-- A set stays accounted for when a look-up is counted. -/
theorem counted (accounted : s.Accounted shard) (place : Place) :
    (s.counted place).Accounted shard := by
  have sound := (accounted.sound.counted_find place).1
  cases place with
  | memory => exact { accounted with sound }
  | disk => exact { accounted with sound }
  | absent opening => exact accounted

/-- A set stays accounted for when a flush is asked for. -/
theorem requestFlush (accounted : s.Accounted shard) : s.requestFlush.Accounted shard :=
  { accounted with sound := accounted.sound.requestFlush }

/-- A set stays accounted for when no flush is asked for any more. -/
theorem unrequested (accounted : s.Accounted shard) : s.unrequested.Accounted shard :=
  { accounted with sound := accounted.sound.unrequested }

/-- A set stays accounted for when everything in it moves into its run. -/
theorem settled (accounted : s.Accounted shard) {entries : Array (Fingerprint w)}
    (ascending : Ascending entries.toList) (storable : Storable defaultBlockEntries entries)
    (all : ∀ fp, fp ∈ entries ↔ fp ∈ s.members) : (s.settled entries).Accounted shard := by
  have same := accounted.sound.perm_members_settled ascending all
  exact ⟨accounted.sound.settled ascending storable all, accounted.shaped.map fun _ => rfl, rfl,
    fun fp member => accounted.routed fp (same.mem_iff.1 member)⟩

/-- A set stays accounted for when it goes back to fingerprints of its shard. -/
theorem recovered (accounted : s.Accounted shard) {entries : Array (Fingerprint w)}
    (ascending : Ascending entries.toList) (storable : Storable defaultBlockEntries entries)
    (routed : ∀ fp ∈ entries, s.config.Routes shard fp) :
    (s.recovered (.ofEntries s.config.paths.run defaultBlockEntries entries)).Accounted shard := by
  obtain ⟨sound, members⟩ := accounted.sound.recovered ascending storable
  refine ⟨sound, accounted.shaped.map fun _ => rfl, rfl, fun fp member => ?_⟩
  rw [members, Array.mem_toList_iff] at member
  exact routed fp member

/-! ## Calls -/

/-- Puts of fingerprints of the shard, look-ups and flushes keep a set accounted for. -/
theorem keeps (c : Config) (shard : Nat) :
    Keeps (w := w) c (c.Routes shard) (Accounted shard) where
  insert := fun _ _ _ config _ routes found accounted =>
    accounted.insert (config ▸ routes) found
  counted := fun _ place _ accounted => accounted.counted place
  requestFlush := fun _ _ accounted => accounted.requestFlush
  unrequested := fun _ _ accounted => accounted.unrequested
  settled := fun _ _ _ ascending storable all accounted =>
    accounted.settled ascending storable all

/-- A put of a fingerprint of the shard keeps a set accounted for. -/
theorem put (accounted : s.Accounted shard) (isOpen : s.closed = false) {fp : Fingerprint w}
    (routes : s.config.Routes shard fp) (h : Host) : (s.put fp h).set.Accounted shard :=
  (keeps s.config shard).put rfl accounted.sound isOpen accounted routes h

/-- A call that goes on with a set and puts fingerprints of its shard keeps it accounted for. -/
theorem perform (accounted : s.Accounted shard) (isOpen : s.closed = false) {c : Call w}
    (routes : ∀ fp ∈ c.puts, s.config.Routes shard fp) (goesOn : c.goesOn) (h : Host) :
    (c.perform s h).set.Accounted shard :=
  (keeps s.config shard).perform rfl accounted.sound isOpen accounted routes goesOn h

end Accounted

/-! ## Runs -/

/-- An opened set has the table that its configuration is laid out with, and nothing in it. -/
theorem accounted_of_open {machine : Machine} {c : Config} {before after : Host} {s : DiskSet w}
    (opened : DiskSet.open w machine c before = (.ok s, after)) (shard : Nat) :
    s.Accounted shard := by
  have start := opened_of_open opened
  obtain ⟨_, layout, overflowLive⟩ := layout_of_open opened
  refine ⟨start.sound, start.config ▸ .of_layout layout, overflowLive, fun fp member => ?_⟩
  rw [start.members] at member
  contradiction

/-- A set that goes back to a checkpoint of its shard and is not closed stays accounted for. -/
theorem Accounted.recover {shard : Nat} {s : DiskSet w} {h : Host} (accounted : s.Accounted shard)
    (faithful : s.Faithful h.files) (isOpen : s.closed = false)
    (routed : ∀ copy header,
      h.files.Pair s.config.paths.copy s.config.paths.header copy header →
        s.config.IsRoutedCheckpoint w shard copy header)
    (stillOpen : (s.recover h).set.closed = false) : (s.recover h).set.Accounted shard := by
  have genuine : h.files.Genuine s.config.paths.copy s.config.paths.header := by
    intro copy header found found'
    obtain ⟨family, entries, checkpoint, _⟩ := routed copy header ⟨found, found'⟩
    exact ⟨w, family, entries, checkpoint⟩
  rcases faithful.recover_cases isOpen genuine with
    ⟨e, _, shut | same⟩ | ⟨entries, copy, header, pair, checkpoint, _, recovered⟩
  · rw [shut] at stillOpen
    contradiction
  · rw [same]
    exact accounted
  · obtain ⟨family, others, checkpoint', all⟩ := routed copy header pair
    obtain ⟨_, _, same⟩ := checkpoint.unique checkpoint'
    obtain rfl := eq_of_heq same
    rw [recovered]
    exact accounted.recovered checkpoint.ascending checkpoint.storable all

/-- A call that the setting allows leaves a set accounted for, if it is open afterwards. -/
theorem Accounted.perform_allowed {shard : Nat} {s : DiskSet w} {h : Host}
    (accounted : s.Accounted shard) (faithful : s.Faithful h.files) (isOpen : s.closed = false)
    {c : Call w} (allowed : (oneShard w shard).allows c s h)
    (stillOpen : (c.perform s h).set.closed = false) : (c.perform s h).set.Accounted shard := by
  by_cases goesOn : c.goesOn
  · exact accounted.perform isOpen allowed.1 goesOn h
  · cases c with
    | recover => exact accounted.recover faithful isOpen (allowed.2 rfl) stillOpen
    | close cleanup =>
      have shut := (close_closes (h := h) faithful.valid cleanup).1
      simp only [Call.perform, Outcome.map, shut] at stillOpen
      contradiction
    | _ => exact absurd rfl goesOn

/-- A set of fingerprints of one shard is faithful to its files and accounted for as long as it is
open. -/
theorem accounted_of_oneShard {shard : Nat} {puts : List (Fingerprint w)} {s : DiskSet w} {h : Host}
    (reached : Reached (oneShard w shard) puts s h) (isOpen : s.closed = false) :
    s.Faithful h.files ∧ s.Accounted shard := by
  induction reached with
  | opened opened starts =>
    exact ⟨(opened_of_open opened).faithful, accounted_of_open opened shard⟩
  | @call puts s h reached c allowed ih =>
    have closed := isOpen_of_perform isOpen
    obtain ⟨faithful, accounted⟩ := ih closed
    refine ⟨?_, accounted.perform_allowed faithful closed allowed isOpen⟩
    rcases (faithful.perform closed c).2 with shut | ⟨_, still⟩
    · rw [isOpen] at shut
      contradiction
    · exact still
  | outside reached files allowed ih =>
    obtain ⟨faithful, accounted⟩ := ih isOpen
    exact ⟨{ faithful with file := fun contents found => faithful.file contents (allowed _ found) },
      accounted⟩

/-- A set among its own files, where no call that writes or places a checkpoint stops halfway,
finds what was written as a checkpoint whenever it goes back to one. -/
theorem oneShard_of_oneShardFiles {shard : Nat} {puts : List (Fingerprint w)} {s : DiskSet w}
    {h : Host} (reached : Reached (oneShardFiles w shard) puts s h) :
    Reached (oneShard w shard) puts s h ∧ s.config.RoutedCheckpoints w shard h.files := by
  induction reached with
  | opened opened starts =>
    exact ⟨.opened opened trivial, (opened_of_open opened).config ▸ starts⟩
  | @call puts s h reached c allowed ih =>
    obtain ⟨before, routed⟩ := ih
    refine ⟨before.call c ⟨allowed.1, fun _ => routed.committed⟩, ?_⟩
    cases closed : s.closed with
    | true =>
      obtain ⟨_, config, host, _⟩ := perform_of_closed (h := h) closed c
      rw [config, host]
      exact routed
    | false =>
      obtain ⟨faithful, accounted⟩ := accounted_of_oneShard before closed
      obtain ⟨_, carries, all⟩ :=
        accounted.sound.carries_perform faithful closed allowed.2
      rw [(faithful.perform closed c).1]
      exact routed.of_carries carries fun fp member => accounted.routed fp (all fp member)
  | @outside puts s h reached files allowed ih =>
    obtain ⟨before, routed⟩ := ih
    refine ⟨before.outside files fun contents => allowed .run contents, ?_, ?_⟩
    · intro copy header pair
      exact routed.pending copy header
        ⟨allowed .pendingCopy copy pair.copied, allowed .pendingHeader header pair.written⟩
    · intro copy header pair
      exact routed.committed copy header
        ⟨allowed .copy copy pair.copied, allowed .header header pair.written⟩

end DiskSet

/-- In every open state of a set of fingerprints of one shard the counters say what is in each of
its places, no fingerprint is in two of them, and a flush writes each fingerprint of the set once
and fails with faults of files only. That is so of the flush that a put ends with as well: it is
one of the set with the new fingerprint. Nothing is asked of the checkpoints that such a set goes
back to if its files are its own. -/
theorem accounted_of_reached {shard : Nat} {puts : List (Fingerprint w)} {s : DiskSet w} {h : Host}
    (reached : Reached (oneShard w shard) puts s h ∨ Reached (oneShardFiles w shard) puts s h)
    (isOpen : s.closed = false) :
    s.Balanced ∧ s.FlushesCleanly h ∧
      ∀ fp opening, s.config.Routes shard fp → s.find fp = .absent opening →
        (s.insert fp opening).Balanced ∧ (s.insert fp opening).FlushesCleanly h ∧
          ((s.insert fp opening).needsFlush →
            s.put fp h = ((s.insert fp opening).flushNow h).map fun _ => false) := by
  have reached : Reached (oneShard w shard) puts s h :=
    reached.elim id fun own => (DiskSet.oneShard_of_oneShardFiles own).1
  obtain ⟨_, accounted⟩ := DiskSet.accounted_of_oneShard reached isOpen
  refine ⟨accounted.balanced, accounted.flushesCleanly isOpen h, fun fp opening routes found => ?_⟩
  have inserted := accounted.insert routes found
  exact ⟨inserted.balanced, inserted.flushesCleanly ((DiskSet.closed_insert ..).trans isOpen) h,
    fun due => DiskSet.put_of_absent isOpen accounted.sound.idle found due h⟩

/-- A set among its own files that was put one fingerprint, went back to a checkpoint of it and was
put another has one of them in its run and one in its table. -/
theorem accounted_of_reached_back :
    let put := (Call.put (.ofNat .bits64 0)).perform sampleSet sampleHost
    let begun := Call.beginCheckpoint.perform put.set put.host
    let placed := Call.commitCheckpoint.perform begun.set begun.host
    let back := Call.recover.perform placed.set placed.host
    let more := (Call.put (.ofNat .bits64 1)).perform back.set back.host
    Reached (oneShardFiles .bits64 0) [.ofNat _ 0, .ofNat _ 1] more.set more.host ∧
      (more.set.closed = false ∧ more.set.tableLive = 1 ∧ more.set.disk.size = 1 ∧
        more.set.size = 2) ∧
      more.set.Balanced ∧ more.set.FlushesCleanly more.host := by
  intro put begun placed back more
  have start : Reached (oneShardFiles .bits64 0) [] sampleSet sampleHost :=
    .opened open_sample (.of_absent (by decide +kernel) (by decide +kernel))
  have first : Reached (oneShardFiles .bits64 0) [.ofNat _ 0] put.set put.host :=
    start.call (.put (.ofNat _ 0))
      ⟨fun _ _ => .inl (by decide +kernel), by simp [ownFiles, Call.isCheckpoint]⟩
  have second : Reached (oneShardFiles .bits64 0) [.ofNat _ 0] begun.set begun.host :=
    first.call .beginCheckpoint
      ⟨by simp [Call.PutsInto, Call.puts], fun _ => .inl (by decide +kernel)⟩
  have third : Reached (oneShardFiles .bits64 0) [.ofNat _ 0] placed.set placed.host :=
    second.call .commitCheckpoint
      ⟨by simp [Call.PutsInto, Call.puts], fun _ => .inl (by decide +kernel)⟩
  have fourth : Reached (oneShardFiles .bits64 0) [.ofNat _ 0] back.set back.host :=
    third.call .recover
      ⟨by simp [Call.PutsInto, Call.puts], by simp [ownFiles, Call.isCheckpoint]⟩
  have fifth : Reached (oneShardFiles .bits64 0) [.ofNat _ 0, .ofNat _ 1] more.set more.host :=
    fourth.call (.put (.ofNat _ 1))
      ⟨fun _ _ => .inl (by decide +kernel), by simp [ownFiles, Call.isCheckpoint]⟩
  have counts : more.set.closed = false ∧ more.set.tableLive = 1 ∧ more.set.disk.size = 1 ∧
      more.set.size = 2 := by
    decide +kernel
  obtain ⟨balanced, clean, _⟩ := accounted_of_reached (.inr fifth) counts.1
  exact ⟨fifth, counts, balanced, clean⟩

end SeenStates
