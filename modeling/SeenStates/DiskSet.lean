import SeenStates.Birthday
import SeenStates.Checkpoint
import SeenStates.Host
import SeenStates.Overflow
import SeenStates.Scan
import SeenStates.Statistics

/-!
# Disk-backed sets

An exact set of fingerprints that spills to disk. A new fingerprint goes into its bucket of the
table, or into overflow if the bucket is full. A flush merges table, overflow and run into a new
run and archives the table; it is due when the table is full, when overflow has too large a share
of a reasonably full table, or when it was asked for. Everything that a flush changes in the set it
changes after the new run is in place, so a failed flush loses nothing.
-/
namespace SeenStates

/-- A disk-backed set. -/
structure DiskSet (w : Width) where
  /-- The configuration that the set was opened with. -/
  config : Config
  /-- The slots in memory. -/
  table : Table w
  /-- The fingerprints that had no room in the table. -/
  overflow : Overflow w
  /-- The run. -/
  disk : Run w
  /-- The count of live fingerprints in the table. -/
  tableLive : Nat
  /-- The count of fingerprints put into overflow since the last flush. -/
  overflowLive : Nat
  /-- The count of fingerprints taken as new. -/
  inserted : Nat
  /-- Whether a put has taken it upon itself to flush. -/
  flusherChosen : Bool
  /-- Whether a flush was asked for. -/
  flushRequested : Bool
  /-- Whether the set is closed. -/
  closed : Bool
  /-- The look-ups answered from memory. -/
  memoryHits : Nat
  /-- The look-ups answered from the run. -/
  diskHits : Nat
  /-- The flushes done. -/
  flushes : Nat

/-- Where a look-up finds a fingerprint. -/
inductive Place where
  /-- In the table or in overflow. -/
  | memory
  /-- In the run. -/
  | disk
  /-- Nowhere. Its bucket has a slot for it, counted from the start of the bucket, or none. -/
  | absent (opening : Option Nat)
deriving DecidableEq

/-- Whether a look-up finds a fingerprint. -/
def Place.isSeen : Place → Bool
  | memory => true
  | disk => true
  | absent _ => false

namespace DiskSet

variable {w : Width}

/-- The slots that a configuration has memory for, and how they are laid out. -/
def layOut (w : Width) (machine : Machine) (c : Config) : Except Error (Table w) := do
  c.validate
  if c.width ≠ w then .error (.widthMismatch c.width.bits w.bits)
  else do
    let capacity ← c.memorySlots machine.available
    let geometry ← Geometry.make capacity c.prefixBits (c.lockCount.getD machine.locks)
    Table.make w machine geometry

/-- The set of a table and a run that are both empty. -/
def ofParts (c : Config) (table : Table w) (disk : Run w) : DiskSet w where
  config := c
  table := table
  overflow := .empty
  disk := disk
  tableLive := 0
  overflowLive := 0
  inserted := 0
  flusherChosen := false
  flushRequested := false
  closed := false
  memoryHits := 0
  diskHits := 0
  flushes := 0

/-- Open the empty set of a configuration. The directory of its files is made if it is missing, and
a run that stands there is replaced. -/
def «open» (w : Width) (machine : Machine) (c : Config) (h : Host) :
    Except Error (DiskSet w) × Host :=
  match layOut w machine c with
  | .error e => (.error e, h)
  | .ok table =>
    match h.files.makeDirectories c.metadir with
    | (.error fault, files) => (.error (.file c.metadir fault), h.withFiles files)
    | (.ok (), files) =>
      match Run.createEmpty w files c.paths.run with
      | (.error e, files) => (.error e, h.withFiles files)
      | (.ok disk, files) =>
        (.ok (ofParts c table disk), (h.withFiles files).report (.tableAllocated w))

/-- Where a fingerprint is that is not in the table, when its bucket has the given slot for it. -/
def findElsewhere (s : DiskSet w) (fp : Fingerprint w) (opening : Option Nat) : Place :=
  if s.overflow.contains fp then .memory
  else if s.disk.contains fp then .disk
  else .absent opening

/-- Where a fingerprint is. -/
def find (s : DiskSet w) (fp : Fingerprint w) : Place :=
  match s.table.probe fp with
  | .found => .memory
  | .vacant position => s.findElsewhere fp (some position)
  | .full => s.findElsewhere fp none

/-- The set after a look-up with the given result. -/
def counted (s : DiskSet w) : Place → DiskSet w
  | .memory => { s with memoryHits := s.memoryHits + 1 }
  | .disk => { s with diskHits := s.diskHits + 1 }
  | .absent _ => s

/-- The set with a fingerprint that it did not have, in the given slot of its bucket or, if there
is none, in overflow. -/
def insert (s : DiskSet w) (fp : Fingerprint w) : Option Nat → DiskSet w
  | some position =>
    { s with
      table := s.table.store fp position
      tableLive := s.tableLive + 1
      inserted := s.inserted + 1 }
  | none =>
    { s with
      overflow := s.overflow.insert fp
      overflowLive := s.overflowLive + 1
      inserted := s.inserted + 1 }

/-- Whether overflow has its share of the fingerprints in memory. -/
def isCrowded (tableLive overflowLive : Nat) (share : Float) : Bool :=
  share ≤ Float.ofNat overflowLive / (Float.ofNat tableLive + Float.ofNat overflowLive)

/-- Whether a flush is due: it was asked for, the table is full, or overflow is crowded while at
least a quarter of the table is in use. -/
def needsFlush (s : DiskSet w) : Bool :=
  let slots := s.table.geometry.tableLength
  s.flushRequested || decide (slots ≤ s.tableLive) ||
    (decide (0 < s.tableLive ∧ slots ≤ 4 * s.tableLive) &&
      isCrowded s.tableLive s.overflowLive s.config.collisionRatio)

/-- The set after its run cannot be used: the run is mapped again, or the set is closed. -/
def remapOrClose (s : DiskSet w) (h : Host) : DiskSet w × Host :=
  match s.disk.remap h.files with
  | .ok disk => ({ s with disk }, h)
  | .error e => ({ s with closed := true }, h.report (.runLost e))

/-- The set after a flush that put a run in place. -/
def flushed (s : DiskSet w) (disk : Run w) : DiskSet w :=
  { s with
    disk
    table := s.table.archiveLive
    overflow := .empty
    tableLive := 0
    overflowLive := 0
    flushes := s.flushes + 1 }

/-- Merge table, overflow and run into a new run, not yet in place. A run that cannot be written to
its end is given up. -/
def mergeRun (s : DiskSet w) (files : Files) :
    Except Error (RunWriter w × MergeCounts) × Files :=
  match RunWriter.start w files s.config.paths.run defaultBlockEntries with
  | .error e => (.error e, files)
  | .ok (writer, files) =>
    match mergeInto (Scan.start s.table) s.overflow.entries (s.disk.mapped.getD #[]) writer with
    | (writer, .ok counts) => (.ok (writer, counts), files)
    | (writer, .error e) => (.error e, writer.discard files)

/-- Put a merged run in place. -/
def replaceRun (s : DiskSet w) (writer : RunWriter w) (h : Host) : Outcome (DiskSet w) Unit :=
  match writer.finish h.files s.config.paths.run with
  | (.ok disk, files) => .ok () (s.flushed disk) ((h.withFiles files).report .flushed)
  | (.error e, files) =>
    let (s, h) := s.remapOrClose (h.withFiles files)
    .fail e s h

/-- The set with no flush asked for. -/
def unrequested (s : DiskSet w) : DiskSet w := { s with flushRequested := false }

/-- The host after a merge, whose values that were in two places are reported. -/
def afterMerge (s : DiskSet w) (counts : MergeCounts) (h : Host) : Host :=
  if 0 < counts.duplicates then h.report (.coalesced counts.duplicates s.config.name) else h

/-- Flush what is in memory. -/
def flushNow (s : DiskSet w) (h : Host) : Outcome (DiskSet w) Unit :=
  if s.tableLive + s.overflow.size = 0 then
    .ok () s.unrequested (h.report (.nothingToFlush s.config.name))
  else
    match s.mergeRun h.files with
    | (.error e, files) => .fail e s.unrequested (h.withFiles files)
    | (.ok (writer, counts), files) =>
      s.unrequested.replaceRun writer (s.afterMerge counts (h.withFiles files))

/-- Flush if a flush is due. -/
def flushIfDue (s : DiskSet w) (h : Host) : Outcome (DiskSet w) Unit :=
  if s.needsFlush then s.flushNow h
  else .ok () s (h.report (.flushNotDue s.config.name))

/-- Refuse an operation on a closed set. -/
def whenOpen {α : Type} (s : DiskSet w) (h : Host)
    (op : DiskSet w → Host → Outcome (DiskSet w) α) : Outcome (DiskSet w) α :=
  if s.closed then .fail .closed s h else op s h

/-- The set with its flusher chosen, or with none. -/
def withFlusher (s : DiskSet w) (chosen : Bool) : DiskSet w := { s with flusherChosen := chosen }

/-- Flush as the chosen flusher, which is released whatever comes of the flush. -/
def flushChosen (s : DiskSet w) (h : Host) : Outcome (DiskSet w) Unit :=
  ((s.withFlusher true).whenOpen h flushIfDue).onSet fun s => s.withFlusher false

/-- Put a fingerprint into the set. The answer is whether it was there already. A fingerprint that
was new stays in the set even if the flush after it fails. -/
def put (fp : Fingerprint w) (s : DiskSet w) (h : Host) : Outcome (DiskSet w) Bool :=
  s.whenOpen h fun s h =>
    match s.find fp with
    | .absent opening =>
      let s := s.insert fp opening
      if s.needsFlush && !s.flusherChosen then (s.flushChosen h).map fun _ => false
      else .ok false s h
    | place => .ok true (s.counted place) h

/-- Put each fingerprint of a block into the set. -/
def putBlock (fps : List (Fingerprint w)) :
    DiskSet w → Host → Outcome (DiskSet w) (List Bool) :=
  Outcome.each put fps

/-- Put a fingerprint into the set that was not there. -/
def recoverFingerprint (fp : Fingerprint w) (s : DiskSet w) (h : Host) :
    Outcome (DiskSet w) Unit :=
  (s.put fp h).asNew fp.shown

/-- Whether a fingerprint is in the set. -/
def contains (fp : Fingerprint w) (s : DiskSet w) (h : Host) : Outcome (DiskSet w) Bool :=
  s.whenOpen h fun s h =>
    let place := s.find fp
    .ok place.isSeen (s.counted place) h

/-- Whether each fingerprint of a block is in the set. -/
def containsBlock (fps : List (Fingerprint w)) :
    DiskSet w → Host → Outcome (DiskSet w) (List Bool) :=
  Outcome.each contains fps

/-- Flush now. -/
def flush (s : DiskSet w) (h : Host) : Outcome (DiskSet w) Unit := s.whenOpen h flushNow

/-- Ask for a flush after the next new fingerprint. -/
def requestFlush (s : DiskSet w) : DiskSet w := { s with flushRequested := true }

/-- Flush, and write a checkpoint of the run aside. -/
def beginCheckpoint (s : DiskSet w) (h : Host) : Outcome (DiskSet w) Unit :=
  s.whenOpen h fun s h =>
    (s.flushNow h).andThen fun _ s h =>
      match s.config.paths.begin s.disk s.config.family h.files with
      | (.error e, files) => .fail e s (h.withFiles files)
      | (.ok (), files) =>
        .ok () s ((h.withFiles files).report (.checkpointWritten s.config.name s.disk.size))

/-- Put the checkpoint that was written aside in place. -/
def commitCheckpoint (s : DiskSet w) (h : Host) : Outcome (DiskSet w) Unit :=
  s.whenOpen h fun s h =>
    match s.config.paths.commit h.files with
    | (.error e, files) => .fail e s (h.withFiles files)
    | (.ok (), files) => .ok () s ((h.withFiles files).report (.checkpointCommitted s.config.name))

/-- The set that holds what a recovered run holds. -/
def recovered (s : DiskSet w) (disk : Run w) : DiskSet w :=
  { s with
    disk
    table := s.table.clear
    overflow := .empty
    tableLive := 0
    overflowLive := 0
    flushRequested := false
    inserted := disk.size }

/-- Go back to the committed checkpoint. -/
def recover (s : DiskSet w) (h : Host) : Outcome (DiskSet w) Unit :=
  s.whenOpen h fun s h =>
    match s.config.paths.readHeader w s.config.family h.files with
    | .error e => .fail e s h
    | .ok header =>
      match s.config.paths.restore header h.files with
      | (.ok disk, files) =>
        .ok () (s.recovered disk)
          ((h.withFiles files).report (.recovered s.config.name disk.size))
      | (.error e, files) =>
        let (s, h) := ({ s with disk := s.disk.unmap }).remapOrClose (h.withFiles files)
        .fail e s h

/-- The count of fingerprints in the set. -/
def size (s : DiskSet w) : Nat := s.inserted

/-- The probability that two states had one fingerprint. -/
def collisionProbability (s : DiskSet w) : Float := birthdayProbability s.size w.bits

/-- The counters of the set. -/
def statistics (s : DiskSet w) : Statistics where
  size := s.inserted
  memoryHits := s.memoryHits
  diskHits := s.diskHits
  flushes := s.flushes
  tableLive := s.tableLive
  overflow := s.overflowLive
  diskCount := s.disk.size
  capacity := s.table.geometry.tableLength

/-- The set closed, its memory and its run let go. -/
def released (s : DiskSet w) : DiskSet w :=
  { s with
    closed := true
    table := s.table.release
    overflow := .empty
    disk := s.disk.unmap }

/-- Close the set, and with `cleanup` delete its run. Closing a closed set does nothing. -/
def close (cleanup : Bool) (s : DiskSet w) (h : Host) : Outcome (DiskSet w) Unit :=
  if s.closed then .ok () s h
  else
    let s := s.released
    let run := s.config.paths.run
    match (if cleanup then h.files.removeFile run else .ok h.files) with
    | .ok files => .ok () s ((h.withFiles files).report (.setClosed s.config.name))
    | .error .notFound => .ok () s (h.report (.setClosed s.config.name))
    | .error fault => .fail (.file run fault) s (h.report (.deletionFailed run))

end DiskSet

end SeenStates
