import SeenStates.Proofs.Flushing
import SeenStates.Proofs.Tables

/-!
# What a set holds together

A set is sound (`DiskSet.Sound`) when its table is tidy, its run is the ordered run of its own file,
everything archived in the table is in the run, and no fingerprint is in two places. In a sound set
a look-up finds exactly the fingerprints in it, and every change keeps it sound: a new fingerprint
is one more, and a flush moves fingerprints without adding or losing any.
-/
namespace SeenStates

variable {w : Width}

/-- Fingerprints that ascend are each there once. -/
theorem Ascending.nodup {fps : List (Fingerprint w)} (ascending : Ascending fps) : fps.Nodup := by
  refine ascending.imp ?_
  rintro a b below rfl
  exact Std.lt_irrefl below

/-- A fingerprint that is put into overflow for the first time is one more. -/
theorem Overflow.perm_entries_insert {o : Overflow w} {fp : Fingerprint w}
    (fresh : fp ∉ o.entries) : (o.insert fp).entries.Perm (fp :: o.entries) := by
  have before : o.entries.Nodup := Ascending.nodup o.entries_ascending
  have after : (o.insert fp).entries.Nodup := Ascending.nodup (o.insert fp).entries_ascending
  rw [List.perm_ext_iff_of_nodup after (List.nodup_cons.2 ⟨fresh, before⟩)]
  intro other
  rw [Overflow.mem_entries_insert, List.mem_cons]

/-- A stored entry is listed. -/
theorem Run.mem_toList_stored {r : Run w} {fp : Fingerprint w} :
    fp ∈ r.stored.toList ↔ fp ∈ r.stored :=
  Array.mem_toList_iff

namespace DiskSet

/-- Table, overflow and run of a set go together, and so do its counters. -/
structure Sound (s : DiskSet w) : Prop where
  /-- The table is tidy. -/
  table : s.table.Tidy
  /-- The run is that of the set's own file. -/
  run : s.disk = .ofEntries s.config.paths.run defaultBlockEntries s.disk.stored
  /-- Its entries ascend. -/
  ascending : Ascending s.disk.stored.toList
  /-- They can be stored. -/
  storable : Storable defaultBlockEntries s.disk.stored
  /-- What is archived in the table is in the run. -/
  archived : ∀ r n fp, .archived fp ∈ s.table.slotsOf r n → fp ∈ s.disk.stored
  /-- No fingerprint is in two places. -/
  distinct : s.members.Nodup
  /-- The fingerprints taken as new are those in the set. -/
  counted : s.inserted = s.members.length
  /-- The live fingerprints of the table are counted. -/
  live : s.tableLive = s.table.scan.length
  /-- No put is flushing. -/
  idle : s.flusherChosen = false

/-- What is not looked up in the table is found in overflow or in the run. -/
theorem isSeen_findElsewhere_iff (s : DiskSet w) (fp : Fingerprint w) (opening : Option Nat) :
    (s.findElsewhere fp opening).isSeen ↔ s.overflow.contains fp ∨ s.disk.contains fp := by
  unfold findElsewhere
  split
  · next inOverflow => simp [inOverflow, Place.isSeen]
  · next notInOverflow =>
    split
    · next inRun => simp [inRun, Place.isSeen]
    · next notInRun => simp [notInOverflow, notInRun, Place.isSeen]

namespace Sound

variable {s : DiskSet w}

/-- The run holds its entries. -/
theorem holds (sound : s.Sound) : s.disk.Holds s.disk.stored := by
  have own := Run.holds_ofEntries s.config.paths.run sound.storable.filled sound.ascending
  rwa [← sound.run] at own

/-- The run is mapped. -/
theorem mapped (sound : s.Sound) : s.disk.mapped.isSome := by
  rw [sound.holds.mapped]
  rfl

/-! ## Looking up -/

/-- A look-up in the table finds members only. -/
theorem mem_of_probe (sound : s.Sound) {fp : Fingerprint w} (found : s.table.probe fp = .found) :
    fp ∈ s.members := by
  rw [members, List.mem_append, List.mem_append, Run.mem_toList_stored]
  rcases (sound.table.probe_found_iff_live fp).1 found with live | archived
  · exact .inl (.inl live)
  · exact .inr (sound.archived _ _ fp archived)

/-- What the table does not find is in the set if overflow or the run has it. -/
theorem isSeen_findElsewhere (sound : s.Sound) {fp : Fingerprint w}
    (missed : s.table.probe fp ≠ .found) (opening : Option Nat) :
    (s.findElsewhere fp opening).isSeen ↔ fp ∈ s.members := by
  have dead : fp ∉ s.table.scan := fun live =>
    missed ((sound.table.probe_found_iff_live fp).2 (.inl live))
  rw [members, List.mem_append, List.mem_append, Run.mem_toList_stored,
    ← Overflow.contains_iff_mem_entries, ← sound.holds.contains_iff, or_iff_right dead]
  exact s.isSeen_findElsewhere_iff fp opening

/-- A look-up finds exactly the members. -/
theorem isSeen_find_iff (sound : s.Sound) (fp : Fingerprint w) :
    (s.find fp).isSeen ↔ fp ∈ s.members := by
  unfold find
  cases probed : s.table.probe fp with
  | found => simp [Place.isSeen, sound.mem_of_probe probed]
  | vacant position => exact sound.isSeen_findElsewhere (by simp [probed]) _
  | full => exact sound.isSeen_findElsewhere (by simp [probed]) _

/-- What a look-up does not find is in none of the places. -/
theorem not_mem_of_find (sound : s.Sound) {fp : Fingerprint w} {opening : Option Nat}
    (found : s.find fp = .absent opening) : fp ∉ s.members := by
  rw [← sound.isSeen_find_iff, found]
  simp [Place.isSeen]

/-! ## Inserting -/

/-- A look-up that finds nothing passes on the slot that the table offers, or that it offers
none. -/
theorem probe_of_absent {fp : Fingerprint w} {opening : Option Nat}
    (found : s.find fp = .absent opening) : s.table.probe fp = opening.elim .full .vacant := by
  have elsewhere {offered : Option Nat} (found : s.findElsewhere fp offered = .absent opening) :
      offered = opening := by
    unfold findElsewhere at found
    split at found
    · contradiction
    · split at found
      · contradiction
      · exact Place.absent.inj found
  unfold find at found
  cases probed : s.table.probe fp with
  | found => simp [probed] at found
  | vacant offered =>
    simp only [probed] at found
    rw [← elsewhere found]
    rfl
  | full =>
    simp only [probed] at found
    rw [← elsewhere found]
    rfl

/-- A look-up that offers a slot passes on what the table offers. -/
theorem probe_of_find {fp : Fingerprint w} {position : Nat}
    (found : s.find fp = .absent (some position)) : s.table.probe fp = .vacant position :=
  probe_of_absent found

/-- A fingerprint that is taken as new is one more member. -/
theorem perm_members_insert (sound : s.Sound) {fp : Fingerprint w} {opening : Option Nat}
    (found : s.find fp = .absent opening) :
    (s.insert fp opening).members.Perm (fp :: s.members) := by
  have fresh := sound.not_mem_of_find found
  cases opening with
  | none =>
    have notInOverflow : fp ∉ s.overflow.entries := fun member =>
      fresh (List.mem_append_left _ (List.mem_append_right _ member))
    have more := Overflow.perm_entries_insert notInOverflow
    have first : (s.table.scan ++ (s.overflow.insert fp).entries).Perm
        (fp :: (s.table.scan ++ s.overflow.entries)) :=
      (more.append_left _).trans List.perm_middle
    exact first.append_right _
  | some position =>
    obtain ⟨front, slot, back, opening, rfl⟩ := sound.table.opening (probe_of_find found)
    have more := opening.perm_scan
    exact (more.append_right _).append_right _

/-- What a look-up does not find is one more fingerprint when it is put into overflow. -/
theorem size_overflow_insert (sound : s.Sound) {fp : Fingerprint w} {opening : Option Nat}
    (found : s.find fp = .absent opening) :
    (s.overflow.insert fp).size = s.overflow.size + 1 := by
  have fresh : fp ∉ s.overflow.entries := fun member =>
    sound.not_mem_of_find found (List.mem_append_left _ (List.mem_append_right _ member))
  rw [← Overflow.length_entries, (Overflow.perm_entries_insert fresh).length_eq, List.length_cons,
    Overflow.length_entries]

/-- A set stays sound when a fingerprint is taken as new. -/
theorem insert (sound : s.Sound) {fp : Fingerprint w} {opening : Option Nat}
    (found : s.find fp = .absent opening) : (s.insert fp opening).Sound := by
  have fresh := sound.not_mem_of_find found
  have more := sound.perm_members_insert found
  have distinct : (s.insert fp opening).members.Nodup := by
    rw [more.nodup_iff, List.nodup_cons]
    exact ⟨fresh, sound.distinct⟩
  have length : (s.insert fp opening).members.length = s.members.length + 1 := by
    rw [more.length_eq, List.length_cons]
  cases opening with
  | none =>
    exact {
      table := sound.table
      run := sound.run
      ascending := sound.ascending
      storable := sound.storable
      archived := sound.archived
      distinct := distinct
      counted := by rw [length, ← sound.counted]; rfl
      live := sound.live
      idle := sound.idle }
  | some position =>
    obtain ⟨front, slot, back, opening, rfl⟩ := sound.table.opening (probe_of_find found)
    exact {
      table := opening.tidy sound.table
      run := sound.run
      ascending := sound.ascending
      storable := sound.storable
      archived := fun r n old member => sound.archived r n old (opening.archived member)
      distinct := distinct
      counted := by rw [length, ← sound.counted]; rfl
      live := by
        rw [show (s.insert fp (some front.length)).table.scan.length = s.table.scan.length + 1 from
          (opening.perm_scan).length_eq, ← sound.live]
        rfl
      idle := sound.idle }

/-! ## Counting and asking -/

/-- Counting a look-up keeps a set sound. -/
theorem counted_find (sound : s.Sound) (place : Place) :
    (s.counted place).Sound ∧ (s.counted place).members = s.members := by
  cases place with
  | memory => exact ⟨{ sound with }, rfl⟩
  | disk => exact ⟨{ sound with }, rfl⟩
  | absent opening => exact ⟨sound, rfl⟩

/-- Asking for a flush keeps a set sound. -/
theorem requestFlush (sound : s.Sound) : s.requestFlush.Sound := { sound with }

/-- Asking for no flush any more keeps a set sound. -/
theorem unrequested (sound : s.Sound) : s.unrequested.Sound := { sound with }

/-! ## Flushing -/

/-- A set that holds all its members in its run has them as before. -/
theorem perm_members_settled (sound : s.Sound) {entries : Array (Fingerprint w)}
    (ascending : Ascending entries.toList) (all : ∀ fp, fp ∈ entries ↔ fp ∈ s.members) :
    (s.settled entries).members.Perm s.members := by
  have only : (s.settled entries).members = entries.toList := by
    have nothing : (s.settled entries).table.scan = [] := Table.scan_archiveLive s.table
    rw [members, nothing]
    rfl
  rw [only, List.perm_ext_iff_of_nodup ascending.nodup sound.distinct]
  intro fp
  rw [Array.mem_toList_iff, all fp]

/-- A set stays sound when everything in it moves into its run. -/
theorem settled (sound : s.Sound) {entries : Array (Fingerprint w)}
    (ascending : Ascending entries.toList) (storable : Storable defaultBlockEntries entries)
    (all : ∀ fp, fp ∈ entries ↔ fp ∈ s.members) : (s.settled entries).Sound := by
  have same := sound.perm_members_settled ascending all
  have nothing : (s.settled entries).table.scan = [] := Table.scan_archiveLive s.table
  exact {
    table := sound.table.archiveLive
    run := rfl
    ascending := ascending
    storable := storable
    archived := by
      intro r n fp member
      refine (all fp).2 ?_
      rw [members, List.mem_append, List.mem_append, Run.mem_toList_stored]
      rcases sound.table.archived_archiveLive member with live | archived
      · exact .inl (.inl live)
      · exact .inr (sound.archived r n fp archived)
    distinct := same.nodup_iff.2 sound.distinct
    counted := sound.counted.trans same.length_eq.symm
    live := by rw [nothing]; rfl
    idle := sound.idle }

/-- A flush keeps a set sound and open or closed as it was, with the same members. -/
theorem of_flushed (sound : s.Sound) {files after : Files} {answer : Except Error Unit}
    {u : DiskSet w} (flushed : Flushed s files answer u after) :
    u.Sound ∧ u.members.Perm s.members ∧ u.closed = s.closed ∧ u.config = s.config := by
  cases flushed with
  | failed e => exact ⟨sound.unrequested, .refl _, rfl, rfl⟩
  | nothing vacant => exact ⟨sound.unrequested, .refl _, rfl, rfl⟩
  | written l entries takes ascending storable all =>
    exact ⟨sound.settled ascending storable all, sound.perm_members_settled ascending all, rfl, rfl⟩

end Sound

/-! ## Starting over -/

/-- The set of an empty table and a run of its own file is sound, and its members are the entries
of the run. -/
theorem sound_of_blank {s : DiskSet w} {entries : Array (Fingerprint w)} (blank : s.table.Blank)
    (overflow : s.overflow = .empty)
    (run : s.disk = .ofEntries s.config.paths.run defaultBlockEntries entries)
    (ascending : Ascending entries.toList) (storable : Storable defaultBlockEntries entries)
    (counted : s.inserted = entries.size) (live : s.tableLive = 0)
    (idle : s.flusherChosen = false) : s.Sound ∧ s.members = entries.toList := by
  have stored : s.disk.stored = entries := by rw [run]; rfl
  have only : s.members = entries.toList := by
    rw [members, blank.scan_eq, overflow, stored]
    rfl
  refine ⟨?_, only⟩
  exact {
    table := blank.tidy
    run := by rw [stored, run]
    ascending := stored ▸ ascending
    storable := stored ▸ storable
    archived := fun r n fp member => absurd member blank.not_archived
    distinct := by rw [only]; exact ascending.nodup
    counted := by rw [counted, only, Array.length_toList]
    live := by rw [live, blank.scan_eq]; rfl
    idle := idle }

/-- A run of no entries can be stored. -/
theorem storable_empty : Storable defaultBlockEntries (#[] : Array (Fingerprint w)) :=
  ⟨by decide, by decide, by simp [RunWriter.bytesOf]; decide⟩

/-- What an opened set starts from: a valid configuration, a directory that was made, and an empty
run in place. -/
structure Opened (c : Config) (before : Files) (s : DiskSet w) (after : Files) : Prop where
  /-- The set is of the configuration. -/
  config : s.config = c
  /-- The configuration is valid. -/
  valid : c.validate = .ok ()
  /-- The set is sound. -/
  sound : s.Sound
  /-- Nothing is in it. -/
  members : s.members = []
  /-- It is open. -/
  isOpen : s.closed = false
  /-- Its directory was made, and then its run was put in place. -/
  files : ∃ made l, before.makeDirectories c.metadir = (.ok (), made) ∧ made.Takes c.paths.run l ∧
    made.CanDraft c.paths.run ∧
    after = made.place l (.file (encodeRun defaultBlockEntries (#[] : Array (Fingerprint w))))

/-- A set that is opened is sound and empty. -/
theorem opened_of_open {machine : Machine} {c : Config} {before after : Host} {s : DiskSet w}
    (opened : DiskSet.open w machine c before = (.ok s, after)) :
    Opened c before.files s after.files := by
  unfold DiskSet.open at opened
  split at opened
  · simp at opened
  · next t laidOut =>
    have layout := layout_of_layOut laidOut
    have blank := Table.blank_of_make layout.made
    split at opened
    · simp at opened
    · next made madeDirectories =>
      rcases Run.createEmpty_cases w made c.paths.run with
        ⟨e, failed⟩ | ⟨l, takes, canDraft, created⟩
      · simp [failed] at opened
      · rw [created] at opened
        simp only [Prod.mk.injEq, Except.ok.injEq] at opened
        obtain ⟨rfl, rfl⟩ := opened
        obtain ⟨sound, members⟩ := sound_of_blank
          (s := ofParts c t (.ofEntries c.paths.run defaultBlockEntries #[])) blank rfl rfl .nil
          storable_empty rfl rfl rfl
        exact
          ⟨rfl, layout.valid, sound, members, rfl, made, l, madeDirectories, takes, canDraft, rfl⟩

end DiskSet

end SeenStates
