import SeenStates.Proofs.Accounting
import SeenStates.Proofs.Copies

/-!
# The slots of a set's table

Where the fingerprints of an open set are in its table: every bucket is filled from the front, a
slot holds only a fingerprint of its bucket and no two slots hold the same one, what is archived is
in the run, and what is in overflow had its bucket full of live slots and still has it so
(`DiskSet.Housed`). So the search that ends at the first empty slot misses nothing, and the slot
that it offers can be written without losing a fingerprint (`wellPlaced_of_reached`).
-/
namespace SeenStates

variable {w : Width}

namespace Table

/-- The slot at a position of a region, if there is one. -/
def slot? (t : Table w) (r i : Nat) : Option (Slot w) := (t.region r).get? i

/-- A fingerprint is in the slot at a position of a region, live or archived. -/
def HoldsAt (t : Table w) (fp : Fingerprint w) (r i : Nat) : Prop :=
  ∃ slot, t.slot? r i = some slot ∧ slot.fingerprint? = some fp

/-- The slots of a bucket are those at its positions. -/
theorem getElem?_slotsOf (t : Table w) (r n k : Nat) :
    (t.slotsOf r n)[k]? =
      if k < t.geometry.bucketCapacity then t.slot? r (n * t.geometry.bucketCapacity + k)
      else none :=
  Arena.getElem?_slice ..

/-- The slot at a position is that of a bucket. -/
theorem slot?_eq (t : Table w) (r i : Nat) :
    t.slot? r i =
      (t.slotsOf r (i / t.geometry.bucketCapacity))[i % t.geometry.bucketCapacity]? := by
  rw [getElem?_slotsOf, if_pos (Nat.mod_lt _ t.geometry.bucketCapacity_pos), Nat.div_add_mod']

/-- A bucket starts at the position of its fingerprints. -/
theorem offset_locate (t : Table w) (fp : Fingerprint w) :
    (t.locate fp).offset = t.home fp * t.geometry.bucketCapacity := rfl

/-- What a slot holds is held in its bucket. -/
theorem HoldsAt.mem_heldIn {t : Table w} {fp : Fingerprint w} {r i : Nat}
    (holds : t.HoldsAt fp r i) : fp ∈ heldIn (t.slotsOf r (i / t.geometry.bucketCapacity)) := by
  obtain ⟨slot, here, held⟩ := holds
  rw [slot?_eq] at here
  exact List.mem_filterMap.2 ⟨slot, List.mem_of_getElem? here, held⟩

/-- A fingerprint that a bucket holds is in a slot. -/
theorem holdsAt_of_mem_heldIn {t : Table w} {fp : Fingerprint w} {r n : Nat}
    (held : fp ∈ heldIn (t.slotsOf r n)) : ∃ i, t.HoldsAt fp r i := by
  obtain ⟨slot, member, held⟩ := List.mem_filterMap.1 held
  obtain ⟨k, here⟩ := List.mem_iff_getElem?.1 member
  rw [getElem?_slotsOf] at here
  split at here
  · exact ⟨_, slot, here, held⟩
  · contradiction

namespace Tidy

variable {t : Table w}

/-- A slot with a fingerprint is one of the bucket of the fingerprint. -/
theorem located (tidy : t.Tidy) {fp : Fingerprint w} {r n k : Nat}
    (within : k < t.geometry.bucketCapacity)
    (holds : t.HoldsAt fp r (n * t.geometry.bucketCapacity + k)) :
    t.locate fp = ⟨r * t.geometry.bucketsPerRegion + n, r, n * t.geometry.bucketCapacity⟩ := by
  have held := holds.mem_heldIn
  rw [Nat.add_comm, Nat.add_mul_div_right _ _ t.geometry.bucketCapacity_pos,
    Nat.div_eq_of_lt within, Nat.zero_add] at held
  have region : (t.locate fp).bucket / t.geometry.bucketsPerRegion = r := tidy.region r n fp held
  have home : (t.locate fp).bucket % t.geometry.bucketsPerRegion = n := tidy.home r n fp held
  have shown : t.locate fp = ⟨(t.locate fp).bucket,
    (t.locate fp).bucket / t.geometry.bucketsPerRegion,
    (t.locate fp).bucket % t.geometry.bucketsPerRegion * t.geometry.bucketCapacity⟩ := rfl
  have whole := Nat.div_add_mod' (t.locate fp).bucket t.geometry.bucketsPerRegion
  rw [region, home] at shown whole
  rw [shown, ← whole]

/-- No fingerprint is in two slots. -/
theorem holdsAt_unique (tidy : t.Tidy) {fp : Fingerprint w} {r i r' i' : Nat}
    (first : t.HoldsAt fp r i) (second : t.HoldsAt fp r' i') : r = r' ∧ i = i' := by
  have held := first.mem_heldIn
  have held' := second.mem_heldIn
  obtain rfl : r = r' := (tidy.region r _ fp held).symm.trans (tidy.region r' _ fp held')
  have home : i / t.geometry.bucketCapacity = i' / t.geometry.bucketCapacity :=
    (tidy.home r _ fp held).symm.trans (tidy.home r _ fp held')
  obtain ⟨slot, here, inSlot⟩ := first
  obtain ⟨slot', here', inSlot'⟩ := second
  rw [slot?_eq] at here here'
  rw [← home] at here'
  have position := position_unique (tidy.orderly r _).distinct here here' inSlot inSlot'
  rw [← Nat.div_add_mod' i t.geometry.bucketCapacity, home, position, Nat.div_add_mod']
  exact ⟨rfl, rfl⟩

/-- A look-up finds exactly the fingerprints that are in some slot. -/
theorem probe_found_iff_holdsAt (tidy : t.Tidy) (fp : Fingerprint w) :
    t.probe fp = .found ↔ ∃ r i, t.HoldsAt fp r i := by
  rw [tidy.probe_found_iff, bucket_locate]
  constructor
  · intro held
    exact ⟨_, holdsAt_of_mem_heldIn held⟩
  · rintro ⟨r, i, holds⟩
    have held := holds.mem_heldIn
    rwa [tidy.region r _ fp held, tidy.home r _ fp held]

end Tidy

/-- Every position of a region's buckets is that of a slot. -/
theorem Shaped.isSome_slot? {prefixBits : Nat} {t : Table w} (shaped : t.Shaped prefixBits)
    (tidy : t.Tidy) {r i : Nat} (inTable : r < t.geometry.regionCount)
    (inRegion : i < t.geometry.slotsPerRegion) : (t.slot? r i).isSome := by
  rw [← tidy.regions] at inTable
  have size : (t.region r).size = t.geometry.slotsPerRegion :=
    shaped.sized r _ (getElem?_regions inTable)
  rw [← size] at inRegion
  rw [Option.isSome_iff_ne_none]
  intro absent
  exact absurd inRegion (Nat.not_lt.2 (Arena.get?_eq_none_iff.1 absent))

end Table

/-- A fingerprint that is stored in a slot that a look-up offers leaves alone the slots of every
bucket that is full of live ones. -/
theorem Table.Opening.bucket_of_live {t : Table w} {fp : Fingerprint w} {front : List (Slot w)}
    {slot : Slot w} {back : List (Slot w)} (opening : t.Opening fp front slot back)
    {other : Fingerprint w} (live : ∀ s ∈ t.bucket (t.locate other), s.live?.isSome) :
    (t.store fp front.length).bucket ((t.store fp front.length).locate other) =
      t.bucket (t.locate other) := by
  rw [Table.bucket_locate, Table.bucket_locate]
  refine Table.slotsOf_store_of_ne opening.there fun own => ?_
  obtain ⟨region, home⟩ := own
  change (t.locate other).region = _ at region
  change t.home other = _ at home
  have here : slot ∈ t.bucket (t.locate other) := by
    rw [Table.bucket_locate, region, home, ← Table.bucket_locate, opening.bucket]
    simp
  have taken := live slot here
  rw [opening.free] at taken
  contradiction

namespace DiskSet

/-- The table of a set has its shape, and the buckets of the fingerprints in overflow are full of
live slots. -/
structure Housed (s : DiskSet w) : Prop where
  /-- The table has the shape that the configuration asks for. -/
  shaped : s.table.Shaped s.config.prefixBits
  /-- A fingerprint in overflow has no slot to go to in its bucket. -/
  refused : ∀ fp ∈ s.overflow.entries, ∀ slot ∈ s.table.bucket (s.table.locate fp),
    slot.live?.isSome

/-- A set with the shape of its table and nothing in overflow is housed. -/
theorem Housed.of_empty {s : DiskSet w} (shaped : s.table.Shaped s.config.prefixBits)
    (vacant : s.overflow.entries = []) : s.Housed := by
  refine ⟨shaped, fun fp member => ?_⟩
  rw [vacant] at member
  contradiction

/-- A set stays housed when a fingerprint is taken as new: in a slot, which is in none of the
buckets that are full of live ones, or in overflow, because its bucket is. -/
theorem Housed.insert {s : DiskSet w} (housed : s.Housed) (sound : s.Sound) {fp : Fingerprint w}
    {opening : Option Nat} (found : s.find fp = .absent opening) :
    (s.insert fp opening).Housed := by
  cases opening with
  | some position =>
    obtain ⟨front, slot, back, opening, rfl⟩ := sound.table.opening (Sound.probe_of_find found)
    refine ⟨housed.shaped.store fp _, fun other member => ?_⟩
    have live := housed.refused other member
    exact opening.bucket_of_live live ▸ live
  | none =>
    refine ⟨housed.shaped, fun other member => ?_⟩
    rcases (Overflow.mem_entries_insert ..).1 member with rfl | before
    · have probed : s.table.probe other = .full := Sound.probe_of_absent found
      rw [Table.probe_eq] at probed
      intro slot here
      obtain ⟨stored, rfl, _⟩ := probeFrom_full probed slot here
      rfl
    · exact housed.refused other before

/-- Puts, look-ups and flushes keep a set housed. -/
theorem Housed.keeps (c : Config) (kind : Fingerprint w → Prop) : Keeps c kind Housed where
  insert := fun _ _ _ _ sound _ found housed => housed.insert sound found
  counted := fun _ place _ housed => by
    cases place with
    | memory => exact ⟨housed.shaped, housed.refused⟩
    | disk => exact ⟨housed.shaped, housed.refused⟩
    | absent opening => exact housed
  requestFlush := fun _ _ housed => ⟨housed.shaped, housed.refused⟩
  unrequested := fun _ _ housed => ⟨housed.shaped, housed.refused⟩
  settled := fun _ _ _ _ _ _ housed =>
    .of_empty (housed.shaped.map fun _ => rfl) Overflow.entries_empty

/-- A property of a set and the fingerprints put into it is one of every open set that is reached,
with any outcomes of its calls, if a set has it that was just opened, puts, look-ups and flushes
keep it, and going back to a checkpoint does. -/
theorem kept_of_anyOutcome (kept : List (Fingerprint w) → DiskSet w → Prop)
    (opened : ∀ {machine : Machine} {c : Config} {before after : Host} {s : DiskSet w},
      DiskSet.open w machine c before = (.ok s, after) → kept [] s)
    (more : ∀ {puts : List (Fingerprint w)} {s : DiskSet w} (added : List (Fingerprint w)),
      kept puts s → kept (puts ++ added) s)
    (keeps : ∀ c puts, Keeps c (· ∈ puts) (kept puts))
    (recovered : ∀ {puts : List (Fingerprint w)} {s : DiskSet w} (entries : Array (Fingerprint w)),
      s.Sound → kept puts s →
        kept puts (s.recovered (.ofEntries s.config.paths.run defaultBlockEntries entries)))
    {puts : List (Fingerprint w)} {s : DiskSet w} {h : Host}
    (reached : Reached (anyOutcome w) puts s h) (isOpen : s.closed = false) : kept puts s := by
  induction reached with
  | opened succeeds starts => exact opened succeeds
  | @call puts s h reached c allowed ih =>
    have closed := isOpen_of_perform isOpen
    obtain ⟨sound, faithful⟩ := (whole_of_anyOutcome reached).of_open closed
    have here := more c.puts (ih closed)
    by_cases goesOn : c.goesOn
    · exact (keeps s.config _).perform rfl sound closed here
        (fun _ => List.mem_append_right puts) goesOn h
    · cases c with
      | recover =>
        simp only [Call.perform, Outcome.map] at isOpen ⊢
        rcases faithful.recover_matched closed (allowed rfl) with
          ⟨e, _, shut | same⟩ | ⟨entries, copy, header, _, _, _, back⟩
        · rw [shut] at isOpen
          contradiction
        · rw [same]
          exact here
        · rw [back]
          exact recovered entries sound here
      | close cleanup =>
        have shut := (close_closes (h := h) faithful.valid cleanup).1
        simp only [Call.perform, Outcome.map, shut] at isOpen
        contradiction
      | _ => exact absurd rfl goesOn
  | outside reached files allowed ih => exact ih isOpen

/-- A set that went through any calls with any outcome is housed as long as it is open. -/
theorem housed_of_anyOutcome {puts : List (Fingerprint w)} {s : DiskSet w} {h : Host}
    (reached : Reached (anyOutcome w) puts s h) (isOpen : s.closed = false) : s.Housed := by
  refine kept_of_anyOutcome (fun _ => Housed) (fun opened => ?_) (fun _ housed => housed)
    (fun c puts => Housed.keeps c _) (fun entries _ housed => ?_) reached isOpen
  · have vacant := (opened_of_open opened).members
    simp only [members, List.append_eq_nil_iff] at vacant
    exact .of_empty (accounted_of_open opened 0).shaped vacant.1.2
  · exact .of_empty (housed.shaped.map fun _ => rfl) Overflow.entries_empty

end DiskSet

/-! ## The slots of an open set -/

namespace DiskSet

/-- A look-up finds what is found in the table, in overflow or in the run. -/
theorem isSeen_find_eq (s : DiskSet w) (fp : Fingerprint w) :
    (s.find fp).isSeen ↔
      s.table.probe fp = .found ∨ s.overflow.contains fp ∨ s.disk.contains fp := by
  unfold find
  cases probed : s.table.probe fp with
  | found => simp [Place.isSeen]
  | vacant position => simp [isSeen_findElsewhere_iff]
  | full => simp [isSeen_findElsewhere_iff]

/-- With a fingerprint written over a slot that a look-up offers, a sound set has the fingerprint
and all that it had before. -/
theorem Sound.isSeen_find_store {s : DiskSet w} (sound : s.Sound) {fp : Fingerprint w}
    {position : Nat} (probed : s.table.probe fp = .vacant position) (other : Fingerprint w) :
    (({ s with table := s.table.store fp position } : DiskSet w).find other).isSeen ↔
      other = fp ∨ (s.find other).isSeen := by
  obtain ⟨front, slot, back, opening, rfl⟩ := sound.table.opening probed
  have more := opening.perm_scan
  rw [isSeen_find_eq, isSeen_find_eq, (opening.tidy sound.table).probe_found_iff_live,
    sound.table.probe_found_iff_live, more.mem_iff, List.mem_cons]
  have stored {r n : Nat} (archived : .archived other ∈ s.table.slotsOf r n) :
      s.disk.contains other :=
    (sound.holds.contains_iff other).2 (sound.archived r n other archived)
  constructor
  · rintro (((rfl | live) | archived) | elsewhere)
    · exact .inl rfl
    · exact .inr (.inl (.inl live))
    · exact .inr (.inr (.inr (stored (opening.archived archived))))
    · exact .inr (.inr elsewhere)
  · rintro (rfl | (live | archived) | elsewhere)
    · exact .inl (.inl (.inl rfl))
    · exact .inl (.inl (.inr live))
    · exact .inr (.inr (stored archived))
    · exact .inr elsewhere

/-- A slot that a look-up in a sound set offers is in the bucket of the fingerprint, and empty or
archived with an entry of the run. -/
theorem Sound.slot?_of_probe {s : DiskSet w} (sound : s.Sound) {fp : Fingerprint w}
    {position : Nat} (probed : s.table.probe fp = .vacant position) :
    position < s.table.geometry.bucketCapacity ∧ ∃ slot,
      s.table.slot? (s.table.locate fp).region ((s.table.locate fp).offset + position) =
        some slot ∧ (slot = .empty ∨ ∃ old ∈ s.disk.stored, slot = .archived old) := by
  obtain ⟨front, slot, back, opening, rfl⟩ := sound.table.opening probed
  have within := (Table.within_of_lt_length opening.there).1
  have here : (s.table.bucket (s.table.locate fp))[front.length]? = some slot := by
    simp [opening.bucket]
  have inBucket := List.mem_of_getElem? here
  rw [Table.bucket_locate, Table.getElem?_slotsOf, if_pos within] at here
  refine ⟨within, slot, here, ?_⟩
  cases slot with
  | empty => exact .inl rfl
  | live stored => exact absurd opening.free (by simp [Slot.live?])
  | archived old => exact .inr ⟨old, sound.archived _ _ old inBucket, rfl⟩

/-- Where a set has fingerprints in its table, and what a look-up in the table says of them. -/
structure WellPlaced (s : DiskSet w) : Prop where
  /-- There is a slot at each position of each region. -/
  complete : ∀ r < s.table.geometry.regionCount, ∀ i < s.table.geometry.slotsPerRegion,
    (s.table.slot? r i).isSome
  /-- The slots of a bucket that are not empty are its first ones. -/
  filled : ∀ r n, ∃ filled, ∀ k < s.table.geometry.bucketCapacity, ∀ slot,
    s.table.slot? r (n * s.table.geometry.bucketCapacity + k) = some slot →
      (slot ≠ .empty ↔ k < filled)
  /-- A slot with a fingerprint, live or archived, is in the bucket of the fingerprint. -/
  located : ∀ fp r n, ∀ k < s.table.geometry.bucketCapacity,
    s.table.HoldsAt fp r (n * s.table.geometry.bucketCapacity + k) →
      s.table.locate fp = ⟨r * s.table.geometry.bucketsPerRegion + n, r,
        n * s.table.geometry.bucketCapacity⟩
  /-- No fingerprint is in two slots. -/
  once : ∀ fp r i r' i', s.table.HoldsAt fp r i → s.table.HoldsAt fp r' i' → r = r' ∧ i = i'
  /-- What is archived is in the run. -/
  archived : ∀ fp r i, s.table.slot? r i = some (.archived fp) → fp ∈ s.disk.stored
  /-- All slots of the bucket of a fingerprint in overflow are live with other ones. -/
  refused : ∀ fp ∈ s.overflow.entries, ∀ k < s.table.geometry.bucketCapacity, ∃ other,
    other ≠ fp ∧ s.table.slot? (s.table.locate fp).region ((s.table.locate fp).offset + k) =
      some (.live other)
  /-- A look-up in the table finds exactly what is in some slot. -/
  found : ∀ fp, s.table.probe fp = .found ↔ ∃ r i, s.table.HoldsAt fp r i
  /-- A slot that it offers is empty, or archived with an entry of the run, and with a fingerprint
  written over it the set has the fingerprint and all that it had before. -/
  offered : ∀ fp position, s.table.probe fp = .vacant position →
    position < s.table.geometry.bucketCapacity ∧
    (∃ slot, s.table.slot? (s.table.locate fp).region ((s.table.locate fp).offset + position) =
      some slot ∧ (slot = .empty ∨ ∃ old ∈ s.disk.stored, slot = .archived old)) ∧
    ∀ other, (({ s with table := s.table.store fp position } : DiskSet w).find other).isSeen ↔
      other = fp ∨ (s.find other).isSeen

namespace Housed

variable {s : DiskSet w}

/-- All slots of the bucket of a fingerprint in overflow are live with other ones. -/
theorem live_of_overflow (housed : s.Housed) (sound : s.Sound) {fp : Fingerprint w}
    (inOverflow : fp ∈ s.overflow.entries) {k : Nat}
    (within : k < s.table.geometry.bucketCapacity) : ∃ other, other ≠ fp ∧
      s.table.slot? (s.table.locate fp).region ((s.table.locate fp).offset + k) =
        some (.live other) := by
  have inRegion : (s.table.locate fp).offset + k < s.table.geometry.slotsPerRegion :=
    Nat.lt_of_lt_of_le (Nat.add_lt_add_left within _)
      (s.table.geometry.offset_locate_le fp.address)
  have there : (s.table.slot? (s.table.locate fp).region
      ((s.table.locate fp).offset + k)).isSome :=
    housed.shaped.isSome_slot? sound.table (s.table.geometry.region_locate_lt fp.address) inRegion
  obtain ⟨slot, here⟩ := Option.isSome_iff_exists.1 there
  have inBucket : slot ∈ s.table.bucket (s.table.locate fp) := by
    rw [Table.offset_locate] at here
    refine List.mem_of_getElem? (i := k) ?_
    rw [Table.bucket_locate, Table.getElem?_slotsOf, if_pos within, here]
  obtain ⟨other, live⟩ := Option.isSome_iff_exists.1 (housed.refused fp inOverflow slot inBucket)
  obtain rfl : slot = .live other := by
    cases slot with
    | live stored => rw [Option.some.inj live]
    | _ => contradiction
  refine ⟨other, ?_, here⟩
  rintro rfl
  have inTable : other ∈ s.table.scan :=
    sound.table.mem_scan_iff_live.2 (List.mem_filterMap.2 ⟨_, inBucket, rfl⟩)
  have apart := (List.nodup_append.1 (List.nodup_append.1 sound.distinct).1).2.2
  exact apart other inTable other inOverflow rfl

/-- A sound set with the shape of its table has its fingerprints in their places. -/
theorem wellPlaced (housed : s.Housed) (sound : s.Sound) : s.WellPlaced := by
  have tidy := sound.table
  constructor
  case complete =>
    intro r inTable i inRegion
    exact housed.shaped.isSome_slot? tidy inTable inRegion
  case filled =>
    intro r n
    obtain ⟨filled, first⟩ := (tidy.orderly r n).packed.filled_iff
    refine ⟨filled, fun k within slot here => first k slot ?_⟩
    rw [Table.getElem?_slotsOf, if_pos within, here]
  case located => exact fun fp r n k within holds => tidy.located within holds
  case once => exact fun fp r i r' i' first second => tidy.holdsAt_unique first second
  case archived =>
    intro fp r i here
    rw [Table.slot?_eq] at here
    exact sound.archived _ _ fp (List.mem_of_getElem? here)
  case refused =>
    intro fp inOverflow k within
    exact housed.live_of_overflow sound inOverflow within
  case found => exact tidy.probe_found_iff_holdsAt
  case offered =>
    intro fp position probed
    obtain ⟨within, slot, here, free⟩ := sound.slot?_of_probe probed
    exact ⟨within, ⟨slot, here, free⟩, sound.isSeen_find_store probed⟩

end Housed

end DiskSet

/-- In every open state of a set that went through any calls with any outcome, whatever its routing
bits, the fingerprints in its table are in their places: each bucket is filled from the front with
fingerprints of its own, none of them in two slots; what is archived is in the run; the bucket of
what is in overflow is full of live slots. So a look-up in the table, which ends at the first empty
slot, finds exactly what is in some slot, and writing over the slot that it offers loses nothing. -/
theorem wellPlaced_of_reached {puts : List (Fingerprint w)} {s : DiskSet w} {h : Host}
    (reached : Reached (anyOutcome w) puts s h) (isOpen : s.closed = false) : s.WellPlaced :=
  (DiskSet.housed_of_anyOutcome reached isOpen).wellPlaced
    ((DiskSet.whole_of_anyOutcome reached).of_open isOpen).1

/-- The configuration of a set of eight buckets of sixteen slots. -/
def bucketsConfig : Config :=
  { Config.named "m" "states" with memory := .fingerprints 128, lockCount := some 1 }

/-- The set can be opened where there is nothing. -/
theorem isSome_open_buckets :
    (DiskSet.open .bits64 sampleMachine bucketsConfig .empty).1.toOption.isSome := by
  decide +kernel

/-- A set of which one bucket was put a fingerprint, flushed and put seventeen more: the archived
slot was used again, all slots of the bucket are live, and the last fingerprint is in overflow. -/
theorem wellPlaced_of_reached_full :
    let s :=
      (DiskSet.open .bits64 sampleMachine bucketsConfig .empty).1.toOption.get isSome_open_buckets
    let h := (DiskSet.open .bits64 sampleMachine bucketsConfig .empty).2
    let put := (Call.put (.ofNat .bits64 0)).perform s h
    let flushed := Call.flush.perform put.set put.host
    let more := (Call.putBlock ((List.range' 1 17).map (.ofNat .bits64))).perform flushed.set
      flushed.host
    more.set.closed = false ∧ more.set.table.slot? 0 0 = some (.live (.ofNat _ 1)) ∧
      more.set.overflow.entries = [.ofNat _ 17] ∧ more.set.find (.ofNat _ 0) = .disk ∧
      more.set.WellPlaced := by
  intro s h put flushed more
  have start : Reached (anyOutcome .bits64) [] s h :=
    .opened (eq_ok_get isSome_open_buckets) trivial
  have first := start.call (.put (.ofNat .bits64 0)) (by simp [anyOutcome])
  have second := first.call .flush (by simp [anyOutcome])
  have third := second.call (.putBlock ((List.range' 1 17).map (.ofNat .bits64)))
    (by simp [anyOutcome])
  exact ⟨by decide +kernel, by decide +kernel, by decide +kernel, by decide +kernel,
    wellPlaced_of_reached third (by decide +kernel)⟩

end SeenStates
