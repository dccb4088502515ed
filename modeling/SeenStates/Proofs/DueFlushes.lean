import SeenStates.Proofs.Copies
import SeenStates.Proofs.FailedFlushes

/-!
# Flushes that are due

A put that finds its fingerprint new flushes if a flush is due then. When it answers that the
fingerprint was new, none is due any more, whichever way it took (`DiskSet.Discharged`); a put that
answers that the fingerprint was there flushes nothing and leaves it to another put to flush
(`DiskSet.OnlyCounts`).
-/
namespace SeenStates

variable {w : Width}

/-- A table has a slot. -/
theorem Geometry.tableLength_pos (g : Geometry) : 0 < g.tableLength :=
  Nat.mul_pos (Nat.two_pow_pos _) g.bucketCapacity_pos

namespace DiskSet

variable {s : DiskSet w} {h : Host} {fp : Fingerprint w} {opening : Option Nat}

/-! ## The trigger -/

/-- Where no flush is due, none was asked for and the table has room. -/
theorem room_of_not_needsFlush (undue : s.needsFlush = false) :
    s.flushRequested = false ∧ s.tableLive < s.table.geometry.tableLength := by
  simp only [needsFlush, Bool.or_eq_false_iff, decide_eq_false_iff_not, Nat.not_le] at undue
  exact undue.1

/-- No flush is due where the table has nothing live, unless one was asked for. -/
theorem not_needsFlush_of_vacant (vacant : s.tableLive = 0) (unasked : s.flushRequested = false) :
    s.needsFlush = false := by
  have room : ¬ s.table.geometry.tableLength ≤ 0 := Nat.not_le.2 (Geometry.tableLength_pos _)
  simp only [needsFlush, unasked, vacant, room, Nat.lt_irrefl, false_and, decide_false,
    Bool.false_and, Bool.or_self]

/-! ## Due flushes -/

/-- A fingerprint that is taken as new leaves alone whether a flush was asked for. -/
theorem flushRequested_insert (s : DiskSet w) (fp : Fingerprint w) (opening : Option Nat) :
    (s.insert fp opening).flushRequested = s.flushRequested := by
  cases opening <;> rfl

/-- It leaves alone the count of flushes. -/
theorem flushes_insert (s : DiskSet w) (fp : Fingerprint w) (opening : Option Nat) :
    (s.insert fp opening).flushes = s.flushes := by
  cases opening <;> rfl

/-- A fingerprint that is taken as new is in memory. -/
theorem Sound.inMemory_insert (sound : s.Sound) (found : s.find fp = .absent opening) :
    0 < (s.insert fp opening).tableLive + (s.insert fp opening).overflow.size := by
  cases opening with
  | some position =>
    show 0 < s.tableLive + 1 + s.overflow.size
    omega
  | none =>
    show 0 < s.tableLive + (s.overflow.insert fp).size
    rw [sound.size_overflow_insert found]
    omega

/-- A flush that does not fail, of a sound set with something in memory, puts everything in the set
into its run. -/
theorem Sound.settled_of_flushNow (sound : s.Sound) (filled : 0 < s.tableLive + s.overflow.size)
    (flushed : (s.flushNow h).answer = .ok ()) :
    ∃ entries, (s.flushNow h).set = s.settled entries := by
  have ends := flushed_flushNow sound.mapped h
  rw [flushed] at ends
  generalize (s.flushNow h).set = u at ends ⊢
  generalize (s.flushNow h).host.files = after at ends
  cases ends with
  | nothing vacant => omega
  | written l entries takes ascending storable all => exact ⟨entries, rfl⟩

/-! ## Puts -/

/-- Whether the trigger of a flush is met when a set takes a fingerprint as new. -/
def MeetsTrigger (s : DiskSet w) (fp : Fingerprint w) : Prop :=
  ∃ opening, s.find fp = .absent opening ∧ (s.insert fp opening).needsFlush

/-- A put of a fingerprint that was new has left no flush due. -/
structure Discharged (s : DiskSet w) (fp : Fingerprint w) (u : DiskSet w) : Prop where
  /-- No flush is due. -/
  undue : u.needsFlush = false
  /-- None is asked for. -/
  unasked : u.flushRequested = false
  /-- The table has room. -/
  room : u.tableLive < u.table.geometry.tableLength
  /-- If one was asked for, the trigger was met. -/
  asked : s.flushRequested → s.MeetsTrigger fp
  /-- If the trigger was met, one flush left nothing in memory and everything in the run. -/
  flushed : s.MeetsTrigger fp → u.flushes = s.flushes + 1 ∧ u.tableLive = 0 ∧
    u.overflowLive = 0 ∧ u.overflow = .empty ∧ u.disk.size = u.size
  /-- If it was not, nothing was flushed, and the run is as it was. -/
  unflushed : ¬ s.MeetsTrigger fp → u.flushes = s.flushes ∧ u.disk = s.disk

/-- A set is as another one, but for the counts of look-ups. -/
structure OnlyCounts (s u : DiskSet w) : Prop where
  /-- All else is the same. -/
  same : u = { s with memoryHits := u.memoryHits, diskHits := u.diskHits }
  /-- The look-up is counted. -/
  counted : u.memoryHits + u.diskHits = s.memoryHits + s.diskHits + 1

/-- A look-up that finds a fingerprint is counted, and that is all. -/
theorem onlyCounts_counted {place : Place} (isSeen : place.isSeen) :
    s.OnlyCounts (s.counted place) := by
  cases place with
  | memory =>
    refine ⟨rfl, ?_⟩
    show s.memoryHits + 1 + s.diskHits = _
    omega
  | disk => exact ⟨rfl, (Nat.add_assoc ..).symm⟩
  | absent opening => contradiction

/-- A set that meets no trigger when it takes a fingerprint as new needs no flush then. -/
theorem discharged_insert (found : s.find fp = .absent opening)
    (undue : (s.insert fp opening).needsFlush = false) :
    s.Discharged fp (s.insert fp opening) := by
  have unmet : ¬ s.MeetsTrigger fp := by
    rintro ⟨other, found', due⟩
    obtain rfl := Place.absent.inj (found.symm.trans found')
    rw [undue] at due
    contradiction
  obtain ⟨unasked, room⟩ := room_of_not_needsFlush undue
  constructor
  case undue => exact undue
  case unasked => exact unasked
  case room => exact room
  case asked =>
    intro asked
    rw [flushRequested_insert, asked] at unasked
    contradiction
  case flushed => exact fun met => absurd met unmet
  case unflushed => exact fun _ => ⟨flushes_insert .., disk_insert ..⟩

/-- A set that meets the trigger when it takes a fingerprint as new needs no flush after one that
does not fail. -/
theorem Sound.discharged_flushNow (sound : s.Sound) (isOpen : s.closed = false)
    (found : s.find fp = .absent opening) (due : (s.insert fp opening).needsFlush)
    (flushed : ((s.insert fp opening).flushNow h).answer = .ok ()) :
    s.Discharged fp ((s.insert fp opening).flushNow h).set := by
  have inserted := sound.insert found
  have lossless := inserted.lossless ((closed_insert ..).trans isOpen) h
  have met : s.MeetsTrigger fp := ⟨opening, found, due⟩
  have count : ((s.insert fp opening).flushNow h).set.disk.size =
      ((s.insert fp opening).flushNow h).set.size :=
    (lossless.count flushed).trans lossless.size.symm
  obtain ⟨entries, settled⟩ := inserted.settled_of_flushNow (sound.inMemory_insert found) flushed
  rw [settled] at count ⊢
  have undue : ((s.insert fp opening).settled entries).needsFlush = false :=
    not_needsFlush_of_vacant rfl rfl
  constructor
  case undue => exact undue
  case unasked => rfl
  case room => exact (room_of_not_needsFlush undue).2
  case asked => exact fun _ => met
  case flushed =>
    refine fun _ => ⟨?_, rfl, rfl, rfl, count⟩
    rw [← flushes_insert s fp opening]
    rfl
  case unflushed => exact fun unmet => absurd met unmet

/-- A put into a sound set answers that its fingerprint was new with no flush left due, and answers
that it was there with nothing done but the look-up counted. -/
theorem Sound.put_discharges (sound : s.Sound) (isOpen : s.closed = false) (fp : Fingerprint w)
    (h : Host) :
    ((s.put fp h).answer = .ok false → s.Discharged fp (s.put fp h).set) ∧
      ((s.put fp h).answer = .ok true →
        s.OnlyCounts (s.put fp h).set ∧ (s.put fp h).host = h) := by
  have ends := putEnd isOpen sound.idle fp h
  by_cases met : s.MeetsTrigger fp
  · obtain ⟨opening, found, due⟩ := met
    rw [put_of_absent isOpen sound.idle found due]
    cases answer : ((s.insert fp opening).flushNow h).answer with
    | error e => simp [Outcome.map, answer, Except.map]
    | ok _ =>
      refine ⟨fun _ => sound.discharged_flushNow isOpen found due answer, fun wrong => ?_⟩
      simp [Outcome.map, answer, Except.map] at wrong
  · generalize s.put fp h = o at ends ⊢
    cases ends with
    | seen place found isSeen => simp [Outcome.ok, onlyCounts_counted isSeen]
    | fresh opening found =>
      have undue : (s.insert fp opening).needsFlush = false :=
        Bool.eq_false_iff.2 fun due => met ⟨opening, found, due⟩
      simp [Outcome.ok, discharged_insert found undue]
    | flushed opening found due => exact absurd ⟨opening, found, due⟩ met

end DiskSet

/-- Whatever a set went through, flushes that failed among it, as long as nothing but itself wrote
its files or it took no copy for that of another checkpoint, a put into it that answers that its
fingerprint was new leaves no flush due. If one was asked for or the trigger was met, everything is
in the run then and nothing in memory. A put that answers that its fingerprint was there flushes
nothing, and a flush that was asked for still is. -/
theorem discharged_of_reached {puts : List (Fingerprint w)} {s : DiskSet w} {h : Host}
    (reached : Reached (ownFiles w) puts s h ∨ Reached (anyOutcome w) puts s h)
    (isOpen : s.closed = false) (fp : Fingerprint w) :
    ((s.put fp h).answer = .ok false → s.Discharged fp (s.put fp h).set) ∧
      ((s.put fp h).answer = .ok true →
        s.OnlyCounts (s.put fp h).set ∧ (s.put fp h).host = h) := by
  have sound : s.Sound := by
    rcases reached with own | other
    · exact ((DiskSet.steady_of_reached own).of_open isOpen).1
    · exact ((DiskSet.whole_of_anyOutcome other).of_open isOpen).1
  exact sound.put_discharges isOpen fp h

/-- The set to look at, after a flush was asked for. -/
def sampleAsked : Outcome (DiskSet .bits64) (List Bool) :=
  Call.requestFlush.perform sampleSet sampleHost

/-- A set that was asked for a flush flushes the zero fingerprint as soon as it is put. -/
theorem discharged_of_reached_asked :
    let put := sampleAsked.set.put (.ofNat _ 0) sampleAsked.host
    Reached (ownFiles .bits64) [] sampleAsked.set sampleAsked.host ∧
      sampleAsked.set.flushRequested ∧ put.answer = .ok false ∧
      sampleAsked.set.Discharged (.ofNat _ 0) put.set ∧ put.set.tableLive = 0 ∧
      put.set.disk.size = 1 := by
  intro put
  have reached : Reached (ownFiles .bits64) [] sampleAsked.set sampleAsked.host :=
    reached_sample.call .requestFlush fun isCheckpoint => by contradiction
  have isNew : put.answer = .ok false := by decide +kernel
  have discharged := (discharged_of_reached (.inl reached) (by decide +kernel) (.ofNat _ 0)).1 isNew
  obtain ⟨_, vacant, _, _, count⟩ := discharged.flushed (discharged.asked rfl)
  have size : put.set.size = 1 := by decide +kernel
  exact ⟨reached, rfl, isNew, discharged, vacant, count.trans size⟩

end SeenStates
