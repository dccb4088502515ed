import SeenStates.Proofs.OwnFiles

/-!
# Failed flushes

A flush that fails loses nothing: the set is as it was but for the request to flush, and so are all
files, the drafts among them. Flushes are attempted by `flush`, by writing a checkpoint aside and
by a put that finds one due, and nothing keeps a put from attempting one again. A flush that
succeeds leaves the run with exactly the fingerprints in the set (`Lossless`).
-/
namespace SeenStates

variable {w : Width}

namespace DiskSet

/-- A flush of a set loses nothing, whatever comes of it. -/
structure Lossless (s : DiskSet w) (h : Host) : Prop where
  /-- A flush that fails changes nothing in the set but that no flush is asked for any more. -/
  set : ∀ e, (s.flushNow h).answer = .error e → (s.flushNow h).set = s.unrequested
  /-- It changes no file and leaves no draft behind. -/
  files : ∀ e, (s.flushNow h).answer = .error e → (s.flushNow h).host.files = h.files
  /-- No flush changes what is answered. -/
  answers : ∀ fp g, ((s.flushNow h).set.contains fp g).answer = (s.contains fp h).answer
  /-- No flush changes the size. -/
  size : (s.flushNow h).set.size = s.size
  /-- After a flush that does not fail the run has exactly what is in the set. -/
  run : (s.flushNow h).answer = .ok () →
    ∀ fp, (s.contains fp h).answer = .ok ((s.flushNow h).set.disk.contains fp)
  /-- The run has as many entries as there are fingerprints in the set. -/
  count : (s.flushNow h).answer = .ok () → (s.flushNow h).set.disk.size = s.size
  /-- Nothing is left in memory then. -/
  memory : (s.flushNow h).answer = .ok () →
    (s.flushNow h).set.tableLive = 0 ∧ (s.flushNow h).set.overflow.size = 0
  /-- No put is left as the flusher. -/
  released : (s.flushNow h).set.flusherChosen = false

/-- A flush of a sound set loses nothing. -/
theorem Sound.lossless {s : DiskSet w} (sound : s.Sound) (isOpen : s.closed = false) (h : Host) :
    s.Lossless h := by
  have ends := flushed_flushNow sound.mapped h
  obtain ⟨kept, members, closed, _⟩ := sound.of_flushed ends
  constructor
  case set => exact fun e failed => (Flushed.eq_of_error (failed ▸ ends)).1
  case files => exact fun e failed => (Flushed.eq_of_error (failed ▸ ends)).2
  case answers =>
    intro fp g
    rw [kept.contains (closed.trans isOpen), sound.contains isOpen]
    simp only [Outcome.ok, members.mem_iff]
  case size => rw [DiskSet.size, DiskSet.size, kept.counted, sound.counted, members.length_eq]
  case run =>
    intro flushed fp
    have only := (sound.members_flushNow flushed).1
    rw [sound.contains isOpen]
    simp only [Outcome.ok, Except.ok.injEq]
    rw [Bool.eq_iff_iff, decide_eq_true_iff, kept.holds.contains_iff, ← members.mem_iff, only,
      Array.mem_toList_iff]
  case count =>
    intro flushed
    have only := (sound.members_flushNow flushed).1
    have size : (s.flushNow h).set.disk.size = (s.flushNow h).set.disk.stored.size := by
      conv => lhs; rw [kept.run]
      rfl
    rw [size, DiskSet.size, sound.counted, ← members.length_eq, only, Array.length_toList]
  case memory => exact fun flushed => (sound.members_flushNow flushed).2
  case released => exact (flusherChosen_flushNow s h).trans sound.idle

/-- What a flush that fails comes to when a checkpoint was to be written aside. -/
theorem beginCheckpoint_of_error {s : DiskSet w} (isOpen : s.closed = false) {h : Host} {e : Error}
    (failed : (s.flushNow h).answer = .error e) :
    s.beginCheckpoint h = ⟨.error e, (s.flushNow h).set, (s.flushNow h).host⟩ := by
  simp only [beginCheckpoint, whenOpen, isOpen, Bool.false_eq_true, if_false, Outcome.andThen,
    failed]

end DiskSet

/-- A flush loses nothing in a set that was reached among its own files, after any calls and
whatever flushes failed before. It is what `flush` does, what writing a checkpoint aside begins
with and fails with, and what a put of a new fingerprint ends with whenever one is due then, where
it loses nothing either. -/
theorem lossless_of_reached {puts : List (Fingerprint w)} {s : DiskSet w} {h : Host}
    (reached : Reached (ownFiles w) puts s h) (isOpen : s.closed = false) :
    s.Lossless h ∧ s.flush h = s.flushNow h ∧
      (∀ e, (s.flushNow h).answer = .error e →
        s.beginCheckpoint h = ⟨.error e, (s.flushNow h).set, (s.flushNow h).host⟩) ∧
      ∀ fp opening, s.find fp = .absent opening → (s.insert fp opening).needsFlush →
        s.put fp h = ((s.insert fp opening).flushNow h).map (fun _ => false) ∧
          (s.insert fp opening).Lossless h := by
  obtain ⟨sound, faithful⟩ := (DiskSet.steady_of_reached reached).of_open isOpen
  refine ⟨sound.lossless isOpen h, if_neg (by simp [isOpen]),
    fun e failed => DiskSet.beginCheckpoint_of_error isOpen failed, fun fp opening found due => ?_⟩
  have inserted := sound.insert found
  exact ⟨DiskSet.put_of_absent isOpen sound.idle found due h,
    inserted.lossless ((DiskSet.closed_insert ..).trans isOpen) h⟩

/-- The room for files can change at any time. -/
theorem Reached.withRoom {puts : List (Fingerprint w)} {s : DiskSet w} {h : Host}
    (reached : Reached (ownFiles w) puts s h) (isOpen : s.closed = false) (room : Nat) :
    Reached (ownFiles w) puts s (h.withFiles { h.files with room }) := by
  have steady := DiskSet.steady_of_reached reached
  exact reached.outside _ ⟨steady.checkpoints.of_find fun _ _ _ found => found,
    (steady.of_open isOpen).2.file⟩

/-- A set that holds the zero fingerprint loses nothing by a flush that there is no room for. -/
theorem lossless_of_reached_full :
    let zero := Fingerprint.ofNat .bits64 0
    let o := (Call.put zero).perform sampleSet sampleHost
    let full := o.host.withFiles { o.host.files with room := 0 }
    Reached (ownFiles .bits64) [zero] o.set full ∧ (o.set.flushNow full).answer.isOk = false ∧
      o.set.Lossless full := by
  have before :=
    reached_sample.call (.put (.ofNat .bits64 0)) fun isCheckpoint => nomatch isCheckpoint
  have isOpen :
      ((Call.put (.ofNat .bits64 0)).perform sampleSet sampleHost).set.closed = false := by
    decide +kernel
  have reached := before.withRoom isOpen 0
  exact ⟨reached, by decide +kernel, (lossless_of_reached reached isOpen).1⟩

end SeenStates
