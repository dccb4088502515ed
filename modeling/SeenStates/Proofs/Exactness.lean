import Mathlib.Data.Finset.Card
import SeenStates.Proofs.Operations

/-!
# Exactness

As long as no put fails, a set answers for every fingerprint whether it was put before, and its
size is the count of the fingerprints that were put (`answers_of_reached`). Flushes can fail, and
files can change in any way between two calls: what a set answers from is in memory and in its
mapped run.
-/
namespace SeenStates

variable {w : Width}

/-- Any configuration, any calls that go on with the set and none of whose puts fails, and any
change of files between two calls. -/
def unfailingPuts (w : Width) : Setting w where
  starts := fun _ _ => True
  allows := fun c s h => c.goesOn ∧ c.putsAll s h
  outside := fun _ _ _ => True

/-- In such a setting a set is sound and open, and has exactly the fingerprints that were put. -/
theorem sound_of_unfailingPuts {puts : List (Fingerprint w)} {s : DiskSet w} {h : Host}
    (reached : Reached (unfailingPuts w) puts s h) :
    s.Sound ∧ s.closed = false ∧ ∀ fp, fp ∈ s.members ↔ fp ∈ puts := by
  induction reached with
  | opened opened starts =>
    have start := DiskSet.opened_of_open opened
    exact ⟨start.sound, start.isOpen, fun fp => by rw [start.members]⟩
  | call reached c allowed ih =>
    obtain ⟨sound, isOpen, members⟩ := ih
    obtain ⟨added, grown, all⟩ := sound.perform isOpen allowed.1 _
    refine ⟨grown.sound, grown.isOpen, fun fp => ?_⟩
    rw [grown.members, all allowed.2, members, List.mem_append, or_comm]
  | outside reached files allowed ih => exact ih

/-- The count of the members of a sound set that has exactly the given fingerprints is the count of
different ones among them. -/
theorem DiskSet.Sound.size_eq_card {s : DiskSet w} (sound : s.Sound)
    {fps : List (Fingerprint w)} (members : ∀ fp, fp ∈ s.members ↔ fp ∈ fps) :
    s.size = fps.toFinset.card := by
  have same : fps.toFinset = s.members.toFinset := by
    ext fp
    rw [List.mem_toFinset, List.mem_toFinset, members]
  rw [same, List.toFinset_card_of_nodup sound.distinct]
  exact sound.counted

/-- While no put fails, every answer says what was put before, and the size is the count of
different fingerprints that were put. A put of a fingerprint that is not to have been there fails
exactly if it was. -/
theorem answers_of_reached {puts : List (Fingerprint w)} {s : DiskSet w} {h : Host}
    (reached : Reached (unfailingPuts w) puts s h) :
    s.size = puts.toFinset.card ∧
      (∀ fp, (s.contains fp h).answer = .ok (decide (fp ∈ puts))) ∧
      (∀ fps, (s.containsBlock fps h).answer = .ok (fps.map fun fp => decide (fp ∈ puts))) ∧
      (∀ fp, (s.put fp h).answer.isOk → (s.put fp h).answer = .ok (decide (fp ∈ puts))) ∧
      (∀ fps, (s.putBlock fps h).answer.isOk →
        (s.putBlock fps h).answer = .ok (seenBefore puts fps)) ∧
      ∀ fp, (s.put fp h).answer.isOk →
        (s.recoverFingerprint fp h).answer =
          if fp ∈ puts then .error (.invariant (.recoveredTwice fp.shown)) else .ok () := by
  obtain ⟨sound, isOpen, members⟩ := sound_of_unfailingPuts reached
  refine ⟨sound.size_eq_card members, fun fp => ?_, fun fps => ?_, fun fp succeeds => ?_,
    fun fps succeeds => ?_, fun fp succeeds => ?_⟩
  · rw [sound.contains isOpen]
    simp only [Outcome.ok, members]
  · rw [(sound.containsBlock isOpen fps h).2]
    simp only [members]
  · rw [sound.answer_put isOpen succeeds]
    simp only [members]
  · obtain ⟨added, _, answered⟩ := sound.putBlock isOpen fps h
    rw [(answered succeeds).2, DiskSet.seenBefore_congr members]
  · have answer := sound.answer_put isOpen succeeds
    simp only [DiskSet.recoverFingerprint, Outcome.asNew, Outcome.andThen, answer, members,
      decide_eq_true_eq]
    split <;> rfl

/-- A set that was put the zero fingerprint has that one and no other. -/
theorem answers_of_reached_zero :
    let zero := Fingerprint.ofNat .bits64 0
    let o := (Call.put zero).perform sampleSet sampleHost
    Reached (unfailingPuts .bits64) [zero] o.set o.host ∧ o.set.size = 1 ∧
      (o.set.contains zero o.host).answer = .ok true ∧
      (o.set.contains (.ofNat _ 1) o.host).answer = .ok false := by
  have start : Reached (unfailingPuts .bits64) [] sampleSet sampleHost :=
    .opened open_sample trivial
  have succeeds : (sampleSet.put (.ofNat .bits64 0) sampleHost).answer.isOk := by decide +kernel
  have reached := start.call (.put (.ofNat .bits64 0)) ⟨rfl, succeeds⟩
  obtain ⟨size, contains, _⟩ := answers_of_reached reached
  exact ⟨reached, size, contains _, contains _⟩

end SeenStates
