import SeenStates.Proofs.Copies
import SeenStates.Proofs.FailedFlushes

/-!
# What puts report

A put takes a new fingerprint into the set and then flushes if a flush is due, so a put that fails
in an open set has taken its fingerprint: what failed is the flush (`DiskSet.TakenBy`). A put takes
its fingerprint exactly if its answer is that it was new or an error (`took`). Of all puts of a
fingerprint between two states of a set that it goes on with, one took it if the fingerprint has
become a member, and none otherwise (`registered_of_reached`).
-/
namespace SeenStates

variable {w : Width}

/-- The answer to a put of a fingerprint. -/
abbrev Report (w : Width) : Type := Fingerprint w × Except Error Bool

/-- Whether an open set took a fingerprint that a put was answered so for: it was new, or the put
failed. -/
def took : Except Error Bool → Bool
  | .ok seen => !seen
  | .error _ => true

/-- The count of puts that took a fingerprint. -/
def takings (fp : Fingerprint w) (reports : List (Report w)) : Nat :=
  reports.countP fun report => decide (report.1 = fp) && took report.2

/-- What is reported of puts that are made one after the other up to the first that fails. -/
def putReports : List (Fingerprint w) → DiskSet w → Host → List (Report w)
  | [], _, _ => []
  | fp :: rest, s, h =>
    let o := s.put fp h
    (fp, o.answer) :: if o.answer.isOk then putReports rest o.set o.host else []

/-- What a call reports of its puts. -/
def Call.reports : Call w → DiskSet w → Host → List (Report w)
  | put fp, s, h => putReports [fp] s h
  | putBlock fps, s, h => putReports fps s h
  | recoverFingerprint fp, s, h => putReports [fp] s h
  | _, _, _ => []

/-- What comes of a set and its surroundings by calls that go on with it, with any outcome, and any
changes of files between them; with what the puts among them reported, in order. -/
inductive Reported {w : Width} (s : DiskSet w) (h : Host) :
    List (Report w) → DiskSet w → Host → Prop where
  /-- Nothing has come of it yet. -/
  | start : Reported s h [] s h
  /-- A call was made. -/
  | call {reports : List (Report w)} {u : DiskSet w} {g : Host}
    (reported : Reported s h reports u g) (c : Call w) (goesOn : c.goesOn) :
    Reported s h (reports ++ c.reports u g) (c.perform u g).set (c.perform u g).host
  /-- The files changed between two calls. -/
  | outside {reports : List (Report w)} {u : DiskSet w} {g : Host}
    (reported : Reported s h reports u g) (files : Files) :
    Reported s h reports u (g.withFiles files)

/-- What more puts took is added. -/
theorem takings_append (fp : Fingerprint w) (reports more : List (Report w)) :
    takings fp (reports ++ more) = takings fp reports + takings fp more :=
  List.countP_append

namespace DiskSet

variable {s : DiskSet w} {h : Host}

/-- A set took a fingerprint by a put that failed. -/
structure TakenBy (s : DiskSet w) (fp : Fingerprint w) (h : Host) (u : DiskSet w) : Prop where
  /-- It was not in the set. -/
  new : (s.contains fp h).answer = .ok false
  /-- There is one fingerprint more. -/
  size : u.size = s.size + 1
  /-- It is found. -/
  found : ∀ g, (u.contains fp g).answer = .ok true
  /-- It was found before, says a put of it, whatever the files are. -/
  again : ∀ g, (u.put fp g).answer = .ok true
  /-- Any other is found if it was. -/
  others : ∀ other, other ≠ fp → ∀ g, (u.contains other g).answer = (s.contains other h).answer

/-- Of every fingerprint one put took it if it has become a member, and none if not. -/
def Taken (s : DiskSet w) (reports : List (Report w)) (u : DiskSet w) : Prop :=
  ∀ fp, takings fp reports + (s.members.contains fp).toNat = (u.members.contains fp).toNat

/-- What is taken from one state to the next and from that to a third is taken. -/
theorem Taken.trans {t u : DiskSet w} {reports more : List (Report w)}
    (first : Taken s reports t) (second : Taken t more u) : Taken s (reports ++ more) u := by
  intro fp
  have before := first fp
  have after := second fp
  rw [takings_append]
  omega

/-- Nothing is taken where the members stay. -/
theorem Taken.of_mem_iff {u : DiskSet w} (same : ∀ fp, fp ∈ u.members ↔ fp ∈ s.members) :
    Taken s [] u := by
  intro fp
  simp only [takings, List.countP_nil, Nat.zero_add, List.contains_eq_mem, same]

/-! ## Puts -/

/-- A put of a member answers that it was there. -/
theorem Sound.put_of_mem (sound : s.Sound) (isOpen : s.closed = false) {fp : Fingerprint w}
    (member : fp ∈ s.members) (h : Host) : (s.put fp h).answer = .ok true := by
  have isSeen := (sound.isSeen_find_iff fp).2 member
  rw [put_of_isSeen isOpen rfl isSeen]
  rfl

/-- A put takes its fingerprint exactly if that was no member. -/
theorem Sound.took_put (sound : s.Sound) (isOpen : s.closed = false) (fp : Fingerprint w)
    (h : Host) : took (s.put fp h).answer = decide (fp ∉ s.members) := by
  by_cases member : fp ∈ s.members
  · rw [sound.put_of_mem isOpen member]
    simp [took, member]
  · rw [decide_eq_true member]
    cases answer : (s.put fp h).answer with
    | error e => rfl
    | ok seen =>
      have isOk : (s.put fp h).answer.isOk := by rw [answer]; rfl
      have right := sound.answer_put isOpen isOk
      rw [answer, decide_eq_false member] at right
      obtain rfl := Except.ok.inj right
      rfl

/-- A put takes what it reports. -/
theorem Sound.taken_put (sound : s.Sound) (isOpen : s.closed = false) (fp : Fingerprint w)
    (h : Host) : Taken s [(fp, (s.put fp h).answer)] (s.put fp h).set := by
  intro other
  have members := (sound.grown_put isOpen fp h).members other
  rw [List.mem_singleton] at members
  simp only [takings, List.countP_singleton, sound.took_put isOpen, List.contains_eq_mem, members]
  by_cases own : fp = other
  · subst own
    by_cases member : fp ∈ s.members <;> simp [member]
  · simp [own, Ne.symm own]

/-- A put that fails in an open set has taken its fingerprint. -/
theorem Sound.takenBy_put (sound : s.Sound) (isOpen : s.closed = false) {fp : Fingerprint w}
    {e : Error} (failed : (s.put fp h).answer = .error e) : s.TakenBy fp h (s.put fp h).set := by
  have grown := sound.grown_put isOpen fp h
  have absent : fp ∉ s.members := by
    intro member
    rw [sound.put_of_mem isOpen member] at failed
    contradiction
  have own : fp ∈ (s.put fp h).set.members := (grown.members fp).2 (.inl List.mem_cons_self)
  constructor
  case new => simp [sound.contains isOpen, Outcome.ok, absent]
  case size =>
    obtain ⟨opening, found, _, same⟩ := put_of_error isOpen sound.idle failed
    have inserted := sound.insert found
    have counted : (s.insert fp opening).size = s.size + 1 := by cases opening <;> rfl
    rw [same, ← counted]
    exact (inserted.lossless ((closed_insert ..).trans isOpen) h).size
  case found =>
    intro g
    simp [grown.sound.contains grown.isOpen, Outcome.ok, own]
  case again => exact grown.sound.put_of_mem grown.isOpen own
  case others =>
    intro other differ g
    simp [grown.sound.contains grown.isOpen, sound.contains isOpen, Outcome.ok,
      grown.members other, differ]

/-! ## Calls -/

/-- Puts one after the other take what they report. -/
theorem Sound.taken_putBlock (sound : s.Sound) (isOpen : s.closed = false)
    (fps : List (Fingerprint w)) (h : Host) :
    Taken s (putReports fps s h) (s.putBlock fps h).set := by
  induction fps generalizing s h with
  | nil => exact .of_mem_iff fun _ => Iff.rfl
  | cons fp rest ih =>
    have first := sound.taken_put isOpen fp h
    have grown := sound.grown_put isOpen fp h
    have unfolded : s.putBlock (fp :: rest) h = (s.put fp h).andThen fun seen s h =>
        (s.putBlock rest h).map fun answers => seen :: answers := rfl
    rw [unfolded, Outcome.andThen, putReports]
    cases answer : (s.put fp h).answer with
    | error e =>
      rw [answer] at first
      exact first
    | ok seen =>
      rw [answer] at first
      exact first.trans (ih grown.sound grown.isOpen (s.put fp h).host)

/-- A call that goes on with a set takes what its puts report. -/
theorem Sound.taken_perform (sound : s.Sound) (isOpen : s.closed = false) {c : Call w}
    (goesOn : c.goesOn) (h : Host) : Taken s (c.reports s h) (c.perform s h).set := by
  have one (fp : Fingerprint w) : putReports [fp] s h = [(fp, (s.put fp h).answer)] := by
    rw [putReports, putReports, ite_self]
  cases c with
  | put fp =>
    rw [Call.reports, one]
    exact sound.taken_put isOpen fp h
  | putBlock fps => exact sound.taken_putBlock isOpen fps h
  | recoverFingerprint fp =>
    rw [Call.reports, one]
    exact set_recoverFingerprint s fp h ▸ sound.taken_put isOpen fp h
  | recover => contradiction
  | close cleanup => contradiction
  | _ =>
    refine .of_mem_iff fun fp => ?_
    obtain ⟨added, grown, all⟩ := sound.perform isOpen goesOn h
    rw [grown.members, all trivial]
    simp [Call.puts]

/-- A sound set takes what the puts into it report, however many there are. -/
theorem Sound.taken_of_reported (sound : s.Sound) (isOpen : s.closed = false)
    {reports : List (Report w)} {u : DiskSet w} {g : Host} (reported : Reported s h reports u g) :
    u.Sound ∧ u.closed = false ∧ Taken s reports u := by
  induction reported with
  | start => exact ⟨sound, isOpen, .of_mem_iff fun _ => Iff.rfl⟩
  | @call reports u g reported c goesOn ih =>
    obtain ⟨sound, isOpen, taken⟩ := ih
    obtain ⟨_, grown, _⟩ := sound.perform isOpen goesOn g
    exact ⟨grown.sound, grown.isOpen, taken.trans (sound.taken_perform isOpen goesOn g)⟩
  | outside reported files ih => exact ih

end DiskSet

/-- A put into a closed set fails and changes nothing. A put into an open set that fails has taken
its fingerprint: that was new, is found from then on and is not new to another put. Between two
states of an open set that it goes on with, with any failures, a fingerprint that was found is taken
by no put, one that was not found and is found then by exactly one, and one that is not found then
by none. -/
theorem registered_of_reached {puts : List (Fingerprint w)} {s : DiskSet w} {h : Host}
    (reached : Reached (anyOutcome w) puts s h) :
    (s.closed = true → ∀ fp, s.put fp h = .fail .closed s h) ∧
      (s.closed = false → ∀ fp e, (s.put fp h).answer = .error e →
        s.TakenBy fp h (s.put fp h).set) ∧
      (s.closed = false → ∀ reports u g, Reported s h reports u g → ∀ fp,
        ((s.contains fp h).answer = .ok true →
          (u.contains fp g).answer = .ok true ∧ takings fp reports = 0) ∧
        ((s.contains fp h).answer = .ok false → (u.contains fp g).answer = .ok true →
          takings fp reports = 1) ∧
        ((u.contains fp g).answer = .ok false → takings fp reports = 0)) := by
  have whole := DiskSet.whole_of_anyOutcome reached
  refine ⟨fun closed fp => if_pos closed, fun isOpen fp e failed => ?_,
    fun isOpen reports u g reported fp => ?_⟩
  · exact (whole.of_open isOpen).1.takenBy_put isOpen failed
  · have sound := (whole.of_open isOpen).1
    obtain ⟨sound', isOpen', taken⟩ := sound.taken_of_reported isOpen reported
    have taken := taken fp
    rw [sound.contains isOpen, sound'.contains isOpen']
    simp only [Outcome.ok, Except.ok.injEq, decide_eq_true_eq, decide_eq_false_iff_not]
    by_cases before : fp ∈ s.members <;> by_cases after : fp ∈ u.members <;>
      simp_all

/-- A put into a set that a flush was asked of, where there is no room for files, fails and has
taken its fingerprint. Of that put and another one after it exactly one took it. -/
theorem registered_of_reached_full :
    let zero : Fingerprint .bits64 := .ofNat _ 0
    let asked := Call.requestFlush.perform sampleSet sampleHost
    let full := asked.host.withFiles { asked.host.files with room := 0 }
    let first := (Call.put zero).perform asked.set full
    (asked.set.put zero full).answer.isOk = false ∧
      asked.set.TakenBy zero full (asked.set.put zero full).set ∧
      takings zero ((Call.put zero).reports asked.set full ++
        (Call.put zero).reports first.set first.host) = 1 := by
  intro zero asked full first
  have start : Reached (anyOutcome .bits64) [] sampleSet sampleHost := .opened open_sample trivial
  have reached : Reached (anyOutcome .bits64) [] asked.set full :=
    (start.call .requestFlush nofun).outside _ fun _ found => found
  obtain ⟨_, failing, reporting⟩ := registered_of_reached reached
  have isOpen : asked.set.closed = false := by decide +kernel
  have fails : (asked.set.put zero full).answer.isOk = false := by decide +kernel
  have reported := (Reported.start.call (s := asked.set) (h := full) (.put zero) rfl).call
    (.put zero) rfl
  refine ⟨fails, ?_, ?_⟩
  · cases answer : (asked.set.put zero full).answer with
    | error e => exact failing isOpen zero e answer
    | ok seen =>
      rw [answer] at fails
      contradiction
  · obtain ⟨_, one, _⟩ := reporting isOpen _ _ _ reported zero
    exact one (by decide +kernel) (by decide +kernel)

/-- A put that fails does register its fingerprint. -/
theorem failed_put_registers :
    let zero : Fingerprint .bits64 := .ofNat _ 0
    let asked := Call.requestFlush.perform sampleSet sampleHost
    let full := asked.host.withFiles { asked.host.files with room := 0 }
    let failed := asked.set.put zero full
    Reached (anyOutcome .bits64) [] asked.set full ∧ failed.answer.isOk = false ∧
      asked.set.size = 0 ∧ (asked.set.contains zero full).answer = .ok false ∧
      failed.set.size = 1 ∧ (failed.set.contains zero sampleHost).answer = .ok true ∧
      (failed.set.put zero sampleHost).answer = .ok true := by
  intro zero asked full failed
  have start : Reached (anyOutcome .bits64) [] sampleSet sampleHost := .opened open_sample trivial
  refine ⟨(start.call .requestFlush nofun).outside _ fun _ found => found, ?_⟩
  exact ⟨by decide +kernel, by decide +kernel, by decide +kernel, by decide +kernel,
    by decide +kernel, by decide +kernel⟩

end SeenStates
