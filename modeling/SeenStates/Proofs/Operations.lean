import SeenStates.Proofs.Calls
import SeenStates.Proofs.Soundness

/-!
# Operations on a sound set

Every operation that goes on with a set keeps it sound and open, and adds the fingerprints that are
put to its members (`Grown`), whether its flushes succeed or not. A put answers whether the
fingerprint was a member, a query whether it is one.
-/
namespace SeenStates

variable {w : Width}

namespace DiskSet

/-- A set that is sound and open as another one was, and has its members and some more. -/
structure Grown (s : DiskSet w) (added : List (Fingerprint w)) (u : DiskSet w) : Prop where
  /-- It is sound. -/
  sound : u.Sound
  /-- It is open. -/
  isOpen : u.closed = false
  /-- It is of the same configuration. -/
  config : u.config = s.config
  /-- It has those members. -/
  members : ∀ fp, fp ∈ u.members ↔ fp ∈ added ∨ fp ∈ s.members

/-- A set has its own members. -/
theorem Grown.refl {s : DiskSet w} (sound : s.Sound) (isOpen : s.closed = false) :
    Grown s [] s :=
  ⟨sound, isOpen, rfl, by simp⟩

/-- What is added one after the other is added. -/
theorem Grown.trans {s t u : DiskSet w} {first second : List (Fingerprint w)}
    (left : Grown s first t) (right : Grown t second u) : Grown s (first ++ second) u := by
  refine ⟨right.sound, right.isOpen, right.config.trans left.config, fun fp => ?_⟩
  rw [right.members, left.members, List.mem_append]
  grind

/-- A set grows by nothing when its members stay. -/
theorem Grown.of_members_eq {s u : DiskSet w} (sound : u.Sound) (isOpen : u.closed = false)
    (config : u.config = s.config) (same : u.members = s.members) : Grown s [] u :=
  ⟨sound, isOpen, config, by simp [same]⟩

/-! ## Puts -/

/-- What a put into an open set comes to. -/
inductive PutEnd (s : DiskSet w) (fp : Fingerprint w) (h : Host) :
    Outcome (DiskSet w) Bool → Prop where
  /-- The fingerprint is found. -/
  | seen (place : Place) (found : s.find fp = place) (isSeen : place.isSeen) :
    PutEnd s fp h (.ok true (s.counted place) h)
  /-- It is new, and no flush is due. -/
  | fresh (opening : Option Nat) (found : s.find fp = .absent opening) :
    PutEnd s fp h (.ok false (s.insert fp opening) h)
  /-- It is new, and a flush is due. -/
  | flushed (opening : Option Nat) (found : s.find fp = .absent opening)
    (due : (s.insert fp opening).needsFlush) :
    PutEnd s fp h (((s.insert fp opening).flushNow h).map fun _ => false)

/-- Taking a fingerprint as new leaves a set open. -/
theorem closed_insert (s : DiskSet w) (fp : Fingerprint w) (opening : Option Nat) :
    (s.insert fp opening).closed = s.closed := by
  cases opening <;> rfl

/-- Taking a fingerprint as new keeps the configuration. -/
theorem config_insert (s : DiskSet w) (fp : Fingerprint w) (opening : Option Nat) :
    (s.insert fp opening).config = s.config := by
  cases opening <;> rfl

/-- Counting a look-up leaves a set open or closed. -/
theorem closed_counted (s : DiskSet w) (place : Place) : (s.counted place).closed = s.closed := by
  cases place <;> rfl

/-- Counting a look-up keeps the configuration. -/
theorem config_counted (s : DiskSet w) (place : Place) : (s.counted place).config = s.config := by
  cases place <;> rfl

/-- Taking a fingerprint as new keeps the run. -/
theorem disk_insert (s : DiskSet w) (fp : Fingerprint w) (opening : Option Nat) :
    (s.insert fp opening).disk = s.disk := by
  cases opening <;> rfl

/-- Counting a look-up keeps the run. -/
theorem disk_counted (s : DiskSet w) (place : Place) : (s.counted place).disk = s.disk := by
  cases place <;> rfl

/-- A put that has to make room for its fingerprint flushes at once. -/
theorem put_of_absent {s : DiskSet w} (isOpen : s.closed = false) (idle : s.flusherChosen = false)
    {fp : Fingerprint w} {opening : Option Nat} (found : s.find fp = .absent opening)
    (due : (s.insert fp opening).needsFlush) (h : Host) :
    s.put fp h = ((s.insert fp opening).flushNow h).map fun _ => false := by
  have idleStill : (s.insert fp opening).flusherChosen = false := by cases opening <;> exact idle
  unfold put whenOpen
  rw [isOpen]
  simp only [Bool.false_eq_true, if_false, found, due, idleStill, Bool.not_false, Bool.and_self,
    if_true]
  rw [flushChosen_eq ((closed_insert ..).trans isOpen) idleStill due]

/-- A put of a fingerprint that is found counts the look-up. -/
theorem put_of_isSeen {s : DiskSet w} (isOpen : s.closed = false) {fp : Fingerprint w}
    {place : Place} (found : s.find fp = place) (isSeen : place.isSeen) (h : Host) :
    s.put fp h = .ok true (s.counted place) h := by
  cases place with
  | absent opening => contradiction
  | memory => simp [DiskSet.put, whenOpen, isOpen, found]
  | disk => simp [DiskSet.put, whenOpen, isOpen, found]

/-- A put of a new fingerprint takes it when no flush is due. -/
theorem put_of_fresh {s : DiskSet w} (isOpen : s.closed = false) {fp : Fingerprint w}
    {opening : Option Nat} (found : s.find fp = .absent opening)
    (undue : ¬ (s.insert fp opening).needsFlush) (h : Host) :
    s.put fp h = .ok false (s.insert fp opening) h := by
  simp [DiskSet.put, whenOpen, isOpen, found, undue]

/-- A put into an open set that is not flushing has one of these ends. -/
theorem putEnd {s : DiskSet w} (isOpen : s.closed = false) (idle : s.flusherChosen = false)
    (fp : Fingerprint w) (h : Host) : PutEnd s fp h (s.put fp h) := by
  cases found : s.find fp with
  | memory => exact put_of_isSeen isOpen found rfl h ▸ .seen .memory found rfl
  | disk => exact put_of_isSeen isOpen found rfl h ▸ .seen .disk found rfl
  | absent opening =>
    by_cases due : (s.insert fp opening).needsFlush
    · rw [put_of_absent isOpen idle found due]
      exact .flushed opening found due
    · exact put_of_fresh isOpen found due h ▸ .fresh opening found

/-- A fingerprint that is found is a member. -/
theorem Sound.mem_of_find {s : DiskSet w} (sound : s.Sound) {fp : Fingerprint w} {place : Place}
    (found : s.find fp = place) (isSeen : place.isSeen) : fp ∈ s.members := by
  rw [← sound.isSeen_find_iff, found]
  exact isSeen

/-- A set grows by a fingerprint that it takes as new. -/
theorem Sound.grown_insert {s : DiskSet w} (sound : s.Sound) (isOpen : s.closed = false)
    {fp : Fingerprint w} {opening : Option Nat} (found : s.find fp = .absent opening) :
    Grown s [fp] (s.insert fp opening) := by
  refine ⟨sound.insert found, (closed_insert ..).trans isOpen, config_insert .., fun other => ?_⟩
  rw [(sound.perm_members_insert found).mem_iff]
  simp

/-- A flush adds nothing. -/
theorem Sound.grown_flushNow {s : DiskSet w} (sound : s.Sound) (isOpen : s.closed = false)
    (h : Host) : Grown s [] (s.flushNow h).set := by
  obtain ⟨kept, same, closed, config⟩ := sound.of_flushed (flushed_flushNow sound.mapped h)
  exact ⟨kept, closed.trans isOpen, config, fun fp => by rw [same.mem_iff]; simp⟩

/-- A put adds its fingerprint. -/
theorem Sound.grown_put {s : DiskSet w} (sound : s.Sound) (isOpen : s.closed = false)
    (fp : Fingerprint w) (h : Host) : Grown s [fp] (s.put fp h).set := by
  have ends := putEnd isOpen sound.idle fp h
  generalize s.put fp h = o at ends ⊢
  cases ends with
  | seen place found isSeen =>
    have member := sound.mem_of_find found isSeen
    obtain ⟨kept, same⟩ := sound.counted_find place
    refine ⟨kept, (closed_counted ..).trans isOpen, config_counted .., fun other => ?_⟩
    simp only [Outcome.ok, same, List.mem_singleton]
    exact ⟨.inr, fun either => either.elim (fun own => own ▸ member) id⟩
  | fresh opening found => exact sound.grown_insert isOpen found
  | flushed opening found due =>
    have inserted := sound.grown_insert isOpen found
    exact inserted.trans (inserted.sound.grown_flushNow inserted.isOpen h)

/-- A put that does not fail answers whether the fingerprint was a member. -/
theorem Sound.answer_put {s : DiskSet w} (sound : s.Sound) (isOpen : s.closed = false)
    {fp : Fingerprint w} {h : Host} (succeeds : (s.put fp h).answer.isOk) :
    (s.put fp h).answer = .ok (decide (fp ∈ s.members)) := by
  have ends := putEnd isOpen sound.idle fp h
  generalize s.put fp h = o at ends succeeds ⊢
  cases ends with
  | seen place found isSeen => simp [Outcome.ok, sound.mem_of_find found isSeen]
  | fresh opening found => simp [Outcome.ok, sound.not_mem_of_find found]
  | flushed opening found due =>
    simp only [Outcome.map, sound.not_mem_of_find found, decide_false] at succeeds ⊢
    cases answer : ((s.insert fp opening).flushNow h).answer with
    | error e => simp [answer, Except.map, Except.isOk, Except.toBool] at succeeds
    | ok _ => simp [Except.map]

/-- Putting a fingerprint that is to be new changes the set as putting it does. -/
theorem set_recoverFingerprint (s : DiskSet w) (fp : Fingerprint w) (h : Host) :
    (s.recoverFingerprint fp h).set = (s.put fp h).set := by
  simp only [recoverFingerprint, Outcome.asNew, Outcome.andThen]
  split
  · split <;> rfl
  · rfl

/-- Putting a fingerprint that is to be new changes the host as putting it does. -/
theorem host_recoverFingerprint (s : DiskSet w) (fp : Fingerprint w) (h : Host) :
    (s.recoverFingerprint fp h).host = (s.put fp h).host := by
  simp only [recoverFingerprint, Outcome.asNew, Outcome.andThen]
  split
  · split <;> rfl
  · rfl

/-! ## Blocks -/

/-- A mapped answer is one only if there was one. -/
theorem isOk_of_isOk_map {σ α β : Type} {o : Outcome σ α} {f : α → β}
    (isOk : (o.map f).answer.isOk) : o.answer.isOk := by
  unfold Outcome.map at isOk
  cases answer : o.answer with
  | error e => simp [answer, Except.map, Except.isOk, Except.toBool] at isOk
  | ok a => rfl

/-- An operation with nothing to answer succeeds if what its answer is mapped to is an answer. -/
theorem eq_ok_of_isOk_map {σ β : Type} {o : Outcome σ Unit} {f : Unit → β}
    (isOk : (o.map f).answer.isOk) : o.answer = .ok () := by
  have succeeds := isOk_of_isOk_map isOk
  cases answer : o.answer with
  | error e => simp [answer, Except.isOk, Except.toBool] at succeeds
  | ok _ => rfl

/-- A mapped failure was one before. -/
theorem error_of_map {σ α β : Type} {o : Outcome σ α} {f : α → β} {e : Error}
    (failed : (o.map f).answer = .error e) : o.answer = .error e := by
  unfold Outcome.map at failed
  cases answer : o.answer with
  | error fault =>
    simp only [answer, Except.map, Except.error.injEq] at failed
    rw [failed]
  | ok a => simp [answer, Except.map] at failed

/-- A put that fails took its fingerprint as new and failed in the flush that was due. -/
theorem put_of_error {s : DiskSet w} {h : Host} {fp : Fingerprint w} (isOpen : s.closed = false)
    (idle : s.flusherChosen = false) {e : Error} (failed : (s.put fp h).answer = .error e) :
    ∃ opening, s.find fp = .absent opening ∧
      ((s.insert fp opening).flushNow h).answer = .error e ∧
      (s.put fp h).set = ((s.insert fp opening).flushNow h).set := by
  have ends := putEnd isOpen idle fp h
  generalize s.put fp h = o at ends failed ⊢
  cases ends with
  | seen place found isSeen => contradiction
  | fresh opening found => contradiction
  | flushed opening found due => exact ⟨opening, found, error_of_map failed, rfl⟩

/-- The order in which fingerprints come before a block does not matter. -/
theorem seenBefore_congr {before other : List (Fingerprint w)}
    (same : ∀ fp, fp ∈ before ↔ fp ∈ other) (fps : List (Fingerprint w)) :
    seenBefore before fps = seenBefore other fps := by
  induction fps generalizing before other with
  | nil => rfl
  | cons fp rest ih =>
    have more : ∀ a, a ∈ fp :: before ↔ a ∈ fp :: other := fun a => by
      rw [List.mem_cons, List.mem_cons, same a]
    rw [seenBefore, seenBefore, ih more, decide_eq_decide.2 (same fp)]

/-- Of a block that a set is put, it takes a first part, and all of it if no put fails. -/
theorem Sound.putBlock {s : DiskSet w} (sound : s.Sound) (isOpen : s.closed = false)
    (fps : List (Fingerprint w)) (h : Host) :
    ∃ added, Grown s added (s.putBlock fps h).set ∧
      ((s.putBlock fps h).answer.isOk →
        added = fps ∧ (s.putBlock fps h).answer = .ok (seenBefore s.members fps)) := by
  induction fps generalizing s h with
  | nil => exact ⟨[], .refl sound isOpen, fun _ => ⟨rfl, rfl⟩⟩
  | cons fp rest ih =>
    have first := sound.grown_put isOpen fp h
    have answered : (s.put fp h).answer.isOk →
        (s.put fp h).answer = .ok (decide (fp ∈ s.members)) := sound.answer_put isOpen
    have unfolded : s.putBlock (fp :: rest) h = (s.put fp h).andThen fun seen s h =>
        (s.putBlock rest h).map fun answers => seen :: answers := rfl
    rw [unfolded, Outcome.andThen]
    cases answer : (s.put fp h).answer with
    | error e =>
      refine ⟨[fp], first, fun succeeds => ?_⟩
      simp [Except.isOk, Except.toBool] at succeeds
    | ok seen =>
      obtain ⟨added, more, behind⟩ := ih first.sound first.isOpen (s.put fp h).host
      refine ⟨fp :: added, first.trans more, fun succeeds => ?_⟩
      have own : seen = decide (fp ∈ s.members) := by
        have first := answered (by rw [answer]; rfl)
        rw [answer] at first
        exact Except.ok.inj first
      have members : ∀ a, a ∈ (s.put fp h).set.members ↔ a ∈ fp :: s.members := fun a => by
        simp [first.members a]
      obtain ⟨rfl, answers⟩ := behind (isOk_of_isOk_map succeeds)
      simp only [Outcome.map, answers, Except.map, seenBefore, seenBefore_congr members, own,
        and_self]

/-! ## Queries -/

/-- A set with nothing in memory finds what its run finds. -/
theorem isSeen_find_of_blank {s : DiskSet w} (blank : s.table.Blank) (vacant : s.overflow = .empty)
    (fp : Fingerprint w) : (s.find fp).isSeen = s.disk.contains fp := by
  have elsewhere (opening : Option Nat) :
      (s.findElsewhere fp opening).isSeen = s.disk.contains fp := by
    have notOver : ¬ s.overflow.contains fp := by
      rw [vacant, Overflow.contains_iff_mem_entries]
      simp
    rw [findElsewhere, if_neg notOver]
    split
    · next stored => exact stored.symm
    · next missing => exact (Bool.eq_false_iff.2 missing).symm
  unfold find
  cases probed : s.table.probe fp with
  | found =>
    have held := (blank.tidy.probe_found_iff_live fp).1 probed
    rw [blank.scan_eq] at held
    rcases held with live | archived
    · exact absurd live List.not_mem_nil
    · exact absurd archived blank.not_archived
  | vacant position => exact elsewhere (some position)
  | full => exact elsewhere none

/-- A query answers whether a fingerprint is a member, and counts the look-up. -/
theorem Sound.contains {s : DiskSet w} (sound : s.Sound) (isOpen : s.closed = false)
    (fp : Fingerprint w) (h : Host) :
    s.contains fp h = .ok (decide (fp ∈ s.members)) (s.counted (s.find fp)) h := by
  have seen : (s.find fp).isSeen = decide (fp ∈ s.members) := by
    rw [Bool.eq_iff_iff, decide_eq_true_iff, sound.isSeen_find_iff]
  simp [DiskSet.contains, whenOpen, isOpen, seen]

/-- A query adds nothing. -/
theorem Sound.grown_counted {s : DiskSet w} (sound : s.Sound) (isOpen : s.closed = false)
    (place : Place) : Grown s [] (s.counted place) := by
  obtain ⟨kept, same⟩ := sound.counted_find place
  exact .of_members_eq kept ((closed_counted ..).trans isOpen) (config_counted ..) same

/-- A query of a block adds nothing and answers for each of its fingerprints. -/
theorem Sound.containsBlock {s : DiskSet w} (sound : s.Sound) (isOpen : s.closed = false)
    (fps : List (Fingerprint w)) (h : Host) :
    Grown s [] (s.containsBlock fps h).set ∧
      (s.containsBlock fps h).answer = .ok (fps.map fun fp => decide (fp ∈ s.members)) := by
  induction fps generalizing s h with
  | nil => exact ⟨.refl sound isOpen, rfl⟩
  | cons fp rest ih =>
    have first := sound.grown_counted isOpen (s.find fp)
    have same : (s.counted (s.find fp)).members = s.members := (sound.counted_find _).2
    obtain ⟨more, behind⟩ := ih first.sound first.isOpen h
    have unfolded : s.containsBlock (fp :: rest) h = (s.contains fp h).andThen fun seen s h =>
        (s.containsBlock rest h).map fun answers => seen :: answers := rfl
    rw [unfolded, sound.contains isOpen]
    refine ⟨first.trans more, ?_⟩
    simp only [Outcome.andThen, Outcome.ok, Outcome.map, behind, same, Except.map, List.map_cons]

/-! ## Checkpoints -/

/-- Writing a checkpoint aside changes the set as its flush does. -/
theorem set_beginCheckpoint {s : DiskSet w} (isOpen : s.closed = false) (h : Host) :
    (s.beginCheckpoint h).set = (s.flushNow h).set := by
  simp only [beginCheckpoint, whenOpen, isOpen, Bool.false_eq_true, if_false, Outcome.andThen]
  split
  · split <;> rfl
  · rfl

/-- Putting a checkpoint in place does not change the set. -/
theorem set_commitCheckpoint (s : DiskSet w) (h : Host) : (s.commitCheckpoint h).set = s := by
  simp only [commitCheckpoint, whenOpen]
  split
  · rfl
  · split <;> rfl

/-! ## Calls -/

/-- Every call that goes on with a set adds fingerprints that it puts, and all of them if no put
fails. -/
theorem Sound.perform {s : DiskSet w} (sound : s.Sound) (isOpen : s.closed = false) {c : Call w}
    (goesOn : c.goesOn) (h : Host) :
    ∃ added, Grown s added (c.perform s h).set ∧ (c.putsAll s h → added = c.puts) := by
  cases c with
  | put fp => exact ⟨[fp], sound.grown_put isOpen fp h, fun _ => rfl⟩
  | putBlock fps =>
    obtain ⟨added, grown, all⟩ := sound.putBlock isOpen fps h
    exact ⟨added, grown, fun succeeds => (all succeeds).1⟩
  | recoverFingerprint fp =>
    refine ⟨[fp], ?_, fun _ => rfl⟩
    exact set_recoverFingerprint s fp h ▸ sound.grown_put isOpen fp h
  | contains fp =>
    refine ⟨[], ?_, fun _ => rfl⟩
    simp only [Call.perform, Outcome.map, sound.contains isOpen]
    exact sound.grown_counted isOpen _
  | containsBlock fps => exact ⟨[], (sound.containsBlock isOpen fps h).1, fun _ => rfl⟩
  | flush =>
    refine ⟨[], ?_, fun _ => rfl⟩
    simp only [Call.perform, Outcome.map, flush, whenOpen, isOpen, Bool.false_eq_true, if_false]
    exact sound.grown_flushNow isOpen h
  | requestFlush =>
    exact ⟨[], .of_members_eq sound.requestFlush isOpen rfl rfl, fun _ => rfl⟩
  | beginCheckpoint =>
    refine ⟨[], ?_, fun _ => rfl⟩
    simp only [Call.perform, Outcome.map, set_beginCheckpoint isOpen]
    exact sound.grown_flushNow isOpen h
  | commitCheckpoint =>
    refine ⟨[], ?_, fun _ => rfl⟩
    simp only [Call.perform, Outcome.map, set_commitCheckpoint]
    exact .refl sound isOpen
  | recover => contradiction
  | close cleanup => contradiction

/-- A call that goes on with a set adds nothing that it does not put. -/
theorem Sound.mem_perform {s : DiskSet w} (sound : s.Sound) (isOpen : s.closed = false)
    {c : Call w} (goesOn : c.goesOn) (h : Host) {fp : Fingerprint w}
    (member : fp ∈ (c.perform s h).set.members) : fp ∈ c.puts ∨ fp ∈ s.members := by
  cases c with
  | put other => exact ((sound.grown_put isOpen other h).members fp).1 member
  | recoverFingerprint other =>
    have grown := sound.grown_put isOpen other h
    rw [← set_recoverFingerprint] at grown
    exact (grown.members fp).1 member
  | putBlock fps =>
    let kept (u : DiskSet w) (_ : Host) : Prop :=
      u.Sound ∧ u.closed = false ∧ ∀ fp ∈ u.members, fp ∈ fps ∨ fp ∈ s.members
    have step : ∀ other ∈ fps, ∀ u g, kept u g →
        kept (DiskSet.put other u g).set (DiskSet.put other u g).host := by
      rintro other among u g ⟨sound, isOpen, within⟩
      have grown := sound.grown_put isOpen other g
      refine ⟨grown.sound, grown.isOpen, fun fp member => ?_⟩
      rcases (grown.members fp).1 member with own | before
      · exact .inl (List.mem_singleton.1 own ▸ among)
      · exact within fp before
    let all := Outcome.each DiskSet.put fps s h
    have last : kept all.set all.host := Outcome.each_keeps kept step ⟨sound, isOpen, fun _ => .inr⟩
    exact last.2.2 fp member
  | recover => contradiction
  | close cleanup => contradiction
  | _ =>
    obtain ⟨added, grown, all⟩ := sound.perform isOpen goesOn h
    rw [grown.members, all trivial] at member
    exact member

/-! ## What calls keep -/

/-- A property of sets that the steps of calls keep, which put fingerprints of one kind into sets of
a configuration. -/
structure Keeps (c : Config) (kind : Fingerprint w → Prop) (kept : DiskSet w → Prop) : Prop where
  /-- A fingerprint of the kind is taken as new. -/
  insert : ∀ s fp opening, s.config = c → s.Sound → kind fp → s.find fp = .absent opening →
    kept s → kept (s.insert fp opening)
  /-- A look-up is counted. -/
  counted : ∀ s place, s.Sound → kept s → kept (s.counted place)
  /-- A flush is asked for. -/
  requestFlush : ∀ s, s.Sound → kept s → kept s.requestFlush
  /-- No flush is asked for any more. -/
  unrequested : ∀ s, s.Sound → kept s → kept s.unrequested
  /-- Everything in the set moves into its run. -/
  settled : ∀ s entries, s.Sound → Ascending entries.toList → Storable defaultBlockEntries entries →
    (∀ fp, fp ∈ entries ↔ fp ∈ s.members) → kept s → kept (s.settled entries)

namespace Keeps

variable {c : Config} {kind : Fingerprint w → Prop} {kept : DiskSet w → Prop} {s : DiskSet w}

/-- A flush keeps it. -/
theorem flushNow (keeps : Keeps c kind kept) (sound : s.Sound) (here : kept s) (h : Host) :
    kept (s.flushNow h).set := by
  have ends := flushed_flushNow sound.mapped h
  generalize s.flushNow h = o at ends
  obtain ⟨answer, u, host⟩ := o
  simp only at ends ⊢
  generalize host.files = after at ends
  cases ends with
  | failed e => exact keeps.unrequested s sound here
  | nothing vacant => exact keeps.unrequested s sound here
  | written l entries takes ascending storable all =>
    exact keeps.settled s entries sound ascending storable all here

/-- A put of a fingerprint of the kind keeps it. -/
theorem put (keeps : Keeps c kind kept) (config : s.config = c) (sound : s.Sound)
    (isOpen : s.closed = false) (here : kept s) {fp : Fingerprint w} (isKind : kind fp) (h : Host) :
    kept (s.put fp h).set := by
  have ends := putEnd isOpen sound.idle fp h
  generalize s.put fp h = o at ends
  cases ends with
  | seen place found isSeen => exact keeps.counted s place sound here
  | fresh opening found => exact keeps.insert s fp opening config sound isKind found here
  | flushed opening found due =>
    exact keeps.flushNow (sound.insert found)
      (keeps.insert s fp opening config sound isKind found here) h

/-- So does an operation on each of several fingerprints that keeps it for each, and leaves the set
sound, open and of its configuration. -/
theorem each {α : Type} {op : Fingerprint w → DiskSet w → Host → Outcome (DiskSet w) α}
    {fps : List (Fingerprint w)}
    (step : ∀ fp ∈ fps, ∀ u g, u.config = c → u.Sound → u.closed = false → kept u →
      kept (op fp u g).set ∧ ∃ added, Grown u added (op fp u g).set)
    (config : s.config = c) (sound : s.Sound) (isOpen : s.closed = false) (here : kept s)
    (h : Host) : kept (Outcome.each op fps s h).set := by
  let whole (u : DiskSet w) (_ : Host) : Prop :=
    u.config = c ∧ u.Sound ∧ u.closed = false ∧ kept u
  have steps : ∀ fp ∈ fps, ∀ u g, whole u g → whole (op fp u g).set (op fp u g).host := by
    rintro fp member u g ⟨config, sound, isOpen, here⟩
    obtain ⟨still, added, grown⟩ := step fp member u g config sound isOpen here
    exact ⟨grown.config.trans config, grown.sound, grown.isOpen, still⟩
  have last : whole (Outcome.each op fps s h).set (Outcome.each op fps s h).host :=
    Outcome.each_keeps whole steps ⟨config, sound, isOpen, here⟩
  exact last.2.2.2

/-- Every call that goes on with a set and puts fingerprints of the kind keeps it. -/
theorem perform (keeps : Keeps c kind kept) (config : s.config = c) (sound : s.Sound)
    (isOpen : s.closed = false) (here : kept s) {k : Call w} (kinds : ∀ fp ∈ k.puts, kind fp)
    (goesOn : k.goesOn) (h : Host) : kept (k.perform s h).set := by
  cases k with
  | put fp => exact keeps.put config sound isOpen here (kinds fp List.mem_cons_self) h
  | putBlock fps =>
    refine each (fun fp member u g config sound isOpen here => ?_) config sound isOpen here h
    exact ⟨keeps.put config sound isOpen here (kinds fp member) g, [fp],
      sound.grown_put isOpen fp g⟩
  | recoverFingerprint fp =>
    change kept (s.recoverFingerprint fp h).set
    rw [set_recoverFingerprint]
    exact keeps.put config sound isOpen here (kinds fp List.mem_cons_self) h
  | contains fp =>
    simp only [Call.perform, Outcome.map, sound.contains isOpen]
    exact keeps.counted s _ sound here
  | containsBlock fps =>
    refine each (fun fp _ u g config sound isOpen here => ?_) config sound isOpen here h
    rw [sound.contains isOpen]
    exact ⟨keeps.counted u _ sound here, [], sound.grown_counted isOpen _⟩
  | flush =>
    simp only [Call.perform, Outcome.map, DiskSet.flush, whenOpen, isOpen, Bool.false_eq_true,
      if_false]
    exact keeps.flushNow sound here h
  | requestFlush => exact keeps.requestFlush s sound here
  | beginCheckpoint =>
    simp only [Call.perform, Outcome.map, set_beginCheckpoint isOpen]
    exact keeps.flushNow sound here h
  | commitCheckpoint =>
    simp only [Call.perform, Outcome.map, set_commitCheckpoint]
    exact here
  | recover => contradiction
  | close cleanup => contradiction

end Keeps

end DiskSet

end SeenStates
