import SeenStates.Proofs.Scopes

/-!
# Directories that are there

A path leads to a directory exactly if it can be followed to the end and can be asked for at all
(`Files.isDirectory_iff`). Making the directory again then does nothing, so once the first of
several sets has made their common directory it makes no difference that the others make it too.
-/
namespace SeenStates

namespace Files

variable {t u : Files} {path : String}

/-! ## Where paths come down to -/

/-- The pieces of a path without the empty ones at its end. -/
theorem pieces_eq_of_reverse (path : String) :
    ∃ idle : List Path.Piece, (∀ piece ∈ idle, Path.isIdle piece) ∧
      Path.pieces path.toList =
        ((Path.pieces path.toList).reverse.dropWhile (· = [])).reverse ++ idle := by
  refine ⟨((Path.pieces path.toList).reverse.takeWhile (· = [])).reverse, fun piece member => ?_,
    ?_⟩
  · have empty := List.all_eq_true.1 List.all_takeWhile piece (List.mem_reverse.1 member)
    simp only [decide_eq_true_eq] at empty
    simp [Path.isIdle, empty]
  · rw [← List.reverse_append, List.takeWhile_append_dropWhile, List.reverse_reverse]

/-- A walk with one more piece goes one step further. -/
theorem walk_concat (t : Files) (path : String) (pieces : List Path.Piece) (last : Path.Piece) :
    t.walk (t.originTrail path) (pieces ++ [last]) =
      (t.walk (t.originTrail path) pieces).bind fun here => t.advance here last := by
  rw [walk_eq (isTrail_originTrail t path), walk_eq (isTrail_originTrail t path),
    List.foldlM_append]
  cases pieces.foldlM t.advance (t.originTrail path).location with
  | error fault => rfl
  | ok here =>
    simp only [bind, Except.bind, List.foldlM_cons, List.foldlM_nil]
    cases t.advance here last <;> rfl

/-- The directory at a spot. -/
def directoryAt (t : Files) : Spot → Except FileFault Location
  | .dots here => .ok here
  | .named into name _ =>
    if isTooLong name then .error .invalidFilename
    else
      match t.lookup (into ++ [name]) with
      | none => .error .notFound
      | some (.file _) => .error .notADirectory
      | some .directory => .ok (into ++ [name])

/-- A path can be asked for: it is not empty, can be spelled and is not too long. -/
structure IsSpelled (path : String) : Prop where
  /-- It can be spelled. -/
  plain : hasNull path = false
  /-- It is not empty. -/
  filled : path.isEmpty = false
  /-- It is not too long. -/
  short : path.utf8ByteSize < pathLimit

/-- A path comes down to a spot if it can be asked for. -/
theorem isSpelled_of_spot {s : Spot} (spotted : t.spot path = .ok s) : IsSpelled path := by
  unfold spot at spotted
  split at spotted
  · contradiction
  · next plain =>
    split at spotted
    · contradiction
    · next filled =>
      split at spotted
      · contradiction
      · next short => exact ⟨by simpa using plain, by simpa using filled, by omega⟩

/-- A path that can be asked for leads to a directory exactly if it comes down to a spot with
one. -/
theorem enter_eq_directoryAt (spelled : IsSpelled path) :
    t.enter path = (t.spot path).bind t.directoryAt := by
  obtain ⟨idle, all, split⟩ := pieces_eq_of_reverse path
  rw [enter, split, walk_append_idle t _ _ all]
  unfold spot
  rw [spelled.plain, spelled.filled, if_neg (Nat.not_le.2 spelled.short)]
  simp only [Bool.false_eq_true, if_false]
  cases pieces : (Path.pieces path.toList).reverse.dropWhile (· = []) with
  | nil => exact congrArg Except.ok (location_originTrail t path)
  | cons last before =>
    rw [List.reverse_cons, walk_concat]
    simp only
    cases t.walk (t.originTrail path) before.reverse with
    | error fault => rfl
    | ok here =>
      simp only [Except.bind, bind]
      by_cases idle : Path.isIdle last
      · simp [idle, advance, directoryAt]
      · by_cases back : Path.isBack last
        · simp [idle, back, advance, directoryAt]
        · unfold advance directoryAt
          cases stood : t.lookup (here ++ [String.ofList last]) with
          | none => simp [idle, back, stood]
          | some e => cases e <;> simp [idle, back, stood]

/-- A directory is at a spot exactly if that is what stands there. -/
theorem directoryAt_eq_ok {s : Spot} {l : Location} :
    t.directoryAt s = .ok l ↔ t.entryAt s = .ok (l, .directory) := by
  cases s with
  | dots here => simp [directoryAt, entryAt]
  | named into name slashed =>
    simp only [directoryAt, entryAt]
    split
    · simp
    · cases t.lookup (into ++ [name]) with
      | none => simp
      | some e => cases e <;> cases slashed <;> simp

/-- A path leads to a directory exactly if it can be asked for and followed to the end. -/
theorem isDirectory_iff : t.isDirectory path ↔ IsSpelled path ∧ ∃ l, t.enter path = .ok l := by
  have found : t.isDirectory path ↔ ∃ l, t.locate path = .ok (l, .directory) := by
    unfold isDirectory find
    cases t.locate path with
    | error fault => simp [Except.map]
    | ok pair =>
      obtain ⟨l, e⟩ := pair
      cases e <;> simp [Except.map]
  rw [found]
  constructor
  · rintro ⟨l, located⟩
    unfold locate at located
    cases spotted : t.spot path with
    | error fault => simp [spotted, Except.bind] at located
    | ok s =>
      have spelled := isSpelled_of_spot spotted
      rw [spotted] at located
      refine ⟨spelled, l, ?_⟩
      rw [enter_eq_directoryAt spelled, spotted]
      exact directoryAt_eq_ok.2 located
  · rintro ⟨spelled, l, entered⟩
    rw [enter_eq_directoryAt spelled] at entered
    unfold locate
    cases spotted : t.spot path with
    | error fault => simp [spotted, Except.bind] at entered
    | ok s =>
      rw [spotted] at entered
      exact ⟨l, directoryAt_eq_ok.1 entered⟩

/-! ## Making directories again -/

/-- A directory that is there is not made again. -/
theorem ensureDirectory_of_isDirectory (there : t.isDirectory path) :
    t.ensureDirectory path = .ok t := by
  obtain ⟨spelled, l, entered⟩ := isDirectory_iff.1 there
  rw [enter_eq_directoryAt spelled] at entered
  unfold ensureDirectory makeDirectory
  cases spotted : t.spot path with
  | error fault => simp [spotted, Except.bind] at entered
  | ok s =>
    rw [spotted] at entered
    cases s with
    | dots here => simp only [there, if_true]
    | named into name slashed =>
      obtain ⟨_, short, stood⟩ : l = into ++ [name] ∧ isTooLong name = false ∧
          t.lookup (into ++ [name]) = some .directory := by
        simp only [Except.bind, directoryAt] at entered
        split at entered
        · contradiction
        · next short =>
          split at entered
          · contradiction
          · contradiction
          · next stood => exact ⟨(Except.ok.inj entered).symm, by simpa using short, stood⟩
      simp only [short, stood, there, Bool.false_eq_true, if_false, Option.isSome_some, if_true]

/-- Where a directory is made sure of it is. -/
theorem isDirectory_of_ensureDirectory (made : t.ensureDirectory path = .ok u) :
    u.isDirectory path := by
  unfold ensureDirectory at made
  split at made
  · next v new =>
    obtain rfl := Except.ok.inj made
    unfold makeDirectory at new
    split at new
    · contradiction
    · contradiction
    · next into name slashed spotted =>
      split at new
      · contradiction
      · next short =>
        split at new
        · contradiction
        · next vacant =>
          obtain rfl := Except.ok.inj new
          have free : t.lookup (into ++ [name]) ≠ some .directory := fun there =>
            vacant (by simp [there])
          have spelled := isSpelled_of_spot spotted
          have still := (stays_place free .directory).spot spotted
          have there : (t.place (into ++ [name]) .directory).lookup (into ++ [name]) =
              some .directory := lookup_place_self (free_of_lookup_ne free)
          refine isDirectory_iff.2 ⟨spelled, into ++ [name], ?_⟩
          rw [enter_eq_directoryAt spelled, still]
          simp [Except.bind, directoryAt, short, there]
  · split at made
    · next there =>
      obtain rfl := Except.ok.inj made
      exact there
    · contradiction

/-- A path to a directory can be given for the files of a set: it is empty, or it can be asked
for. -/
def CanHold (path : String) : Prop := path.isEmpty ∨ IsSpelled path

/-- Making a directory that is there, and those on the way to it, does nothing. -/
theorem makeDirectories_of_enter (canHold : CanHold path) {l : Location}
    (entered : t.enter path = .ok l) : t.makeDirectories path = (.ok (), t) := by
  unfold makeDirectories
  rcases canHold with empty | spelled
  · rw [if_pos empty]
  · have there := isDirectory_iff.2 ⟨spelled, l, entered⟩
    rw [spelled.filled, makeAfter, ensureDirectory_of_isDirectory there]
    rfl

/-- A directory that was made is there. -/
theorem enter_of_makeDirectories (made : t.makeDirectories path = (.ok (), u)) :
    CanHold path ∧ ∃ l, u.enter path = .ok l := by
  unfold makeDirectories at made
  split at made
  · next empty =>
    obtain rfl := (Prod.mk.inj made).2
    rw [String.isEmpty_iff.1 empty]
    exact ⟨.inl rfl, start, rfl⟩
  · have there : u.isDirectory path := by
      unfold makeAfter at made
      split at made
      · next ensured =>
        obtain rfl := (Prod.mk.inj made).2
        exact isDirectory_of_ensureDirectory ensured
      · split at made
        · simp at made
        · split at made
          · next ensured =>
            obtain rfl := (Prod.mk.inj made).2
            exact isDirectory_of_ensureDirectory ensured
          · simp at made
      · simp at made
    obtain ⟨spelled, entered⟩ := isDirectory_iff.1 there
    exact ⟨.inr spelled, entered⟩

/-- Making the directory of a scope is confined to it, since it is there. -/
theorem Confined.makeDirectories {p : Scope} (canHold : CanHold p.directory) :
    Confined p fun t => t.makeDirectories p.directory := by
  refine ⟨fun t entered => ?_, fun {t u} agree => ?_⟩
  · rw [makeDirectories_of_enter canHold entered]
    exact .refl entered
  · rw [makeDirectories_of_enter canHold agree.entered,
      makeDirectories_of_enter canHold agree.entered']
    exact ⟨rfl, agree⟩

end Files

end SeenStates
