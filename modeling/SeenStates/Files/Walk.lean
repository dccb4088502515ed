import SeenStates.Files.Basic
import SeenStates.Files.Fault
import SeenStates.Path

/-!
# Walking along paths

A path is walked piece by piece, and each piece but the last has to lead to a directory that is
there, also one that two dots lead out of again. A walk keeps the directories on its way, so that a
step does not start over from the root; `walk_eq` says the same in terms of locations.
-/
namespace SeenStates

namespace Files

/-- The most bytes of a name. -/
def nameLimit : Nat := 255

/-- The least count of bytes that is too large for a path. -/
def pathLimit : Nat := 4096

/-- Whether a name has too many bytes. -/
def isTooLong (name : String) : Bool := nameLimit < name.utf8ByteSize

/-- Whether a text holds the null character, which no path can. -/
def hasNull (path : String) : Bool := path.toList.contains '\x00'

/-- A way down from the root: the directories on it, the last one first, each by name and with
what is in it. -/
abbrev Trail := List (String × Directory)

/-- Where a way leads. -/
def Trail.location (trail : Trail) : Location := (trail.map Prod.fst).reverse

/-- What is in the directory that a way leads to. -/
def here (t : Files) : Trail → Directory
  | [] => t.root
  | (_, d) :: _ => d

/-- One piece further on a way, to another directory. -/
def stepFrom (t : Files) (trail : Trail) (piece : Path.Piece) : Except FileFault Trail :=
  if Path.isIdle piece then .ok trail
  else if Path.isBack piece then .ok trail.tail
  else
    let name := String.ofList piece
    if isTooLong name then .error .invalidFilename
    else
      match (t.here trail).entries[name]? with
      | none => .error .notFound
      | some (.file _) => .error .notADirectory
      | some .directory => .ok ((name, (t.here trail).child name) :: trail)

/-- Where a path begins. -/
def origin (path : String) : Location := if Path.isAbsolute path then [] else start

/-- The way to where a path begins. -/
def originTrail (t : Files) (path : String) : Trail :=
  if Path.isAbsolute path then [] else [(startName, t.root.child startName)]

/-- The directory that pieces lead to from the end of a way. -/
def walk (t : Files) (trail : Trail) (pieces : List Path.Piece) : Except FileFault Location :=
  (pieces.foldlM t.stepFrom trail).map Trail.location

/-- The directory that a path leads to, which leads to the starting directory if it is empty. -/
def enter (t : Files) (path : String) : Except FileFault Location :=
  t.walk (t.originTrail path) (Path.pieces path.toList)

/-- Each directory on a way is what is behind its name in the one before it. -/
inductive IsTrail (t : Files) : Trail → Prop where
  /-- No step from the root. -/
  | root : IsTrail t []
  /-- A step into a directory. -/
  | step {trail : Trail} (isTrail : IsTrail t trail) (name : String) :
    IsTrail t ((name, (t.here trail).child name) :: trail)

/-- The way to where a path begins is one. -/
theorem isTrail_originTrail (t : Files) (path : String) : t.IsTrail (t.originTrail path) := by
  unfold originTrail
  split
  · exact .root
  · exact .step .root startName

/-- It leads there. -/
theorem location_originTrail (t : Files) (path : String) :
    (t.originTrail path).location = origin path := by
  unfold originTrail origin
  split <;> rfl

/-- What a way finds is what is at its location. -/
theorem here_eq_within {t : Files} {trail : Trail} (isTrail : t.IsTrail trail) :
    t.here trail = t.root.within trail.location := by
  induction isTrail with
  | root => rfl
  | step _ name ih =>
    simp only [Trail.location, List.map_cons, List.reverse_cons] at ih ⊢
    rw [Directory.within_append, ← ih]
    rfl

/-- One piece further on from a location, to another directory. -/
def advance (t : Files) (l : Location) (piece : Path.Piece) : Except FileFault Location :=
  if Path.isIdle piece then .ok l
  else if Path.isBack piece then .ok l.dropLast
  else
    let name := String.ofList piece
    if isTooLong name then .error .invalidFilename
    else
      match t.lookup (l ++ [name]) with
      | none => .error .notFound
      | some (.file _) => .error .notADirectory
      | some .directory => .ok (l ++ [name])

/-- What stands under a name that a path can spell. -/
theorem lookup_append_singleton {t : Files} {l : Location} {name : String}
    (spelled : name ≠ startName) :
    t.lookup (l ++ [name]) = (t.root.within l).entries[name]? := by
  have free : start.isWithin (l ++ [name]) = false := by
    match l with
    | [] => simpa [start, Location.isWithin, List.isPrefixOf] using spelled
    | [_] => simp [start, Location.isWithin, List.isPrefixOf]
    | _ :: _ :: _ => simp [start, Location.isWithin, List.isPrefixOf]
  simp [lookup, free, Directory.get?_append_singleton]

/-- A piece that leads further spells a name. -/
theorem ne_startName_of_not_idle {piece : Path.Piece} (further : Path.isIdle piece = false) :
    String.ofList piece ≠ startName := by
  intro same
  have : piece = [] := by simpa [startName] using congrArg String.toList same
  simp [Path.isIdle, this] at further

/-- A step on a way is a step from its location. -/
theorem stepFrom_eq {t : Files} {trail : Trail} (isTrail : t.IsTrail trail)
    (piece : Path.Piece) :
    (t.stepFrom trail piece).map Trail.location = t.advance trail.location piece := by
  unfold stepFrom advance
  split
  · rfl
  · next further =>
    split
    · cases trail <;> simp [Except.map, Trail.location]
    · simp only
      split
      · rfl
      · rw [lookup_append_singleton (ne_startName_of_not_idle (by simpa using further)),
          ← here_eq_within isTrail]
        cases (t.here trail).entries[String.ofList piece]? with
        | none => rfl
        | some e => cases e <;> simp [Except.map, Trail.location]

/-- A step on a way makes another way. -/
theorem isTrail_of_stepFrom {t : Files} {trail next : Trail} (isTrail : t.IsTrail trail)
    {piece : Path.Piece} (stepped : t.stepFrom trail piece = .ok next) : t.IsTrail next := by
  unfold stepFrom at stepped
  split at stepped
  · exact Except.ok.inj stepped ▸ isTrail
  · split at stepped
    · obtain rfl := Except.ok.inj stepped
      cases isTrail with
      | root => exact .root
      | step before => exact before
    · simp only at stepped
      split at stepped
      · contradiction
      · split at stepped
        · contradiction
        · contradiction
        · exact Except.ok.inj stepped ▸ .step isTrail _

/-- A walk goes on from location to location. -/
theorem walk_eq {t : Files} {trail : Trail} (isTrail : t.IsTrail trail)
    (pieces : List Path.Piece) :
    t.walk trail pieces = pieces.foldlM t.advance trail.location := by
  induction pieces generalizing trail with
  | nil => rfl
  | cons piece rest ih =>
    rw [List.foldlM_cons, ← stepFrom_eq isTrail piece]
    cases stepped : t.stepFrom trail piece with
    | error fault => simp [walk, stepped, Except.map, bind, Except.bind]
    | ok next =>
      rw [show t.walk trail (piece :: rest) = t.walk next rest by
        simp [walk, stepped, bind, Except.bind]]
      exact ih (isTrail_of_stepFrom isTrail stepped)

/-- What a path comes down to. -/
inductive Spot where
  /-- A directory that is there, spelled by dots or by slashes alone. -/
  | dots (directory : Location)
  /-- A name in a directory that is there, and whether a slash is behind it. -/
  | named (directory : Location) (name : String) (slashed : Bool)
deriving DecidableEq

/-- Follow a path up to its last piece. -/
def spot (t : Files) (path : String) : Except FileFault Spot :=
  if hasNull path then .error .invalidInput
  else if path.isEmpty then .error .notFound
  else if pathLimit ≤ path.utf8ByteSize then .error .invalidFilename
  else
    let reversed := (Path.pieces path.toList).reverse
    match reversed.dropWhile (· = []) with
    | [] => .ok (.dots (origin path))
    | last :: before => do
      let here ← t.walk (t.originTrail path) before.reverse
      if Path.isIdle last then .ok (.dots here)
      else if Path.isBack last then .ok (.dots here.dropLast)
      else .ok (.named here (String.ofList last) (reversed.head? = some []))

end Files

end SeenStates
