import SeenStates.Directory
import SeenStates.Files.Fault

/-!
# The tree of files

Files and directories as a value, and the drafts among them. The starting directory always exists,
and so does the one above it, which is the root of all files. `lookup` is the view of the tree by
location: what was placed at a location stands there, and every other location is as before.
A file can be written up to a size (`excess?`), however much of it there was before.
-/
namespace SeenStates

/-- The most bytes that any file can have. -/
def largestFile : Nat := Nat.pow 2 63 - 1

/-- Why a file of `size` bytes cannot be written where there is room for `room`. -/
def excess? (room size : Nat) : Option FileFault :=
  if largestFile < size then some .fileTooLarge
  else if room < size then some .storageFull
  else none

/-- Files, directories and drafts. -/
structure Files where
  /-- What is in the root. The starting directory is there whether or not it is listed. -/
  root : Directory
  /-- The drafts that are neither put in place nor dropped, by number, and the directory of each.
  A draft that was deleted with its directory is in none. -/
  drafts : List (Nat × Option Location)
  /-- The most bytes of a file that there is room for. -/
  room : Nat

namespace Files

/-- Nothing but the starting directory, and room for any file. -/
def empty : Files := ⟨.empty, [], largestFile⟩

instance : Inhabited Files := ⟨empty⟩

/-- The name of the starting directory in the root, which no path can spell. -/
def startName : String := ""

/-- The starting directory. It is right below the root. -/
def start : Location := [startName]

/-- What stands at a location. -/
def lookup (t : Files) (l : Location) : Option Entry :=
  if start.isWithin l then some .directory else t.root.get? l

/-- The tree with nothing at a location. -/
def clear (t : Files) (l : Location) : Files := { t with root := t.root.set none l }

/-- The tree with an entry at a location. -/
def place (t : Files) (l : Location) (e : Entry) : Files :=
  { t with root := t.root.set (some e) l }

/-- A location that the starting directory is not within is below the root. -/
theorem ne_nil_of_free {l : Location} (free : start.isWithin l = false) : l ≠ [] := by
  rintro rfl
  simp [Location.isWithin] at free

/-- Nothing stands where a tree was cleared, unless it has to. -/
theorem lookup_clear_self {t : Files} {l : Location} (free : start.isWithin l = false) :
    (t.clear l).lookup l = none := by
  simp [lookup, clear, free, Directory.get?_set_self (ne_nil_of_free free)]

/-- Clearing a location leaves every other location alone. -/
theorem lookup_clear_of_ne {t : Files} {l m : Location} (other : m ≠ l) :
    (t.clear l).lookup m = t.lookup m := by
  simp [lookup, clear, Directory.get?_set_of_ne other]

/-- An entry stands where it was placed. -/
theorem lookup_place_self {t : Files} {l : Location} {e : Entry}
    (free : start.isWithin l = false) : (t.place l e).lookup l = some e := by
  simp [lookup, place, free, Directory.get?_set_self (ne_nil_of_free free)]

/-- Placing an entry leaves every other location alone. -/
theorem lookup_place_of_ne {t : Files} {l m : Location} {e : Entry} (other : m ≠ l) :
    (t.place l e).lookup m = t.lookup m := by
  simp [lookup, place, Directory.get?_set_of_ne other]

end Files

end SeenStates
