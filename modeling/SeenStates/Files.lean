import SeenStates.Files.Walk

/-!
# Files

The operations on the files that paths lead to. An operation returns the tree as it is afterwards
or the reason why nothing was changed, so a file is changed exactly where an operation says so. One
that can stop halfway returns the tree in either case; a file for which there is no room is left
with as much as there was room for.
-/
namespace SeenStates

namespace Files

/-! ## Reading -/

/-- What stands at a spot, and where that is. -/
def entryAt (t : Files) : Spot → Except FileFault (Location × Entry)
  | .dots directory => .ok (directory, .directory)
  | .named directory name slashed =>
    let l := directory ++ [name]
    if isTooLong name then .error .invalidFilename
    else
      match t.lookup l with
      | none => .error .notFound
      | some (.file contents) =>
        if slashed then .error .notADirectory else .ok (l, .file contents)
      | some .directory => .ok (l, .directory)

/-- What a path leads to, and where that is. -/
def locate (t : Files) (path : String) : Except FileFault (Location × Entry) :=
  (t.spot path).bind t.entryAt

/-- What a path leads to. -/
def find (t : Files) (path : String) : Except FileFault Entry := (t.locate path).map Prod.snd

/-- Whether a path leads to anything. -/
def isThere (t : Files) (path : String) : Bool := (t.find path).isOk

/-- Whether a path leads to a directory. -/
def isDirectory (t : Files) (path : String) : Bool :=
  match t.find path with
  | .ok .directory => true
  | _ => false

/-- The contents of a file. -/
def read (t : Files) (path : String) : Except FileFault ByteArray :=
  match t.find path with
  | .ok (.file contents) => .ok contents
  | .ok .directory => .error .isADirectory
  | .error fault => .error fault

/-- The contents of a text file. -/
def readText (t : Files) (path : String) : Except FileFault String :=
  match t.read path with
  | .error fault => .error fault
  | .ok contents =>
    match String.fromUTF8? contents with
    | some s => .ok s
    | none => .error .invalidData

/-! ## Writing -/

/-- Where a file that is written at a spot goes, whether or not a file stands there. -/
def writable (t : Files) : Spot → Except FileFault Location
  | .dots _ => .error .isADirectory
  | .named directory name slashed =>
    if slashed then .error .isADirectory
    else if isTooLong name then .error .invalidFilename
    else if t.lookup (directory ++ [name]) = some .directory then .error .isADirectory
    else .ok (directory ++ [name])

/-- Put a file at a location, or as much of it as there is room for. -/
def fill (t : Files) (l : Location) (contents : ByteArray) : Except FileFault Unit × Files :=
  match excess? t.room contents.size with
  | none => (.ok (), t.place l (.file contents))
  | some fault =>
    (.error fault, t.place l (.file (contents.extract 0 (min t.room largestFile))))

/-- Put a whole file in place, whether or not a file stands there. -/
def write (t : Files) (path : String) (contents : ByteArray) : Except FileFault Unit × Files :=
  match (t.spot path).bind t.writable with
  | .error fault => (.error fault, t)
  | .ok l => t.fill l contents

/-- Copy a file. The target is emptied before the source is read, so a file that is copied to
itself ends up empty. -/
def copy (t : Files) (source target : String) : Except FileFault Unit × Files :=
  match t.locate source with
  | .error fault => (.error fault, t)
  | .ok (_, .directory) => (.error .invalidInput, t)
  | .ok (s, .file contents) =>
    match (t.spot target).bind t.writable with
    | .error fault => (.error fault, t)
    | .ok d => t.fill d (if s = d then .empty else contents)

/-- Make a directory. -/
def makeDirectory (t : Files) (path : String) : Except FileFault Files :=
  match t.spot path with
  | .error fault => .error fault
  | .ok (.dots _) => .error .alreadyExists
  | .ok (.named directory name _) =>
    if isTooLong name then .error .invalidFilename
    else if (t.lookup (directory ++ [name])).isSome then .error .alreadyExists
    else .ok (t.place (directory ++ [name]) .directory)

/-- Make a directory unless it is there. -/
def ensureDirectory (t : Files) (path : String) : Except FileFault Files :=
  match t.makeDirectory path with
  | .ok t => .ok t
  | .error fault => if t.isDirectory path then .ok t else .error fault

/-- Make a directory, and if one on the way to it is missing make that before it. What was made
before a failure stays. -/
def makeAfter (t : Files) (path : String) (makeAbove : Files → Except FileFault Unit × Files) :
    Except FileFault Unit × Files :=
  match t.ensureDirectory path with
  | .ok t => (.ok (), t)
  | .error .notFound =>
    match makeAbove t with
    | (.error fault, t) => (.error fault, t)
    | (.ok (), t) =>
      match t.ensureDirectory path with
      | .ok t => (.ok (), t)
      | .error fault => (.error fault, t)
  | .error fault => (.error fault, t)

/-- Make the first of some directories, each of them above the one before it. -/
def makeChain : List String → Files → Except FileFault Unit × Files
  | [], t => (.ok (), t)
  | path :: above, t => t.makeAfter path (makeChain above)

/-- Make a directory and those on the way to it. The empty path has nothing to be made. -/
def makeDirectories (t : Files) (path : String) : Except FileFault Unit × Files :=
  if path.isEmpty then (.ok (), t)
  else t.makeAfter path fun t => makeChain (Path.ancestors path) t

/-! ## Moving -/

/-- Whether anything stands below a location. -/
def hasBelow (t : Files) (l : Location) : Bool :=
  !(t.root.within l).isVacant ||
    t.drafts.any fun d => d.2.any fun directory => directory.isWithin l

/-- The location at which one ends up that is at or below another when that other is moved. -/
def carried (source target l : Location) : Location :=
  if l.isWithin source then target ++ l.drop source.length else l

/-- The tree with what stood at one location, and everything below it, moved to another. -/
def moved (t : Files) (source target : Location) : Files :=
  let left := (t.root.set none source).graft .empty source
  { t with
    root := (left.set (t.root.get? source) target).graft (t.root.within source) target
    drafts := t.drafts.map fun d => (d.1, d.2.map (carried source target)) }

/-- Why a file in one directory cannot be put at a location, which may have a slash behind its
name. The file may replace a file. -/
def unfit? (t : Files) (source : Location) (slashed : Bool) (l : Location) : Option FileFault :=
  if slashed then some .notADirectory
  else if source.isWithin l then some .directoryNotEmpty
  else if t.lookup l = some .directory then some .isADirectory
  else none

/-- Why a directory at one location cannot be put at another. It may replace an empty directory,
but not go below itself. -/
def unfitDirectory? (t : Files) (source l : Location) : Option FileFault :=
  if source ≠ l && l.isWithin source then some .invalidInput
  else
    match t.lookup l with
    | none => none
    | some (.file _) => some .notADirectory
    | some .directory => if source ≠ l && t.hasBelow l then some .directoryNotEmpty else none

/-- Why an entry at one location, which is in a directory, cannot be put at another. -/
def unfitEntry? (t : Files) (directory source : Location) (slashed : Bool) (l : Location) :
    Entry → Option FileFault
  | .file _ => t.unfit? directory slashed l
  | .directory => t.unfitDirectory? source l

/-- Move a file or directory, replacing a file or an empty directory. -/
def rename (t : Files) (source target : String) : Except FileFault Files := do
  let s ← t.spot source
  let d ← t.spot target
  match s, d with
  | .named directory _ _, .named into name slashed =>
    let (l, e) ← t.entryAt s
    let m := into ++ [name]
    if isTooLong name then .error .invalidFilename
    else
      match t.unfitEntry? directory l slashed m e with
      | some fault => .error fault
      | none => .ok (if l = m then t else t.moved l m)
  | _, _ => .error .resourceBusy

/-! ## Deleting -/

/-- Delete a file. -/
def removeFile (t : Files) (path : String) : Except FileFault Files :=
  match t.locate path with
  | .error fault => .error fault
  | .ok (_, .directory) => .error .isADirectory
  | .ok (l, .file _) => .ok (t.clear l)

end Files

end SeenStates
