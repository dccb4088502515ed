import SeenStates.Checkpoint.Header
import SeenStates.Config
import SeenStates.Run.Writer

/-!
# Checkpoints

A checkpoint is a copy of a run and a header. Both are written aside (`begin`), put in place one
after the other (`commit`), and later take the place of the run (`restore`).
-/
namespace SeenStates

/-- The files of a set. -/
structure SetPaths where
  /-- The run. -/
  run : String
  /-- The copy of the run in the committed checkpoint. -/
  copy : String
  /-- The header of the committed checkpoint. -/
  header : String
  /-- The copy of the run in a checkpoint in progress. -/
  pendingCopy : String
  /-- The header of a checkpoint in progress. -/
  pendingHeader : String
deriving DecidableEq

/-- The files of the set of a configuration. -/
def Config.paths (c : Config) : SetPaths where
  run := c.runPath
  copy := c.filePath "fp.chkpt"
  header := c.filePath "fp.chkpt.json"
  pendingCopy := c.filePath "fp.chkpt.tmp"
  pendingHeader := c.filePath "fp.chkpt.json.tmp"

namespace SetPaths

variable {w : Width}

/-- Write a checkpoint of a run aside. The copy stays if the header cannot be written. -/
def begin (p : SetPaths) (r : Run w) (family : Family) (files : Files) :
    Except Error Unit × Files :=
  match files.copy r.path p.pendingCopy with
  | (.error fault, files) => (.error (.file p.pendingCopy fault), files)
  | (.ok (), files) =>
    match files.write p.pendingHeader (CheckpointHeader.ofRun r family).text.toUTF8 with
    | (.error fault, files) => (.error (.file p.pendingHeader fault), files)
    | (.ok (), files) => (.ok (), files)

/-- Put the checkpoint that was written aside in place. The copy stays in place if the header
cannot be moved. -/
def commit (p : SetPaths) (files : Files) : Except Error Unit × Files :=
  if files.isThere p.pendingCopy && files.isThere p.pendingHeader then
    match files.rename p.pendingCopy p.copy with
    | .error fault => (.error (.file p.copy fault), files)
    | .ok files =>
      match files.rename p.pendingHeader p.header with
      | .error fault => (.error (.file p.header fault), files)
      | .ok files => (.ok (), files)
  else (.error (.checkpoint (.notBegun p.run)), files)

/-- The header of the committed checkpoint, checked against a width and a hash family. -/
def readHeader (w : Width) (p : SetPaths) (family : Family) (files : Files) :
    Except Error (CheckpointHeader w) :=
  match files.readText p.header with
  | .error .notFound => .error (.checkpoint (.notCommitted p.header))
  | .error fault => .error (.file p.header fault)
  | .ok s => CheckpointHeader.read w family s

/-- The contents of the copy in the committed checkpoint, if there is room for another copy. -/
def copied (p : SetPaths) (files : Files) : Except Error ByteArray :=
  match files.read p.copy with
  | .error fault => .error (.file p.copy fault)
  | .ok contents =>
    match excess? files.room contents.size with
    | some fault => .error (.file p.copy fault)
    | none => .ok contents

/-- Put the copy in the committed checkpoint in the place of the run, by way of a draft that is
dropped if it cannot be put in place. -/
def replaceRun (p : SetPaths) (files : Files) : Except Error Unit × Files :=
  let directory := Path.parent p.run
  match files.beginDraft directory "" with
  | .error fault => (.error (.file directory fault), files)
  | .ok (draft, files) =>
    match p.copied files with
    | .error e => (.error e, files.dropDraft draft)
    | .ok contents =>
      match files.commitDraft draft p.run contents with
      | .error fault => (.error (.file p.run fault), files.dropDraft draft)
      | .ok files => (.ok (), files)

/-- Open the run and check it against a header. -/
def openRestored (p : SetPaths) (h : CheckpointHeader w) (files : Files) :
    Except Error (Run w) := do
  let r ← Run.openWithIndex files p.run h.index.toArray
  if r.size ≠ h.count ∨ r.header.blockEntries ≠ h.blockEntries then
    .error (.checkpoint (.mismatch h.count r.size))
  else .ok r

/-- Put the copy in the committed checkpoint in the place of the run and open it. The run stays
replaced if it does not fit the header. -/
def restore (p : SetPaths) (h : CheckpointHeader w) (files : Files) :
    Except Error (Run w) × Files :=
  match p.replaceRun files with
  | (.error e, files) => (.error e, files)
  | (.ok (), files) => (p.openRestored h files, files)

end SetPaths

end SeenStates
