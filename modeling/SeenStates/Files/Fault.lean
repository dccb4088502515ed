/-!
# Faults of file operations

Why an operation on files does nothing, and the names of the reasons.
-/
namespace SeenStates

/-- Why a file operation does nothing. -/
inductive FileFault where
  /-- Nothing stands there, or a directory on the way is missing. -/
  | notFound
  /-- A file stands where a directory is needed. -/
  | notADirectory
  /-- A directory stands where a file is needed. -/
  | isADirectory
  /-- Something stands where a directory is to be made. -/
  | alreadyExists
  /-- A directory that is to be replaced is not empty. -/
  | directoryNotEmpty
  /-- A directory named by dots is to be moved or replaced. -/
  | resourceBusy
  /-- A name or a path is too long. -/
  | invalidFilename
  /-- A text file does not hold UTF-8. -/
  | invalidData
  /-- The operation does not apply to what stands there, or no path can be so. -/
  | invalidInput
  /-- There is no room for what is to be written. -/
  | storageFull
  /-- No file can be so large. -/
  | fileTooLarge
  /-- What stands there cannot be mapped. -/
  | uncategorized
  /-- Any other reason. -/
  | other
deriving DecidableEq, Repr

/-- The name of a reason. -/
def FileFault.name : FileFault → String
  | notFound => "NotFound"
  | notADirectory => "NotADirectory"
  | isADirectory => "IsADirectory"
  | alreadyExists => "AlreadyExists"
  | directoryNotEmpty => "DirectoryNotEmpty"
  | resourceBusy => "ResourceBusy"
  | invalidFilename => "InvalidFilename"
  | invalidData => "InvalidData"
  | invalidInput => "InvalidInput"
  | storageFull => "StorageFull"
  | fileTooLarge => "FileTooLarge"
  | uncategorized => "Uncategorized"
  | other => "Other"

end SeenStates
