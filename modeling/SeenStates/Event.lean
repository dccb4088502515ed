import SeenStates.Error
import SeenStates.Width

/-!
# Log events

What the operations on sets report besides their answers.
-/
namespace SeenStates

/-- How much an event matters. -/
inductive Level where
  /-- Of interest when looking for a fault. -/
  | debug
  /-- Of interest. -/
  | info
  /-- Not as it should be. -/
  | warn
  /-- A failure. -/
  | error
deriving DecidableEq

/-- What is reported. -/
inductive Event where
  /-- A table was allocated. -/
  | tableAllocated (width : Width)
  /-- A Bloom filter was allocated. -/
  | filterAllocated
  /-- The shards of a set were opened; their kind is given by name. -/
  | shardsOpened (count : Nat) (name kind : String)
  /-- A flush found that it was not due. -/
  | flushNotDue (name : String)
  /-- A flush found nothing in memory. -/
  | nothingToFlush (name : String)
  /-- A flush found fingerprints in two places. -/
  | coalesced (count : Nat) (name : String)
  /-- A flush was done. -/
  | flushed
  /-- A checkpoint was written. -/
  | checkpointWritten (name : String) (count : Nat)
  /-- A checkpoint was committed. -/
  | checkpointCommitted (name : String)
  /-- A checkpoint was recovered. -/
  | recovered (name : String) (count : Nat)
  /-- A set closes itself because its run is lost. -/
  | runLost (cause : Error)
  /-- A file could not be deleted. -/
  | deletionFailed (path : String)
  /-- A disk-backed set was closed. -/
  | setClosed (name : String)
  /-- A Bloom filter was closed. -/
  | filterClosed (name : String)
deriving DecidableEq

namespace Event

/-- The level of an event. -/
def level : Event → Level
  | shardsOpened .. => .info
  | flushed => .info
  | checkpointWritten .. => .info
  | checkpointCommitted _ => .info
  | recovered .. => .info
  | coalesced .. => .warn
  | deletionFailed _ => .warn
  | runLost _ => .error
  | _ => .debug

/-- The text of an event. The reason of a failed file operation is left out. -/
def message : Event → String
  | tableAllocated width => s!"Allocated {width.describe} fingerprint table"
  | filterAllocated => "Allocated bloom filter"
  | shardsOpened count name kind => s!"Opened {count} shards of {name} ({kind})"
  | flushNotDue name => s!"Flush no longer needed for {name}"
  | nothingToFlush name => s!"Nothing to flush for {name}"
  | coalesced count name => s!"Coalesced {count} duplicate fingerprints while flushing {name}"
  | flushed => "Flushed fingerprints to disk"
  | checkpointWritten name count => s!"Wrote checkpoint of {name} ({count} fingerprints)"
  | checkpointCommitted name => s!"Committed checkpoint of {name}"
  | recovered name count => s!"Recovered {name} from checkpoint ({count} fingerprints)"
  | runLost cause => s!"Closing fingerprint set, run cannot be mapped again: {cause.summary}"
  | deletionFailed path => s!"Failed to delete {Text.quoted path}"
  | setClosed name => s!"Closed fingerprint set {name}"
  | filterClosed name => s!"Closed bloom filter {name}"

end Event

end SeenStates
