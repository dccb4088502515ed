import SeenStates.Checkpoint
import SeenStates.Config.Json
import SeenStates.FingerprintSet
import SeenStates.Hasher
import SeenStates.Proofs.Accounting
import SeenStates.Proofs.ArenaSlots
import SeenStates.Proofs.BloomBits
import SeenStates.Proofs.BucketCycle
import SeenStates.Proofs.CanonicalRuns
import SeenStates.Proofs.Cleanup
import SeenStates.Proofs.Closing
import SeenStates.Proofs.Coexistence
import SeenStates.Proofs.Collisions
import SeenStates.Proofs.CommittedPairs
import SeenStates.Proofs.DueFlushes
import SeenStates.Proofs.EncodedOrder
import SeenStates.Proofs.Exactness
import SeenStates.Proofs.FailedRecovery
import SeenStates.Proofs.FilterCounts
import SeenStates.Proofs.HeaderFiles
import SeenStates.Proofs.Lanes
import SeenStates.Proofs.MemoryBudget
import SeenStates.Proofs.MergedStreams
import SeenStates.Proofs.MixedShards
import SeenStates.Proofs.ProbePositions
import SeenStates.Proofs.PutReports
import SeenStates.Proofs.Reopening
import SeenStates.Proofs.RunParsing
import SeenStates.Proofs.Scanning
import SeenStates.Proofs.Scopes
import SeenStates.Proofs.ShardRuns
import SeenStates.Proofs.SignedBytes
import SeenStates.Proofs.TableLayout
import SeenStates.Proofs.TableSlots
import SeenStates.Proofs.WrittenRuns
