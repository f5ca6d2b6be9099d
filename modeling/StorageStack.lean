import StorageStack.Backend.Host
import StorageStack.Block.Region
import StorageStack.Disk.Either
import StorageStack.Disk.Faulty
import StorageStack.Disk.Recorder
import StorageStack.Handset
import StorageStack.Product
import StorageStack.Proofs.Block.Admission
import StorageStack.Proofs.Block.Failures
import StorageStack.Proofs.Block.FlatRegion
import StorageStack.Proofs.Block.Initialization
import StorageStack.Proofs.Block.Isolation
import StorageStack.Proofs.Block.Probe
import StorageStack.Proofs.Block.RamDevices
import StorageStack.Proofs.Block.Reachable
import StorageStack.Proofs.Block.RegionCalls
import StorageStack.Proofs.Block.Reprobe
import StorageStack.Proofs.Block.Sectors
import StorageStack.Proofs.Block.TableInvariant
import StorageStack.Proofs.Block.Transfer
import StorageStack.Proofs.Block.Translation
import StorageStack.Proofs.CallLists
import StorageStack.Proofs.Disk.BadSectors
import StorageStack.Proofs.Disk.Row
import StorageStack.Proofs.Disk.SectorArray
import StorageStack.Proofs.Disk.Stores
import StorageStack.Proofs.Disk.Transcript
import StorageStack.Proofs.Memory.Consistency
import StorageStack.Proofs.Memory.Effects
import StorageStack.Proofs.Memory.InStep
import StorageStack.Proofs.Memory.Isolation
import StorageStack.Proofs.Memory.Listing
import StorageStack.Proofs.Memory.Numbering
import StorageStack.Proofs.Memory.Streams
import StorageStack.Proofs.Mount.AcceptedTable
import StorageStack.Proofs.Mount.Grammar
import StorageStack.Proofs.Mount.Segments
import StorageStack.Proofs.Mount.WrittenTable
import StorageStack.Proofs.Partition.BoundedSums
import StorageStack.Proofs.Partition.Decoding
import StorageStack.Proofs.Partition.DiskPlan
import StorageStack.Proofs.Partition.Failures
import StorageStack.Proofs.Partition.Greedy
import StorageStack.Proofs.Partition.LastWritten
import StorageStack.Proofs.Partition.Origin
import StorageStack.Proofs.Partition.Replay
import StorageStack.Proofs.Partition.RoundTrip
import StorageStack.Proofs.Partition.SectorPlan
import StorageStack.Proofs.Partition.Trail
import StorageStack.Proofs.Storage.Atomicity
import StorageStack.Proofs.Storage.Batch
import StorageStack.Proofs.Storage.Calls
import StorageStack.Proofs.Storage.Changes
import StorageStack.Proofs.Storage.Choice
import StorageStack.Proofs.Storage.Clients
import StorageStack.Proofs.Storage.Closing
import StorageStack.Proofs.Storage.Detection
import StorageStack.Proofs.Storage.EntryStream
import StorageStack.Proofs.Storage.FileLaws
import StorageStack.Proofs.Storage.HandleCalls
import StorageStack.Proofs.Storage.Handles
import StorageStack.Proofs.Storage.Kinds
import StorageStack.Proofs.Storage.MemoryHosts
import StorageStack.Proofs.Storage.MemoryMounts
import StorageStack.Proofs.Storage.MemoryTraffic
import StorageStack.Proofs.Storage.Recurrence
import StorageStack.Proofs.Storage.Renaming
import StorageStack.Proofs.Storage.Resolution
import StorageStack.Proofs.Storage.RootListing
import StorageStack.Proofs.Storage.Routing
import StorageStack.Proofs.Storage.SharedMemory
import StorageStack.Proofs.Storage.Shutdown
import StorageStack.Proofs.Storage.Snapshots
import StorageStack.Proofs.Storage.Tables
import StorageStack.Proofs.Storage.WholeWrites
import StorageStack.Proofs.Text.Decimal
import StorageStack.Storage.Directories
import StorageStack.Storage.Files
import StorageStack.Storage.Mounting
import StorageStack.Text.Digest
