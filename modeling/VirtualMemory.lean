import VirtualMemory.Main
import VirtualMemory.SelfTest.All
import VirtualMemory.Proofs.Cache
import VirtualMemory.Proofs.FrameQueue
import VirtualMemory.Proofs.SwapSlots
import VirtualMemory.Proofs.SwapTransfers
import VirtualMemory.Proofs.Pager.Invariant
import VirtualMemory.Proofs.Pager.Caching
import VirtualMemory.Proofs.FrameContents
import VirtualMemory.Proofs.Pager.Eviction
import VirtualMemory.Proofs.Pager.Fault
import VirtualMemory.Proofs.Pager.Access
import VirtualMemory.Proofs.Pager.Spaces
import VirtualMemory.Proofs.Pager.Run
import VirtualMemory.Proofs.Pager.Coherence
import VirtualMemory.Proofs.Pager.Consistency
import VirtualMemory.Proofs.Pager.DirtyTracking
import VirtualMemory.Proofs.FlatSpace
import VirtualMemory.Proofs.Process
import VirtualMemory.Proofs.Loading
import VirtualMemory.Proofs.StaticFrames
import VirtualMemory.Proofs.StaticMapping
import VirtualMemory.Proofs.Pager.Serving
import VirtualMemory.Proofs.Modes
import VirtualMemory.Proofs.Pager.Closing
import VirtualMemory.Proofs.Pager.Translation
import VirtualMemory.Proofs.StaticOwnership
import VirtualMemory.Proofs.TransferExtent
import VirtualMemory.Proofs.Pager.Protection
import VirtualMemory.Proofs.Pager.FailedFault
import VirtualMemory.Proofs.Pager.MissEffect
import VirtualMemory.Proofs.Pager.ContextRoundTrip
import VirtualMemory.Proofs.Pager.Teardown
import VirtualMemory.Proofs.Notices
import VirtualMemory.Proofs.Pager.Errors
import VirtualMemory.Proofs.Alike
import VirtualMemory.Proofs.Pager.Alike
import VirtualMemory.Proofs.Pager.Noninterference
import VirtualMemory.Proofs.Maintained
import VirtualMemory.Proofs.Marks
import VirtualMemory.Proofs.Pager.Sealed
import VirtualMemory.Proofs.Pager.AfterClosing
import VirtualMemory.Proofs.TableCalls
import VirtualMemory.Proofs.SwapCalls
import VirtualMemory.Proofs.SwapRoundTrip
import VirtualMemory.Proofs.SwapFailure
import VirtualMemory.Proofs.Pager.Progress
import VirtualMemory.Proofs.Pager.PageFlow
import VirtualMemory.Proofs.Confined
import VirtualMemory.Proofs.KernelRuns
import VirtualMemory.Proofs.FailedSpawn
import VirtualMemory.Proofs.FlatCopies
import VirtualMemory.Proofs.LiveProcesses
import VirtualMemory.Proofs.LogicalMemory
import VirtualMemory.Proofs.VirtualCopies
import VirtualMemory.Proofs.Utf8RoundTrip
import VirtualMemory.Proofs.ArgumentPage
import VirtualMemory.Proofs.ProgramLayout
import VirtualMemory.Proofs.SpawnLayout
import VirtualMemory.Proofs.PartialTransfers
import VirtualMemory.Proofs.InterchangeableFiles
import VirtualMemory.Proofs.StaticPartition
import VirtualMemory.Proofs.RepeatedLoads
import VirtualMemory.Proofs.ResidentMap
import VirtualMemory.Proofs.OpenSections
import VirtualMemory.Proofs.ImageIndexing
import VirtualMemory.Proofs.ClearedSpaces
import VirtualMemory.Proofs.EndedProcesses
import VirtualMemory.Proofs.Termination
import VirtualMemory.Proofs.FrameHistory
import VirtualMemory.Proofs.CacheInvalidation
import VirtualMemory.Proofs.ExactAddresses
