import Lockstep.Engine
import Lockstep.Launch.History
import Lockstep.Proofs.Arena.Bounds
import Lockstep.Proofs.Arena.Temporary
import Lockstep.Proofs.Barrier.Meetings
import Lockstep.Proofs.Component.Registry
import Lockstep.Proofs.Config.Overlay
import Lockstep.Proofs.Engine.BlockEvents
import Lockstep.Proofs.Engine.Conservation
import Lockstep.Proofs.Engine.ExactlyOnce
import Lockstep.Proofs.Engine.Launchable
import Lockstep.Proofs.Engine.Messages
import Lockstep.Proofs.Engine.Milestones
import Lockstep.Proofs.Engine.NodeOrder
import Lockstep.Proofs.Engine.OnlyCounts
import Lockstep.Proofs.Engine.Tiling
import Lockstep.Proofs.Entity.Reuse
import Lockstep.Proofs.Launch.Agreement
import Lockstep.Proofs.Layout.Overflow
import Lockstep.Proofs.PrintBuffer.Balance
import Lockstep.Proofs.Storage.Accounting
import Lockstep.Proofs.Storage.ClearedHandles
import Lockstep.Proofs.Storage.FailedCreation
import Lockstep.Proofs.Storage.PlainMap
import Lockstep.Proofs.Storage.Publishing
import Lockstep.Proofs.Storage.Queries
import Lockstep.Proofs.Storage.Registrations
import Lockstep.Proofs.Storage.SingleCell
import Lockstep.Proofs.Table.CellStore
import Lockstep.Proofs.Table.Commits
import Lockstep.Proofs.TaskGraph.CursorPath
import Lockstep.Proofs.TaskGraph.DynamicCounts
import Lockstep.Proofs.TaskGraph.Partition
import Lockstep.Proofs.TaskGraph.Restart
import Lockstep.Proofs.TaskGraph.Retirement
import Lockstep.Proofs.Trace.File
import Lockstep.Proofs.Trace.Laps
