import ContainerTasks.Config.Decoding
import ContainerTasks.Config.Validation
import ContainerTasks.Dispenser
import ContainerTasks.Encoding
import ContainerTasks.Main
import ContainerTasks.Proofs.Accounts
import ContainerTasks.Proofs.AcyclicOrders
import ContainerTasks.Proofs.Agreement
import ContainerTasks.Proofs.Burdens
import ContainerTasks.Proofs.Cancellation
import ContainerTasks.Proofs.CleanupPlans
import ContainerTasks.Proofs.CleanupRuns
import ContainerTasks.Proofs.Components
import ContainerTasks.Proofs.ComposedOrders
import ContainerTasks.Proofs.Confluence
import ContainerTasks.Proofs.ContainerArguments
import ContainerTasks.Proofs.Courses
import ContainerTasks.Proofs.Deadlocks
import ContainerTasks.Proofs.Decodings
import ContainerTasks.Proofs.Desks
import ContainerTasks.Proofs.Duties
import ContainerTasks.Proofs.Effects
import ContainerTasks.Proofs.FaultReports
import ContainerTasks.Proofs.Faults
import ContainerTasks.Proofs.Forecasts
import ContainerTasks.Proofs.Foresight
import ContainerTasks.Proofs.GraphFaults
import ContainerTasks.Proofs.GraphShapes
import ContainerTasks.Proofs.Graphs
import ContainerTasks.Proofs.Histories
import ContainerTasks.Proofs.Interrupts
import ContainerTasks.Proofs.JsonTexts
import ContainerTasks.Proofs.Leftovers
import ContainerTasks.Proofs.Lifecycles
import ContainerTasks.Proofs.LineLogs
import ContainerTasks.Proofs.Listings
import ContainerTasks.Proofs.LogEvents
import ContainerTasks.Proofs.LogIndifference
import ContainerTasks.Proofs.Logbooks
import ContainerTasks.Proofs.LostLines
import ContainerTasks.Proofs.MachineRuns
import ContainerTasks.Proofs.ManagedRuns
import ContainerTasks.Proofs.Moves
import ContainerTasks.Proofs.NetworkOwnership
import ContainerTasks.Proofs.Notices
import ContainerTasks.Proofs.Numerals
import ContainerTasks.Proofs.Operations
import ContainerTasks.Proofs.ParallelLimits
import ContainerTasks.Proofs.Permits
import ContainerTasks.Proofs.Progress
import ContainerTasks.Proofs.Readiness
import ContainerTasks.Proofs.RemovalByHand
import ContainerTasks.Proofs.Replanning
import ContainerTasks.Proofs.Requirements
import ContainerTasks.Proofs.ResourceNames
import ContainerTasks.Proofs.RunPlans
import ContainerTasks.Proofs.Sealing
import ContainerTasks.Proofs.Sequences
import ContainerTasks.Proofs.SequentialPlans
import ContainerTasks.Proofs.SessionReports
import ContainerTasks.Proofs.Sessions
import ContainerTasks.Proofs.SmoothRuns
import ContainerTasks.Proofs.SmoothSessions
import ContainerTasks.Proofs.Sorting
import ContainerTasks.Proofs.StepOutcomes
import ContainerTasks.Proofs.StopOrder
import ContainerTasks.Proofs.Successes
import ContainerTasks.Proofs.TaskOrders
import ContainerTasks.Proofs.Teardown
import ContainerTasks.Proofs.Validity
import ContainerTasks.Proofs.Waiting
import ContainerTasks.Proofs.Walks
import ContainerTasks.Proofs.WellFormedPlans
import ContainerTasks.Proofs.Wordings
import ContainerTasks.Rehearsal
import ContainerTasks.TaskOrder
