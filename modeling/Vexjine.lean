import Vexjine.Runs
import Vexjine.Scans
import Vexjine.Mutexes
import Vexjine.LockRegistry
import Vexjine.ReentrantLockRegistry
import Vexjine.VirtualTimeline
import Vexjine.TimelineRuns
import Vexjine.VexThreadState
import Vexjine.Leaping
import Vexjine.ObjectRegistry
import Vexjine.ThreadManager
import Vexjine.ThreadEvents
import Vexjine.HandOff
import Vexjine.Signals
import Vexjine.WaitObjects
import Vexjine.WakeUps
import Vexjine.Parking
import Vexjine.MulticoreRuns
import Vexjine.AccessKeys
import Vexjine.ControllerWait
import Vexjine.AccessKeyDeadlocks
import Vexjine.IntentionHandshake
import Vexjine.CpuTime
import Vexjine.SynchronizationBarriers
import Vexjine.Heaps
import Vexjine.ThreadQueue
import Vexjine.QueueMembership
import Vexjine.RunningThreads
import Vexjine.ThreadRegistry
import Vexjine.Joins
import Vexjine.Shutdown
import Vexjine.ThreadTimers
import Vexjine.CommittedTime
import Vexjine.CommitCoherence
import Vexjine.SuspendLock
import Vexjine.IoSimulation
import Vexjine.IoPredictions
import Vexjine.IoIndices
import Vexjine.OneRunning
import Vexjine.MethodLogs
import Vexjine.MethodEvents
import Vexjine.StackTraces
import Vexjine.CallTimes
import Vexjine.ProfileMerging
import Vexjine.QueueingNode
import Vexjine.ModelTime
import Vexjine.ManagerServer
import Vexjine.ServerRequests
import Vexjine.WaitAnswers
import Vexjine.ClientThreads
import Vexjine.EnumerationOrder
import Vexjine.PredictionFiles
import Vexjine.ProgressSums
import Vexjine.TimeLogging
import Vexjine.Links
import Vexjine.Diary
import Vexjine.EventSimulation
import Vexjine.PreemptiveResume
import Vexjine.FluidSharing
import Vexjine.ProcessorSharing
import Vexjine.ContinuedThreads
import Vexjine.StrictSynchronization
import Vexjine.Floats
import Vexjine.IoCorrections
import Vexjine.QueuedTimes
import Vexjine.Documents
import Vexjine.MeasurementBuffers
import Vexjine.ResumedTimes
import Vexjine.SelfSuspensions
import Vexjine.Yields
import Vexjine.SlotAccounting
import Vexjine.Areas
import Vexjine.SystemMeasures
import Vexjine.Samples
import Vexjine.LinearRegressions
import Vexjine.Rearrangements
import Vexjine.MedianSort
import Vexjine.WindowPredictors
import Vexjine.Elimination
import Vexjine.AutoRegressions
import Vexjine.Loops
import Vexjine.MarkovTraining
import Vexjine.MarkovStates
import Vexjine.TimeOrder
import Vexjine.IoOptions
import Vexjine.JmtStations
import Vexjine.JmtProbabilities
import Vexjine.JmtNetworks
import Vexjine.ServiceSlices
import Vexjine.RealCodeWaits
import Vexjine.Timeouts
import Vexjine.TimeScaling
import Vexjine.SampleStorages
import Vexjine.Reports
import Vexjine.InvalidationPolicies
import Vexjine.ListOperations
import Vexjine.PriorityQueues
import Vexjine.RunningStatistics
import Vexjine.MeasureOrders
import Vexjine.AdaptiblePQueues
import Vexjine.NativeWaits
import Vexjine.InstructionLists
import Vexjine.Weavings
import Vexjine.RunEnds
import Vexjine.BasicBlockAdapter
import Vexjine.MethodReports
import Vexjine.TryCatchDepths
import Vexjine.ReportedCalls
import Vexjine.MethodIds
import Vexjine.QueueingNetworks
import Vexjine.NetworkMoves
import Vexjine.CustomerPlaces
import Vexjine.CustomerTimes
import Vexjine.PoolMeasures
import Vexjine.NetworkProgress
