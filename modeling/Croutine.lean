import Croutine.Lib.Machine
import Croutine.Lib.Count
import Croutine.Lib.Slots
import Croutine.Lib.Custody
import Croutine.Lib.Intrusive
import Croutine.Lib.Account
import Croutine.Lib.Cells
import Croutine.Lib.Progress
import Croutine.Lib.Since
import Croutine.Lib.Random
import Croutine.Basic
import Croutine.IoWaitTable
import Croutine.IoTableSpec
import Croutine.Poller
import Croutine.PollerSpec
import Croutine.Periods
import Croutine.State
import Croutine.Scheduler
import Croutine.Channel
import Croutine.Select
import Croutine.IoWait
import Croutine.WorkerLoop
import Croutine.Runtime
import Croutine.ChannelSpec
import Croutine.Steps
import Croutine.WaitMoves
import Croutine.WorkerSpec
import Croutine.IoAgree
import Croutine.Life
import Croutine.Placement
import Croutine.TaskInv
import Croutine.Teardown
import Croutine.TaskSteps
import Croutine.ChanFrame
import Croutine.WaitQueues
import Croutine.WaitInv
import Croutine.OnePlace
import Croutine.TryPhase
import Croutine.Calls
import Croutine.ChanForm
import Croutine.OpenQueues
import Croutine.WideSelect
import Croutine.Quiet
import Croutine.Rendezvous
import Croutine.ParkedTasks
import Croutine.History
import Croutine.Flow
import Croutine.Registry
import Croutine.Shutdown
import Croutine.Readiness
import Croutine.Sleep
import Croutine.Wakeups
import Croutine.Effects
import Croutine.Reports
import Croutine.Results
import Croutine.Deliveries
import Croutine.Blocking
import Croutine.Closing
import Croutine.Destroyed
import Croutine.Final
import Croutine.ParkFailure
import Croutine.EpollFilter
import Croutine.IoDelivery
import Croutine.PollerRuns
import Croutine.KqueueBatch
import Croutine.NoSpin
import Croutine.IoTableRuns
import Croutine.TaskQueue
import Croutine.ByteRing
import Croutine.WaitHeap
import Croutine.ContextRuns
import Croutine.Stack
import Croutine.WorkerMoves
import Croutine.Dispatch
import Croutine.WindDown
import Croutine.Aborts
import Croutine.TaskMoves
import Croutine.WaitEnds
import Croutine.Io
import Croutine.IoCalls
import Croutine.Latency
import Croutine.EpollWords
import Croutine.WakeFd
import Croutine.SelectOrder
import Croutine.LifeMoves
import Croutine.Api
import Croutine.ApiRuns
import Croutine.ApiResults
