import QueueWorkerKit.Library.Machine
import QueueWorkerKit.Library.EventLoop
import QueueWorkerKit.Library.KeyedLog
import QueueWorkerKit.Library.Json
import QueueWorkerKit.Library.Schema
import QueueWorkerKit.Config.Defaults
import QueueWorkerKit.Errors.Errors
import QueueWorkerKit.Utils.SerializeError
import QueueWorkerKit.Worker.DeadLetterRecord
import QueueWorkerKit.Worker.DeadLetter
import QueueWorkerKit.Worker.DeadLetterBound
import QueueWorkerKit.Worker.DeadLetterEviction
import QueueWorkerKit.Worker.DeadLetterCounters
import QueueWorkerKit.Worker.DeadLetterUniqueness
import QueueWorkerKit.Worker.GracefulShutdown
import QueueWorkerKit.Worker.GracefulShutdownOrder
import QueueWorkerKit.Jobs.Types
import QueueWorkerKit.Jobs.Definitions
import QueueWorkerKit.Jobs.Registry
import QueueWorkerKit.Queue.Defaults
import QueueWorkerKit.Queue.Enqueue
import QueueWorkerKit.Worker.DeadLetterSize
import QueueWorkerKit.Worker.Processor
import QueueWorkerKit.Worker.ProcessorContainment
import QueueWorkerKit.Worker.RetryVerdict
import QueueWorkerKit.Worker.Server
import QueueWorkerKit.Worker.ServerDrain
import QueueWorkerKit.Worker.ShutdownCalls
import QueueWorkerKit.Api.Errors
import QueueWorkerKit.Api.JobsRoutes
import QueueWorkerKit.Api.App
import QueueWorkerKit.Queue.EnqueuedCounter
import QueueWorkerKit.Observability.QueueDepth
import QueueWorkerKit.Queue.Scheduler
import QueueWorkerKit.Api.JobStatus
import QueueWorkerKit.Worker.AttemptAccounting
import QueueWorkerKit.Worker.ConcurrentAttempts
import QueueWorkerKit.Worker.MetricLabels
import QueueWorkerKit.Bootstrap
import QueueWorkerKit.Jobs.Cleanup
import QueueWorkerKit.Api.Health
import QueueWorkerKit.Utils.ErrorChains
import QueueWorkerKit.Worker.ErrorReporting
import QueueWorkerKit.Queue.ScheduleConvergence
import QueueWorkerKit.Api.UnexpectedErrors
import QueueWorkerKit.Worker.DeadLetterDrain
import QueueWorkerKit.Worker.DeadLetterDrainExact
import QueueWorkerKit.Library.Double
import QueueWorkerKit.Config.Env
import QueueWorkerKit.Config.EnvExact
import QueueWorkerKit.Api.Dashboard
import QueueWorkerKit.Worker.AttemptOutcome
import QueueWorkerKit.Worker.DeadLetterReplay
import QueueWorkerKit.Library.EventTarget
import QueueWorkerKit.Utils.Sleep
import QueueWorkerKit.Utils.SleepOnce
import QueueWorkerKit.Api.Server
import QueueWorkerKit.Jobs.ProcessorRuns
import QueueWorkerKit.Library.EventEmitter
import QueueWorkerKit.Worker.SignalHandlers
import QueueWorkerKit.Api.HealthRoutes
import QueueWorkerKit.Api.ProbeDeadlines
import QueueWorkerKit.Api.ProbeRefinement
import QueueWorkerKit.Config.EnvReports
import QueueWorkerKit.Jobs.EnvelopeSchema
import QueueWorkerKit.Worker.JobLife
import QueueWorkerKit.Library.CloseOnce
import QueueWorkerKit.Pipeline
import QueueWorkerKit.Queue.Closing
import QueueWorkerKit.Queue.Connection
import QueueWorkerKit.Queue.Idempotency
import QueueWorkerKit.Worker.DeadLetterJobs
