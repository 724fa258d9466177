import JobEngine.Daemon
import JobEngine.Dispatcher.Query
import JobEngine.Job.Identifier
import JobEngine.Job.View
import JobEngine.Logging.Retention
import JobEngine.Main
import JobEngine.Notification.Transcript
import JobEngine.Proofs.Dependency.Replay
import JobEngine.Proofs.Dependency.Search
import JobEngine.Proofs.Dispatcher.Cascade
import JobEngine.Proofs.Dispatcher.Handles
import JobEngine.Proofs.Dispatcher.Notices
import JobEngine.Proofs.Dispatcher.Order
import JobEngine.Proofs.Dispatcher.Parents
import JobEngine.Proofs.Dispatcher.Progress
import JobEngine.Proofs.Dispatcher.Query
import JobEngine.Proofs.Dispatcher.Recovery
import JobEngine.Proofs.Dispatcher.RestartOrder
import JobEngine.Proofs.Dispatcher.Restarts
import JobEngine.Proofs.Dispatcher.Retention
import JobEngine.Proofs.Dispatcher.Settlement
import JobEngine.Proofs.Dispatcher.Shutdown
import JobEngine.Proofs.Dispatcher.Supervision
import JobEngine.Proofs.Engine.Shutdown
import JobEngine.Proofs.Notification.FanOut
import JobEngine.Proofs.Notification.Outcome
import JobEngine.Proofs.Queue.Recycling
import JobEngine.Proofs.Store.Atomicity
import JobEngine.Proofs.Store.Tolerance
import JobEngine.Task.Trial
import JobEngine.Proofs.Json.Abridgement
import JobEngine.Proofs.Logging.Retention
import JobEngine.Proofs.Config.RoundTrip
