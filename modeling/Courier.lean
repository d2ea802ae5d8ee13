import Courier.Config.Variables
import Courier.Live.Peers
import Courier.Proofs.Breaker.Counters
import Courier.Proofs.Broker.Sending
import Courier.Proofs.Http.Retries
import Courier.Proofs.Live.Interruption
import Courier.Proofs.Live.Punctual
import Courier.Proofs.Pipeline.Compensation
import Courier.Proofs.Pipeline.Consent
import Courier.Proofs.Notification.Letters
import Courier.Proofs.Pipeline.Replay
import Courier.Proofs.Resilience.Truncation
import Courier.Rehearsal.Cast
import Courier.Resilience.BreakerRun
import Courier.Resilience.ContextRun
import Courier.Resilience.Trial
import Courier.Router.Handle
import Courier.Proofs.Breaker.Late
import Courier.Proofs.Breaker.Alike
import Courier.Proofs.Breaker.Unseen
import Courier.Proofs.Breaker.Recovery
import Courier.Proofs.Flow.Served
import Courier.Proofs.Pipeline.Punctual
import Courier.Proofs.Pipeline.Aside
import Courier.Proofs.Pipeline.SlowCache
import Courier.Proofs.Desk.Records
import Courier.Proofs.Desk.Statuses
import Courier.Proofs.Notification.Codecs
import Courier.Proofs.Router.Outcomes
import Courier.Proofs.Health.Answers
import Courier.Proofs.Resilience.Schedule
import Courier.Proofs.Resilience.Delays
import Courier.Proofs.Live.DeadLetters
import Courier.Proofs.Store.Columns
import Courier.Proofs.Http.Identifiers
import Courier.Proofs.Resilience.History
import Courier.Proofs.Config.Order
import Courier.Proofs.Http.Forms
import Courier.Proofs.Live.Clamped
import Courier.Proofs.Live.Pages
import Courier.Proofs.Number.Reading
import Courier.Proofs.Broker.Declaring
import Courier.Proofs.Config.Acceptance
import Courier.Proofs.InMemory.Renderings
