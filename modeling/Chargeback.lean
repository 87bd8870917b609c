import Chargeback.Api.Response
import Chargeback.Cluster.Rates
import Chargeback.Cluster.Store
import Chargeback.Config
import Chargeback.Decimal.Bits
import Chargeback.Group.Lock
import Chargeback.Json.Ascii
import Chargeback.Pipeline.Rounds
import Chargeback.Proofs.Buffer.Queue
import Chargeback.Proofs.Group.Charged
import Chargeback.Proofs.Group.Failures
import Chargeback.Proofs.Group.Pruning
import Chargeback.Proofs.Group.Records
import Chargeback.Proofs.Group.Repeats
import Chargeback.Proofs.Group.Retries
import Chargeback.Proofs.Group.Turns
import Chargeback.Proofs.Group.Unseen
import Chargeback.Proofs.Group.Writers
import Chargeback.Proofs.Group.Written
import Chargeback.Proofs.Health.History
import Chargeback.Proofs.Health.Recovery
import Chargeback.Proofs.Health.Reporters
import Chargeback.Proofs.Pipeline.Claims
import Chargeback.Proofs.Pipeline.Conservation
import Chargeback.Proofs.Pipeline.CountedOnce
import Chargeback.Proofs.Pipeline.Groups
import Chargeback.Proofs.Pipeline.History
import Chargeback.Proofs.Pipeline.Mirror
import Chargeback.Proofs.Pipeline.Reads
import Chargeback.Proofs.Pipeline.Redelivery
import Chargeback.Proofs.Pipeline.Storage
import Chargeback.Proofs.Pipeline.Totals
import Chargeback.Proofs.Pipeline.Undisturbed
import Chargeback.Proofs.Pipeline.Windows
import Chargeback.Proofs.Quantity.Grammar
import Chargeback.Proofs.Store.Versions
import Chargeback.Proofs.Time.Tiling
import Chargeback.Proofs.Upload.Acknowledged
import Chargeback.Proofs.Upload.Body
import Chargeback.Proofs.Upload.Loop
import Chargeback.Proofs.Watch.Replay
import Chargeback.Watch.Watcher
