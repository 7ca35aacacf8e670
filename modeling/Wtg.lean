import Wtg.Api.Identity
import Wtg.Api.KillSwitch
import Wtg.Api.Replay
import Wtg.Api.Resubmit
import Wtg.Api.ServerFields
import Wtg.Auth.SessionRedis
import Wtg.Chart.Stream
import Wtg.Edge.CustomerSync
import Wtg.Edge.PairStop
import Wtg.Edge.Proxy
import Wtg.Edge.TcpGateway
import Wtg.Fixmd.TopOfBook
import Wtg.Idempotency.Isolation
import Wtg.Mymq.Correlation
import Wtg.Mymq.Lifecycle
import Wtg.Mymq.LzoSafety
import Wtg.Mymq.LzoTokens
import Wtg.Mymq.ReadLoop
import Wtg.Policy.EtcdSync
import Wtg.Price.AlgoDelivery
import Wtg.Price.BarExact
import Wtg.Price.BarReopened
import Wtg.Price.BestDrift
import Wtg.Price.CrossConsumer
import Wtg.Price.CustomerGates
import Wtg.Price.Fanout
import Wtg.Price.Forwarder
import Wtg.Price.LockSequence
import Wtg.Price.QuotePublisher
import Wtg.Price.SwapAtomic
import Wtg.Price.SwapIssue
import Wtg.Price.SwapLegs
import Wtg.Price.SwapPoint
import Wtg.Pricekrx.Slots
import Wtg.Pricing.Complements
import Wtg.Pricing.CustomerRules
import Wtg.Pricing.EtcdTableWatcher
import Wtg.Pricing.MapOrder
import Wtg.Pricing.Pairs
import Wtg.Pricing.SwapPolyline
import Wtg.Pricing.ValueDate
import Wtg.Pricing.WindowMeaning
import Wtg.Push.ConsistentHash
import Wtg.Quote.Ring
import Wtg.QuoteId.Agreement
import Wtg.QuoteId.Async
import Wtg.QuoteId.MemoryMarkers
import Wtg.QuoteId.RedisOnce
import Wtg.Ratelimit.RuleSet
import Wtg.Ratelimit.Skew
import Wtg.Routing.InMemory
import Wtg.Svcio.CodePage
