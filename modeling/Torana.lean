import Torana.Prog
import Torana.Pool
import Torana.Http
import Torana.Net
import Torana.Proxy
import Torana.Config
import Torana.Routing
import Torana.Upstream
import Torana.Plugins
import Torana.Actions
import Torana.Health
import Torana.Server
import Torana.Reload
import Torana.System
import Torana.Handling
import Torana.Installing
import Torana.Guarding
import Torana.Samples
import Torana.Lockstep
import Torana.Identity
import Torana.Overrides
import Torana.Relays
import Torana.Delivery
import Torana.Attempts
import Torana.Rounds
import Torana.ReloadRuns
import Torana.Startup
import Torana.Ownership
import Torana.Verdicts
import Torana.Rotation
import Torana.Counter
import Torana.Schedule
import Torana.Selection
import Torana.WrapAround
import Torana.Survivors
import Torana.Retries
import Torana.Failover
import Torana.Boundary
import Torana.Drain
import Torana.Deadline
import Torana.Messages
import Torana.Completeness
import Torana.PerRoute
import Torana.Addresses
import Torana.FieldLists
import Torana.HopByHop
import Torana.OverrideOrder
import Torana.ForwardedFor
import Torana.AbsoluteUris
import Torana.Targets
import Torana.Dialing
import Torana.Mirroring
import Torana.Probing
import Torana.Bursts
import Torana.Matching
import Torana.Durations
import Torana.Transitions
import Torana.Updates
import Torana.Allowance
import Torana.Answering
import Torana.Timing
import Torana.Registers
import Torana.Versions
import Torana.Holding
import Torana.Coverage
import Torana.Instrumented
import Torana.Metering
import Torana.Hex
import Torana.Tls
import Torana.Launch
import Torana.Connections
import Torana.Contacts
import Torana.Pacing
import Torana.Responses
import Torana.Scraping
