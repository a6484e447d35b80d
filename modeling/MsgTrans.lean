import MsgTrans.Base.BigEndian
import MsgTrans.Base.Prog
import MsgTrans.Base.Ledger
import MsgTrans.Base.Table
import MsgTrans.Wire.Packet
import MsgTrans.Wire.Header
import MsgTrans.Wire.Codec
import MsgTrans.Registry.State
import MsgTrans.Registry.Action
import MsgTrans.Registry.Methods
import MsgTrans.Registry.Rules
import MsgTrans.Registry.Specs
import MsgTrans.Registry.Lifecycle
import MsgTrans.Registry.Runs
import MsgTrans.Registry.Gates
import MsgTrans.Registry.Admission
import MsgTrans.Registry.Coverage
import MsgTrans.Registry.SessionClose
import MsgTrans.Base.Layer
import MsgTrans.Registry.Replies
import MsgTrans.Registry.Provenance
import MsgTrans.Registry.Claims
import MsgTrans.Base.Stream
import MsgTrans.Adapters.Tcp
import MsgTrans.Adapters.StrictFraming
import MsgTrans.Adapters.LenientFraming
import MsgTrans.Transport.Limits
import MsgTrans.Adapters.Core
import MsgTrans.Adapters.Quic
import MsgTrans.Adapters.WebSocket
import MsgTrans.Adapters.Acceptance
import MsgTrans.Adapters.WriteLoops
import MsgTrans.Wire.Compression
import MsgTrans.Adapters.Events
import MsgTrans.Transport.SendOptions
import MsgTrans.Base.Machine
import MsgTrans.Adapters.EventDelivery
import MsgTrans.Transport.SessionActor
import MsgTrans.Transport.ActorTrace
import MsgTrans.Transport.Session
import MsgTrans.Transport.SessionFeed
import MsgTrans.Transport.SessionDelivery
import MsgTrans.Transport.CloseSession
import MsgTrans.Transport.CloseSafety
import MsgTrans.Registry.Locality
import MsgTrans.Client.Action
import MsgTrans.Client.Methods
import MsgTrans.Client.Rules
import MsgTrans.Client.Generations
import MsgTrans.Client.Sharing
import MsgTrans.Client.Requests
import MsgTrans.Client.Ownership
import MsgTrans.Base.Watch
import MsgTrans.Registry.ScanExpiry
import MsgTrans.Base.Threads
import MsgTrans.Client.Shutdown
import MsgTrans.Client.Connection
import MsgTrans.Client.Coherence
import MsgTrans.Base.Brackets
import MsgTrans.Client.Brackets
import MsgTrans.Server.State
import MsgTrans.Server.Tasks
import MsgTrans.Server.Roles
import MsgTrans.Server.Phases
import MsgTrans.Server.Holders
import MsgTrans.Server.Permits
import MsgTrans.Server.Report
import MsgTrans.Base.Slots
import MsgTrans.Base.Solo
import MsgTrans.Registry.Calm
import MsgTrans.Registry.Wheel
import MsgTrans.Registry.WheelExact
import MsgTrans.Registry.WheelLoad
import MsgTrans.Transport.HandlerClose
import MsgTrans.Transport.HandlerDeadlock
import MsgTrans.Base.Base64
import MsgTrans.Adapters.TlsCommon
import MsgTrans.Adapters.HeaderChecks
import MsgTrans.Adapters.Resync
import MsgTrans.Adapters.Framer
import MsgTrans.Registry.TimeoutArithmetic
import MsgTrans.Base.Shared
import MsgTrans.Adapters.Budget
import MsgTrans.Adapters.EventLoop
import MsgTrans.Adapters.Liveness
import MsgTrans.Registry.View
import MsgTrans.Registry.Shows
import MsgTrans.Registry.Refinement
import MsgTrans.Registry.Renaming
import MsgTrans.Registry.Isolation
import MsgTrans.Base.Custody
import MsgTrans.Adapters.Pipeline
import MsgTrans.Adapters.Receipts
import MsgTrans.Adapters.Delivery
import MsgTrans.Transport.Mailbox
import MsgTrans.Transport.Stranded
import MsgTrans.Exchange.Action
import MsgTrans.Exchange.Calls
import MsgTrans.Exchange.Ownership
import MsgTrans.Exchange.Requests
import MsgTrans.Exchange.Responses
