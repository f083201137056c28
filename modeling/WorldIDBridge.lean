import WorldIDBridge.Lib.TransitionRun
import WorldIDBridge.Lib.Registry
import WorldIDBridge.L2.Validity
import WorldIDBridge.L2.Authority
import WorldIDBridge.L2.Nullifier
import WorldIDBridge.L1.StarkStateBridge
import WorldIDBridge.L1.Configuration
import WorldIDBridge.System.Ordering
import WorldIDBridge.Lib.Interaction
import WorldIDBridge.Service.PropagateRoot
import WorldIDBridge.Service.Submitters
import WorldIDBridge.Service.Executor
import WorldIDBridge.Service.Roots
import WorldIDBridge.Service.Decoding
import WorldIDBridge.Service.Polling
import WorldIDBridge.Service.MessageFee
import WorldIDBridge.Service.CacheWindow
import WorldIDBridge.Service.Reconnection
import WorldIDBridge.Service.PollDeadline
import WorldIDBridge.Service.Resilience
import WorldIDBridge.System.Network
import WorldIDBridge.L1.MessageChannel
import WorldIDBridge.System.EventLog
import WorldIDBridge.Service.Simulation
import WorldIDBridge.System.Watch
import WorldIDBridge.Service.Counters
import WorldIDBridge.Service.Supervision
import WorldIDBridge.Service.Spending
import WorldIDBridge.Service.Connection
import WorldIDBridge.Service.Signals
import WorldIDBridge.System.Settlement
