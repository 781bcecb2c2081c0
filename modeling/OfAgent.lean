import OfAgent.Table.Order
import OfAgent.Table.Occupancy
import OfAgent.Chain.Conflicts
import OfAgent.Stats.Deletion
import OfAgent.Stats.Durations
import OfAgent.Agent.Modification
import OfAgent.Agent.Counters
import OfAgent.Agent.Capacity
import OfAgent.Agent.Wildcards
import OfAgent.Packet.Describe
import OfAgent.Packet.Outputs
import OfAgent.Packet.VlanKey
import OfAgent.Packet.Parsing
import OfAgent.Forward.Delivery
import OfAgent.Conn.Backoff
import OfAgent.Conn.Peers
import OfAgent.Conn.Probe
import OfAgent.Control.Buffers
import OfAgent.Control.QueueErrors
import OfAgent.Control.QueueRequests
import OfAgent.Secchan.Bucket
import OfAgent.Secchan.EmergFlow
import OfAgent.Secchan.Failover
import OfAgent.Secchan.PortArray
import OfAgent.Secchan.SendCounters
import OfAgent.Secchan.MacHistory
import OfAgent.Secchan.FlowStatsReply
import OfAgent.Secchan.InBand
import OfAgent.Secchan.FlowDeletion
import OfAgent.Agent.ConfigRefinement
import OfAgent.Agent.QueueConfig
import OfAgent.Agent.PortNames
import OfAgent.Stp.Timers
import OfAgent.Stp.ChangedPorts
import OfAgent.Stp.Settled
import OfAgent.Secchan.SpanningFlags
import OfAgent.Dhcp.RoundTrip
import OfAgent.Dhcp.Binding
import OfAgent.Dpctl.RoundTrip
import OfAgent.Dpctl.ActionRoundTrip
