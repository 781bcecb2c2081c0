import OfAgent.Forward.Switch
import OfAgent.Stats.Dump

/-!
# Messages of the secure channel

OpenFlow messages between a remote, which is usually a controller, and the datapath.

* `OfpType`: the types of messages.
* `OfpMessage`: a message as `stream_recv` hands it over, which has as many bytes as its header
  says; `doRecv`: the messages that an established connection lets through.
* `OfpBody`, `OfpOutgoing`: what the datapath sends. `OfpBody.size` is the size of the buffer that
  the source builds, and the length field of the header is a value of its own.
-/

namespace OfAgent

/-! ### Headers -/

/-- `OFP_VERSION`. -/
def ofpVersion : BitVec 8 := 0x01

/-- `sizeof(struct ofp_header)`. -/
def sizeofOfpHeader : ℕ := 8

/-- `enum ofp_type`. -/
inductive OfpType
  | hello
  | error
  | echoRequest
  | echoReply
  | vendor
  | featuresRequest
  | featuresReply
  | getConfigRequest
  | getConfigReply
  | setConfig
  | packetIn
  | flowRemoved
  | portStatus
  | packetOut
  | flowMod
  | portMod
  | statsRequest
  | statsReply
  | barrierRequest
  | barrierReply
  | queueGetConfigRequest
  | queueGetConfigReply
  deriving DecidableEq, Repr

/-- The types in the order of their numbers. -/
def ofpTypes : List OfpType :=
  [.hello, .error, .echoRequest, .echoReply, .vendor, .featuresRequest, .featuresReply,
    .getConfigRequest, .getConfigReply, .setConfig, .packetIn, .flowRemoved, .portStatus,
    .packetOut, .flowMod, .portMod, .statsRequest, .statsReply, .barrierRequest, .barrierReply,
    .queueGetConfigRequest, .queueGetConfigReply]

/-- The type with a given number, if there is one. -/
def OfpType.ofBitVec (t : BitVec 8) : Option OfpType := ofpTypes[t.toNat]?

/-! ### Received messages -/

/-- A message as `stream_recv` hands it over: the buffer holds as many bytes as the header says, and
at least the header. -/
structure OfpMessage where
  /-- The memory from the start of the message on. What lies behind the message belongs to somebody
  else. -/
  mem : Memory
  /-- The bytes of the message are all there. -/
  header_le : sizeofOfpHeader ≤ (mem.get16 2).toNat

namespace OfpMessage

variable (msg : OfpMessage)

/-- The length field of the header, which is also the size of the buffer. -/
def length : ℕ := (msg.mem.get16 2).toNat

/-- `version` of the header. -/
def version : BitVec 8 := msg.mem 0

/-- `type` of the header. -/
def type : Option OfpType := OfpType.ofBitVec (msg.mem 1)

/-- `xid` of the header. -/
def xid : BitVec 32 := msg.mem.get32 4

theorem length_lt : msg.length < 2 ^ 16 := (msg.mem.get16 2).isLt

theorem length_ge : 8 ≤ msg.length := msg.header_le

end OfpMessage

/-- A message with the given bytes and zeros behind it. -/
def OfpMessage.ofBytes (bs : List Byte) (h : sizeofOfpHeader ≤ (be16 bs 2).toNat) : OfpMessage :=
  ⟨.ofBytes bs, h⟩

/-- The version that `vcs_recv_hello` settles on, if it is one that a connection may have. A
connection that `dp_run` has accepted insists on `OFP_VERSION`. -/
def vcsRecvHello (peer : BitVec 8) : Option (BitVec 8) :=
  let version := if ofpVersion ≤ peer then ofpVersion else peer
  if version < ofpVersion then none else some version

/-- The types of which `do_recv` hands over messages of any version. -/
def versionlessTypes : List OfpType := [.hello, .error, .echoRequest, .echoReply, .vendor]

/-- `do_recv` on a connection with a version: the message is handed over. Otherwise the connection
is closed. -/
def doRecv (version : BitVec 8) (msg : OfpMessage) : Bool :=
  msg.version == version || versionlessTypes.any fun t => msg.type == some t

/-! ### Messages that are sent -/

/-- A connection of the datapath, by its place among all connections. -/
abbrev Remote : Type := ℕ

/-- `struct sender`. -/
structure Sender where
  /-- The device that sent the message. -/
  remote : Remote
  /-- The OpenFlow transaction ID. -/
  xid : BitVec 32
  deriving DecidableEq, Repr

/-- `struct ofp_phy_port`, without the names and addresses of ports, which are those of network
devices. -/
structure OfpPhyPort where
  /-- `port_no`. -/
  portNo : BitVec 16
  /-- Bitmap of `OFPPC_*` flags. -/
  config : BitVec 32
  /-- Bitmap of `OFPPS_*` flags. -/
  state : BitVec 32
  deriving DecidableEq, Repr

/-- `struct ofp_queue_stats`, without the counters. -/
structure OfpQueueStats where
  /-- `port_no`. -/
  portNo : BitVec 16
  /-- Queue id. -/
  queueId : BitVec 32
  deriving DecidableEq, Repr

/-- `struct ofp_packet_queue` with its property of a minimum rate, as `fill_queue_desc` makes it. -/
structure OfpPacketQueue where
  /-- Id for the specific queue. -/
  queueId : BitVec 32
  /-- Length in bytes of this queue desc. -/
  len : BitVec 16
  /-- In 1/10 of a percent. -/
  rate : BitVec 16
  deriving DecidableEq, Repr

/-- The body of a statistics reply. -/
inductive OfpStats
  /-- `struct ofp_desc_stats`, of which only `dp_desc` can change. -/
  | desc (dpDesc : List Byte)
  /-- Entries `struct ofp_flow_stats`. -/
  | flow (entries : List OfpFlowStats)
  /-- `struct ofp_aggregate_stats_reply`. -/
  | aggregate (rpy : OfpAggregateStatsReply)
  /-- Entries `struct ofp_table_stats`: the numbers of the tables, without what these count. -/
  | table (tableIds : List (BitVec 8))
  /-- Entries `struct ofp_port_stats`: the numbers of the ports. The counters are constants. -/
  | port (portNos : List (BitVec 16))
  /-- Entries `struct ofp_queue_stats`. -/
  | queue (entries : List OfpQueueStats)
  deriving DecidableEq, Repr

/-- The messages that the datapath sends to remotes, apart from `OFPT_PACKET_IN`, which is an
`Emission`. -/
inductive OfpBody
  /-- `OFPT_ERROR` with a type `OFPET_*`, a code, and the bytes of the request. -/
  | error (type code : BitVec 16) (data : List Byte)
  /-- `OFPT_ECHO_REPLY`: a copy of the request, of another type. -/
  | echoReply (copy : List Byte)
  /-- `OFPT_BARRIER_REPLY`: a copy of the request, of another type. -/
  | barrierReply (copy : List Byte)
  /-- `OFPT_FEATURES_REPLY`, of which only the ports can change. -/
  | featuresReply (datapathId : BitVec 64) (ports : List OfpPhyPort)
  /-- `OFPT_GET_CONFIG_REPLY`. -/
  | getConfigReply (flags missSendLen : BitVec 16)
  /-- `OFPT_FLOW_REMOVED`. -/
  | flowRemoved (ofr : OfpFlowRemoved)
  /-- `OFPT_STATS_REPLY`, with the flag `OFPSF_REPLY_MORE`. -/
  | statsReply (more : Bool) (stats : OfpStats)
  /-- `OFPT_QUEUE_GET_CONFIG_REPLY`. -/
  | queueGetConfigReply (portNo : BitVec 16) (queues : List OfpPacketQueue)
  deriving DecidableEq, Repr

/-- The bytes that an entry of a flow statistics reply occupies. -/
def OfpFlowStats.size (ofs : OfpFlowStats) : ℕ := sizeofOfpFlowStats + ofs.actions.length

/-- `sizeof(struct ofp_desc_stats)`. -/
def sizeofOfpDescStats : ℕ := 1056

/-- `sizeof(struct ofp_aggregate_stats_reply)`. -/
def sizeofOfpAggregateStatsReply : ℕ := 24

/-- `sizeof(struct ofp_table_stats)`. -/
def sizeofOfpTableStats : ℕ := 64

/-- `sizeof(struct ofp_port_stats)`. -/
def sizeofOfpPortStats : ℕ := 104

/-- `sizeof(struct ofp_queue_stats)`. -/
def sizeofOfpQueueStats : ℕ := 32

/-- The bytes that are put behind `struct ofp_stats_reply`. -/
def OfpStats.size : OfpStats → ℕ
  | desc _ => sizeofOfpDescStats
  | flow entries => (entries.map OfpFlowStats.size).sum
  | aggregate _ => sizeofOfpAggregateStatsReply
  | table tableIds => sizeofOfpTableStats * tableIds.length
  | port portNos => sizeofOfpPortStats * portNos.length
  | queue entries => sizeofOfpQueueStats * entries.length

/-- `sizeof(struct ofp_error_msg)`. -/
def sizeofOfpErrorMsg : ℕ := 12

/-- `sizeof(struct ofp_switch_features)`. -/
def sizeofOfpSwitchFeatures : ℕ := 32

/-- `sizeof(struct ofp_phy_port)`. -/
def sizeofOfpPhyPort : ℕ := 48

/-- `sizeof(struct ofp_switch_config)`. -/
def sizeofOfpSwitchConfig : ℕ := 12

/-- `sizeof(struct ofp_flow_removed)`. -/
def sizeofOfpFlowRemoved : ℕ := 88

/-- `sizeof(struct ofp_queue_get_config_reply)`. -/
def sizeofOfpQueueGetConfigReply : ℕ := 16

/-- `sizeof(struct ofp_packet_queue)` and `sizeof(struct ofp_queue_prop_min_rate)`. -/
def sizeofOfpPacketQueue : ℕ := 8 + 16

/-- The size of the buffer that holds a message. -/
def OfpBody.size : OfpBody → ℕ
  | error _ _ data => sizeofOfpErrorMsg + data.length
  | echoReply copy => copy.length
  | barrierReply copy => copy.length
  | featuresReply _ ports => sizeofOfpSwitchFeatures + sizeofOfpPhyPort * ports.length
  | getConfigReply _ _ => sizeofOfpSwitchConfig
  | flowRemoved _ => sizeofOfpFlowRemoved
  | statsReply _ stats => sizeofOfpStatsReply + stats.size
  | queueGetConfigReply _ queues =>
      sizeofOfpQueueGetConfigReply + sizeofOfpPacketQueue * queues.length

/-- A message in a buffer that has been handed to a connection, or to all of them. -/
structure OfpOutgoing where
  /-- The remote, if the message goes to a single one. -/
  remote : Option Remote
  /-- `xid` of the header. -/
  xid : BitVec 32
  /-- `length` of the header. -/
  length : BitVec 16
  /-- What the message says. -/
  body : OfpBody
  deriving DecidableEq, Repr

end OfAgent
