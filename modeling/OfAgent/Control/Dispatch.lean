import OfAgent.Control.Message
import OfAgent.Control.Queues
import OfAgent.Lib.Monitor

/-!
# Handling of messages

`fwd_control_input` of `datapath.c` and the handlers that it calls, with those of `of_ext_msg.c` and
`private-msg.c`. A handler gets the address of a message in memory, so that nothing keeps it from
reading what lies behind the message.

* `Control`: the datapath with its connections and what it has sent to them.
* `Access`: the reads of a message and the lengths that are computed from its header, which
  computations are seen to do; `ControlFault`: what goes wrong.
* `dpSendErrorMsg`, `recvFlow`, `recvStatsRequest`, ...: the replies and the handlers.
* `fwdControlInput`: the dispatch.

`handleFlowMod` of the agent, which `recv_flow` calls first, works on a copy of the actions and is
no part of this.
-/

namespace OfAgent

/-! ### State -/

/-- `struct stats_type`, as far as it can be told apart, with the state of a dump. The statistics of
vendors are never dumped. -/
inductive StatsState
  /-- `OFPST_DESC`. -/
  | desc
  /-- `OFPST_FLOW`. -/
  | flow (s : FlowStatsState)
  /-- `OFPST_AGGREGATE`. -/
  | aggregate (rq : OfpFlowStatsRequest)
  /-- `OFPST_TABLE`. -/
  | table
  /-- `OFPST_PORT`. -/
  | port (portNo : BitVec 16)
  /-- `OFPST_QUEUE`. -/
  | queue (portNo : BitVec 16) (queueId : BitVec 32)

/-- `struct stats_dump_cb`. -/
structure StatsDumpCb where
  /-- `done`. -/
  done : Bool
  /-- `sender`. -/
  sender : Sender
  /-- `s` and `state`. -/
  state : StatsState

/-- `struct datapath` with its connections. -/
structure Control extends Switch where
  /-- Unique identifier for this datapath. -/
  id : BitVec 64
  /-- Human readable comment to identify this datapath. -/
  dpDesc : List Byte
  /-- `cb_dump` and `cb_aux` of every connection. -/
  cbDump : Remote → Option StatsDumpCb
  /-- The messages that have been sent: a history that the source does not keep. -/
  messages : List OfpOutgoing

/-- The datapath when it has got its ports, before there are any connections. -/
def Control.start (sw : Switch) (id : BitVec 64) (dpDesc : List Byte) : Control :=
  { sw with id, dpDesc, cbDump := fun _ => none, messages := [] }

/-- A look at a message. -/
inductive Access
  /-- A read of `n` bytes at an offset. -/
  | read (off n : ℕ)
  /-- The size of a structure is subtracted from the length in the header. -/
  | length (n : ℤ)
  deriving DecidableEq, Repr

/-- The bytes are among the first `size` ones, and the length is one. -/
def Access.Within (size : ℕ) : Access → Prop
  | read off n => off + n ≤ size
  | length n => 0 ≤ n

/-- What goes wrong when a message is handled. -/
inductive ControlFault
  /-- `fwd_control_input`: `oh->version == OFP_VERSION`. -/
  | version
  /-- `put_openflow_xid`: the length is that of a message. -/
  | openflowLen
  /-- `remote_start_dump`: `!remote->cb_dump`. -/
  | cbDump
  /-- A packet cannot be processed. -/
  | forward (fault : ForwardFault)
  /-- A null pointer is followed. -/
  | nullPointer
  deriving DecidableEq, Repr

/-- The fault is a failed assertion. -/
def ControlFault.IsAssertion : ControlFault → Prop
  | version | openflowLen | cbDump | forward (.ofpbuf _) => True
  | forward _ | nullPointer => False

/-- What the surroundings of the datapath decide while it handles a message. -/
structure Surroundings where
  /-- The time in milliseconds. -/
  now : BitVec 64
  /-- How many runs through the tables may be nested. -/
  fuel : ℕ
  /-- `netdev_change_class` of a port, a class and a rate fails. -/
  changeClass : BitVec 16 → BitVec 16 → BitVec 16 → Bool
  /-- `netdev_setup_class` of a port, a class and a rate fails. -/
  setupClass : BitVec 16 → BitVec 16 → BitVec 16 → Bool

/-- Surroundings in which nothing fails, at the beginning of time. -/
def Surroundings.calm : Surroundings := ⟨0, 1, fun _ _ _ => false, fun _ _ _ => false⟩

/-- The functions of the datapath that handle messages. -/
abbrev ControlM : Type → Type := Monitored Access ControlFault Control

open Monitored

/-! ### Reading -/

/-- The byte at an offset of a message. -/
def read8 (oh : Memory) (off : ℕ) : ControlM Byte := do
  observe (.read off 1)
  pure (oh off)

/-- The 16-bit number at an offset of a message. -/
def read16 (oh : Memory) (off : ℕ) : ControlM (BitVec 16) := do
  observe (.read off 2)
  pure (oh.get16 off)

/-- The 32-bit number at an offset of a message. -/
def read32 (oh : Memory) (off : ℕ) : ControlM (BitVec 32) := do
  observe (.read off 4)
  pure (oh.get32 off)

/-- The bytes from an offset of a message on. -/
def readBytes (oh : Memory) (off n : ℕ) : ControlM (List Byte) := do
  observe (.read off n)
  pure (oh.slice off n)

/-- `ntohs(oh->length)`. -/
def readLength (oh : Memory) : ControlM ℕ := do
  let length ← read16 oh 2
  pure length.toNat

/-! ### Return codes -/

/-- `EINVAL`. -/
def eInval : ℤ := 22

/-- `EFAULT`. -/
def eFault : ℤ := 14

/-! ### Sending -/

/-- `put_openflow_xid`: its assertions. -/
def putOpenflowXid (openflowLen : ℕ) : ControlM PUnit :=
  if sizeofOfpHeader ≤ openflowLen ∧ openflowLen ≤ 0xffff then pure ⟨⟩ else fail .openflowLen

/-- `send_openflow_buffer`, which begins with `update_openflow_length`. A message goes to the sender
of a request, or to every connection. -/
def sendOpenflowBuffer (sender : Option Sender) (body : OfpBody) : ControlM PUnit :=
  modify fun ctl => { ctl with
    messages := ctl.messages ++ [{
      remote := sender.map Sender.remote
      xid := (sender.map Sender.xid).getD 0
      length := BitVec.ofNat 16 body.size
      body }] }

/-- `OFPET_BAD_REQUEST`. -/
def ofpetBadRequest : BitVec 16 := 1

/-- `OFPBRC_BAD_TYPE`: type of the header not supported. -/
def ofpbrcBadType : BitVec 16 := 1

/-- `OFPBRC_BAD_VENDOR`: vendor not supported. -/
def ofpbrcBadVendor : BitVec 16 := 3

/-- `OFPET_QUEUE_OP_FAILED`. -/
def ofpetQueueOpFailed : BitVec 16 := 5

/-- `OFPQOFC_BAD_PORT`: invalid port (or port does not exist). -/
def ofpqofcBadPort : BitVec 16 := 0

/-- `OFPQOFC_BAD_QUEUE`: queue does not exist. -/
def ofpqofcBadQueue : BitVec 16 := 1

/-- `OFPQOFC_EPERM`: permissions error. -/
def ofpqofcEperm : BitVec 16 := 2

/-- `OFQ_ERR_DISCIPLINE`: discipline not supported. -/
def ofqErrDiscipline : BitVec 16 := 3

/-- `dp_send_error_msg`, which quotes `len` bytes of a message. -/
def dpSendErrorMsg (sender : Sender) (type code : BitVec 16) (oh : Memory) (len : ℕ) :
    ControlM PUnit := do
  putOpenflowXid (sizeofOfpErrorMsg + len)
  let data ← readBytes oh 0 len
  sendOpenflowBuffer (some sender) (.error type code data)

/-- `dp_send_error_msg` with the length in the header of the message. -/
def replyError (sender : Sender) (type code : BitVec 16) (oh : Memory) : ControlM PUnit := do
  let len ← readLength oh
  dpSendErrorMsg sender type code oh len

/-! ### Configuration -/

/-- `recv_barrier_request`. -/
def recvBarrierRequest (sender : Sender) (oh : Memory) : ControlM ℤ := do
  let size ← readLength oh
  let copy ← readBytes oh 0 size
  sendOpenflowBuffer (some sender) (.barrierReply copy)
  pure 0

/-- `recv_echo_request`. -/
def recvEchoRequest (sender : Sender) (oh : Memory) : ControlM ℤ := do
  let size ← readLength oh
  let copy ← readBytes oh 0 size
  sendOpenflowBuffer (some sender) (.echoReply copy)
  pure 0

/-- `recv_echo_reply`. -/
def recvEchoReply : ControlM ℤ := pure 0

/-- `OFPPS_LINK_DOWN`: no physical link present. -/
def ofppsLinkDown : BitVec 32 := 1 <<< 0

/-- The flags that `fill_port_desc` leaves behind: a port without a network device is up. -/
def SwPort.fillFlags (p : SwPort) : SwPort :=
  if p.netdev then p
  else { p with state := p.state &&& ~~~ofppsLinkDown, config := p.config &&& ~~~ofppcPortDown }

/-- `fill_port_desc`. -/
def fillPortDesc (p : SwPort) : OfpPhyPort :=
  { portNo := p.portNo, config := p.fillFlags.config, state := p.fillFlags.state }

/-- `recv_features_request`. -/
def recvFeaturesRequest (sender : Sender) : ControlM ℤ := do
  putOpenflowXid sizeofOfpSwitchFeatures
  let ctl ← get
  modify fun ctl => { ctl with
    toSwitch := ctl.portList.foldl (fun sw portNo => sw.modifyPort portNo SwPort.fillFlags)
      ctl.toSwitch }
  sendOpenflowBuffer (some sender) (.featuresReply ctl.id (ctl.listedPorts.map fillPortDesc))
  pure 0

/-- `recv_get_config_request`. -/
def recvGetConfigRequest (sender : Sender) : ControlM ℤ := do
  putOpenflowXid sizeofOfpSwitchConfig
  let ctl ← get
  sendOpenflowBuffer (some sender) (.getConfigReply ctl.flags ctl.missSendLen)
  pure 0

/-- `recv_set_config`. -/
def recvSetConfig (oh : Memory) : ControlM ℤ := do
  let flags ← read16 oh 8
  let missSendLen ← read16 oh 10
  -- every handling of fragments but the normal one is to drop them
  let flags := if flags &&& ofpcFragMask = 0 then 0 else ofpcFragDrop
  modify fun ctl => { ctl with flags, missSendLen }
  pure 0

/-- `recv_packet_out`, whose body is commented out. -/
def recvPacketOut : ControlM ℤ := pure 0

/-- `recv_port_mod`. -/
def recvPortMod (oh : Memory) : ControlM ℤ := do
  let portNo ← read16 oh 8
  let ctl ← get
  let mask ← read32 oh 20
  if mask = 0 then pure 0
  else
    match ctl.dpLookupPort portNo with
    | none => fail .nullPointer
    | some _ => do
        let config ← read32 oh 16
        modify fun ctl => { ctl with
          toSwitch := ctl.toSwitch.modifyPort portNo fun p =>
            { p with config := (p.config &&& ~~~mask) ||| (config &&& mask) } }
        pure 0

/-! ### Flow modifications -/

/-- `struct ofp_match` at an offset. -/
def OfpMatch.ofMemory (m : Memory) (off : ℕ) : OfpMatch where
  wildcards := m.get32 off
  inPort := m.get16 (off + 4)
  dlSrc := m.get48 (off + 6)
  dlDst := m.get48 (off + 12)
  dlVlan := m.get16 (off + 18)
  dlVlanPcp := m (off + 20)
  dlType := m.get16 (off + 22)
  nwTos := m (off + 24)
  nwProto := m (off + 25)
  nwSrc := m.get32 (off + 28)
  nwDst := m.get32 (off + 32)
  tpSrc := m.get16 (off + 36)
  tpDst := m.get16 (off + 38)

/-- The actions behind `struct ofp_flow_mod` are as many as the length field leaves. -/
theorem OfpFlowMod.length_ofMemory_lt (m : Memory) : sizeofOfpFlowMod +
    (m.slice sizeofOfpFlowMod ((m.get16 2).toNat - sizeofOfpFlowMod)).length < 2 ^ 16 := by
  have hlt := (m.get16 2).isLt
  rw [Memory.length_slice, sizeofOfpFlowMod]
  omega

/-- `struct ofp_flow_mod` at the start of a message. -/
def OfpFlowMod.ofMemory (m : Memory) : OfpFlowMod where
  ofpMatch := .ofMemory m 8
  cookie := m.get32 48 ++ m.get32 52
  command := m.get16 56
  idleTimeout := m.get16 58
  hardTimeout := m.get16 60
  priority := m.get16 62
  bufferId := m.get32 64
  outPort := m.get16 68
  flags := m.get16 70
  actions := m.slice sizeofOfpFlowMod ((m.get16 2).toNat - sizeofOfpFlowMod)
  length_lt := OfpFlowMod.length_ofMemory_lt m

/-- The actions of a flow modification that `execute_actions` is called with, on a packet that has
been taken out of its buffer. -/
def executeSaved (env : Surroundings) (buffer : List Byte) (inPort : BitVec 16)
    (actions : List Byte) (sw : Switch) : Except ForwardFault Switch :=
  executeActions (Switch.doOutput (Switch.runFlowThroughTables env.now env.fuel) env.now)
    (flowExtract (.cloneData buffer) inPort).2.2
    (packetKey (packetFlow (.cloneData buffer) inPort)) actions sw

/-- A function of the switch that processes a packet. -/
def forward (f : Switch → Except ForwardFault Switch) : ControlM PUnit :=
  attempt fun ctl =>
    match f ctl.toSwitch with
    | .error e => .error (.forward e)
    | .ok sw => .ok { ctl with toSwitch := sw }

/-- What the handling of a flow modification asks for, one after the other. -/
def perform (env : Surroundings) (sender : Sender) (oh : Memory) : DpOutput → ControlM PUnit
  | .errorMsg error length => dpSendErrorMsg sender error.type error.code oh length
  | .flowRemoved ofr => do
      putOpenflowXid sizeofOfpFlowRemoved
      sendOpenflowBuffer none (.flowRemoved ofr)
  | .executeActions buffer inPort actions => forward (executeSaved env buffer inPort actions)
  -- flow modifications send no packets by themselves
  | .packetIn _ _ => pure ⟨⟩

/-- One demand after the other. -/
def performAll (env : Surroundings) (sender : Sender) (oh : Memory) :
    List DpOutput → ControlM PUnit
  | [] => pure ⟨⟩
  | output :: outputs => do
      perform env sender oh output
      performAll env sender oh outputs

/-- A new state of the tables and the buffers. -/
def setDatapath (dp : Datapath) : ControlM PUnit :=
  modify fun ctl => { ctl with toSwitch := { ctl.toSwitch with toDatapath := dp } }

/-- `recv_flow`. -/
def Control.recvFlow (env : Surroundings) (sender : Sender) (oh : Memory) : ControlM ℤ := do
  observe (.read 0 sizeofOfpFlowMod)
  let length ← readLength oh
  -- actions_len
  observe (.length (length - sizeofOfpFlowMod))
  observe (.read sizeofOfpFlowMod (length - sizeofOfpFlowMod))
  let ctl ← get
  let (dp, outputs, code) := ctl.toDatapath.recvFlowTables env.now (.ofMemory oh)
  setDatapath dp
  performAll env sender oh outputs
  pure code

/-! ### Statistics -/

/-- `struct ofp_flow_stats_request` behind `struct ofp_stats_request`. -/
def OfpFlowStatsRequest.ofMemory (m : Memory) : OfpFlowStatsRequest where
  ofpMatch := .ofMemory m 12
  tableId := m 52
  outPort := m.get16 54

/-- `struct stats_type`: the numbers of bytes that the body of a request may have, and the function
that initializes the state of the dump, or finds an error. -/
structure StatsType where
  /-- `min_body`. -/
  minBody : ℕ
  /-- `max_body`. -/
  maxBody : ℕ
  /-- `init`. -/
  init : Memory → ControlM (Option StatsState)

/-- `sizeof(struct ofp_flow_stats_request)` and `sizeof(struct ofp_aggregate_stats_request)`. -/
def sizeofOfpFlowStatsRequest : ℕ := 44

/-- `sizeof(struct ofp_port_stats_request)`. -/
def sizeofOfpPortStatsRequest : ℕ := 8

/-- `sizeof(struct ofp_queue_stats_request)`. -/
def sizeofOfpQueueStatsRequest : ℕ := 8

/-- `sizeof(struct ofp_stats_request)`. -/
def sizeofOfpStatsRequest : ℕ := 12

/-- The elements of `stats`, by their type `OFPST_*`. -/
def statsType (type : BitVec 16) : Option StatsType :=
  match type.toNat with
  | 0 => some ⟨0, 0, fun _ => pure (some .desc)⟩
  | 1 => some ⟨sizeofOfpFlowStatsRequest, sizeofOfpFlowStatsRequest, fun oh => do
      observe (.read sizeofOfpStatsRequest sizeofOfpFlowStatsRequest)
      pure (some (.flow (flowStatsInit (.ofMemory oh))))⟩
  | 2 => some ⟨sizeofOfpFlowStatsRequest, sizeofOfpFlowStatsRequest, fun oh => do
      observe (.read sizeofOfpStatsRequest sizeofOfpFlowStatsRequest)
      pure (some (.aggregate (.ofMemory oh)))⟩
  | 3 => some ⟨0, 0, fun _ => pure (some .table)⟩
  | 4 => some ⟨sizeofOfpPortStatsRequest, sizeofOfpPortStatsRequest, fun oh => do
      let portNo ← read16 oh 12
      pure (some (.port portNo))⟩
  | 5 => some ⟨sizeofOfpQueueStatsRequest, sizeofOfpQueueStatsRequest, fun oh => do
      let portNo ← read16 oh 12
      let queueId ← read32 oh 16
      pure (some (.queue portNo queueId))⟩
  -- no vendor is known
  | 0xffff => some ⟨8, 32, fun oh => do
      let _vendor ← read32 oh 12
      pure none⟩
  | _ => none

/-- `remote_start_dump`. -/
def remoteStartDump (sender : Sender) (state : StatsState) : ControlM PUnit := do
  let ctl ← get
  if (ctl.cbDump sender.remote).isSome then fail .cbDump
  else
    modify fun ctl => { ctl with
      cbDump := Function.update ctl.cbDump sender.remote (some ⟨false, sender, state⟩) }

/-- `recv_stats_request`. -/
def recvStatsRequest (sender : Sender) (oh : Memory) : ControlM ℤ := do
  let rqLen ← readLength oh
  let type ← read16 oh 8
  match statsType type with
  | none => pure (-eInval)
  | some st => do
      let _rq ← readBytes oh 0 rqLen
      let bodyLen : ℤ := rqLen - sizeofOfpStatsRequest
      observe (.length bodyLen)
      if bodyLen < st.minBody ∨ st.maxBody < bodyLen then pure (-eInval)
      else do
        match ← st.init oh with
        | none => pure (-eInval)
        | some state => do
            remoteStartDump sender state
            pure 0

/-! ### Queues -/

/-- `LIST_FOR_EACH` over the queues of a port, whose list is zeroed memory until the port is
added. -/
def walkQueues (p : SwPort) : ControlM (List SwQueue) :=
  if p.used then pure p.queueList else fail .nullPointer

/-- `fill_queue_desc`. -/
def fillQueueDesc (q : SwQueue) : OfpPacketQueue :=
  { queueId := q.queueId, len := BitVec.ofNat 16 sizeofOfpPacketQueue, rate := q.minRate }

/-- `recv_queue_get_config_request`. -/
def recvQueueGetConfigRequest (sender : Sender) (oh : Memory) : ControlM ℤ := do
  let portNo ← read16 oh 8
  let ctl ← get
  if portNo < ofppMax then
    match ctl.dpLookupPort portNo with
    | none => do
        replyError sender ofpetQueueOpFailed ofpqofcBadPort oh
        pure 0
    | some p =>
        if p.portNo ≠ portNo then do
          replyError sender ofpetQueueOpFailed ofpqofcBadPort oh
          pure 0
        else do
          putOpenflowXid sizeofOfpQueueGetConfigReply
          let queues ← walkQueues p
          sendOpenflowBuffer (some sender) (.queueGetConfigReply portNo (queues.map fillQueueDesc))
          pure 0
  else do
    replyError sender ofpetQueueOpFailed ofpqofcBadPort oh
    pure 0

/-- `OFPQT_MIN_RATE`: minimum data rate guaranteed. -/
def ofpqtMinRate : BitVec 16 := 1

/-- A change of the port with a number. -/
def setPort (portNo : BitVec 16) (p : SwPort) : ControlM PUnit :=
  modify fun ctl => { ctl with toSwitch := ctl.toSwitch.modifyPort portNo fun _ => p }

/-- The end of `recv_of_exp_queue_modify` on a port that has the queue. -/
def modifyQueue (env : Surroundings) (sender : Sender) (oh : Memory) (portNo property : BitVec 16)
    (p : SwPort) (q : SwQueue) : ControlM PUnit := do
  let rate ← read16 oh 40
  if !p.netdev then fail .nullPointer
  else if env.changeClass portNo q.classId rate then
    replyError sender ofpetQueueOpFailed ofpqofcEperm oh
  else setPort portNo (p.changeQueue q.classId property rate)

/-- The end of `recv_of_exp_queue_modify` on a port that does not have the queue. -/
def createQueue (env : Surroundings) (sender : Sender) (oh : Memory) (portNo property : BitVec 16)
    (queueId : BitVec 32) (p : SwPort) : ControlM PUnit :=
  -- port_add_queue
  match h : p.freeQueueNo with
  | none => replyError sender ofpetQueueOpFailed ofpqofcEperm oh
  | some queueNo => do
      let rate ← read16 oh 40
      setPort portNo (p.newQueue queueNo h queueId property rate)
      if !p.netdev then fail .nullPointer
      else if env.setupClass portNo (BitVec.ofNat 16 queueNo) rate then
        replyError sender ofpetQueueOpFailed ofpqofcBadQueue oh
      else pure ⟨⟩

/-- `dp_lookup_port`, when the port is in use. -/
def portInUse (sw : Switch) (portNo : BitVec 16) : Option SwPort :=
  (sw.dpLookupPort portNo).filter SwPort.used

/-- `recv_of_exp_queue_modify`. -/
def recvOfExpQueueModify (env : Surroundings) (sender : Sender) (oh : Memory) :
    ControlM PUnit := do
  let len ← read16 oh 28
  -- only queues with a single property are accepted, a minimum rate
  if len ≠ 24 then replyError sender ofpetQueueOpFailed ofqErrDiscipline oh
  else do
    let property ← read16 oh 32
    if property ≠ ofpqtMinRate then replyError sender ofpetQueueOpFailed ofqErrDiscipline oh
    else do
      let portNo ← read16 oh 16
      let queueId ← read32 oh 24
      let ctl ← get
      match portInUse ctl.toSwitch portNo with
      | none => replyError sender ofpetQueueOpFailed ofpqofcBadPort oh
      | some p =>
          match p.lookupQueue queueId with
          | some q => modifyQueue env sender oh portNo property p q
          | none => createQueue env sender oh portNo property queueId p

/-- `recv_of_exp_queue_delete`. The result of `netdev_delete_class` is not used. -/
def recvOfExpQueueDelete (sender : Sender) (oh : Memory) : ControlM PUnit := do
  let portNo ← read16 oh 16
  let queueId ← read32 oh 24
  let ctl ← get
  match ctl.dpLookupPort portNo with
  | none => fail .nullPointer
  | some p =>
      if p.netdev then
        match p.lookupQueue queueId with
        | some q => setPort portNo (p.portDeleteQueue q)
        | none => replyError sender ofpetQueueOpFailed ofpqofcBadPort oh
      else replyError sender ofpetQueueOpFailed ofpqofcBadPort oh

/-! ### Vendors -/

/-- `DESC_STR_LEN`. -/
def descStrLen : ℕ := 256

/-- `strncpy` from an offset of a message: bytes up to a zero byte, which fills the rest. -/
def strncpy (oh : Memory) : ℕ → ℕ → ControlM (List Byte)
  | 0, _ => pure []
  | n + 1, off => do
      let c ← read8 oh off
      if c = 0 then pure (List.replicate (n + 1) 0)
      else do
        let cs ← strncpy oh n (off + 1)
        pure (c :: cs)

/-- `recv_of_set_dp_desc`. -/
def recvOfSetDpDesc (oh : Memory) : ControlM PUnit := do
  let dpDesc ← strncpy oh descStrLen 16
  -- force null for safety
  modify fun ctl => { ctl with dpDesc := dpDesc.set (descStrLen - 1) 0 }

/-- `of_ext_recv_msg`. -/
def ofExtRecvMsg (env : Surroundings) (sender : Sender) (oh : Memory) : ControlM ℤ := do
  let subtype ← read32 oh 12
  match subtype.toNat with
  -- OFP_EXT_QUEUE_MODIFY
  | 0 => do
      recvOfExpQueueModify env sender oh
      pure 0
  -- OFP_EXT_QUEUE_DELETE
  | 1 => do
      recvOfExpQueueDelete sender oh
      pure 0
  -- OFP_EXT_SET_DESC
  | 2 => do
      recvOfSetDpDesc oh
      pure 0
  | _ => pure (-eInval)

/-- `private_recv_msg`. -/
def privateRecvMsg (env : Surroundings) (sender : Sender) (oh : Memory) : ControlM ℤ := do
  let pvoType ← read16 oh 12
  match pvoType.toNat with
  | 1 | 2 | 4 => pure 0
  -- PRIVATEOPT_EMERG_FLOW_PROTECTION
  | 3 => do
      let ctl ← get
      let (dp, outputs) := ctl.toDatapath.emergFlowProtection env.now
      setDatapath dp
      performAll env sender oh outputs
      pure 0
  | _ => pure (-eInval)

/-- `PRIVATE_VENDOR_ID`. -/
def privateVendorId : BitVec 32 := 0x00acde48

/-- `OPENFLOW_VENDOR_ID`. -/
def openflowVendorId : BitVec 32 := 0x000026e1

/-- `recv_vendor`. -/
def recvVendor (env : Surroundings) (sender : Sender) (oh : Memory) : ControlM ℤ := do
  let vendor ← read32 oh 8
  if vendor = privateVendorId then privateRecvMsg env sender oh
  else if vendor = openflowVendorId then ofExtRecvMsg env sender oh
  else do
    replyError sender ofpetBadRequest ofpbrcBadVendor oh
    pure (-eInval)

/-! ### Dispatch -/

/-- `min_size` and `handler` for a type of message. -/
def handlerOf (env : Surroundings) :
    OfpType → Option (ℕ × (Sender → Memory → ControlM ℤ))
  | .barrierRequest => some (sizeofOfpHeader, recvBarrierRequest)
  | .featuresRequest => some (sizeofOfpHeader, fun sender _ => recvFeaturesRequest sender)
  | .getConfigRequest => some (sizeofOfpHeader, fun sender _ => recvGetConfigRequest sender)
  | .setConfig => some (sizeofOfpSwitchConfig, fun _ oh => recvSetConfig oh)
  | .packetOut => some (16, fun _ _ => recvPacketOut)
  | .flowMod => some (sizeofOfpFlowMod, Control.recvFlow env)
  | .portMod => some (32, fun _ oh => recvPortMod oh)
  | .statsRequest => some (sizeofOfpStatsRequest, recvStatsRequest)
  | .echoRequest => some (sizeofOfpHeader, recvEchoRequest)
  | .echoReply => some (sizeofOfpHeader, fun _ _ => recvEchoReply)
  -- the size of the request is another one
  | .queueGetConfigRequest => some (sizeofOfpHeader, recvQueueGetConfigRequest)
  | .vendor => some (12, recvVendor env)
  | .hello | .error | .featuresReply | .getConfigReply | .packetIn | .flowRemoved | .portStatus
  | .statsReply | .barrierReply | .queueGetConfigReply => none

/-- `fwd_control_input` on a message in a buffer of `length` bytes. -/
def fwdControlInput (env : Surroundings) (sender : Sender) (msg : Memory) (length : ℕ) :
    ControlM ℤ := do
  let ohLength ← readLength msg
  if length < ohLength then pure (-eInval)
  else do
    let version ← read8 msg 0
    if version ≠ ofpVersion then fail .version
    else do
      let type ← read8 msg 1
      match (OfpType.ofBitVec type).bind (handlerOf env) with
      | none => do
          dpSendErrorMsg sender ofpetBadRequest ofpbrcBadType msg length
          pure (-eInval)
      | some (minSize, handler) =>
          if length < minSize then pure (-eFault) else handler sender msg

/-- The part of `remote_run` that handles a message. -/
def receive (env : Surroundings) (remote : Remote) (msg : OfpMessage) : ControlM ℤ :=
  fwdControlInput env ⟨remote, msg.xid⟩ msg.mem msg.length

end OfAgent
