import OfAgent.Conn.Rconn
import OfAgent.Control.Reads
import OfAgent.Secchan.LearningSwitch
import OfAgent.Secchan.ProtocolStat
import OfAgent.Secchan.RateLimit
import OfAgent.Secchan.Relay
import OfAgent.Stp.Operations

/-!
# Inspection of received messages

What looks at a message between the transport and its destination: `rconn_recv`, which counts it,
and the hooks of the secure channel. All that is known before is that the message has a header and
is as long as this says. The functions are those of the other modules, with their reads; logs of
whole messages are off.

* `Inspect.rconnRecv`, `Inspect.ofpstatIncProtocolStat`: the receive path.
* `Hook`: the hooks that have a callback for messages, each with what decides how it reads them.
* `Inspect.receive`: a message is received and shown to the hooks.
* `readsWithin_receive_iff`: it is read only where it is, exactly when it is
  `OfpMessage.Inspectable`: neither the counters nor the hook for statistics look whether the fields
  they read are there.
-/

namespace OfAgent

/-! ### Constants -/

/-- `sizeof(struct nicira_header)`. -/
def sizeofNiciraHeader : ℕ := 16

/-- `NX_VENDOR_ID`. -/
def nxVendorId : BitVec 32 := 0x00002320

/-- `NXT_STATUS_REQUEST`. -/
def nxtStatusRequest : BitVec 32 := 0

/-- `OFPR_ACTION`. -/
def ofprAction : BitVec 8 := 1

/-- `STP_LLC_DSAP`. -/
def stpLlcDsap : BitVec 8 := 0x42

/-- `OFP_TCP_PORT` and `OFP_SSL_PORT`. -/
def ofpTcpPort : BitVec 16 := 6633

/-! ### State -/

/-- What decides how `rconn_recv` looks at a message. -/
structure Receipt where
  /-- The connection has a monitor. -/
  monitored : Bool
  /-- The state. -/
  state : RconnState
  /-- The transaction that an answer to a probe is compared with. -/
  idleEchoXid : BitVec 32
  /-- What has been counted. -/
  ofpsRcvd : OfpStat

/-- `struct switch_status_category`. -/
structure StatusCategory where
  /-- The name. -/
  name : List Byte
  /-- The lines that its callback puts into a reply, one after the other, with the name of the
  category and a newline. -/
  lines : List (List Byte)

/-- `struct in_band_data`, as far as it decides how a message is read. -/
structure InBand where
  /-- The address of `of_device`, if this is there. -/
  ofDevice : Option (BitVec 48)
  /-- What `get_controller_mac` returns. -/
  controllerMac : Option (BitVec 48)
  /-- What `mac_learning_lookup` returns when it is asked. -/
  ml : BitVec 48 → BitVec 16

/-- The hooks with a callback for messages, when a message gets to them. -/
inductive Hook
  /-- `port_watcher_hook_class`. -/
  | portWatcher (pw : PortWatcher)
  /-- `stp_hook_class`. -/
  | stp (pw : PortWatcher) (stp : Stp)
  /-- `in_band_hook_class`. -/
  | inBand (inBand : InBand)
  /-- `fail_open_hook_class`. -/
  | failOpen (remoteConnected : Bool) (lswitch : Option Lswitch)
  /-- `protocol_stat_hook_class`. -/
  | protocolStat
  /-- `switch_status_hook_class`. -/
  | switchStatus (categories : List StatusCategory)
  /-- `rate_limit_hook_class`. -/
  | rateLimit (rl : RateLimiter)

namespace Inspect

variable (msg : OfpMessage)

/-! ### The receive path -/

/-- `inc_error_notification`. -/
def incErrorNotification (ifps : OfpStat) : InspectM OfpStat := do
  let errtype ← read16 msg.mem 8
  let errcode ← read16 msg.mem 10
  let tags := .errorType (errorTypeTag errtype.toNat) ::
    ((errorCodeTag errtype.toNat errcode.toNat).map OfpStatField.errorCode).toList
  pure (tags.foldl OfpStat.inc ifps)

/-- `inc_flow_manipulation`. -/
def incFlowManipulation (ifps : OfpStat) : InspectM OfpStat := do
  let flowmodops ← read16 msg.mem 56
  pure (ifps.inc (.flowModOps (flowManipulationTag flowmodops.toNat)))

/-- `ofpstat_inc_protocol_stat`. -/
def ofpstatIncProtocolStat (ifps : OfpStat) : InspectM OfpStat := do
  let type ← readType msg.mem
  let ifps := (ifps.inc .total).inc (protocolMessageTag type)
  match type with
  | some .error => incErrorNotification msg ifps
  | some .flowMod => incFlowManipulation msg ifps
  | _ => pure ifps

/-- `copy_to_monitor`. -/
def copyToMonitor (monitored : Bool) : InspectM PUnit :=
  if monitored then do
    let _clone ← readBytes msg.mem 0 msg.length
    pure ⟨⟩
  else pure ⟨⟩

/-- The end of `rconn_recv`, which checks the liveliness of a peer. -/
def checkLiveliness (rc : Receipt) : InspectM PUnit :=
  if rc.state = .idle then do
    let type ← readType msg.mem
    if type = some .echoReply ∧ rc.idleEchoXid ≠ 0 then do
      let _xid ← read32 msg.mem 4
      pure ⟨⟩
    else pure ⟨⟩
  else pure ⟨⟩

/-- `rconn_recv`, with the message that `vconn_recv` returns: the counters behind it. -/
def rconnRecv (rc : Receipt) : InspectM OfpStat := do
  copyToMonitor msg rc.monitored
  -- is_admitted_msg
  let _type ← readType msg.mem
  let ofpsRcvd ← ofpstatIncProtocolStat msg rc.ofpsRcvd
  checkLiveliness msg rc
  pure ofpsRcvd

/-! ### Packets -/

/-- `get_ofp_packet_in`: the message is a packet. -/
def getOfpPacketIn : InspectM Bool := do
  let type ← readType msg.mem
  pure (type = some .packetIn ∧ offsetofOfpPacketInData ≤ msg.length)

/-- `get_ofp_packet_eth_header`: it is a packet with an Ethernet header. -/
def getOfpPacketEthHeader : InspectM Bool := do
  if ← getOfpPacketIn msg then do
    let length ← lengthWithout msg.mem 0
    pure (offsetofOfpPacketInData + ethHeaderLen ≤ length)
  else pure false

/-! ### The port watcher -/

/-- `update_phy_port`, with the port at an offset: the watcher. Unless it is deleted, all fields of
the port are compared or copied, and the state of the spanning tree is written. -/
def updatePhyPort (opp : ℕ) (reason : BitVec 8) (pw : PortWatcher) : InspectM PortWatcher := do
  let _portNo ← read16 msg.mem opp
  if reason = ofpprModify ∨ reason = ofpprAdd then do
    let _opp ← readBytes msg.mem opp sizeofOfpPhyPort
  pure (pw.updatePhyPort (.ofMemory msg.mem opp) reason)

/-- The loop over the ports in a description of the datapath: the numbers that have been seen, and
the watcher. -/
def updateListed (opp : ℕ) : ℕ → PortWatcher → InspectM (List (BitVec 16) × PortWatcher)
  | 0, pw => pure ([], pw)
  | n + 1, pw => do
      let pw ← updatePhyPort msg opp ofpprModify pw
      let portNo ← read16 msg.mem opp
      let (seen, pw) ← updateListed (opp + sizeofOfpPhyPort) n pw
      pure (portNo :: seen, pw)

/-- `port_watcher_local_packet_cb`: the watcher. -/
def portWatcherLocalPacketCb (pw : PortWatcher) : InspectM PortWatcher := do
  let type ← readType msg.mem
  if type = some .featuresReply ∧ sizeofOfpSwitchFeatures ≤ msg.length then do
    let _datapathId ← readBytes msg.mem 8 8
    let nPorts := (msg.length - sizeofOfpSwitchFeatures) / sizeofOfpPhyPort
    let (seen, pw) ← updateListed msg sizeofOfpSwitchFeatures nPorts pw
    -- the ports that are deleted are those of the watcher
    let pw := PortWatcher.portNumbers.foldl (PortWatcher.deleteUnseen seen) pw
    pure pw.callLocalPortChangedCallbacks
  else if type = some .portStatus ∧ PortWatcher.sizeofOfpPortStatus ≤ msg.length then do
    let reason ← read8 msg.mem 8
    let pw ← updatePhyPort msg 16 reason pw
    let portNo ← read16 msg.mem 16
    let _reason ← read8 msg.mem 8
    pure (if portNo = ofppLocal then pw.callLocalPortChangedCallbacks else pw)
  else pure pw

/-- `port_watcher_remote_packet_cb`: the watcher. -/
def portWatcherRemotePacketCb (pw : PortWatcher) : InspectM PortWatcher := do
  let type ← readType msg.mem
  if type = some .portMod ∧ PortWatcher.sizeofOfpPortMod ≤ msg.length then do
    let portNo ← read16 msg.mem 8
    match pw.ports portNo with
    | none => Monitored.fail .nullPointer
    | some old => do
        if old.portNo ≠ ofppNone then do
          let _mask ← read32 msg.mem 20
          let _config ← read32 msg.mem 16
        match pw.remotePacketCb msg with
        | .ok pw => pure pw
        | .error _ => Monitored.fail .nullPointer
  else pure pw

/-! ### Requests for statistics and for the status -/

/-- `protocol_stat_remote_packet_cb`: whether it takes the message. -/
def protocolStatRemotePacketCb : InspectM Bool :=
  if msg.length < sizeofPrivateVxhdr then pure false
  else do
    let type ← readType msg.mem
    if type ≠ some .vendor then pure false
    else do
      let vxid ← read32 msg.mem 8
      if vxid ≠ privateVendorId then pure false
      else do
        let pvoType ← read16 msg.mem 12
        if pvoType ≠ privateoptProtocolStatsRequest then pure true
        else do
          let _xid ← read32 msg.mem 4
          let _vxid ← read32 msg.mem 8
          pure true

/-- `status_reply_put`: the line stays if it begins with the request, which has `length` bytes. -/
def statusReplyPut (length : ℕ) (output line : List Byte) : InspectM (List Byte) :=
  if line.length < length then pure output
  else do
    let request ← readBytes msg.mem sizeofNiciraHeader length
    pure (if line.take length = request then output ++ line else output)

/-- The callback of a category. -/
def statusReplyPutAll (length : ℕ) (output : List Byte) : List (List Byte) → InspectM (List Byte)
  | [] => pure output
  | line :: lines => do
      let output ← statusReplyPut msg length output line
      statusReplyPutAll length output lines

/-- The loop of `switch_status_remote_packet_cb`. -/
def putCategories (length : ℕ) (output : List Byte) : List StatusCategory → InspectM (List Byte)
  | [] => pure output
  | c :: cs => do
      let n := min c.name.length length
      let start ← readBytes msg.mem sizeofNiciraHeader n
      let output ← if c.name.take n = start then statusReplyPutAll msg length output c.lines
        else pure output
      putCategories length output cs

/-- `switch_status_remote_packet_cb`: the text of the reply, if there is one. -/
def switchStatusRemotePacketCb (categories : List StatusCategory) :
    InspectM (Option (List Byte)) :=
  if msg.length < sizeofNiciraHeader then pure none
  else do
    let type ← readType msg.mem
    if type ≠ some .vendor then pure none
    else do
      let vendor ← read32 msg.mem 8
      if vendor ≠ nxVendorId then pure none
      else do
        let subtype ← read32 msg.mem 12
        if subtype ≠ nxtStatusRequest then pure none
        else do
          let output ← putCategories msg (msg.length - sizeofNiciraHeader) [] categories
          let _xid ← read32 msg.mem 4
          pure (some output)

/-! ### The spanning tree -/

/-- `stp_received_bpdu`, with a message of the given size at an offset. -/
def stpReceivedBpdu (bpdu size : ℕ) (stp : Stp) (i : StpPortNo) : InspectM Stp :=
  if ¬ stp.Enabled i then pure stp
  else if size < 4 then pure stp
  else do
    let protocolId ← read16 msg.mem bpdu
    if protocolId ≠ 0 then pure stp
    else do
      let _version ← read8 msg.mem (bpdu + 2)
      let bpduType ← read8 msg.mem (bpdu + 3)
      if bpduType = 0x00 then
        if size < sizeofStpConfigBpdu then pure stp
        else do
          let config ← readBytes msg.mem bpdu sizeofStpConfigBpdu
          pure (stp.receivedConfigBpdu i (.ofBytes config))
      else if bpduType = 0x80 then
        if size ≠ 4 then pure stp else pure (stp.receivedTcnBpdu i)
      else pure stp

/-- `port_watcher_get_config`. -/
def portWatcherGetConfig (pw : PortWatcher) (portNo : BitVec 16) : BitVec 32 :=
  ((pw.ports portNo).map fun p => p.config).getD 0

/-- What `stp_local_packet_cb` does about a packet to the address of bridges: whether it takes it,
and the bridge. -/
def stpPacketIn (pw : PortWatcher) (stp : Stp) : InspectM (Bool × Stp) := do
  let portNo ← read16 msg.mem 14
  if hport : portNo.toNat < stpMaxPorts then
    if portWatcherGetConfig pw portNo &&& ofppcNoStp ≠ 0 then pure (false, stp)
    else do
      let reason ← read8 msg.mem 16
      if reason = ofprAction then pure (false, stp)
      else do
        let size ← lengthWithout msg.mem offsetofOfpPacketInData
        let flow ← flowExtract (packetInPayload msg.mem size) portNo
        if flow.dlType ≠ ofpDlTypeNotEthType then pure (false, stp)
        else if size < ethHeaderLen + llcHeaderLen then Monitored.fail .atAssert
        else do
          let dsap ← read8 msg.mem (offsetofOfpPacketInData + ethHeaderLen)
          if dsap ≠ stpLlcDsap then pure (false, stp)
          else do
            let ethType ← read16 msg.mem (offsetofOfpPacketInData + 12)
            -- trim off padding on payload
            let size := min size (ethType.toNat + ethHeaderLen)
            if ethHeaderLen + llcHeaderLen ≤ size then do
              let stp ← stpReceivedBpdu msg
                (offsetofOfpPacketInData + (ethHeaderLen + llcHeaderLen))
                (size - (ethHeaderLen + llcHeaderLen)) stp ⟨portNo.toNat, hport⟩
              pure (true, stp)
            else pure (true, stp)
  else pure (false, stp)

/-- `stp_local_packet_cb`: whether it takes the message, and the bridge. -/
def stpLocalPacketCb (pw : PortWatcher) (stp : Stp) : InspectM (Bool × Stp) := do
  let type ← readType msg.mem
  if type = some .featuresReply ∧ sizeofOfpSwitchFeatures ≤ msg.length then do
    -- OFPC_STP is added to them
    let _capabilities ← read32 msg.mem 24
    pure (false, stp)
  else if ← getOfpPacketEthHeader msg then do
    let ethDst ← read48 msg.mem offsetofOfpPacketInData
    if ethDst ≠ stpEthAddr then pure (false, stp) else stpPacketIn msg pw stp
  else pure (false, stp)

/-! ### In-band control -/

/-- `is_controller_mac`, with the address at an offset. -/
def isControllerMac (inBand : InBand) (off : ℕ) : InspectM Bool :=
  match inBand.controllerMac with
  | none => pure false
  | some mac => do
      let dlAddr ← read48 msg.mem off
      pure (mac = dlAddr)

/-- The packet is an ARP packet that has been sent by the controller to everybody. -/
def isControllerArp (inBand : InBand) : InspectM Bool := do
  let ethType ← read16 msg.mem (offsetofOfpPacketInData + 12)
  if ethType = ethTypeArp then do
    let ethDst ← read48 msg.mem offsetofOfpPacketInData
    -- eth_addr_is_broadcast
    if ethDst = -1 then isControllerMac msg inBand (offsetofOfpPacketInData + 6) else pure false
  else pure false

/-- The packet is OpenFlow traffic to or from the controller. -/
def isControllerTraffic (inBand : InBand) (flow : Flow) : InspectM Bool := do
  let ours ← if ← isControllerMac msg inBand offsetofOfpPacketInData then pure true
    else isControllerMac msg inBand (offsetofOfpPacketInData + 6)
  pure (ours && flow.dlType == ethTypeIp && flow.nwProto == ipTypeTcp &&
    (flow.tpSrc == ofpTcpPort || flow.tpDst == ofpTcpPort))

/-- `out_port` of `in_band_local_packet_cb`, unless the packet is left alone; there is no port for a
packet that is dropped. -/
def inBandOutPort (inBand : InBand) (device : BitVec 48) (inPort : BitVec 16) (flow : Flow) :
    InspectM (Option (Option (BitVec 16))) := do
  let ethDst ← read48 msg.mem offsetofOfpPacketInData
  if inPort = ofppLocal then pure (some (some (inBand.ml ethDst)))
  else if ethDst = device then do
    -- in_band_learn_mac
    let _ethSrc ← read48 msg.mem (offsetofOfpPacketInData + 6)
    pure (some (some ofppLocal))
  else if ← isControllerArp msg inBand then pure (some (some ofppFlood))
  else if ← isControllerTraffic msg inBand flow then do
    let _ethSrc ← read48 msg.mem (offsetofOfpPacketInData + 6)
    let ethDst ← read48 msg.mem offsetofOfpPacketInData
    pure (some (some (inBand.ml ethDst)))
  else if ← isControllerArp msg inBand then pure (some (some ofppFlood))
  else if ← isControllerMac msg inBand offsetofOfpPacketInData then
    pure (if inBand.controllerMac.map inBand.ml = some inPort then some none else none)
  else pure none

/-- `in_band_local_packet_cb`: whether it takes the message. -/
def inBandLocalPacketCb (inBand : InBand) : InspectM Bool := do
  if ← getOfpPacketEthHeader msg then
    match inBand.ofDevice with
    | none => pure false
    | some device => do
        let inPort ← read16 msg.mem 14
        let size ← lengthWithout msg.mem offsetofOfpPacketInData
        let payload := packetInPayload msg.mem size
        let flow ← flowExtract payload inPort
        match ← inBandOutPort msg inBand device inPort flow with
        | none => pure false
        | some outPort => do
            let bufferId ← read32 msg.mem 8
            -- with or without a flow, the packet is sent along if the switch did not buffer it
            if outPort ≠ some inPort ∧ bufferId = noBuffer then makeUnbufferedPacketOut payload
            pure true
  else pure false

/-! ### Failing open and limiting the rate -/

/-- `fail_open_local_packet_cb`: whether it takes the message. -/
def failOpenLocalPacketCb (remoteConnected : Bool) (lswitch : Option Lswitch) : InspectM Bool :=
  match lswitch with
  | none => pure false
  | some sw =>
      if remoteConnected then pure false
      else do
        let _lswitch ← lswitchProcessPacket sw msg
        pure true

/-- `rate_limit_local_packet_cb`: whether it takes the message. -/
def rateLimitLocalPacketCb (rl : RateLimiter) : InspectM Bool := do
  if ← getOfpPacketIn msg then do
    let reason ← read8 msg.mem 16
    if reason = ofprAction then pure false
    else if rl.nQueued = 0 ∧ 1000 ≤ rl.tokens then pure false
    else do
      let _inPort ← read16 msg.mem 14
      let _clone ← readBytes msg.mem 0 msg.length
      pure true
  else pure false

/-! ### All of them -/

/-- `local_packet_cb` of a hook, if it has one. -/
def localPacketCb : Hook → Option (InspectM Bool)
  | .portWatcher pw => some do
      let _pw ← portWatcherLocalPacketCb msg pw
      pure false
  | .stp pw stp => some do
      let (taken, _stp) ← stpLocalPacketCb msg pw stp
      pure taken
  | .inBand inBand => some (inBandLocalPacketCb msg inBand)
  | .failOpen remoteConnected lswitch => some (failOpenLocalPacketCb msg remoteConnected lswitch)
  | .rateLimit rl => some (rateLimitLocalPacketCb msg rl)
  | .protocolStat | .switchStatus _ => none

/-- `remote_packet_cb` of a hook, if it has one. -/
def remotePacketCb : Hook → Option (InspectM Bool)
  | .portWatcher pw => some do
      let _pw ← portWatcherRemotePacketCb msg pw
      pure false
  | .protocolStat => some (protocolStatRemotePacketCb msg)
  | .switchStatus categories => some do
      let reply ← switchStatusRemotePacketCb msg categories
      pure reply.isSome
  | .stp _ _ | .inBand _ | .failOpen _ _ | .rateLimit _ => none

/-- `call_local_packet_cbs` and `call_remote_packet_cbs`: whether a hook takes the message. -/
def callPacketCbs : List (Option (InspectM Bool)) → InspectM Bool
  | [] => pure false
  | none :: cbs => callPacketCbs cbs
  | some cb :: cbs => do
      if ← cb then pure true else callPacketCbs cbs

end Inspect

/-- Whose connection a message is received on. -/
inductive Receiver
  /-- One of the datapath, or a half of a relay that has no hooks. -/
  | datapath
  /-- A half of a relay of the secure channel. The one for asynchronous events counts as local. -/
  | secchan (half : HalfIndex) (isMgmtConn : Bool)
  deriving DecidableEq, Repr

namespace Inspect

/-- The callbacks that a message is shown to. -/
def packetCbs (msg : OfpMessage) (hooks : List Hook) : Receiver → List (Option (InspectM Bool))
  | .datapath => []
  | .secchan .halfRemote _ => hooks.map (remotePacketCb msg)
  | .secchan .halfLocal isMgmtConn => if isMgmtConn then [] else hooks.map (localPacketCb msg)

/-- A message is received and shown to the hooks: whether one of them takes it. -/
def receive (receiver : Receiver) (rc : Receipt) (hooks : List Hook) (msg : OfpMessage) :
    InspectM Bool := do
  let _ofpsRcvd ← rconnRecv msg rc
  callPacketCbs (packetCbs msg hooks receiver)

end Inspect

/-! ### The condition -/

/-- What is read without a look at the length of the message is there. -/
structure OfpMessage.Inspectable (msg : OfpMessage) (receiver : Receiver) : Prop where
  /-- What decides the classes of the message. -/
  complete : msg.Complete
  /-- The option of a private message from the controller has a type. -/
  privateOption : ∀ isMgmtConn, receiver = .secchan .halfRemote isMgmtConn →
    msg.type = some .vendor → sizeofPrivateVxhdr ≤ msg.length → msg.vendor = privateVendorId →
      sizeofPrivateVxhdr + 2 ≤ msg.length

namespace Inspect

variable (msg : OfpMessage)

/-! ### What the receive path reads -/

/-- Counting reads only the message, exactly when what decides its classes is there. -/
theorem readsWithin_ofpstatIncProtocolStat_iff {P : OfpStat → Prop} (ifps : OfpStat) :
    ReadsWithin msg.length (ofpstatIncProtocolStat msg ifps) P ↔
      msg.Complete ∧ P (ifps.incProtocolStat msg) := by
  have hlen := msg.length_ge
  have hinc : ifps.incProtocolStat msg =
      msg.detailTags.foldl OfpStat.inc ((ifps.inc .total).inc (protocolMessageTag msg.type)) := rfl
  have htype : OfpType.ofBitVec (msg.mem 1) = msg.type := rfl
  unfold ofpstatIncProtocolStat
  rw [readsWithin_bind, readsWithin_readType, htype, hinc]
  split
  next herror =>
    -- an error has a type and a code
    have hne : msg.type ≠ some .flowMod := by
      rw [herror]
      decide
    have hdetail : msg.detailTags = .errorType (errorTypeTag msg.errtype) ::
        ((errorCodeTag msg.errtype msg.errcode).map OfpStatField.errorCode).toList := by
      rw [OfpMessage.detailTags, herror]
    simp only [incErrorNotification, readsWithin_bind, readsWithin_read16, readsWithin_pure,
      hdetail]
    constructor
    · rintro ⟨-, -, h12, hP⟩
      exact ⟨⟨fun _ => h12, fun hmod => absurd hmod hne⟩, hP⟩
    · rintro ⟨hcomplete, hP⟩
      have h12 : 12 ≤ msg.length := hcomplete.error herror
      exact ⟨by omega, by omega, h12, hP⟩
  next hmod =>
    -- a flow modification has a command
    have hne : msg.type ≠ some .error := by
      rw [hmod]
      decide
    have hdetail : msg.detailTags = [.flowModOps (flowManipulationTag msg.flowmodops)] := by
      rw [OfpMessage.detailTags, hmod]
    simp only [incFlowManipulation, readsWithin_bind, readsWithin_read16, readsWithin_pure, hdetail]
    constructor
    · rintro ⟨-, h58, hP⟩
      exact ⟨⟨fun herror => absurd herror hne, fun _ => h58⟩, hP⟩
    · rintro ⟨hcomplete, hP⟩
      exact ⟨by omega, hcomplete.flowMod hmod, hP⟩
  next herror hmod =>
    -- no other message is looked into
    have hdetail : msg.detailTags = [] := by
      unfold OfpMessage.detailTags
      split
      next heq => exact absurd heq herror
      next heq => exact absurd heq hmod
      next => rfl
    rw [readsWithin_pure, hdetail]
    exact ⟨fun h => ⟨⟨fun heq => absurd heq herror, fun heq => absurd heq hmod⟩, h.2⟩,
      fun h => ⟨by omega, h.2⟩⟩

/-- A copy of the message is one of the whole message. -/
@[simp]
theorem readsWithin_copyToMonitor {P : PUnit → Prop} (monitored : Bool) :
    ReadsWithin msg.length (copyToMonitor msg monitored) P ↔ P ⟨⟩ := by
  cases monitored <;> simp [copyToMonitor]

/-- The transaction is a part of the header. -/
@[simp]
theorem readsWithin_checkLiveliness {P : PUnit → Prop} (rc : Receipt) :
    ReadsWithin msg.length (checkLiveliness msg rc) P ↔ P ⟨⟩ := by
  have h2 : 2 ≤ msg.length := le_trans (by decide) msg.length_ge
  have h8 : 4 + 4 ≤ msg.length := msg.length_ge
  simp only [checkLiveliness, readsWithin_ite, readsWithin_bind, readsWithin_readType,
    readsWithin_read32, readsWithin_pure, h2, h8, true_and]
  by_cases hidle : rc.state = .idle
  · simp only [hidle, true_implies, not_true, false_implies, and_true]
    exact ⟨fun h => (em _).elim h.1 h.2, fun h => ⟨fun _ => h, fun _ => h⟩⟩
  · simp [hidle]

/-- The receive path reads only the message, exactly when counting does. -/
theorem readsWithin_rconnRecv_iff {P : OfpStat → Prop} (rc : Receipt) :
    ReadsWithin msg.length (rconnRecv msg rc) P ↔
      msg.Complete ∧ P (rc.ofpsRcvd.incProtocolStat msg) := by
  have h2 : 2 ≤ msg.length := le_trans (by decide) msg.length_ge
  simp only [rconnRecv, readsWithin_bind, readsWithin_copyToMonitor, readsWithin_readType, h2,
    readsWithin_ofpstatIncProtocolStat_iff, readsWithin_checkLiveliness, readsWithin_pure, true_and]

/-! ### What the hooks read -/

/-- The port at an offset is read as far as it is there. -/
theorem readsWithin_updatePhyPort {opp : ℕ} (h : opp + sizeofOfpPhyPort ≤ msg.length)
    (reason : BitVec 8) (pw : PortWatcher) :
    ReadsWithin msg.length (updatePhyPort msg opp reason pw)
      (· = pw.updatePhyPort (.ofMemory msg.mem opp) reason) := by
  have h2 : opp + 2 ≤ msg.length := le_trans (Nat.add_le_add_left (by decide) opp) h
  simp only [updatePhyPort, readsWithin_bind, readsWithin_read16, readsWithin_ite,
    readsWithin_readBytes, readsWithin_pure, h, h2, and_true, implies_true]

/-- The ports from an offset on. -/
theorem readsWithin_updateListed {n opp : ℕ} (h : opp + sizeofOfpPhyPort * n ≤ msg.length)
    (pw : PortWatcher) : ReadsWithin msg.length (updateListed msg opp n pw) fun r =>
      let listed := (List.range n).map fun i =>
        OfpPhyPortDesc.ofMemory msg.mem (opp + sizeofOfpPhyPort * i)
      r = (listed.map fun opp => opp.portNo,
        listed.foldl (fun pw opp => pw.updatePhyPort opp ofpprModify) pw) := by
  induction n generalizing opp pw with
  | zero => simp [updateListed]
  | succ n ih =>
    rw [Nat.mul_succ] at h
    rw [updateListed]
    refine (readsWithin_updatePhyPort msg (by omega) _ pw).bind_eq ?_
    have h48 : sizeofOfpPhyPort = 48 := rfl
    rw [readsWithin_bind, readsWithin_read16]
    refine ⟨by omega, ?_⟩
    rw [readsWithin_bind]
    refine (ih (by omega) _).mono fun r hr => ?_
    subst hr
    have hnext : ∀ i, opp + sizeofOfpPhyPort * (i + 1) =
        opp + sizeofOfpPhyPort + sizeofOfpPhyPort * i := by
      intro i
      rw [Nat.mul_succ]
      omega
    simp only [readsWithin_pure, List.range_succ_eq_map, List.map_cons, List.map_map,
      Function.comp_def, List.foldl_cons, hnext, Nat.mul_zero, Nat.add_zero]
    rfl

/-- What the port watcher reads of a message of the datapath is there, and the watcher is as it
should be. -/
theorem readsWithin_portWatcherLocalPacketCb (pw : PortWatcher) :
    ReadsWithin msg.length (portWatcherLocalPacketCb msg pw) (· = pw.localPacketCb msg) := by
  have hlen := msg.length_ge
  have htype : OfpType.ofBitVec (msg.mem 1) = msg.type := rfl
  unfold portWatcherLocalPacketCb PortWatcher.localPacketCb
  rw [readsWithin_bind, readsWithin_readType, htype, readsWithin_ite]
  refine ⟨by omega, fun hfeatures => ?_, fun hfeatures => ?_⟩
  · rw [if_pos hfeatures]
    have h32 : 32 ≤ msg.length := hfeatures.2
    -- the list of ports ends within the message
    have hports : sizeofOfpSwitchFeatures + sizeofOfpPhyPort *
        ((msg.length - sizeofOfpSwitchFeatures) / sizeofOfpPhyPort) ≤ msg.length := by
      have hmul := Nat.mul_div_le (msg.length - sizeofOfpSwitchFeatures) sizeofOfpPhyPort
      have hsize := hfeatures.2
      omega
    simp only [readsWithin_bind, readsWithin_readBytes]
    refine ⟨by omega, (readsWithin_updateListed msg hports pw).mono fun r hr => ?_⟩
    subst hr
    exact (readsWithin_pure _).2 rfl
  · rw [if_neg hfeatures, readsWithin_ite]
    refine ⟨fun hstatus => ?_, fun hstatus => ?_⟩
    · rw [if_pos hstatus]
      have h64 : 64 ≤ msg.length := hstatus.2
      have hdesc : 16 + sizeofOfpPhyPort ≤ msg.length := h64
      simp only [readsWithin_bind, readsWithin_read8]
      refine ⟨by omega, ?_⟩
      refine (readsWithin_updatePhyPort msg hdesc _ pw).mono fun pw' hpw' => ?_
      subst hpw'
      simp only [readsWithin_read16, readsWithin_pure]
      exact ⟨by omega, by omega, rfl⟩
    · rw [if_neg hstatus, readsWithin_pure]

/-- So it is for a message of the controller, unless a null pointer is followed. -/
theorem readsWithin_portWatcherRemotePacketCb (pw : PortWatcher) :
    ReadsWithin msg.length (portWatcherRemotePacketCb msg pw) fun pw' =>
      pw.remotePacketCb msg = .ok pw' := by
  have hlen := msg.length_ge
  have htype : OfpType.ofBitVec (msg.mem 1) = msg.type := rfl
  unfold portWatcherRemotePacketCb
  rw [readsWithin_bind, readsWithin_readType, htype, readsWithin_ite]
  refine ⟨by omega, fun hmod => ?_, fun hmod => ?_⟩
  · have h32 : 32 ≤ msg.length := hmod.2
    rw [readsWithin_bind, readsWithin_read16]
    refine ⟨by omega, ?_⟩
    cases hport : pw.ports (msg.mem.get16 8) with
    | none => exact readsWithin_fail _
    | some old =>
      -- a port that is there is not followed as a null pointer
      have hresult : ReadsWithin msg.length
          (match pw.remotePacketCb msg with
            | .ok pw => pure pw
            | .error _ => Monitored.fail .nullPointer : InspectM PortWatcher)
          fun pw' => pw.remotePacketCb msg = .ok pw' := by
        cases hcb : pw.remotePacketCb msg with
        | error e => exact readsWithin_fail _
        | ok pw' => exact (readsWithin_pure _).2 rfl
      simp only [readsWithin_bind, readsWithin_ite, readsWithin_read32]
      exact ⟨fun _ => ⟨by omega, by omega, hresult⟩, fun _ => hresult⟩
  · rw [readsWithin_pure]
    unfold PortWatcher.remotePacketCb
    rw [if_neg hmod]

/-- The hook for statistics reads only the message, exactly when the type of its option is there;
and it takes those messages that it should. -/
theorem readsWithin_protocolStatRemotePacketCb_iff {P : Bool → Prop} {τ : Type*} (s : StatRun τ) :
    ReadsWithin msg.length (protocolStatRemotePacketCb msg) P ↔
      (msg.type = some .vendor → sizeofPrivateVxhdr ≤ msg.length → msg.vendor = privateVendorId →
        sizeofPrivateVxhdr + 2 ≤ msg.length) ∧ P (s.protocolStatRemotePacketCb msg).1 := by
  have hlen := msg.length_ge
  have htype : OfpType.ofBitVec (msg.mem 1) = msg.type := rfl
  have hvendor : msg.mem.get32 8 = msg.vendor := rfl
  have h12 : sizeofPrivateVxhdr = 12 := rfl
  unfold protocolStatRemotePacketCb StatRun.protocolStatRemotePacketCb
  by_cases hshort : msg.length < sizeofPrivateVxhdr
  · rw [if_pos hshort, if_pos hshort, readsWithin_pure]
    exact ⟨fun h => ⟨fun _ hle => by omega, h⟩, fun h => h.2⟩
  rw [if_neg hshort, if_neg hshort, readsWithin_bind, readsWithin_readType, htype]
  by_cases htypev : msg.type = some .vendor
  · rw [if_neg (not_not.2 htypev), if_neg (not_not.2 htypev), readsWithin_bind, readsWithin_read32,
      hvendor]
    -- the type of the option is read only behind these tests
    by_cases hprivate : msg.vendor = privateVendorId
    · rw [if_neg (not_not.2 hprivate), if_neg (not_not.2 hprivate), readsWithin_bind,
        readsWithin_read16]
      by_cases hrequest : msg.mem.get16 12 = privateoptProtocolStatsRequest
      · simp only [hrequest, ne_eq, not_true, if_false, readsWithin_bind, readsWithin_read32,
          readsWithin_pure]
        constructor
        · rintro ⟨-, -, h14, -, -, hP⟩
          exact ⟨fun _ _ _ => h14, hP⟩
        · rintro ⟨h, hP⟩
          have h14 := h htypev (not_lt.1 hshort) hprivate
          exact ⟨by omega, by omega, by omega, by omega, by omega, hP⟩
      · simp only [hrequest, ne_eq, not_false_iff, if_true, readsWithin_pure]
        constructor
        · rintro ⟨-, -, h14, hP⟩
          exact ⟨fun _ _ _ => h14, hP⟩
        · rintro ⟨h, hP⟩
          have h14 := h htypev (not_lt.1 hshort) hprivate
          exact ⟨by omega, by omega, by omega, hP⟩
    · rw [if_pos hprivate, if_pos hprivate, readsWithin_pure]
      exact ⟨fun h => ⟨fun _ _ heq => absurd heq hprivate, h.2.2⟩,
        fun h => ⟨by omega, by omega, h.2⟩⟩
  · rw [if_pos htypev, if_pos htypev, readsWithin_pure]
    exact ⟨fun h => ⟨fun heq => absurd heq htypev, h.2⟩, fun h => ⟨by omega, h.2⟩⟩

/-- The lines of a category are compared with the request only. -/
theorem readsWithin_statusReplyPutAll {length : ℕ} (h : sizeofNiciraHeader + length ≤ msg.length)
    (output : List Byte) (lines : List (List Byte)) :
    ReadsWithin msg.length (statusReplyPutAll msg length output lines) fun _ => True := by
  induction lines generalizing output with
  | nil => simp [statusReplyPutAll]
  | cons line lines ih =>
    simp only [statusReplyPutAll, statusReplyPut, readsWithin_bind, readsWithin_ite,
      readsWithin_pure, readsWithin_readBytes]
    exact ⟨fun _ => ih output, fun _ => ⟨h, ih _⟩⟩

/-- So are the names of the categories. -/
theorem readsWithin_putCategories {length : ℕ} (h : sizeofNiciraHeader + length ≤ msg.length)
    (output : List Byte) (categories : List StatusCategory) :
    ReadsWithin msg.length (putCategories msg length output categories) fun _ => True := by
  induction categories generalizing output with
  | nil => simp [putCategories]
  | cons c cs ih =>
    simp only [putCategories, readsWithin_bind, readsWithin_readBytes, readsWithin_ite,
      readsWithin_pure]
    refine ⟨by omega, fun _ => ?_, fun _ => ih output⟩
    exact (readsWithin_statusReplyPutAll msg h output c.lines).mono fun output _ => ih output

/-- A request for the status is read up to its end. -/
theorem readsWithin_switchStatusRemotePacketCb (categories : List StatusCategory) :
    ReadsWithin msg.length (switchStatusRemotePacketCb msg categories) fun reply =>
      msg.length < sizeofNiciraHeader → reply = none := by
  have hlen := msg.length_ge
  have h16 : sizeofNiciraHeader = 16 := rfl
  unfold switchStatusRemotePacketCb
  rw [readsWithin_ite, readsWithin_pure]
  refine ⟨fun _ _ => rfl, fun hsize => ?_⟩
  have hrequest : sizeofNiciraHeader + (msg.length - sizeofNiciraHeader) ≤ msg.length := by omega
  simp only [readsWithin_bind, readsWithin_readType, readsWithin_ite, readsWithin_read32,
    readsWithin_pure, implies_true, hsize, false_implies, true_and, and_true]
  refine ⟨by omega, fun _ => ⟨by omega, fun _ => ⟨by omega, fun _ => ?_⟩⟩⟩
  exact (readsWithin_putCategories msg hrequest [] categories).mono fun _ _ => by omega

/-! A packet and its Ethernet header. -/

/-- `get_ofp_packet_in` reads the type. -/
@[simp]
theorem readsWithin_getOfpPacketIn {P : Bool → Prop} :
    ReadsWithin msg.length (getOfpPacketIn msg) P ↔
      P (msg.type = some .packetIn ∧ offsetofOfpPacketInData ≤ msg.length) := by
  have h2 : 2 ≤ msg.length := le_trans (by decide) msg.length_ge
  simp only [getOfpPacketIn, readsWithin_bind, readsWithin_readType, readsWithin_pure, h2, true_and]
  exact Iff.rfl

/-- A packet with an Ethernet header has one. -/
theorem readsWithin_getOfpPacketEthHeader {P : Bool → Prop} (hfalse : P false)
    (htrue : offsetofOfpPacketInData + ethHeaderLen ≤ msg.length → P true) :
    ReadsWithin msg.length (getOfpPacketEthHeader msg) P := by
  have hlen := msg.length_ge
  simp only [getOfpPacketEthHeader, readsWithin_bind, readsWithin_getOfpPacketIn, readsWithin_ite,
    readsWithin_lengthWithout, readsWithin_pure]
  refine ⟨fun _ => ⟨by omega, Nat.zero_le _, ?_⟩, fun _ => hfalse⟩
  change P (decide (_ ≤ msg.length))
  by_cases hheader : offsetofOfpPacketInData + ethHeaderLen ≤ msg.length
  · rw [decide_eq_true hheader]
    exact htrue hheader
  · rw [decide_eq_false hheader]
    exact hfalse

/-! Messages of the spanning tree. -/

theorem getD_slice {m : Memory} {off n k : ℕ} (h : k < n) :
    (m.slice off n).getD k 0 = m (off + k) := by
  simp [Memory.slice, h]

/-- A configuration message has a fixed size. -/
theorem ofBytes_slice {m : Memory} {off n : ℕ} (h : sizeofStpConfigBpdu ≤ n) :
    ConfigBpdu.ofBytes (m.slice off n) = .ofBytes (m.slice off sizeofStpConfigBpdu) := by
  have hget : ∀ k, k < 35 →
      (m.slice off n).getD k 0 = (m.slice off sizeofStpConfigBpdu).getD k 0 := by
    intro k hk
    have hk' : k < sizeofStpConfigBpdu := hk
    rw [getD_slice (lt_of_lt_of_le hk' h), getD_slice hk']
  have h16 : ∀ k, k + 1 < 35 →
      be16 (m.slice off n) k = be16 (m.slice off sizeofStpConfigBpdu) k := by
    intro k hk
    rw [be16, be16, hget k (by omega), hget (k + 1) hk]
  have h32 : ∀ k, k + 3 < 35 →
      be32 (m.slice off n) k = be32 (m.slice off sizeofStpConfigBpdu) k := by
    intro k hk
    rw [be32, be32, h16 k (by omega), h16 (k + 2) (by omega)]
  have h64 : ∀ k, k + 7 < 35 →
      be64 (m.slice off n) k = be64 (m.slice off sizeofStpConfigBpdu) k := by
    intro k hk
    rw [be64, be64, h32 k (by omega), h32 (k + 4) (by omega)]
  unfold ConfigBpdu.ofBytes
  rw [hget 4, h64 5, h32 13, h64 17, h16 25, h16 27, h16 29, h16 31, h16 33] <;> omega

/-- A message of the spanning tree is read as far as it is there, and received as it should be. -/
theorem readsWithin_stpReceivedBpdu {bpdu size : ℕ} (h : bpdu + size ≤ msg.length) (stp : Stp)
    (i : StpPortNo) : ReadsWithin msg.length (stpReceivedBpdu msg bpdu size stp i)
      (· = stp.receivedBpdu i (msg.mem.slice bpdu size)) := by
  unfold stpReceivedBpdu Stp.receivedBpdu
  rw [readsWithin_ite, Memory.length_slice]
  refine ⟨fun hdisabled => by simp [hdisabled], fun henabled => ?_⟩
  rw [if_neg henabled, readsWithin_ite]
  refine ⟨fun hsize => by simp [hsize], fun hsize => ?_⟩
  -- the slice has the bytes of the message
  have hid : be16 (msg.mem.slice bpdu size) 0 = msg.mem.get16 bpdu := by
    rw [be16, getD_slice (by omega), getD_slice (by omega)]
    rfl
  have htype : (msg.mem.slice bpdu size).getD 3 0 = msg.mem (bpdu + 3) := getD_slice (by omega)
  rw [if_neg hsize, hid, htype]
  simp only [readsWithin_bind, readsWithin_read16, readsWithin_read8, readsWithin_ite,
    readsWithin_pure, readsWithin_readBytes]
  refine ⟨by omega, fun hne => by rw [if_pos hne], fun heq => ⟨by omega, by omega, ?_⟩⟩
  rw [if_neg heq]
  generalize msg.mem (bpdu + 3) = bpduType
  refine ⟨fun hconfig => ?_, fun hconfig => ⟨fun htcn => ?_, fun htcn => ?_⟩⟩
  · subst hconfig
    refine ⟨fun hshort => (if_pos hshort).symm, fun hlong => ⟨by omega, ?_⟩⟩
    rw [ofBytes_slice (not_lt.1 hlong)]
    exact (if_neg hlong).symm
  · subst htcn
    exact ⟨fun hne => (if_pos hne).symm, fun heq => (if_neg heq).symm⟩
  · split
    next hzero => exact absurd (BitVec.eq_of_toNat_eq hzero) hconfig
    next htype => exact absurd (BitVec.eq_of_toNat_eq htype) htcn
    next => rfl

/-- A packet to the address of bridges is read up to its end. -/
theorem readsWithin_stpPacketIn (h : offsetofOfpPacketInData + ethHeaderLen ≤ msg.length)
    (pw : PortWatcher) (stp : Stp) :
    ReadsWithin msg.length (stpPacketIn msg pw stp) fun _ => True := by
  have hsize : (msg.mem.get16 2).toNat = msg.length := rfl
  have h18 : offsetofOfpPacketInData = 18 := rfl
  have h14 : ethHeaderLen = 14 := rfl
  have h3 : llcHeaderLen = 3 := rfl
  unfold stpPacketIn
  rw [readsWithin_bind, readsWithin_read16]
  refine ⟨by omega, ?_⟩
  by_cases hport : (msg.mem.get16 14).toNat < stpMaxPorts
  · rw [dif_pos hport]
    simp only [readsWithin_ite, readsWithin_bind, readsWithin_read8, readsWithin_lengthWithout,
      readsWithin_pure, hsize]
    refine ⟨fun _ => trivial,
      fun _ => ⟨by omega, fun _ => trivial, fun _ => ⟨by omega, by omega, ?_⟩⟩⟩
    have hpacket : offsetofOfpPacketInData ≤ msg.length := by omega
    have hend := packetInPayload_end_le (m := msg.mem) hpacket
    refine (readsWithin_flowExtract hend _).mono fun flow _ => ?_
    refine ⟨fun _ => trivial, fun _ => ⟨fun _ => readsWithin_fail _, fun hllc => ?_⟩⟩
    refine ⟨by omega, fun _ => trivial, fun _ => ?_⟩
    simp only [readsWithin_read16]
    refine ⟨by omega, fun _ => ?_, fun _ => trivial⟩
    exact (readsWithin_stpReceivedBpdu msg (by omega) stp _).mono fun _ _ => trivial
  · rw [dif_neg hport, readsWithin_pure]
    trivial

/-- The spanning tree reads only the message. -/
theorem readsWithin_stpLocalPacketCb (pw : PortWatcher) (stp : Stp) :
    ReadsWithin msg.length (stpLocalPacketCb msg pw stp) fun _ => True := by
  have hlen := msg.length_ge
  simp only [stpLocalPacketCb, readsWithin_bind, readsWithin_readType, readsWithin_ite,
    readsWithin_read32, readsWithin_pure]
  refine ⟨by omega, fun hfeatures => ?_, fun _ => ?_⟩
  · have h32 : 32 ≤ msg.length := hfeatures.2
    exact ⟨by omega, trivial⟩
  · refine readsWithin_getOfpPacketEthHeader msg (by simp) fun hheader => ?_
    have h32 : 18 + 14 ≤ msg.length := hheader
    have h18 : offsetofOfpPacketInData = 18 := rfl
    simp only [true_implies, readsWithin_read48, not_true, false_implies, and_true]
    exact ⟨by omega, fun _ => trivial, fun _ => readsWithin_stpPacketIn msg hheader pw stp⟩

/-! In-band control. -/

section InBand

variable {msg : OfpMessage} {P : Bool → Prop}

/-- An address that is compared with the one of the controller is inside the message. -/
theorem readsWithin_isControllerMac {off : ℕ} (h : off + 6 ≤ msg.length) (hP : ∀ b, P b)
    (inBand : InBand) : ReadsWithin msg.length (isControllerMac msg inBand off) P := by
  unfold isControllerMac
  split
  · exact (readsWithin_pure _).2 (hP _)
  · simp only [readsWithin_bind, readsWithin_read48, readsWithin_pure]
    exact ⟨h, hP _⟩

/-- The comparisons of an ARP packet stay in the Ethernet header. -/
theorem readsWithin_isControllerArp (h : offsetofOfpPacketInData + ethHeaderLen ≤ msg.length)
    (hP : ∀ b, P b) (inBand : InBand) : ReadsWithin msg.length (isControllerArp msg inBand) P := by
  change 18 + 14 ≤ msg.length at h
  have h18 : offsetofOfpPacketInData = 18 := rfl
  simp only [isControllerArp, readsWithin_bind, readsWithin_read16, readsWithin_ite,
    readsWithin_read48, readsWithin_pure]
  exact ⟨by omega, fun _ => ⟨by omega, fun _ => readsWithin_isControllerMac (by omega) hP inBand,
    fun _ => hP _⟩, fun _ => hP _⟩

/-- So do those of other packets. -/
theorem readsWithin_isControllerTraffic (h : offsetofOfpPacketInData + ethHeaderLen ≤ msg.length)
    (hP : ∀ b, P b) (inBand : InBand) (flow : Flow) :
    ReadsWithin msg.length (isControllerTraffic msg inBand flow) P := by
  change 18 + 14 ≤ msg.length at h
  have h18 : offsetofOfpPacketInData = 18 := rfl
  simp only [isControllerTraffic, readsWithin_bind, readsWithin_ite, readsWithin_pure]
  refine readsWithin_isControllerMac (by omega) (fun ours => ⟨fun _ => hP _, fun _ => ?_⟩) inBand
  exact readsWithin_isControllerMac (by omega) (fun _ => hP _) inBand

/-- So does the choice of the port. -/
theorem readsWithin_inBandOutPort (h : offsetofOfpPacketInData + ethHeaderLen ≤ msg.length)
    (inBand : InBand) (device : BitVec 48) (inPort : BitVec 16) (flow : Flow) :
    ReadsWithin msg.length (inBandOutPort msg inBand device inPort flow) fun _ => True := by
  have h32 : 18 + 14 ≤ msg.length := h
  have h18 : offsetofOfpPacketInData = 18 := rfl
  simp only [inBandOutPort, readsWithin_bind, readsWithin_read48, readsWithin_ite, readsWithin_pure]
  refine ⟨by omega, fun _ => trivial, fun _ => ⟨fun _ => ⟨by omega, trivial⟩, fun _ => ?_⟩⟩
  refine readsWithin_isControllerArp h (fun _ => ⟨fun _ => trivial, fun _ => ?_⟩) inBand
  refine readsWithin_isControllerTraffic h
    (fun _ => ⟨fun _ => ⟨by omega, by omega, trivial⟩, fun _ => ?_⟩) inBand flow
  refine readsWithin_isControllerArp h (fun _ => ⟨fun _ => trivial, fun _ => ?_⟩) inBand
  exact readsWithin_isControllerMac (by omega) (fun _ => ⟨fun _ => trivial, fun _ => trivial⟩)
    inBand

end InBand

/-- In-band control reads only the message. -/
theorem readsWithin_inBandLocalPacketCb (inBand : InBand) :
    ReadsWithin msg.length (inBandLocalPacketCb msg inBand) fun _ => True := by
  have hsize : (msg.mem.get16 2).toNat = msg.length := rfl
  have h18 : offsetofOfpPacketInData = 18 := rfl
  unfold inBandLocalPacketCb
  rw [readsWithin_bind]
  refine readsWithin_getOfpPacketEthHeader msg (by simp) fun hheader => ?_
  have h32 : 18 + 14 ≤ msg.length := hheader
  have hpacket : offsetofOfpPacketInData ≤ msg.length := by omega
  have hend := packetInPayload_end_le (m := msg.mem) hpacket
  rw [if_pos rfl]
  cases inBand.ofDevice with
  | none => simp
  | some device =>
    simp only [readsWithin_bind, readsWithin_read16, readsWithin_lengthWithout, hsize]
    refine ⟨by omega, by omega, hpacket, ?_⟩
    refine (readsWithin_flowExtract hend _).mono fun flow _ => ?_
    refine (readsWithin_inBandOutPort hheader inBand device _ flow).mono fun outPort _ => ?_
    cases outPort with
    | none => simp
    | some outPort =>
      simp only [readsWithin_bind, readsWithin_read32, readsWithin_ite,
        readsWithin_makeUnbufferedPacketOut, readsWithin_pure]
      exact ⟨by omega, fun _ => ⟨hend, trivial⟩, fun _ => trivial⟩

/-- The rate limiter reads only the message. -/
theorem readsWithin_rateLimitLocalPacketCb (rl : RateLimiter) :
    ReadsWithin msg.length (rateLimitLocalPacketCb msg rl) fun _ => True := by
  simp only [rateLimitLocalPacketCb, readsWithin_bind, readsWithin_getOfpPacketIn, readsWithin_ite,
    readsWithin_read8, readsWithin_read16, readsWithin_readBytes, readsWithin_pure,
    decide_eq_true_eq]
  refine ⟨fun hpacket => ?_, fun _ => trivial⟩
  have h18 : 18 ≤ msg.length := hpacket.2
  exact ⟨by omega, fun _ => trivial,
    fun _ => ⟨fun _ => trivial, fun _ => ⟨by omega, by omega, trivial⟩⟩⟩

theorem readsWithin_failOpenLocalPacketCb (remoteConnected : Bool) (lswitch : Option Lswitch) :
    ReadsWithin msg.length (failOpenLocalPacketCb msg remoteConnected lswitch) fun _ => True := by
  cases lswitch with
  | none => simp [failOpenLocalPacketCb]
  | some sw =>
    simp only [failOpenLocalPacketCb, readsWithin_ite, readsWithin_bind, readsWithin_pure]
    exact ⟨fun _ => trivial, fun _ => readsWithin_lswitchProcessPacket msg sw⟩

/-! ### What all of them read -/

/-- No hook reads more of a message of the datapath than there is. -/
theorem readsWithin_localPacketCb {hook : Hook} {cb : InspectM Bool}
    (hcb : localPacketCb msg hook = some cb) : ReadsWithin msg.length cb fun _ => True := by
  cases hook with
  | portWatcher pw =>
    cases hcb
    rw [readsWithin_bind]
    exact (readsWithin_portWatcherLocalPacketCb msg pw).mono fun _ _ => by simp
  | stp pw stp =>
    cases hcb
    rw [readsWithin_bind]
    exact (readsWithin_stpLocalPacketCb msg pw stp).mono fun _ _ => by simp
  | inBand inBand =>
    cases hcb
    exact readsWithin_inBandLocalPacketCb msg inBand
  | failOpen remoteConnected lswitch =>
    cases hcb
    exact readsWithin_failOpenLocalPacketCb msg remoteConnected lswitch
  | rateLimit rl =>
    cases hcb
    exact readsWithin_rateLimitLocalPacketCb msg rl
  | protocolStat => cases hcb
  | switchStatus categories => cases hcb

/-- Nor does one of a message of the controller, if the option of a private message has a type. -/
theorem readsWithin_remotePacketCb (hoption : msg.type = some .vendor →
      sizeofPrivateVxhdr ≤ msg.length → msg.vendor = privateVendorId →
        sizeofPrivateVxhdr + 2 ≤ msg.length) {hook : Hook} {cb : InspectM Bool}
    (hcb : remotePacketCb msg hook = some cb) : ReadsWithin msg.length cb fun _ => True := by
  cases hook with
  | portWatcher pw =>
    cases hcb
    rw [readsWithin_bind]
    exact (readsWithin_portWatcherRemotePacketCb msg pw).mono fun _ _ => by simp
  | protocolStat =>
    cases hcb
    exact (readsWithin_protocolStatRemotePacketCb_iff msg (StatRun.start : StatRun Unit)).2
      ⟨hoption, trivial⟩
  | switchStatus categories =>
    cases hcb
    rw [readsWithin_bind]
    exact (readsWithin_switchStatusRemotePacketCb msg categories).mono fun _ _ => by simp
  | stp pw stp => cases hcb
  | inBand inBand => cases hcb
  | failOpen remoteConnected lswitch => cases hcb
  | rateLimit rl => cases hcb

/-- The hooks are asked one after the other. -/
theorem readsWithin_callPacketCbs {cbs : List (Option (InspectM Bool))}
    (h : ∀ cb, some cb ∈ cbs → ReadsWithin msg.length cb fun _ => True) :
    ReadsWithin msg.length (callPacketCbs cbs) fun _ => True := by
  induction cbs with
  | nil => simp [callPacketCbs]
  | cons cb cbs ih =>
    have hrest := ih fun cb hmem => h cb (List.mem_cons_of_mem _ hmem)
    cases cb with
    | none => exact hrest
    | some cb =>
      rw [callPacketCbs, readsWithin_bind]
      refine (h cb List.mem_cons_self).mono fun taken _ => ?_
      rw [readsWithin_ite]
      exact ⟨fun _ => by simp, fun _ => hrest⟩

/-- A private message gets past the hooks that are registered before the one for statistics, if it
is too short for a request for the status. -/
theorem privateOption_of_callPacketCbs (htype : msg.type = some .vendor)
    (h : ReadsWithin msg.length (callPacketCbs ([.switchStatus [], .portWatcher .start,
      .protocolStat].map (remotePacketCb msg))) fun _ => True) :
    sizeofPrivateVxhdr ≤ msg.length → msg.vendor = privateVendorId →
      sizeofPrivateVxhdr + 2 ≤ msg.length := by
  intro hmin hvendor
  by_contra hshort
  have h16 : sizeofNiciraHeader = 16 := rfl
  have h12 : sizeofPrivateVxhdr = 12 := rfl
  have hstatus : switchStatusRemotePacketCb msg [] = pure none := if_pos (by omega)
  have hmod : ¬ (OfpType.ofBitVec (msg.mem 1) = some .portMod ∧
      PortWatcher.sizeofOfpPortMod ≤ msg.length) := by
    rintro ⟨hport, -⟩
    have heq := htype.symm.trans hport
    cases heq
  simp only [List.map_cons, List.map_nil, remotePacketCb, callPacketCbs, hstatus,
    portWatcherRemotePacketCb, readsWithin_bind, readsWithin_readType, readsWithin_ite,
    readsWithin_pure, hmod, false_implies, not_false_iff, true_implies, true_and,
      Option.isSome_none,
    Bool.false_eq_true] at h
  obtain ⟨hoption, -⟩ :=
    (readsWithin_protocolStatRemotePacketCb_iff msg (StatRun.start : StatRun Unit)).1 h.2
  exact hshort (hoption htype hmin hvendor)

end Inspect

open Inspect in
/-- A message that is received on any connection is read only where it is, by the counters and by
whichever hooks there are, exactly when it is inspectable. -/
theorem readsWithin_receive_iff (receiver : Receiver) (msg : OfpMessage) :
    (∀ (rc : Receipt) (hooks : List Hook),
        ReadsWithin msg.length (Inspect.receive receiver rc hooks msg) fun _ => True) ↔
      msg.Inspectable receiver := by
  constructor
  · intro h
    -- a connection with all hooks that read messages
    have hreceive := h ⟨false, .active, 0, .zero⟩
      [.switchStatus [], .portWatcher .start, .protocolStat]
    rw [Inspect.receive, readsWithin_bind, readsWithin_rconnRecv_iff] at hreceive
    obtain ⟨hcomplete, hhooks⟩ := hreceive
    refine ⟨hcomplete, ?_⟩
    rintro isMgmtConn rfl htype
    exact privateOption_of_callPacketCbs msg htype hhooks
  · intro hmsg rc hooks
    rw [Inspect.receive, readsWithin_bind, readsWithin_rconnRecv_iff]
    refine ⟨hmsg.complete, readsWithin_callPacketCbs msg fun cb hcb => ?_⟩
    unfold packetCbs at hcb
    split at hcb
    next => cases hcb
    next isMgmtConn =>
      obtain ⟨hook, -, hhook⟩ := List.mem_map.1 hcb
      exact readsWithin_remotePacketCb msg (hmsg.privateOption isMgmtConn rfl) hhook
    next isMgmtConn =>
      cases isMgmtConn with
      | true => cases hcb
      | false =>
        obtain ⟨hook, -, hhook⟩ := List.mem_map.1 hcb
        exact readsWithin_localPacketCb msg hhook

/-- An error message without an error. -/
def emptyError : OfpMessage := .ofBytes [1, 1, 0, 8, 0, 0, 0, 0] (by decide)

/-- Its type is counted all the same. -/
theorem not_readsWithin_receive : ¬ ∀ (receiver : Receiver) (msg : OfpMessage) (rc : Receipt)
    (hooks : List Hook),
      ReadsWithin msg.length (Inspect.receive receiver rc hooks msg) fun _ => True := by
  intro h
  have hreceive := h .datapath emptyError ⟨false, .active, 0, .zero⟩ []
  rw [Inspect.receive, readsWithin_bind, Inspect.readsWithin_rconnRecv_iff] at hreceive
  have hlong := hreceive.1.error (by decide)
  exact absurd hlong (by decide)

end OfAgent
