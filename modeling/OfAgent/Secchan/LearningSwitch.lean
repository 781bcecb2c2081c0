import OfAgent.Secchan.PortWatcher
import OfAgent.Secchan.Reading
import OfAgent.Stp.Bridge

/-!
# The learning switch

`learning-switch.c`, which the secure channel hands the messages of the datapath to when it fails
open: how it handles a message, with its reads. What it sends is no part of this, but for what it
copies.

* `Lswitch`: the switch.
* `Inspect.lswitchProcessPacket`: `lswitch_process_packet`.
* `readsWithin_lswitchProcessPacket`: it reads only the message.
-/

namespace OfAgent

/-! ### State -/

/-- `enum port_state`. -/
inductive LswitchPortState
  | disabled
  | listening
  | learning
  | forwarding
  | blocking
  deriving DecidableEq, Repr

/-- `struct lswitch`, as far as it decides how a message is read. -/
structure Lswitch where
  /-- If nonnegative, the switch sets up flows. -/
  maxIdle : ℤ
  /-- The datapath, or 0 if it is not known yet. -/
  datapathId : BitVec 64
  /-- What the datapath can do. -/
  capabilities : BitVec 32
  /-- `ml`: what `mac_learning_lookup` returns when it is asked, unless the switch acts as a hub. -/
  ml : Option (BitVec 48 → BitVec 16)
  /-- `last_query` is the time of a query. -/
  queried : Bool
  /-- The states of the ports. -/
  portStates : StpPortNo → LswitchPortState
  /-- XID used for query. -/
  queryXid : BitVec 32

/-- `OFPC_STP`. -/
def ofpcStp : BitVec 32 := 1 <<< 3

/-- `OFPPC_NO_STP`. -/
def ofppcNoStp : BitVec 32 := 1 <<< 1

/-- `OFPST_FLOW`. -/
def ofpstFlow : BitVec 16 := 1

/-- `OFPSF_REPLY_MORE`. -/
def ofpsfReplyMore : BitVec 16 := 1 <<< 0

/-- `eth_addr_is_reserved`. -/
def ethAddrIsReserved (ea : BitVec 48) : Bool := ea &&& 0xfffffffffff0 == 0x0180c2000000

namespace Lswitch

variable (sw : Lswitch) (portNo : BitVec 16)

/-- `get_port_state`. -/
def getPortState : LswitchPortState :=
  if h : portNo.toNat < stpMaxPorts then
    if sw.capabilities &&& ofpcStp = 0 then .forwarding else sw.portStates ⟨portNo.toNat, h⟩
  else .forwarding

/-- `may_recv`. -/
def mayRecv (anyActions : Bool) : Bool :=
  match sw.getPortState portNo with
  | .disabled | .listening | .blocking => false
  | .learning => anyActions
  | .forwarding => true

/-- `may_send`. -/
def maySend : Bool := sw.getPortState portNo == .forwarding

/-- The state of a port with the given configuration and state. -/
def newPortState (config state : BitVec 32) : LswitchPortState :=
  if config &&& (ofppcNoStp ||| ofppcPortDown) = 0 ∧ state &&& ofppsLinkDown = 0 then
    if state &&& ofppsStpMask = 0 <<< 8 then .listening
    else if state &&& ofppsStpMask = 1 <<< 8 then .learning
    else if state &&& ofppsStpMask = 2 <<< 8 then .forwarding
    else if state &&& ofppsStpMask = 3 <<< 8 then .blocking
    else .disabled
  else .forwarding

end Lswitch

/-! ### Handlers -/

namespace Inspect

variable (m : Memory) (sw : Lswitch)

/-- `type` of the header. -/
def readType : InspectM (Option OfpType) := do
  let type ← read8 m 1
  pure (OfpType.ofBitVec type)

/-- `make_unbuffered_packet_out`, which copies the packet. -/
def makeUnbufferedPacketOut (packet : Ofpbuf) : InspectM PUnit := do
  let _ ← readBytes packet.mem packet.data packet.size
  pure ⟨⟩

/-- `process_phy_port`, with the port at an offset. -/
def processPhyPort (opp : ℕ) (sw : Lswitch) : InspectM Lswitch := do
  let portNo ← read16 m opp
  if h : portNo.toNat < stpMaxPorts then
    if sw.capabilities &&& ofpcStp = 0 then pure sw
    else do
      let config ← read32 m (opp + 24)
      let state ← read32 m (opp + 28)
      pure { sw with
        portStates := Function.update sw.portStates ⟨portNo.toNat, h⟩
          (Lswitch.newPortState config state) }
  else pure sw

/-- The loop of `process_switch_features`: the ports from an offset on. -/
def processPhyPorts (opp : ℕ) (sw : Lswitch) : ℕ → InspectM Lswitch
  | 0 => pure sw
  | n + 1 => do
      let sw ← processPhyPort m opp sw
      processPhyPorts (opp + sizeofOfpPhyPort) sw n

/-- `process_switch_features`. -/
def processSwitchFeatures : InspectM Lswitch := do
  let ports ← lengthWithout m sizeofOfpSwitchFeatures
  let high ← read32 m 8
  let low ← read32 m 12
  let capabilities ← read32 m 24
  processPhyPorts m sizeofOfpSwitchFeatures { sw with datapathId := high ++ low, capabilities }
    (ports / sizeofOfpPhyPort)

/-- What `process_packet_in` does about a packet that is dropped. -/
def dropIt : InspectM PUnit :=
  if 0 ≤ sw.maxIdle then do
    let _bufferId ← read32 m 8
    pure ⟨⟩
  else pure ⟨⟩

/-- `process_packet_in`. -/
def processPacketIn : InspectM Lswitch := do
  let inPort ← read16 m 14
  let pktLen ← lengthWithout m offsetofOfpPacketInData
  let pkt := packetInPayload m pktLen
  let flow ← flowExtract pkt inPort
  let learnedPort := sw.ml.map fun lookup => lookup flow.dlDst
  let outPort := (learnedPort.filter fun port => sw.maySend port).getD ofppFlood
  if ethAddrIsReserved flow.dlSrc ∨ sw.mayRecv inPort false = false ∨ inPort = outPort then do
    dropIt m sw
    pure sw
  else do
    let bufferId ← read32 m 8
    -- with or without a flow, the packet is sent along if the switch did not buffer it
    if bufferId = noBuffer then do
      makeUnbufferedPacketOut pkt
      pure sw
    else pure sw

/-- `process_echo_request`: the reply is a copy. -/
def processEchoRequest : InspectM Lswitch := do
  let size ← lengthWithout m 0
  let _ ← readBytes m 0 size
  pure sw

/-- `process_port_status`. -/
def processPortStatus : InspectM Lswitch := processPhyPort m 16 sw

/-- The loop over actions of `process_flow_stats`, from an action on: the flow forwards to a port
that must not send. An action without a length is looked at forever. -/
def anyOutput (stop : ℕ) : ℕ → ℕ → InspectM Bool
  | 0, _ => pure false
  | turns + 1, a =>
      if a < stop then do
        let len ← read16 m (a + 2)
        if stop - a < len.toNat then pure false
        else if len.toNat % 8 ≠ 0 then pure false
        else do
          let type ← read16 m a
          let next := if len = 0 then Monitored.fail .endless
            else anyOutput stop turns (a + len.toNat)
          if type = ofpatOutput then do
            let port ← read16 m (a + 4)
            if sw.maySend port then next else pure true
          else next
      else pure false

/-- `process_flow_stats`, with the statistics at an offset. -/
def processFlowStats (ofs : ℕ) : InspectM PUnit := do
  let length ← read16 m ofs
  let actions := ofs + sizeofOfpFlowStats
  let stop := ofs + length.toNat
  let wildcards ← read32 m (ofs + 4)
  let noRecv ← if wildcards &&& ofpfwInPort = 0 then do
      let inPort ← read16 m (ofs + 8)
      pure (!sw.mayRecv inPort (actions < stop))
    else pure false
  let delete ← if noRecv then pure true else anyOutput m sw stop length.toNat actions
  -- the deletion has a copy of the match
  if delete then do
    let _ ← readBytes m (ofs + 4) 40
    pure ⟨⟩
  else pure ⟨⟩

/-- `flow_stats_next` and the loop of `process_stats_reply`, from a position on. -/
def processAllFlowStats (stop : ℕ) : ℕ → ℕ → InspectM PUnit
  | 0, _ => pure ⟨⟩
  | turns + 1, pos =>
      if stop - pos < sizeofOfpFlowStats then pure ⟨⟩
      else do
        let length ← read16 m pos
        if length.toNat < sizeofOfpFlowStats ∨ stop - pos < length.toNat
            ∨ (length.toNat - sizeofOfpFlowStats) % sizeofOfpActionHeader ≠ 0 then pure ⟨⟩
        else do
          processFlowStats m sw pos
          processAllFlowStats stop turns (pos + length.toNat)

/-- `process_stats_reply`. -/
def processStatsReply : InspectM Lswitch :=
  if sw.queried then do
    let type ← read16 m 8
    if type = ofpstFlow then do
      let xid ← read32 m 4
      if xid = sw.queryXid then do
        let length ← lengthWithout m sizeofOfpStatsReply
        processAllFlowStats m sw (sizeofOfpStatsReply + length) length sizeofOfpStatsReply
        let flags ← read16 m 10
        pure { sw with queried := flags &&& ofpsfReplyMore != 0 }
      else pure sw
    else pure sw
  else pure sw

/-- The elements of `processors`: the smallest size of a message, and the function that handles
it. -/
def processor : Option OfpType → Option (ℕ × (Memory → Lswitch → InspectM Lswitch))
  | some .echoRequest => some (sizeofOfpHeader, processEchoRequest)
  | some .featuresReply => some (sizeofOfpSwitchFeatures, processSwitchFeatures)
  | some .packetIn => some (offsetofOfpPacketInData, processPacketIn)
  | some .portStatus => some (PortWatcher.sizeofOfpPortStatus, processPortStatus)
  | some .statsReply => some (sizeofOfpStatsReply, processStatsReply)
  -- no function handles OFPT_FLOW_REMOVED
  | _ => none

/-- `lswitch_process_packet`. -/
def lswitchProcessPacket (msg : OfpMessage) : InspectM Lswitch := do
  let type ← readType msg.mem
  if sw.datapathId = 0 ∧ type ≠ some .echoRequest ∧ type ≠ some .featuresReply then pure sw
  else
    match processor type with
    | some (minSize, handler) => if msg.length < minSize then pure sw else handler msg.mem sw
    | none => pure sw

/-! ### What they read -/

section Reads

variable {m : Memory} {sw : Lswitch} {size : ℕ}

/-- The type of a message. -/
@[simp]
theorem readsWithin_readType {P : Option OfpType → Prop} :
    ReadsWithin size (readType m) P ↔ 2 ≤ size ∧ P (OfpType.ofBitVec (m 1)) := by
  simp [readType]

/-- A copy of a packet. -/
@[simp]
theorem readsWithin_makeUnbufferedPacketOut {packet : Ofpbuf} {P : PUnit → Prop} :
    ReadsWithin size (makeUnbufferedPacketOut packet) P ↔
      packet.data + packet.size ≤ size ∧ P ⟨⟩ := by
  simp [makeUnbufferedPacketOut]

/-- The description of a port is read up to its state. -/
theorem readsWithin_processPhyPort {opp : ℕ} (h : opp + sizeofOfpPhyPort ≤ size) (sw : Lswitch) :
    ReadsWithin size (processPhyPort m opp sw) fun _ => True := by
  change opp + 48 ≤ size at h
  unfold processPhyPort
  rw [readsWithin_bind, readsWithin_read16]
  refine ⟨by omega, ?_⟩
  by_cases hport : (m.get16 opp).toNat < stpMaxPorts
  · rw [dif_pos hport]
    simp only [readsWithin_ite, readsWithin_bind, readsWithin_read32, readsWithin_pure]
    exact ⟨fun _ => trivial, fun _ => ⟨by omega, by omega, trivial⟩⟩
  · rw [dif_neg hport, readsWithin_pure]
    trivial

/-- Those of several ports are read as long as they are there. -/
theorem readsWithin_processPhyPorts {n opp : ℕ} (h : opp + sizeofOfpPhyPort * n ≤ size)
    (sw : Lswitch) : ReadsWithin size (processPhyPorts m opp sw n) fun _ => True := by
  induction n generalizing opp sw with
  | zero => simp [processPhyPorts]
  | succ n ih =>
    rw [Nat.mul_succ] at h
    rw [processPhyPorts, readsWithin_bind]
    exact (readsWithin_processPhyPort (by omega) sw).mono fun sw' _ => ih (by omega) sw'

/-- Actions are read up to their end, as every one has whole blocks of eight bytes. -/
theorem readsWithin_anyOutput {stop turns a : ℕ} (hstop : stop ≤ size) (h8 : (stop - a) % 8 = 0) :
    ReadsWithin size (anyOutput m sw stop turns a) fun _ => True := by
  induction turns generalizing a with
  | zero => simp [anyOutput]
  | succ turns ih =>
    rw [anyOutput, readsWithin_ite]
    refine ⟨fun hlt => ?_, fun _ => by simp⟩
    simp only [readsWithin_bind, readsWithin_read16, readsWithin_ite, readsWithin_pure]
    refine ⟨by omega, fun _ => trivial, fun hle => ⟨fun _ => trivial, fun hlen8 => ⟨by omega, ?_⟩⟩⟩
    -- the next action starts after whole blocks, too
    have hnext : (m.get16 (a + 2) = 0 →
        ReadsWithin size (Monitored.fail .endless : InspectM Bool) fun _ => True) ∧
        (¬ m.get16 (a + 2) = 0 → ReadsWithin size
          (anyOutput m sw stop turns (a + (m.get16 (a + 2)).toNat)) fun _ => True) :=
      ⟨fun _ => readsWithin_fail _, fun _ => ih (by omega)⟩
    exact ⟨fun _ => ⟨by omega, fun _ => hnext, fun _ => trivial⟩, fun _ => hnext⟩

/-- The statistics of a flow are read up to their end. -/
theorem readsWithin_processFlowStats {ofs : ℕ} (hmin : sizeofOfpFlowStats ≤ (m.get16 ofs).toNat)
    (hmax : ofs + (m.get16 ofs).toNat ≤ size)
    (h8 : ((m.get16 ofs).toNat - sizeofOfpFlowStats) % sizeofOfpActionHeader = 0) :
    ReadsWithin size (processFlowStats m sw ofs) fun _ => True := by
  change 88 ≤ _ at hmin
  change (_ - 88) % 8 = 0 at h8
  unfold processFlowStats
  simp only [readsWithin_bind, readsWithin_read16, readsWithin_read32, readsWithin_ite,
    readsWithin_pure, readsWithin_readBytes]
  have hactions : ReadsWithin size (anyOutput m sw (ofs + (m.get16 ofs).toNat)
      (m.get16 ofs).toNat (ofs + sizeofOfpFlowStats)) fun delete =>
        (delete = true → ofs + 4 + 40 ≤ size ∧ True) ∧ (¬ delete = true → True) := by
    refine (readsWithin_anyOutput hmax ?_).mono fun delete _ =>
      ⟨fun _ => ⟨by omega, trivial⟩, fun _ => trivial⟩
    change (ofs + _ - (ofs + 88)) % 8 = 0
    omega
  exact ⟨by omega, by omega,
    fun _ => ⟨by omega, fun _ => ⟨fun _ => ⟨by omega, trivial⟩, fun _ => trivial⟩,
      fun _ => hactions⟩,
    fun _ => ⟨fun _ => ⟨fun _ => ⟨by omega, trivial⟩, fun _ => trivial⟩, fun _ => hactions⟩⟩

/-- The statistics of several flows are read up to their end. -/
theorem readsWithin_processAllFlowStats {stop turns pos : ℕ} (hstop : stop ≤ size) :
    ReadsWithin size (processAllFlowStats m sw stop turns pos) fun _ => True := by
  induction turns generalizing pos with
  | zero => simp [processAllFlowStats]
  | succ turns ih =>
    rw [processAllFlowStats, readsWithin_ite]
    refine ⟨fun _ => by simp, fun hleft => ?_⟩
    have hsize : sizeofOfpFlowStats = 88 := rfl
    simp only [readsWithin_bind, readsWithin_read16, readsWithin_ite, readsWithin_pure]
    refine ⟨by omega, fun _ => trivial, fun hlength => ?_⟩
    rw [not_or, not_or, not_not] at hlength
    obtain ⟨hmin, hmax, h8⟩ := hlength
    exact (readsWithin_processFlowStats (by omega) (by omega) h8).mono fun _ _ => ih

end Reads

section Handlers

variable (msg : OfpMessage) (sw : Lswitch)

/-- A description of the datapath is read up to its last port. -/
theorem readsWithin_processSwitchFeatures (h : sizeofOfpSwitchFeatures ≤ msg.length) :
    ReadsWithin msg.length (processSwitchFeatures msg.mem sw) fun _ => True := by
  have hsize : (msg.mem.get16 2).toNat = msg.length := rfl
  have h32 : sizeofOfpSwitchFeatures = 32 := rfl
  have hports := Nat.mul_div_le (msg.length - sizeofOfpSwitchFeatures) sizeofOfpPhyPort
  simp only [processSwitchFeatures, readsWithin_bind, readsWithin_lengthWithout, readsWithin_read32,
    hsize]
  exact ⟨by omega, h, by omega, by omega, by omega, readsWithin_processPhyPorts (by omega) _⟩

/-- A packet is read up to its end. -/
theorem readsWithin_processPacketIn (h : offsetofOfpPacketInData ≤ msg.length) :
    ReadsWithin msg.length (processPacketIn msg.mem sw) fun _ => True := by
  have hsize : (msg.mem.get16 2).toNat = msg.length := rfl
  have h18 : offsetofOfpPacketInData = 18 := rfl
  simp only [processPacketIn, readsWithin_bind, readsWithin_lengthWithout, readsWithin_read16,
    hsize]
  refine ⟨by omega, by omega, h, ?_⟩
  have hpacket := packetInPayload_end_le (m := msg.mem) h
  refine (readsWithin_flowExtract hpacket _).mono fun flow _ => ?_
  simp only [readsWithin_ite, readsWithin_bind, readsWithin_read32, readsWithin_pure, dropIt,
    readsWithin_makeUnbufferedPacketOut]
  exact ⟨fun _ => ⟨fun _ => ⟨by omega, trivial⟩, fun _ => trivial⟩,
    fun _ => ⟨by omega, fun _ => ⟨hpacket, trivial⟩, fun _ => trivial⟩⟩

/-- An echo request is read up to its end. -/
theorem readsWithin_processEchoRequest :
    ReadsWithin msg.length (processEchoRequest msg.mem sw) fun _ => True := by
  have hlen := msg.length_ge
  have hsize : (msg.mem.get16 2).toNat = msg.length := rfl
  simp only [processEchoRequest, readsWithin_bind, readsWithin_lengthWithout, readsWithin_readBytes,
    readsWithin_pure, hsize, and_true]
  omega

/-- Statistics are read up to their end. -/
theorem readsWithin_processStatsReply (h : sizeofOfpStatsReply ≤ msg.length) :
    ReadsWithin msg.length (processStatsReply msg.mem sw) fun _ => True := by
  have hsize : (msg.mem.get16 2).toNat = msg.length := rfl
  have h12 : sizeofOfpStatsReply = 12 := rfl
  simp only [processStatsReply, readsWithin_ite, readsWithin_bind, readsWithin_read16,
    readsWithin_read32, readsWithin_lengthWithout, readsWithin_pure, hsize]
  refine ⟨fun _ => ⟨by omega, fun _ => ⟨by omega, fun _ => ⟨by omega, h, ?_⟩, fun _ => trivial⟩,
    fun _ => trivial⟩, fun _ => trivial⟩
  exact (readsWithin_processAllFlowStats (by omega)).mono fun _ _ => ⟨by omega, trivial⟩

/-- Every function of the table reads only the message, if that has the smallest size at least. -/
theorem readsWithin_of_processor {type : Option OfpType} {minSize : ℕ}
    {handler : Memory → Lswitch → InspectM Lswitch}
    (hprocessor : processor type = some (minSize, handler)) (h : minSize ≤ msg.length) :
    ReadsWithin msg.length (handler msg.mem sw) fun _ => True := by
  unfold processor at hprocessor
  split at hprocessor
  · cases hprocessor
    exact readsWithin_processEchoRequest msg sw
  · cases hprocessor
    exact readsWithin_processSwitchFeatures msg sw h
  · cases hprocessor
    exact readsWithin_processPacketIn msg sw h
  · cases hprocessor
    change 64 ≤ msg.length at h
    exact readsWithin_processPhyPort h sw
  · cases hprocessor
    exact readsWithin_processStatsReply msg sw h
  · cases hprocessor

/-- The learning switch reads only the message. -/
theorem readsWithin_lswitchProcessPacket :
    ReadsWithin msg.length (lswitchProcessPacket sw msg) fun _ => True := by
  have hlen := msg.length_ge
  simp only [lswitchProcessPacket, readsWithin_bind, readsWithin_readType, readsWithin_ite,
    readsWithin_pure]
  refine ⟨by omega, fun _ => trivial, fun _ => ?_⟩
  split
  next minSize handler hprocessor =>
    rw [readsWithin_ite, readsWithin_pure]
    exact ⟨fun _ => trivial, fun hmin => readsWithin_of_processor msg sw hprocessor (not_lt.1 hmin)⟩
  next => simp

end Handlers

end Inspect

end OfAgent
