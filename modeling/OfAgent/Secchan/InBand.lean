import OfAgent.Secchan.FlowSetup
import OfAgent.Secchan.Inspection
import OfAgent.Secchan.MacLearning

/-!
# In-band control

`in_band_local_packet_cb` of `in-band.c` sets up flows for the traffic between the secure channel
and its controller. It decides about a packet with an `int`, which is the number of a port, or -1
for a packet that is dropped, and only then looks at what has been decided: a port that is the
ingress port gets a flow without actions, and every other one but `OFPP_FLOOD` is cut to 16 bits and
becomes the output of a flow.

* `InBandData`: the state of the module, with `learnMac` and `outPort`.
* `InBandData.localPacketCb`: the messages that are sent about a packet.
* `validateActions_simpleOutput_iff`: the ports that the datapath takes in the action of
  `make_add_simple_flow`.
* `InBandData.SetsUpWell`: the datapath takes every flow, and a flow that drops packets has no
  output.
* `InBandData.setsUpWell_iff`: so it is unless a packet to the controller comes back from its port,
  or the table says `OFPP_NONE` of an address.
-/

namespace OfAgent

/-- `OFP_SSL_PORT`. -/
def ofpSslPort : BitVec 16 := 6633

/-- `eth_addr_is_broadcast`. -/
def ethAddrIsBroadcast (ea : BitVec 48) : Bool := ea = -1

/-! ### The actions of simple flows -/

theorem drop_simpleOutput (outPort : BitVec 16) : (simpleOutput outPort).drop 8 = [] := rfl

theorem be16_simpleOutput (outPort : BitVec 16) : be16 (simpleOutput outPort) 4 = outPort :=
  Memory.be16_bytes16 outPort []

theorem actionLen_simpleOutput (outPort : BitVec 16) : actionLen (simpleOutput outPort) = 8 := by
  have hlen : be16 (simpleOutput outPort) 2 = 8 := Memory.be16_bytes16 8 []
  rw [actionLen, hlen]
  rfl

theorem actionType_simpleOutput (outPort : BitVec 16) :
    actionType (simpleOutput outPort) = ofpatOutput :=
  Memory.be16_bytes16 ofpatOutput []

/-- The ports that the datapath takes in this action: not `OFPP_NONE`, and not the ingress port of a
flow that has one. -/
theorem validateActions_simpleOutput_iff (key : SwFlowKey) (outPort : BitVec 16) :
    validateActions key (simpleOutput outPort) = actValidationOk ↔
      outPort ≠ ofppNone ∧ (wild key.wildcards ofpfwInPort = true ∨ outPort ≠ key.flow.inPort) := by
  have haction : validateAction key (simpleOutput outPort) 8 =
      validateOutput key (simpleOutput outPort) := by
    unfold validateAction
    rw [actionType_simpleOutput]
    rfl
  -- a list of this action alone, which is validated as an output
  have hvalidate : validateActions key (simpleOutput outPort) =
      validateOutput key (simpleOutput outPort) := by
    have hlen : (simpleOutput outPort).length = 8 := rfl
    have hend : validateActionsLoop key 7 [] = actValidationOk := rfl
    change validateActionsLoop key (7 + 1) (simpleOutput outPort) = _
    rw [validateActionsLoop, hlen, if_neg (by decide : ¬ 8 < sizeofOfpActionHeader)]
    simp only [actionLen_simpleOutput, haction, drop_simpleOutput, hend]
    rw [if_neg (by decide : ¬ (8 < 8 ∨ 8 % 8 ≠ 0))]
    split
    next => rfl
    next hok => exact (not_not.1 hok).symm
  have hbad : ofpbacBadOutPort ≠ actValidationOk := by decide
  rw [hvalidate, validateOutput, be16_simpleOutput]
  simp only [Bool.or_eq_true, Bool.and_eq_true, Bool.not_eq_true', beq_iff_eq]
  by_cases hnone : outPort = ofppNone
  · rw [if_pos (.inl hnone)]
    exact iff_of_false hbad fun hall => hall.1 hnone
  · cases hwild : wild key.wildcards ofpfwInPort with
    | true => simp [hnone]
    | false =>
      by_cases hin : outPort = key.flow.inPort
      · rw [if_pos (.inr ⟨rfl, hin⟩)]
        exact iff_of_false hbad fun hall => hall.2.elim Bool.false_ne_true fun hne => hne hin
      · simp [hnone, hin]

/-! ### The state -/

/-- `struct in_band_data`, with what is behind its pointers. -/
structure InBandData (h : MacHash) where
  /-- The MAC table. -/
  ml : MacLearning
  /-- The lists of the table fit together. -/
  valid : ml.Valid h
  /-- The address of `of_device`, if this is there. -/
  ofDevice : Option (BitVec 48)
  /-- What `get_controller_mac` returns. -/
  controllerMac : Option (BitVec 48)
  /-- `max_idle` of the settings. -/
  maxIdle : ℤ

/-- `struct ofp_packet_out`. -/
structure OfpPacketOut where
  /-- ID assigned by datapath. -/
  bufferId : BitVec 32
  /-- Packet's input port. -/
  inPort : BitVec 16
  /-- Actions. -/
  actions : List Byte
  /-- Packet data. -/
  data : List Byte

/-- The action of the functions that make such a message, a `struct ofp_action_output`. -/
def packetOutAction (outPort : BitVec 16) : List Byte :=
  Memory.bytes16 ofpatOutput ++ Memory.bytes16 8 ++ Memory.bytes16 outPort ++ Memory.bytes16 0

/-- `make_unbuffered_packet_out`. -/
def makeUnbufferedPacketOut (packet : Ofpbuf) (inPort outPort : BitVec 16) : OfpPacketOut :=
  ⟨noBuffer, inPort, packetOutAction outPort, packet.bytes⟩

/-- `make_buffered_packet_out`. -/
def makeBufferedPacketOut (bufferId : BitVec 32) (inPort outPort : BitVec 16) : OfpPacketOut :=
  ⟨bufferId, inPort, packetOutAction outPort, []⟩

/-- The messages about packets that go to the datapath. -/
inductive DatapathCommand
  /-- `OFPT_FLOW_MOD`. -/
  | flowMod (ofm : OfpFlowMod)
  /-- `OFPT_PACKET_OUT`. -/
  | packetOut (opo : OfpPacketOut)

/-- What is read of an `OFPT_PACKET_IN` with an Ethernet header. -/
structure PacketInView where
  /-- ID assigned by datapath. -/
  bufferId : BitVec 32
  /-- Port on which frame was received. -/
  inPort : BitVec 16
  /-- The frame. -/
  payload : Ofpbuf
  /-- `eth_dst`. -/
  ethDst : BitVec 48
  /-- `eth_src`. -/
  ethSrc : BitVec 48
  /-- `eth_type`. -/
  ethType : BitVec 16

/-- `get_ofp_packet_eth_header` and `get_ofp_packet_payload`: the message is a packet with an
Ethernet header. -/
def OfpMessage.packetInView (msg : OfpMessage) : Option PacketInView :=
  if msg.type = some .packetIn ∧ offsetofOfpPacketInData + ethHeaderLen ≤ msg.length then
    some {
      bufferId := msg.mem.get32 8
      inPort := msg.mem.get16 14
      payload := Inspect.packetInPayload msg.mem (msg.length - offsetofOfpPacketInData)
      ethDst := msg.mem.get48 offsetofOfpPacketInData
      ethSrc := msg.mem.get48 (offsetofOfpPacketInData + 6)
      ethType := msg.mem.get16 (offsetofOfpPacketInData + 12) }
  else none

/-- The flow of the frame. -/
def PacketInView.flow (p : PacketInView) : Flow := packetFlow p.payload p.inPort

/-- What `mac_learning_learn` leaves of a valid table is valid. -/
theorem MacLearning.Valid.of_learn {h : MacHash} {ml ml' : MacLearning} (hml : ml.Valid h) {now : ℤ}
    {srcMac : BitVec 48} {vlan srcPort : BitVec 16} {randomTag tag : BitVec 32}
    (hlearn : ml.learn h now srcMac vlan srcPort randomTag = some (ml', tag)) : ml'.Valid h := by
  cases hmulticast : ethAddrIsMulticast srcMac with
  | true =>
    rw [learn_of_multicast ml now hmulticast] at hlearn
    cases hlearn
    exact hml
  | false =>
    obtain ⟨ml₁, tag₁, hsome, hvalid, -⟩ := hml.learn now hmulticast vlan srcPort randomTag
    rw [hsome] at hlearn
    cases hlearn
    exact hvalid

namespace InBandData

variable {h : MacHash} (ib : InBandData h) (now : ℤ) (randomTag : BitVec 32) (p : PacketInView)

/-- `mac_learning_lookup` in the table. -/
def lookup (dst : BitVec 48) : BitVec 16 := ib.ml.lookup h dst 0

/-- `is_controller_mac`. -/
def isControllerMac (dlAddr : BitVec 48) : Bool := ib.controllerMac = some dlAddr

/-- `in_band_learn_mac`. -/
def learnMac (inPort : BitVec 16) (srcMac : BitVec 48) : InBandData h :=
  match hlearn : ib.ml.learn h now srcMac 0 inPort randomTag with
  | some (ml, _tag) => { ib with ml := ml, valid := ib.valid.of_learn hlearn }
  -- a valid table always has an entry
  | none => ib

/-- The frame is an ARP frame that has been sent by the controller to everybody. -/
def isControllerArp : Bool :=
  p.ethType == ethTypeArp && ethAddrIsBroadcast p.ethDst && ib.isControllerMac p.ethSrc

/-- The packet is traffic to or from the controller. -/
def isControllerTraffic : Bool :=
  (ib.isControllerMac p.ethDst || ib.isControllerMac p.ethSrc)
    && p.flow.dlType == ethTypeIp && p.flow.nwProto == ipTypeTcp
    && (p.flow.tpSrc == ofpTcpPort || p.flow.tpSrc == ofpSslPort
      || p.flow.tpDst == ofpTcpPort || p.flow.tpDst == ofpSslPort)

/-- `out_port` of `in_band_local_packet_cb`, unless the packet is left alone, and the state. -/
def outPort (device : BitVec 48) : Option ℤ × InBandData h :=
  if p.inPort = ofppLocal then
    -- sent by secure channel
    (some (ib.lookup p.ethDst).toNat, ib)
  else if p.ethDst = device then
    -- sent to secure channel
    (some ofppLocal.toNat, ib.learnMac now randomTag p.inPort p.ethSrc)
  else if ib.isControllerArp p then (some ofppFlood.toNat, ib)
  else if ib.isControllerTraffic p then
    let ib := ib.learnMac now randomTag p.inPort p.ethSrc
    (some (ib.lookup p.ethDst).toNat, ib)
  else if ib.isControllerArp p then
    -- the source asks once more
    (some ofppFlood.toNat, ib)
  else if ib.isControllerMac p.ethDst && p.inPort == ib.lookup p.ethDst then
    -- drop controller traffic that arrives on the controller port
    (some (-1), ib)
  else (none, ib)

/-- The messages for a decision. -/
def commands (outPort : ℤ) : List DatapathCommand :=
  -- the decision becomes an argument of type `uint16_t`
  let port := BitVec.ofInt 16 outPort
  if (p.inPort.toNat : ℤ) = outPort then
    -- the input and output port match: set up a flow to drop packets
    [.flowMod (makeAddFlow p.flow p.bufferId (BitVec.ofInt 16 ib.maxIdle) [] length_noActions)]
  else if outPort ≠ ofppFlood.toNat then
    -- the output port is known, so add a new flow
    .flowMod (makeAddSimpleFlow p.flow p.bufferId port (BitVec.ofInt 16 ib.maxIdle)) ::
      (if p.bufferId = noBuffer then [.packetOut (makeUnbufferedPacketOut p.payload p.inPort port)]
        else [])
  else if p.bufferId = noBuffer then [.packetOut (makeUnbufferedPacketOut p.payload p.inPort port)]
  else [.packetOut (makeBufferedPacketOut p.bufferId p.inPort port)]

/-- `in_band_local_packet_cb`: whether it takes the message, what it sends, and the state. -/
def localPacketCb (msg : OfpMessage) : Bool × List DatapathCommand × InBandData h :=
  match msg.packetInView, ib.ofDevice with
  | some p, some device =>
      match ib.outPort now randomTag p device with
      | (some outPort, ib') => (true, ib'.commands p outPort, ib')
      | (none, ib') => (false, [], ib')
  | _, _ => (false, [], ib)

/-! ### The decision and its flow -/

/-- The flow modifications among messages. -/
def flowMods (cmds : List DatapathCommand) : List OfpFlowMod :=
  cmds.filterMap fun
    | .flowMod ofm => some ofm
    | .packetOut _ => none

/-- An action list has no output. -/
def HasNoOutput (actions : List Byte) : Prop :=
  ∀ i ∈ Tlv.items actionLen actions.length 0 actions, actionType i.2 ≠ ofpatOutput

/-- The datapath takes the actions of every flow that is sent for a message, and a flow that drops
packets has no output. -/
structure SetsUpWell (msg : OfpMessage) : Prop where
  /-- The actions are accepted. -/
  accepted : ∀ ofm ∈ flowMods (ib.localPacketCb now randomTag msg).2.1,
    validateActions (flowExtractMatch ofm.ofpMatch) ofm.actions = actValidationOk
  /-- A packet is dropped when the decision is -1 or the ingress port. -/
  dropped : ∀ p device outPort, msg.packetInView = some p → ib.ofDevice = some device →
    (ib.outPort now randomTag p device).1 = some outPort → outPort = -1 ∨ outPort = p.inPort.toNat →
      ∀ ofm ∈ flowMods (ib.localPacketCb now randomTag msg).2.1, HasNoOutput ofm.actions

/-- A packet to the controller comes back from the port where the controller is, and is not one of
the packets that are looked at before. -/
def ComesBack (device : BitVec 48) : Prop :=
  p.inPort ≠ ofppLocal ∧ p.ethDst ≠ device ∧ ib.isControllerArp p = false ∧
    ib.isControllerTraffic p = false ∧
    ib.isControllerMac p.ethDst = true ∧ ib.lookup p.ethDst = p.inPort

/-- The table, after it has learned the source of controller traffic, says `OFPP_NONE` of a
destination, and the packet has come from somewhere else. -/
def LeadsNowhere (device : BitVec 48) : Prop :=
  (p.inPort = ofppLocal ∧ ib.lookup p.ethDst = ofppNone) ∨
    (p.inPort ≠ ofppLocal ∧ p.inPort ≠ ofppNone ∧ p.ethDst ≠ device ∧ ib.isControllerArp p = false ∧
      ib.isControllerTraffic p = true ∧
        (ib.learnMac now randomTag p.inPort p.ethSrc).lookup p.ethDst = ofppNone)

variable {ib now randomTag p}

/-- The number of a port is not -1, -/
theorem port_ne_neg_one (port : BitVec 16) : (port.toNat : ℤ) ≠ -1 := by omega

/-- and a port has its own number. -/
theorem port_toNat_inj {port port' : BitVec 16} :
    (port.toNat : ℤ) = port'.toNat ↔ port = port' := by
  rw [Nat.cast_inj, BitVec.toNat_inj]

/-- What the decision -1 means for a packet, and what the decision `OFPP_NONE` means for one from
elsewhere. -/
theorem outPort_eq_iff {device : BitVec 48} {outPort : ℤ}
    (hout : (ib.outPort now randomTag p device).1 = some outPort) :
    (outPort = -1 ↔ ib.ComesBack p device) ∧
      (outPort = ofppNone.toNat ∧ outPort ≠ p.inPort.toNat ↔
        ib.LeadsNowhere now randomTag p device) := by
  have hlocal : ofppLocal ≠ ofppNone := by decide
  have hflood : ofppFlood ≠ ofppNone := by decide
  unfold InBandData.outPort at hout
  simp only at hout
  -- the branches of the source, in its order
  split at hout
  next hin =>
    cases hout
    refine ⟨iff_of_false (port_ne_neg_one _) fun hback => hback.1 hin, ?_⟩
    rw [ne_eq, port_toNat_inj, port_toNat_inj, LeadsNowhere]
    constructor
    · exact fun hall => .inl ⟨hin, hall.1⟩
    · rintro (hall | hall)
      · refine ⟨hall.2, fun heq => hlocal ?_⟩
        rw [← hin, ← heq, hall.2]
      · exact absurd hin hall.1
  next hin =>
    split at hout
    next hdevice =>
      cases hout
      refine ⟨iff_of_false (port_ne_neg_one _) fun hback => hback.2.1 hdevice,
        iff_of_false (fun hall => hlocal (port_toNat_inj.1 hall.1)) ?_⟩
      rintro (hall | hall)
      · exact hin hall.1
      · exact hall.2.2.1 hdevice
    next hdevice =>
      split at hout
      next harp =>
        cases hout
        refine ⟨iff_of_false (port_ne_neg_one _) fun hback =>
          Bool.false_ne_true (hback.2.2.1.symm.trans harp),
          iff_of_false (fun hall => hflood (port_toNat_inj.1 hall.1)) ?_⟩
        rintro (hall | hall)
        · exact hin hall.1
        · exact Bool.false_ne_true (hall.2.2.2.1.symm.trans harp)
      next harp =>
        rw [Bool.not_eq_true] at harp
        split at hout
        next htraffic =>
          cases hout
          refine ⟨iff_of_false (port_ne_neg_one _) fun hback =>
            Bool.false_ne_true (hback.2.2.2.1.symm.trans htraffic), ?_⟩
          rw [ne_eq, port_toNat_inj, port_toNat_inj, LeadsNowhere]
          constructor
          · rintro ⟨hnone, hne⟩
            exact .inr ⟨hin, fun heq => hne (hnone.trans heq.symm), hdevice, harp, htraffic, hnone⟩
          · rintro (hall | hall)
            · exact absurd hall.1 hin
            · exact ⟨hall.2.2.2.2.2, fun heq => hall.2.1 (heq.symm.trans hall.2.2.2.2.2)⟩
        next htraffic =>
          rw [Bool.not_eq_true] at htraffic
          split at hout
          next hback =>
            cases hout
            rw [Bool.and_eq_true, beq_iff_eq] at hback
            refine ⟨iff_of_true rfl ⟨hin, hdevice, harp, htraffic, hback.1, hback.2.symm⟩,
              iff_of_false (fun hall => port_ne_neg_one _ hall.1.symm) ?_⟩
            rintro (hall | hall)
            · exact hin hall.1
            · exact Bool.false_ne_true (htraffic.symm.trans hall.2.2.2.2.1)
          next => cases hout

/-- A packet that is left alone neither comes back nor leads nowhere. -/
theorem outPort_eq_none {device : BitVec 48} (hout : (ib.outPort now randomTag p device).1 = none) :
    ¬ ib.ComesBack p device ∧ ¬ ib.LeadsNowhere now randomTag p device := by
  unfold InBandData.outPort at hout
  simp only at hout
  split_ifs at hout with hin hdevice harp htraffic hback
  rw [Bool.and_eq_true, beq_iff_eq] at hback
  refine ⟨fun hcomes => hback ⟨hcomes.2.2.2.2.1, hcomes.2.2.2.2.2.symm⟩, ?_⟩
  rintro (hall | hall)
  · exact hin hall.1
  · exact htraffic hall.2.2.2.2.1

/-- The messages for a decision have one flow modification at most: one without actions if the
decision is the ingress port, and one with an output otherwise. -/
theorem flowMods_commands (outPort : ℤ) :
    flowMods (ib.commands p outPort) =
      if outPort = p.inPort.toNat then
        [makeAddFlow p.flow p.bufferId (BitVec.ofInt 16 ib.maxIdle) [] (by decide)]
      else if outPort = ofppFlood.toNat then []
      else [makeAddSimpleFlow p.flow p.bufferId (BitVec.ofInt 16 outPort)
        (BitVec.ofInt 16 ib.maxIdle)] := by
  unfold commands
  by_cases hin : outPort = p.inPort.toNat
  · rw [if_pos hin.symm, if_pos hin]
    rfl
  · rw [if_neg (Ne.symm hin), if_neg hin]
    by_cases hflood : outPort = ofppFlood.toNat
    · rw [if_neg (not_not.2 hflood), if_pos hflood]
      split_ifs <;> rfl
    · rw [if_pos hflood, if_neg hflood]
      split_ifs <;> rfl

/-- The datapath takes the flow of a decision, which is a port or -1, unless it is -1 or
`OFPP_NONE`. -/
theorem validateActions_decision_iff {outPort : ℤ}
    (hrange : outPort = -1 ∨ ∃ port : BitVec 16, outPort = port.toNat)
    (hin : outPort ≠ p.inPort.toNat) :
    (let ofm := makeAddSimpleFlow p.flow p.bufferId (BitVec.ofInt 16 outPort)
      (BitVec.ofInt 16 ib.maxIdle)
    validateActions (flowExtractMatch ofm.ofpMatch) ofm.actions = actValidationOk) ↔
      outPort ≠ -1 ∧ outPort ≠ ofppNone.toNat := by
  have hkey := flowExtractMatch_makeFlowModMatch (layered_packetFlow p.payload p.inPort)
  change validateActions (flowExtractMatch (makeFlowModMatch (packetFlow p.payload p.inPort)))
    (simpleOutput _) = _ ↔ _
  have hwild : wild (packetKey { packetFlow p.payload p.inPort with nwTos := 0 }).wildcards
      ofpfwInPort = false := by
    change wild 0 ofpfwInPort = false
    decide
  rw [validateActions_simpleOutput_iff, hkey, hwild]
  change _ ∧ (_ ∨ _ ≠ (packetFlow p.payload p.inPort).inPort) ↔ _
  rw [packetFlow_inPort]
  obtain rfl | ⟨port, rfl⟩ := hrange
  · -- 16 bits of -1 are `OFPP_NONE`
    exact iff_of_false (fun hall => hall.1 rfl) fun hall => hall.1 rfl
  · have hport : BitVec.ofInt 16 (port.toNat : ℤ) = port := by simp
    rw [ne_eq, port_toNat_inj] at hin
    rw [hport, ne_eq (port.toNat : ℤ) ofppNone.toNat, port_toNat_inj]
    exact ⟨fun hall => ⟨port_ne_neg_one _, hall.1⟩, fun hall => ⟨hall.2, .inr hin⟩⟩

/-- Every decision is -1 or the number of a port. -/
theorem outPort_range {device : BitVec 48} {outPort : ℤ}
    (hout : (ib.outPort now randomTag p device).1 = some outPort) :
    outPort = -1 ∨ ∃ port : BitVec 16, outPort = port.toNat := by
  unfold InBandData.outPort at hout
  simp only at hout
  split_ifs at hout <;> cases hout
  all_goals first
    | exact .inl rfl
    | exact .inr ⟨_, rfl⟩

/-- What is sent about a packet with a decision. -/
theorem commands_localPacketCb {msg : OfpMessage} {device : BitVec 48} {outPort : ℤ}
    (hview : msg.packetInView = some p) (hdevice : ib.ofDevice = some device)
    (hout : (ib.outPort now randomTag p device).1 = some outPort) :
    (ib.localPacketCb now randomTag msg).2.1 =
      (ib.outPort now randomTag p device).2.commands p outPort := by
  unfold localPacketCb
  rw [hview, hdevice]
  simp only
  rcases hdecision : ib.outPort now randomTag p device with ⟨decision, ib'⟩
  rw [hdecision] at hout
  simp only at hout
  subst hout
  rfl

/-- Nothing is sent about a packet without one. -/
theorem exists_of_mem_flowMods {msg : OfpMessage} {ofm : OfpFlowMod}
    (hofm : ofm ∈ flowMods (ib.localPacketCb now randomTag msg).2.1) :
    ∃ p device outPort, msg.packetInView = some p ∧ ib.ofDevice = some device ∧
      (ib.outPort now randomTag p device).1 = some outPort ∧
        ofm ∈ flowMods ((ib.outPort now randomTag p device).2.commands p outPort) := by
  unfold localPacketCb at hofm
  split at hofm
  next p device hview hdevice =>
    split at hofm
    next outPort ib' hdecision =>
      refine ⟨p, device, outPort, hview, hdevice, ?_, ?_⟩
      · rw [hdecision]
      · rw [hdecision]
        exact hofm
    next => exact absurd hofm List.not_mem_nil
  next => exact absurd hofm List.not_mem_nil

/-- Accepted flows are set up for packets that neither come back nor lead nowhere. -/
theorem SetsUpWell.not_comesBack {msg : OfpMessage} {device : BitVec 48}
    (hwell : ib.SetsUpWell now randomTag msg) (hview : msg.packetInView = some p)
    (hdevice : ib.ofDevice = some device) :
    ¬ ib.ComesBack p device ∧ ¬ ib.LeadsNowhere now randomTag p device := by
  cases hout : (ib.outPort now randomTag p device).1 with
  | none => exact outPort_eq_none hout
  | some outPort =>
    have haccepted := hwell.accepted
    rw [commands_localPacketCb hview hdevice hout, flowMods_commands] at haccepted
    obtain ⟨hback, hnowhere⟩ := outPort_eq_iff hout
    have hrange := outPort_range hout
    rw [← hback, ← hnowhere]
    by_cases hin : outPort = p.inPort.toNat
    · rw [hin]
      exact ⟨port_ne_neg_one _, fun hall => hall.2 rfl⟩
    · rw [if_neg hin] at haccepted
      by_cases hflood : outPort = ofppFlood.toNat
      · rw [hflood, port_toNat_inj]
        exact ⟨port_ne_neg_one _, fun hall => absurd hall.1 (by decide)⟩
      · rw [if_neg hflood] at haccepted
        have hports := (validateActions_decision_iff hrange hin).1 (haccepted _ List.mem_cons_self)
        exact ⟨hports.1, fun hall => hports.2 hall.1⟩

/-- For such packets the flows are accepted, and a decision to drop is the ingress port. -/
theorem setsUpWell_of {msg : OfpMessage}
    (hgood : ∀ p device, msg.packetInView = some p → ib.ofDevice = some device →
    ¬ ib.ComesBack p device ∧ ¬ ib.LeadsNowhere now randomTag p device) :
    ib.SetsUpWell now randomTag msg := by
  refine ⟨fun ofm hofm => ?_, fun p device outPort hview hdevice hout hdrop ofm hofm => ?_⟩
  · obtain ⟨p, device, outPort, hview, hdevice, hout, hmem⟩ := exists_of_mem_flowMods hofm
    obtain ⟨hback, hnowhere⟩ := outPort_eq_iff hout
    obtain ⟨hnotBack, hnotNowhere⟩ := hgood p device hview hdevice
    rw [flowMods_commands] at hmem
    by_cases hin : outPort = p.inPort.toNat
    · -- no actions at all
      rw [if_pos hin, List.mem_singleton] at hmem
      subst hmem
      rfl
    · rw [if_neg hin] at hmem
      split_ifs at hmem
      · exact absurd hmem List.not_mem_nil
      · rw [List.mem_singleton] at hmem
        subst hmem
        exact (validateActions_decision_iff (outPort_range hout) hin).2
          ⟨fun heq => hnotBack (hback.1 heq), fun heq => hnotNowhere (hnowhere.1 ⟨heq, hin⟩)⟩
  · rw [commands_localPacketCb hview hdevice hout, flowMods_commands] at hofm
    obtain ⟨hnotBack, -⟩ := hgood p device hview hdevice
    have hin : outPort = p.inPort.toNat :=
      hdrop.resolve_left fun heq => hnotBack ((outPort_eq_iff hout).1.1 heq)
    rw [if_pos hin, List.mem_singleton] at hofm
    subst hofm
    exact fun i hi => absurd hi List.not_mem_nil

variable (ib now randomTag)

/-- The flows of the in-band control are accepted, and those that drop packets have no output,
exactly when no packet to the controller comes back from its port and the table leads no packet to
`OFPP_NONE`. -/
theorem setsUpWell_iff (msg : OfpMessage) :
    ib.SetsUpWell now randomTag msg ↔
      ∀ p device, msg.packetInView = some p → ib.ofDevice = some device →
        ¬ ib.ComesBack p device ∧ ¬ ib.LeadsNowhere now randomTag p device :=
  ⟨fun hwell _ _ hview hdevice => hwell.not_comesBack hview hdevice, setsUpWell_of⟩

/-- A packet to a controller that the table has at port 3, from this port. -/
def returnedPacket : OfpMessage :=
  .ofBytes ([0x01, 10, 0, 32, 0, 0, 0, 0, 0xff, 0xff, 0xff, 0xff, 0, 14, 0, 3, 0, 0] ++
    [0, 0, 0, 0, 0, 0x0c, 0, 0, 0, 0, 0, 0x01, 0x88, 0xcc]) (by decide)

/-- The decision to drop this packet becomes the port `OFPP_NONE`, which the datapath refuses. -/
theorem not_setsUpWell_returned :
    ¬ ∀ (h : MacHash) (ib : InBandData h) (now : ℤ) (randomTag : BitVec 32) (msg : OfpMessage),
      ib.SetsUpWell now randomTag msg := by
  intro hall
  have hcreate := MacLearning.valid_macLearningCreate ⟨fun _ _ => 0, fun _ _ => 0⟩ fun _ =>
    ⟨0, 0, 0, 0, 0⟩
  -- a table that has learned the address of the controller
  obtain ⟨ml, tag, -, hvalid, hlookup⟩ :=
    hcreate.lookup_learn 0 (by decide : ethAddrIsMulticast 0x0c = false) 0 3 0
  have hwell := hall _ ⟨ml, hvalid, some 0x02, some 0x0c, 60⟩ 0 0 returnedPacket
  refine (hwell.not_comesBack rfl rfl).1 ⟨by decide, by decide, rfl, rfl, rfl, hlookup⟩

end InBandData

end OfAgent
