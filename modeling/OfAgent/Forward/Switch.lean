import OfAgent.Datapath
import OfAgent.Packet.Ports

/-!
# Forwarding

The functions of `datapath.c` that send packets on: through a port, to the controller, or through
the tables again. Ports are the ones without a hardware driver, so that `IS_HW_PORT` is false.

* `SwPort`, `Switch`: the ports and the configuration of a datapath, and what it has sent.
* `outputPacket`, `outputAll`, `dpOutputControl`, `dpOutputPort`: the outputs. A run through the
  tables is a parameter of `dpOutputPort`.
* `runFlowThroughTables`: the run through the tables, whose actions may ask for another one; the
  fuel bounds how many of them are nested.
* `Kept`: what forwarding keeps; `Kept.runFlowThroughTables`: the rule for such a run. `KeptAt` is
  the same with the ports that packets are transmitted on.
* `reachable_runFlowThroughTables`: what such a run does to the tables and the packet buffers are
  events of the datapath.
-/

namespace OfAgent

/-! ### Constants of `openflow.h` and `packets.h` -/

/-- `OFPP_FLOOD`: all physical ports except the input port and those disabled by STP. -/
def ofppFlood : BitVec 16 := 0xfffb

/-- `OFPP_ALL`: all physical ports except the input port. -/
def ofppAll : BitVec 16 := 0xfffc

/-- `OFPP_LOCAL`: the local port. -/
def ofppLocal : BitVec 16 := 0xfffe

/-- `OFPC_FRAG_DROP`: drop fragments. -/
def ofpcFragDrop : BitVec 16 := 1

/-- `OFPC_FRAG_MASK`. -/
def ofpcFragMask : BitVec 16 := 3

/-- `OFPPC_PORT_DOWN`: port is administratively down. -/
def ofppcPortDown : BitVec 32 := 1 <<< 0

/-- `OFPPC_NO_RECV`: drop all packets except 802.1D spanning tree packets. -/
def ofppcNoRecv : BitVec 32 := 1 <<< 2

/-- `OFPPC_NO_RECV_STP`: drop received 802.1D STP packets. -/
def ofppcNoRecvStp : BitVec 32 := 1 <<< 3

/-- `OFPPC_NO_FLOOD`: do not include this port when flooding. -/
def ofppcNoFlood : BitVec 32 := 1 <<< 4

/-- `stp_eth_addr`. -/
def stpEthAddr : BitVec 48 := 0x0180c2000000

/-! ### Ports -/

/-- `DP_MAX_PORTS`. -/
abbrev dpMaxPorts : ℕ := 255

/-- `NETDEV_MAX_QUEUES`. -/
abbrev netdevMaxQueues : ℕ := 8

/-- `struct sw_queue`, without its counters. -/
structure SwQueue where
  /-- `queue_id`. -/
  queueId : BitVec 32
  /-- Internal mapping from OpenFlow queue id to class id. -/
  classId : BitVec 16
  /-- One from `OFPQT_*`. -/
  property : BitVec 16
  /-- `min_rate`. -/
  minRate : BitVec 16
  deriving DecidableEq, Repr

/-- `struct sw_port`, without its names and its counters, which nothing here depends on. The queues
of a port are the used elements of its array `queues`, and their class ids are their positions
there. -/
structure SwPort where
  /-- Some subset of `OFPPC_*` flags. -/
  config : BitVec 32
  /-- Some subset of `OFPPS_*` flags. -/
  state : BitVec 32
  /-- `PORT_IN_USE`: the flag `SWP_USED` is set, and `queue_list` is a list. -/
  used : Bool
  /-- `port_no`. -/
  portNo : BitVec 16
  /-- `netdev` is not null. -/
  netdev : Bool
  /-- `num_queues`. -/
  numQueues : ℕ
  /-- `queue_list`. -/
  queueList : List SwQueue
  /-- `port_no` is an index of `ports`, or the port is the local one. -/
  real : portNo.toNat < dpMaxPorts ∨ portNo = ofppLocal
  /-- `queues` is large enough. -/
  numQueues_le : numQueues ≤ netdevMaxQueues
  /-- Different queues have different positions. -/
  classIds_nodup : (queueList.map SwQueue.classId).Nodup
  /-- The first element of `queues` stands for best-effort traffic. -/
  classId_lt : ∀ q ∈ queueList, 0 < q.classId.toNat ∧ q.classId.toNat < numQueues

theorem SwPort.nodup_nil : (([] : List SwQueue).map SwQueue.classId).Nodup := List.nodup_nil

/-- A port that has not been added: `ports` is zeroed memory. -/
def SwPort.unused : SwPort where
  config := 0
  state := 0
  used := false
  portNo := 0
  netdev := false
  numQueues := 0
  queueList := []
  real := .inl (by decide)
  numQueues_le := by decide
  classIds_nodup := SwPort.nodup_nil
  classId_lt := fun _ hq => by cases hq

/-- `dp_lookup_queue`. -/
def SwPort.lookupQueue (p : SwPort) (queueId : BitVec 32) : Option SwQueue :=
  p.queueList.find? fun q => q.queueId == queueId

/-- The packets that `run_flow_through_tables` drops before it looks them up. -/
def SwPort.refuses (p : SwPort) (dlDst : BitVec 48) : Bool :=
  p.config &&& (ofppcNoRecv ||| ofppcNoRecvStp) != 0
    && p.config &&& (if dlDst != stpEthAddr then ofppcNoRecv else ofppcNoRecvStp) != 0

/-! ### The switch -/

/-- `enum ofp_packet_in_reason`. -/
inductive OfpPacketInReason
  /-- `OFPR_NO_MATCH`: no matching flow. -/
  | noMatch
  /-- `OFPR_ACTION`: action explicitly output to controller. -/
  | action
  deriving DecidableEq, Repr

/-- `struct ofp_packet_in`. The version, the type and the transaction id of its header are
constants. -/
structure OfpPacketIn where
  /-- The length field of the header. -/
  length : BitVec 16
  /-- ID assigned by datapath. -/
  bufferId : BitVec 32
  /-- Full length of frame. -/
  totalLen : BitVec 16
  /-- Port on which frame was received. -/
  inPort : BitVec 16
  /-- Reason packet is being sent. -/
  reason : OfpPacketInReason
  /-- Ethernet frame. -/
  data : List Byte
  deriving DecidableEq, Repr

/-- What leaves a switch when it handles packets. -/
inductive Emission
  /-- `netdev_send` of a packet on a port with a queue class. -/
  | transmit (portNo : BitVec 16) (classId : BitVec 16) (packet : List Byte)
  /-- A packet sent to the controllers. -/
  | packetIn (opi : OfpPacketIn)
  deriving DecidableEq, Repr

/-- `struct datapath`, with its ports. -/
structure Switch extends Datapath where
  /-- One of `OFPC_*`. -/
  flags : BitVec 16
  /-- Max bytes of new flow that datapath should send to the controller. -/
  missSendLen : BitVec 16
  /-- `ports`. -/
  ports : Fin dpMaxPorts → SwPort
  /-- `OFPP_LOCAL` port, if any. -/
  localPort : Option SwPort
  /-- The numbers of the ports in `port_list`. -/
  portList : List (BitVec 16)
  /-- What the switch has sent: a history that the source does not keep. -/
  sent : List Emission
  /-- A port is added to `port_list` once. -/
  portList_nodup : portList.Nodup

namespace Switch

/-- `dp_lookup_port`. -/
def dpLookupPort (sw : Switch) (portNo : BitVec 16) : Option SwPort :=
  if h : portNo.toNat < dpMaxPorts then some (sw.ports ⟨portNo.toNat, h⟩)
  else if portNo = ofppLocal then sw.localPort
  else none

/-- The ports in `port_list`. -/
def listedPorts (sw : Switch) : List SwPort := sw.portList.filterMap sw.dpLookupPort

/-- The switch that has sent one thing more. -/
def emit (sw : Switch) (e : Emission) : Switch := { sw with sent := sw.sent ++ [e] }

/-! ### Outputs -/

/-- `output_packet`. -/
def outputPacket (buffer : Ofpbuf) (outPort : BitVec 16) (queueId : BitVec 32) (sw : Switch) :
    Switch :=
  match sw.dpLookupPort outPort with
  | none => sw
  | some p =>
      if p.netdev then
        if p.config &&& ofppcPortDown != 0 then sw
        -- avoid the queue lookup for best-effort traffic
        else if queueId = 0 then sw.emit (.transmit p.portNo 0 buffer.bytes)
        else
          match p.lookupQueue queueId with
          | some q => sw.emit (.transmit p.portNo q.classId buffer.bytes)
          | none => sw
      else sw

/-- The last case of `dp_output_port`. -/
def outputOther (buffer : Ofpbuf) (inPort outPort : BitVec 16) (queueId : BitVec 32)
    (sw : Switch) : Switch :=
  if inPort = outPort then sw else sw.outputPacket buffer outPort queueId

/-- The loop of `output_all`, with `prev_port`, and what follows it. The number of a port is none
of the virtual ports, so that `dp_output_port` ends up in its last case. -/
def outputAllLoop (buffer : Ofpbuf) (inPort : BitVec 16) (flood : Bool) :
    List SwPort → Option (BitVec 16) → Switch → Switch
  | [], none, sw => sw
  | [], some prevPort, sw => sw.outputOther buffer inPort prevPort 0
  | p :: ps, prevPort, sw =>
      if p.portNo = inPort then outputAllLoop buffer inPort flood ps prevPort sw
      else if flood && p.config &&& ofppcNoFlood != 0 then
        outputAllLoop buffer inPort flood ps prevPort sw
      else
        let sw := match prevPort with
          | none => sw
          | some prevPort => sw.outputOther buffer.clone inPort prevPort 0
        outputAllLoop buffer inPort flood ps (some p.portNo) sw

/-- `output_all`. -/
def outputAll (buffer : Ofpbuf) (inPort : BitVec 16) (flood : Bool) (sw : Switch) : Switch :=
  outputAllLoop buffer inPort flood sw.listedPorts none sw

/-- `dp_output_control`. -/
def dpOutputControl (now : BitVec 64) (buffer : Ofpbuf) (inPort : BitVec 16) (maxLen : ℕ)
    (reason : OfpPacketInReason) (sw : Switch) : Except ForwardFault Switch :=
  let (buffers, bufferId) := sw.buffers.saveBuffer now buffer.bytes
  let totalLen := buffer.size
  let buffer :=
    if bufferId ≠ noBuffer ∧ maxLen < buffer.size then { buffer with size := maxLen } else buffer
  match buffer.pushUninit offsetofOfpPacketInData with
  | .error e => .error (.ofpbuf e)
  | .ok b =>
      .ok ({ sw with buffers }.emit (.packetIn {
        length := BitVec.ofNat 16 b.size
        bufferId, totalLen := BitVec.ofNat 16 totalLen, inPort, reason
        data := buffer.bytes }))

/-- `run_flow_through_tables`: the switch, and whether an entry has matched. -/
abbrev TableRun := Ofpbuf → Option SwPort → Switch → Except ForwardFault (Switch × Bool)

/-- `dp_output_port`. -/
def dpOutputPort (runTables : TableRun) (now : BitVec 64) (buffer : Ofpbuf)
    (inPort outPort : BitVec 16) (queueId : BitVec 32) (sw : Switch) :
    Except ForwardFault Switch :=
  if outPort = ofppInPort then .ok (sw.outputPacket buffer inPort queueId)
  else if outPort = ofppTable then
    -- a packet that no entry matches is dropped
    (runTables buffer (sw.dpLookupPort inPort) sw).map Prod.fst
  else if outPort = ofppFlood then .ok (sw.outputAll buffer inPort true)
  else if outPort = ofppAll then .ok (sw.outputAll buffer inPort false)
  else if outPort = ofppController then sw.dpOutputControl now buffer inPort 0xffff .action
  else .ok (sw.outputOther buffer inPort outPort queueId)

/-- `do_output`. -/
def doOutput (runTables : TableRun) (now : BitVec 64) (call : OutputCall) (sw : Switch) :
    Except ForwardFault Switch :=
  if call.outPort ≠ ofppController then
    sw.dpOutputPort runTables now call.buffer call.inPort call.outPort call.queueId
  else sw.dpOutputControl now call.buffer call.inPort call.maxLen.toNat .action

/-! ### The tables -/

/-- `flow_used` on the entry that a packet matches. -/
def flowUsed (now : BitVec 64) (flow : Flow) (buffer : Ofpbuf) (sw : Switch) : Switch :=
  { sw with
    chain := sw.chain.updateLookup (packetKey flow) (SwFlow.flowUsed now buffer.size) }

/-- `run_flow_through_tables`. The packet comes from a port, or from none. -/
def runFlowThroughTables (now : BitVec 64) : ℕ → TableRun
  | 0, _, _, _ => .error .endless
  | fuel + 1, buffer, p, sw =>
      let inPort := (p.map SwPort.portNo).getD ofppNone
      let (fragment, flow, buffer) := flowExtract buffer inPort
      -- drop fragment
      if fragment && sw.flags &&& ofpcFragMask == ofpcFragDrop then .ok (sw, true)
      else if p.any fun p => p.refuses flow.dlDst then .ok (sw, true)
      else
        match sw.chain.lookup (packetKey flow) false with
        | none => .ok (sw, false)
        | some f =>
            (executeActions (doOutput (runFlowThroughTables now fuel) now) buffer
              (packetKey flow) f.actions (sw.flowUsed now flow buffer)).map fun sw => (sw, true)

/-- `fwd_port_input`: a packet that has been received on a port. -/
def fwdPortInput (now : BitVec 64) (fuel : ℕ) (buffer : Ofpbuf) (p : SwPort) (sw : Switch) :
    Except ForwardFault Switch :=
  match runFlowThroughTables now fuel buffer (some p) sw with
  | .error e => .error e
  | .ok (sw, true) => .ok sw
  | .ok (sw, false) => sw.dpOutputControl now buffer p.portNo sw.missSendLen.toNat .noMatch

/-! ### What forwarding keeps -/

/-- Whatever the port that a packet comes from, the packet and its key satisfy `B` when its flow has
been extracted. -/
def Ready (B : Ofpbuf → SwFlowKey → Prop) (buffer : Ofpbuf) : Prop :=
  ∀ inPort, B (flowExtract buffer inPort).2.2 (packetKey (packetFlow buffer inPort))

/-- Forwarding keeps `P`, when the packets that lists of actions are executed on satisfy `B` with
their keys. -/
structure Kept (P : Switch → Prop) (B : Ofpbuf → SwFlowKey → Prop) : Prop where
  /-- An action leads to another such packet. -/
  action : ∀ {ah : List Byte} {s s' : ExecState Switch}, B s.buffer s.key →
    executeAction ah s = .ok s' → B s'.buffer s'.key
  /-- Such a packet may be sent to the tables. -/
  ready : ∀ {b key}, B b key → Ready B b
  /-- So may a copy. -/
  clone : ∀ {b : Ofpbuf}, Ready B b → Ready B b.clone
  /-- `netdev_send`. -/
  transmit : ∀ {sw : Switch} {portNo classId b}, P sw → Ready B b →
    P (sw.emit (.transmit portNo classId b.bytes))
  /-- `dp_output_control`. -/
  control : ∀ {sw sw' : Switch} {now b inPort maxLen reason}, P sw → Ready B b →
    sw.dpOutputControl now b inPort maxLen reason = .ok sw' → P sw'
  /-- `flow_used`. -/
  used : ∀ {sw : Switch} {now flow f b}, P sw → sw.chain.lookup (packetKey flow) false = some f →
    P (sw.flowUsed now flow b)

/-- Forwarding keeps `P`, as in `Kept`, when packets are transmitted on ports with a network device
only. -/
structure KeptAt (P : Switch → Prop) (B : Ofpbuf → SwFlowKey → Prop) : Prop where
  /-- An action leads to another such packet. -/
  action : ∀ {ah : List Byte} {s s' : ExecState Switch}, B s.buffer s.key →
    executeAction ah s = .ok s' → B s'.buffer s'.key
  /-- Such a packet may be sent to the tables. -/
  ready : ∀ {b key}, B b key → Ready B b
  /-- So may a copy. -/
  clone : ∀ {b : Ofpbuf}, Ready B b → Ready B b.clone
  /-- `netdev_send` on a port that has been looked up. -/
  transmit : ∀ {sw : Switch} {outPort p classId b}, P sw → Ready B b →
    sw.dpLookupPort outPort = some p → p.netdev = true →
      P (sw.emit (.transmit p.portNo classId b.bytes))
  /-- `dp_output_control`. -/
  control : ∀ {sw sw' : Switch} {now b inPort maxLen reason}, P sw → Ready B b →
    sw.dpOutputControl now b inPort maxLen reason = .ok sw' → P sw'
  /-- `flow_used`. -/
  used : ∀ {sw : Switch} {now flow f b}, P sw → sw.chain.lookup (packetKey flow) false = some f →
    P (sw.flowUsed now flow b)

/-- The ports do not matter for what is kept whatever they are. -/
theorem Kept.keptAt {P : Switch → Prop} {B : Ofpbuf → SwFlowKey → Prop} (h : Kept P B) :
    KeptAt P B where
  action := h.action
  ready := h.ready
  clone := h.clone
  transmit hP hb _ _ := h.transmit hP hb
  control := h.control
  used := h.used

/-- A run through the tables, once the flow of the packet is known. -/
theorem runFlowThroughTables_succ {sw : Switch} {now : BitVec 64} {buffer : Ofpbuf} {fuel : ℕ}
    {p : Option SwPort} {fragment : Bool} {flow : Flow} {b : Ofpbuf}
    (hx : flowExtract buffer ((p.map SwPort.portNo).getD ofppNone) = (fragment, flow, b)) :
    runFlowThroughTables now (fuel + 1) buffer p sw =
      if fragment && sw.flags &&& ofpcFragMask == ofpcFragDrop then .ok (sw, true)
      else if p.any fun p => p.refuses flow.dlDst then .ok (sw, true)
      else
        match sw.chain.lookup (packetKey flow) false with
        | none => .ok (sw, false)
        | some f =>
            (executeActions (doOutput (runFlowThroughTables now fuel) now) b
              (packetKey flow) f.actions (sw.flowUsed now flow b)).map fun sw => (sw, true) := by
  rw [runFlowThroughTables]
  simp only [hx]

namespace KeptAt

variable {P : Switch → Prop} {B : Ofpbuf → SwFlowKey → Prop} {sw sw' : Switch} {now : BitVec 64}
  {buffer : Ofpbuf} {inPort outPort : BitVec 16}

/-- Sending a packet on a port. -/
theorem outputPacket (h : KeptAt P B) (hP : P sw) (hb : Ready B buffer) (queueId : BitVec 32) :
    P (sw.outputPacket buffer outPort queueId) := by
  unfold Switch.outputPacket
  split
  · exact hP
  next p hp =>
    split
    next hnetdev =>
      split
      · exact hP
      split
      · exact h.transmit hP hb hp hnetdev
      split
      · exact h.transmit hP hb hp hnetdev
      · exact hP
    · exact hP

theorem outputOther (h : KeptAt P B) (hP : P sw) (hb : Ready B buffer) (queueId : BitVec 32) :
    P (sw.outputOther buffer inPort outPort queueId) := by
  unfold Switch.outputOther
  split
  · exact hP
  · exact h.outputPacket hP hb queueId

/-- Flooding. -/
theorem outputAll (h : KeptAt P B) (hP : P sw) (hb : Ready B buffer) (flood : Bool) :
    P (sw.outputAll buffer inPort flood) := by
  have loop : ∀ (ps : List SwPort) (prevPort : Option (BitVec 16)) (sw : Switch), P sw →
      P (outputAllLoop buffer inPort flood ps prevPort sw) := by
    intro ps
    induction ps with
    | nil =>
      intro prevPort sw hP
      cases prevPort with
      | none => exact hP
      | some prevPort => exact h.outputOther hP hb 0
    | cons p ps ih =>
      intro prevPort sw hP
      unfold outputAllLoop
      split
      · exact ih prevPort sw hP
      · split
        · exact ih prevPort sw hP
        · cases prevPort with
          | none => exact ih _ sw hP
          | some prevPort => exact ih _ _ (h.outputOther hP (h.clone hb) 0)
  exact loop _ _ _ hP

/-- An output, when the runs through the tables keep `P`. -/
theorem doOutput (h : KeptAt P B) {runTables : TableRun}
    (htables : ∀ buffer p (sw sw' : Switch) r, Ready B buffer → P sw →
      runTables buffer p sw = .ok (sw', r) → P sw')
    {call : OutputCall} (hP : P sw) (hb : Ready B call.buffer)
    (hout : sw.doOutput runTables now call = .ok sw') : P sw' := by
  have hok : ∀ {x : Switch}, P x → .ok x = Except.ok (ε := ForwardFault) sw' → P sw' :=
    fun hx heq => Except.ok.inj heq ▸ hx
  unfold Switch.doOutput at hout
  split at hout
  next =>
    unfold dpOutputPort at hout
    split at hout
    · exact hok (h.outputPacket hP hb _) hout
    split at hout
    · cases hrun : runTables call.buffer (sw.dpLookupPort call.inPort) sw with
      | error e => simp [hrun, Except.map] at hout
      | ok r =>
        rw [hrun] at hout
        rw [← Except.ok.inj hout]
        exact htables _ _ _ _ r.2 hb hP hrun
    split at hout
    · exact hok (h.outputAll hP hb true) hout
    split at hout
    · exact hok (h.outputAll hP hb false) hout
    · exact hok (h.outputOther hP hb _) hout
  next => exact h.control hP hb hout

/-- The execution of actions, when the runs through the tables keep `P`. -/
theorem executeActions (h : KeptAt P B) {runTables : TableRun}
    (htables : ∀ buffer p (sw sw' : Switch) r, Ready B buffer → P sw →
      runTables buffer p sw = .ok (sw', r) → P sw')
    {key : SwFlowKey} {actions : List Byte} (hP : P sw) (hb : B buffer key)
    (hexec : OfAgent.executeActions (Switch.doOutput runTables now) buffer key actions sw =
      .ok sw') : P sw' := by
  refine executeActions_invariant (B := B) (fun ah s s' => h.action) ?_ hb hP hexec
  rintro call w w' b key hb hcall hw hout
  refine h.doOutput htables hw ?_ hout
  rcases hcall with heq | heq
  · rw [heq]
    exact h.ready hb
  · rw [heq]
    exact h.clone (h.ready hb)

/-- A run through the tables. -/
theorem runFlowThroughTables (h : KeptAt P B) {fuel : ℕ} {p : Option SwPort} {r : Bool} (hP : P sw)
    (hb : Ready B buffer)
    (hrun : Switch.runFlowThroughTables now fuel buffer p sw = .ok (sw', r)) : P sw' := by
  -- by induction on the number of nested runs
  induction fuel generalizing buffer p sw sw' r with
  | zero => cases hrun
  | succ fuel ih =>
    obtain ⟨fragment, flow, b, hx⟩ : ∃ fragment flow b,
        flowExtract buffer ((p.map SwPort.portNo).getD ofppNone) = (fragment, flow, b) :=
      ⟨_, _, _, rfl⟩
    have hready := hb ((p.map SwPort.portNo).getD ofppNone)
    rw [packetFlow, hx] at hready
    rw [runFlowThroughTables_succ hx] at hrun
    have hsame : ∀ {x : Bool}, Except.ok (ε := ForwardFault) (sw, x) = .ok (sw', r) → P sw' :=
      fun heq => (Prod.mk.inj (Except.ok.inj heq)).1 ▸ hP
    split at hrun
    · exact hsame hrun
    split at hrun
    · exact hsame hrun
    split at hrun
    next => exact hsame hrun
    next f hf =>
      cases hexec : OfAgent.executeActions
          (Switch.doOutput (Switch.runFlowThroughTables now fuel) now) b (packetKey flow) f.actions
          (sw.flowUsed now flow b) with
      | error e => simp [hexec, Except.map] at hrun
      | ok w =>
        rw [hexec] at hrun
        rw [← (Prod.mk.inj (Except.ok.inj hrun)).1]
        exact h.executeActions (fun _ _ _ _ _ hb hP hrun => ih hP hb hrun) (h.used hP hf) hready
          hexec

/-- A packet that is received on a port. -/
theorem fwdPortInput (h : KeptAt P B) {fuel : ℕ} {p : SwPort} (hP : P sw) (hb : Ready B buffer)
    (hrun : Switch.fwdPortInput now fuel buffer p sw = .ok sw') : P sw' := by
  unfold Switch.fwdPortInput at hrun
  split at hrun
  next => cases hrun
  next w hw => exact Except.ok.inj hrun ▸ h.runFlowThroughTables hP hb hw
  next w hw => exact h.control (h.runFlowThroughTables hP hb hw) hb hrun

end KeptAt

namespace Kept

variable {P : Switch → Prop} {B : Ofpbuf → SwFlowKey → Prop} {sw sw' : Switch} {now : BitVec 64}
  {buffer : Ofpbuf}

/-- An output, when the runs through the tables keep `P`. -/
theorem doOutput (h : Kept P B) {runTables : TableRun}
    (htables : ∀ buffer p (sw sw' : Switch) r, Ready B buffer → P sw →
      runTables buffer p sw = .ok (sw', r) → P sw')
    {call : OutputCall} (hP : P sw) (hb : Ready B call.buffer)
    (hout : sw.doOutput runTables now call = .ok sw') : P sw' :=
  h.keptAt.doOutput htables hP hb hout

/-- The execution of actions, when the runs through the tables keep `P`. -/
theorem executeActions (h : Kept P B) {runTables : TableRun}
    (htables : ∀ buffer p (sw sw' : Switch) r, Ready B buffer → P sw →
      runTables buffer p sw = .ok (sw', r) → P sw')
    {key : SwFlowKey} {actions : List Byte} (hP : P sw) (hb : B buffer key)
    (hexec : OfAgent.executeActions (Switch.doOutput runTables now) buffer key actions sw =
      .ok sw') : P sw' :=
  h.keptAt.executeActions htables hP hb hexec

theorem runFlowThroughTables (h : Kept P B) {fuel : ℕ} {p : Option SwPort} {r : Bool} (hP : P sw)
    (hb : Ready B buffer)
    (hrun : Switch.runFlowThroughTables now fuel buffer p sw = .ok (sw', r)) : P sw' :=
  h.keptAt.runFlowThroughTables hP hb hrun

theorem fwdPortInput (h : Kept P B) {fuel : ℕ} {p : SwPort} (hP : P sw) (hb : Ready B buffer)
    (hrun : Switch.fwdPortInput now fuel buffer p sw = .ok sw') : P sw' :=
  h.keptAt.fwdPortInput hP hb hrun

end Kept

/-! ### What forwarding does to the datapath -/

/-- Sending a packet to the controller saves it in a buffer. -/
theorem toDatapath_dpOutputControl {sw sw' : Switch} {now : BitVec 64} {buffer : Ofpbuf}
    {inPort : BitVec 16} {maxLen : ℕ} {reason : OfpPacketInReason}
    (h : sw.dpOutputControl now buffer inPort maxLen reason = .ok sw') :
    sw'.toDatapath = sw.toDatapath.next (.toController now buffer.bytes) := by
  unfold dpOutputControl at h
  simp only at h
  split at h
  next => cases h
  next => exact Except.ok.inj h ▸ rfl

/-- Forwarding does to the tables and the packet buffers what events of the datapath do. -/
theorem kept_reachable (dp : Datapath) :
    Kept (fun sw => Transition.Reachable Datapath.Step dp sw.toDatapath) fun _ _ => True where
  action _ _ := trivial
  ready _ _ := trivial
  clone _ _ := trivial
  transmit hP _ := hP
  control hP _ hout := .step hP (toDatapath_dpOutputControl hout)
  used {sw now flow f b} hP hf := by
    -- counting a packet is what the datapath does when the packet enters its tables
    refine .step (e := .packet now flow b.bytes) hP ?_
    simp [Datapath.Step, Datapath.next, Datapath.fwdPortInput, hf, Ofpbuf.bytes, flowUsed]

variable {sw sw' : Switch} {now : BitVec 64} {buffer : Ofpbuf}

/-- A switch whose tables and buffers are those of a reachable datapath keeps that when a packet
runs through its tables. -/
theorem reachable_runFlowThroughTables {sizes : TableSizes} {fuel : ℕ} {p : Option SwPort}
    {r : Bool} (hr : Datapath.Reachable sizes sw.toDatapath)
    (h : runFlowThroughTables now fuel buffer p sw = .ok (sw', r)) :
    Datapath.Reachable sizes sw'.toDatapath := by
  obtain ⟨start, hrun⟩ := hr
  have hkept := (kept_reachable sw.toDatapath).runFlowThroughTables .refl (fun _ => trivial) h
  exact ⟨start, hrun.trans hkept⟩

end Switch

end OfAgent
