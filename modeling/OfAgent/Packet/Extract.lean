import OfAgent.Flow.Key
import OfAgent.Packet.Buffer

/-!
# The flow of a packet

`flow_extract` of `flow.c`. It takes headers off a copy of the buffer, layer by layer, and fills
the fields of a flow on the way; what a layer does not have is left zero.

* `Cursor`: the copy of the buffer, of which only the position and the size matter.
* `extractFrame`, `extractVlan`, `extractNetwork`, `extractTransport`: the layers.
* `flowExtract`: the function. `flowExtract_cases`: a packet goes through all layers, or has an
  empty flow.
* `Flow.Layered`: which fields of an extracted flow are zero; `layered_packetFlow`.
* `Cursor.RestOf`: the rest of a packet behind some headers.
-/

namespace OfAgent

/-! ### Constants of `packets.h` and `openflow.h` -/

/-- `OFP_VLAN_NONE`. -/
def ofpVlanNone : BitVec 16 := 0xffff

/-- `OFP_DL_TYPE_ETH2_CUTOFF`. -/
def ofpDlTypeEth2Cutoff : BitVec 16 := 0x0600

/-- `OFP_DL_TYPE_NOT_ETH_TYPE`. -/
def ofpDlTypeNotEthType : BitVec 16 := 0x05ff

/-- `ETH_TYPE_VLAN`. -/
def ethTypeVlan : BitVec 16 := 0x8100

/-- `ETH_HEADER_LEN`. -/
def ethHeaderLen : ℕ := 14

/-- `LLC_HEADER_LEN`. -/
def llcHeaderLen : ℕ := 3

/-- `LLC_SNAP_HEADER_LEN`. -/
def llcSnapHeaderLen : ℕ := 8

/-- `VLAN_HEADER_LEN`. -/
def vlanHeaderLen : ℕ := 4

/-- `IP_HEADER_LEN`. -/
def ipHeaderLen : ℕ := 20

/-- `TCP_HEADER_LEN`. -/
def tcpHeaderLen : ℕ := 20

/-- `UDP_HEADER_LEN`. -/
def udpHeaderLen : ℕ := 8

/-- `ICMP_HEADER_LEN`. -/
def icmpHeaderLen : ℕ := 4

/-- `ARP_ETH_HEADER_LEN`. -/
def arpEthHeaderLen : ℕ := 28

/-- `VLAN_VID_MASK`. -/
def vlanVidMask : BitVec 16 := 0x0fff

/-- `VLAN_PCP_MASK`. -/
def vlanPcpMask : BitVec 16 := 0xe000

/-- `IP_TYPE_ICMP`. -/
def ipTypeIcmp : BitVec 8 := 1

/-- `IP_TYPE_TCP`. -/
def ipTypeTcp : BitVec 8 := 6

/-- `IP_TYPE_UDP`. -/
def ipTypeUdp : BitVec 8 := 17

/-- `IP_MORE_FRAGMENTS | IP_FRAG_OFF_MASK`. -/
def ipFragmentMask : BitVec 16 := 0x2000 ||| 0x1fff

/-- `IP_IHL`. -/
def ipIhl (ipIhlVer : Byte) : ℕ := (ipIhlVer &&& 15).toNat

/-- `TCP_OFFSET`. -/
def tcpOffset (tcpCtl : BitVec 16) : ℕ := (tcpCtl >>> 12).toNat

/-- The VLAN id of a tag. -/
def vlanVid (tci : BitVec 16) : BitVec 16 := tci &&& vlanVidMask

/-- The VLAN priority of a tag. -/
def vlanPcp (tci : BitVec 16) : BitVec 8 := ((tci >>> 13) &&& 7).setWidth 8

/-! ### Pulling headers -/

/-- The copy of the buffer that `flow_extract` takes headers from. -/
structure Cursor where
  /-- `data`. -/
  pos : ℕ
  /-- `size`. -/
  left : ℕ
  deriving DecidableEq, Repr

namespace Cursor

/-- The header at a position of the copy is inside it: `ofpbuf_at` does not return null. -/
def has (b : Cursor) (offset size : ℕ) : Bool := offset + size ≤ b.left

/-- `ofpbuf_pull`. -/
def pull (b : Cursor) (size : ℕ) : Cursor := ⟨b.pos + size, b.left - size⟩

/-- `ofpbuf_try_pull`: the copy without the header, which starts where the copy did. -/
def tryPull (b : Cursor) (size : ℕ) : Option Cursor :=
  if size ≤ b.left then some (b.pull size) else none

end Cursor

variable (m : Memory)

/-- `pull_arp`. -/
def pullArp (b : Cursor) : Option Cursor := b.tryPull arpEthHeaderLen

/-- `pull_ip`. -/
def pullIp (b : Cursor) : Option Cursor :=
  if ipHeaderLen ≤ b.left then
    let ipLen := ipIhl (m b.pos) * 4
    if ipHeaderLen ≤ ipLen then b.tryPull ipLen else none
  else none

/-- `pull_tcp`. -/
def pullTcp (b : Cursor) : Option Cursor :=
  if tcpHeaderLen ≤ b.left then
    let tcpLen := tcpOffset (m.get16 (b.pos + 12)) * 4
    if tcpHeaderLen ≤ tcpLen then b.tryPull tcpLen else none
  else none

/-- `pull_udp`. -/
def pullUdp (b : Cursor) : Option Cursor := b.tryPull udpHeaderLen

/-- `pull_icmp`. -/
def pullIcmp (b : Cursor) : Option Cursor := b.tryPull icmpHeaderLen

/-- `pull_eth`. -/
def pullEth (b : Cursor) : Option Cursor := b.tryPull ethHeaderLen

/-- `pull_vlan`. -/
def pullVlan (b : Cursor) : Option Cursor := b.tryPull vlanHeaderLen

/-! ### The layers -/

/-- The flow before anything has been extracted. -/
def Flow.unset (inPort : BitVec 16) : Flow :=
  { nwSrc := 0, nwDst := 0, inPort, dlVlan := ofpVlanNone, dlType := 0, tpSrc := 0, tpDst := 0,
    dlSrc := 0, dlDst := 0, dlVlanPcp := 0, nwTos := 0, nwProto := 0 }

/-- The Ethernet type of the frame behind its Ethernet header, which starts at `eth`, and what is
left of it; nothing if an 802.2 frame ends inside its LLC header. -/
def extractFrame (eth : ℕ) (b : Cursor) : Option (BitVec 16 × Cursor) :=
  let ethType := m.get16 (eth + 12)
  if ofpDlTypeEth2Cutoff ≤ ethType then
    -- this is an Ethernet II frame
    some (ethType, b)
  else if b.has 0 llcHeaderLen then
    -- this is an 802.2 frame
    if b.has llcHeaderLen 5
        && m b.pos == 0xaa && m (b.pos + 1) == 0xaa && m (b.pos + 2) == 3
        && m.slice (b.pos + 3) 3 == [0, 0, 0] then
      some (m.get16 (b.pos + 6), b.pull llcSnapHeaderLen)
    else some (ofpDlTypeNotEthType, b.pull llcHeaderLen)
  else none

/-- The VLAN tag of a frame. -/
def extractVlan (flow : Flow) (b : Cursor) : Flow × Cursor :=
  if flow.dlType == ethTypeVlan then
    match pullVlan b with
    | some b' =>
        let tci := m.get16 b.pos
        ({ flow with
          dlType := m.get16 (b.pos + 2), dlVlan := vlanVid tci, dlVlanPcp := vlanPcp tci }, b')
    | none => (flow, b)
  else (flow, b)

/-- The transport header of an IP packet that is not a fragment, and what follows it. A header
that is cut short counts as no transport header at all. -/
def extractTransport (flow : Flow) (b : Cursor) : Flow × Option Cursor :=
  if flow.nwProto == ipTypeTcp then
    match pullTcp m b with
    | some l7 => ({ flow with tpSrc := m.get16 b.pos, tpDst := m.get16 (b.pos + 2) }, some l7)
    | none => ({ flow with nwProto := 0 }, none)
  else if flow.nwProto == ipTypeUdp then
    match pullUdp b with
    | some l7 => ({ flow with tpSrc := m.get16 b.pos, tpDst := m.get16 (b.pos + 2) }, some l7)
    | none => ({ flow with nwProto := 0 }, none)
  else if flow.nwProto == ipTypeIcmp then
    match pullIcmp b with
    | some l7 =>
        -- icmp_type and icmp_code
        ({ flow with tpSrc := (m b.pos).setWidth 16, tpDst := (m (b.pos + 1)).setWidth 16 },
          some l7)
    | none => ({ flow with nwProto := 0 }, none)
  else (flow, none)

/-- What the layers above the frame add: the flow, the transport header, the application data,
and whether the packet is an IP fragment. -/
structure NetworkLayers where
  /-- The flow. -/
  flow : Flow
  /-- `l4`. -/
  l4 : Option Cursor
  /-- `l7`. -/
  l7 : Option Cursor
  /-- The packet is an IP fragment. -/
  fragment : Bool

/-- The network header of a frame and what it carries. -/
def extractNetwork (flow : Flow) (b : Cursor) : NetworkLayers :=
  if flow.dlType == ethTypeIp then
    match pullIp m b with
    | some l4 =>
        let flow := { flow with
          nwTos := m (b.pos + 1) &&& 0xfc, nwProto := m (b.pos + 9)
          nwSrc := m.get32 (b.pos + 12), nwDst := m.get32 (b.pos + 16) }
        if m.get16 (b.pos + 6) &&& ipFragmentMask == 0 then
          let (flow, l7) := extractTransport m flow l4
          ⟨flow, some l4, l7, false⟩
        else ⟨flow, some l4, none, true⟩
    | none => ⟨flow, none, none, false⟩
  else if flow.dlType == ethTypeArp then
    match pullArp b with
    | some _ =>
        let flow := if m.get16 (b.pos + 2) == 0x0800 && m (b.pos + 5) == 4 then
          { flow with nwSrc := m.get32 (b.pos + 14), nwDst := m.get32 (b.pos + 24) } else flow
        ⟨{ flow with nwProto := (m.get16 (b.pos + 6)).setWidth 8 }, none, none, false⟩
    | none => ⟨flow, none, none, false⟩
  else ⟨flow, none, none, false⟩

/-- `flow_extract`: whether the packet is an IP fragment, its flow, and the packet with the
positions of its headers. -/
def flowExtract (packet : Ofpbuf) (inPort : BitVec 16) : Bool × Flow × Ofpbuf :=
  let m := packet.mem
  let flow := Flow.unset inPort
  let packet := { packet with l2 := some packet.data, l3 := none, l4 := none, l7 := none }
  match pullEth ⟨packet.data, packet.size⟩ with
  | none => (false, flow, packet)
  | some b =>
      match extractFrame m packet.data b with
      -- the source returns before it copies the addresses
      | none => (false, flow, packet)
      | some (dlType, b) =>
          let (flow, b) := extractVlan m { flow with dlType } b
          let flow := { flow with
            dlSrc := m.get48 (packet.data + 6), dlDst := m.get48 packet.data }
          let net := extractNetwork m flow b
          (net.fragment, net.flow, { packet with
            l3 := some b.pos, l4 := net.l4.map Cursor.pos, l7 := net.l7.map Cursor.pos })

/-- The flow of a packet. -/
def packetFlow (packet : Ofpbuf) (inPort : BitVec 16) : Flow := (flowExtract packet inPort).2.1

/-- A packet that ends inside the header of its frame has an empty flow, and every other one goes
through all layers. -/
theorem flowExtract_cases (packet : Ofpbuf) (inPort : BitVec 16) :
    (flowExtract packet inPort = (false, Flow.unset inPort,
      { packet with l2 := some packet.data, l3 := none, l4 := none, l7 := none })) ∨
    ∃ b0 dlType b1 flow b2, pullEth ⟨packet.data, packet.size⟩ = some b0 ∧
      extractFrame packet.mem packet.data b0 = some (dlType, b1) ∧
      extractVlan packet.mem { Flow.unset inPort with dlType } b1 = (flow, b2) ∧
      (let net := extractNetwork packet.mem { flow with
          dlSrc := packet.mem.get48 (packet.data + 6), dlDst := packet.mem.get48 packet.data } b2
      flowExtract packet inPort = (net.fragment, net.flow, { packet with
        l2 := some packet.data, l3 := some b2.pos, l4 := net.l4.map Cursor.pos
        l7 := net.l7.map Cursor.pos })) := by
  unfold flowExtract
  simp only
  cases heth : pullEth ⟨packet.data, packet.size⟩ with
  | none => exact .inl rfl
  | some b0 =>
    simp only
    cases hframe : extractFrame packet.mem packet.data b0 with
    | none => exact .inl rfl
    | some frame =>
      obtain ⟨dlType, b1⟩ := frame
      exact .inr ⟨b0, dlType, b1, _, _, rfl, hframe, rfl, rfl⟩

/-- Finding the headers changes nothing but what is known of them. -/
theorem flowExtract_headers (packet : Ofpbuf) (inPort : BitVec 16) :
    ∃ l3 l4 l7, (flowExtract packet inPort).2.2 =
      { packet with l2 := some packet.data, l3, l4, l7 } := by
  obtain h | ⟨_, _, _, _, _, _, _, _, h⟩ := flowExtract_cases packet inPort
  · exact ⟨_, _, _, by rw [h]⟩
  · exact ⟨_, _, _, by rw [h]⟩

theorem flowExtract_mem (packet : Ofpbuf) (inPort : BitVec 16) :
    (flowExtract packet inPort).2.2.mem = packet.mem ∧
      (flowExtract packet inPort).2.2.data = packet.data ∧
      (flowExtract packet inPort).2.2.size = packet.size := by
  obtain ⟨l3, l4, l7, h⟩ := flowExtract_headers packet inPort
  rw [h]
  exact ⟨rfl, rfl, rfl⟩

/-! ### What an extracted flow looks like -/

/-- The IP protocols whose headers have ports, or a type and a code. -/
def hasPorts (nwProto : BitVec 8) : Bool :=
  nwProto == ipTypeTcp || nwProto == ipTypeUdp || nwProto == ipTypeIcmp

/-- Nothing above the frame has been extracted. -/
structure Flow.Bare (f : Flow) : Prop where
  /-- There are no addresses. -/
  addresses : f.nwSrc = 0 ∧ f.nwDst = 0
  /-- There is no type of service. -/
  nwTos : f.nwTos = 0
  /-- There is no protocol. -/
  nwProto : f.nwProto = 0
  /-- There are no ports. -/
  ports : f.tpSrc = 0 ∧ f.tpDst = 0

/-- The fields of the layers that a packet does not have are zero. -/
structure Flow.Layered (f : Flow) : Prop where
  /-- Only IP and ARP have addresses and a protocol. -/
  network : f.dlType ≠ ethTypeIp → f.dlType ≠ ethTypeArp →
    f.nwSrc = 0 ∧ f.nwDst = 0 ∧ f.nwProto = 0
  /-- Only IP has a type of service. -/
  nwTos : f.dlType ≠ ethTypeIp → f.nwTos = 0
  /-- The type of service is in the upper six bits. -/
  nwTos_upper : f.nwTos &&& 0xfc = f.nwTos
  /-- Only some protocols over IP have ports. -/
  transport : ¬ (f.dlType = ethTypeIp ∧ hasPorts f.nwProto = true) → f.tpSrc = 0 ∧ f.tpDst = 0

/-- A flow of a frame alone is layered. -/
theorem Flow.Bare.layered {f : Flow} (h : f.Bare) : f.Layered where
  network _ _ := ⟨h.addresses.1, h.addresses.2, h.nwProto⟩
  nwTos _ := h.nwTos
  nwTos_upper := by
    rw [h.nwTos]
    decide
  transport _ := h.ports

/-- The tag of a frame adds nothing above the frame. -/
theorem bare_extractVlan {flow : Flow} (h : flow.Bare) (b : Cursor) :
    (extractVlan m flow b).1.Bare := by
  unfold extractVlan
  split
  · split
    · exact ⟨h.addresses, h.nwTos, h.nwProto, h.ports⟩
    · exact h
  · exact h

/-- The transport header changes the protocol and the ports only, and a flow with ports has a
protocol with ports. -/
theorem extractTransport_spec (flow : Flow) (hports : flow.tpSrc = 0 ∧ flow.tpDst = 0)
    (b : Cursor) :
    ∃ nwProto tpSrc tpDst,
      (extractTransport m flow b).1 = { flow with nwProto, tpSrc, tpDst } ∧
        (hasPorts nwProto = false → tpSrc = 0 ∧ tpDst = 0) := by
  -- a header that is cut short leaves no ports and no protocol
  have hnone : ∃ nwProto tpSrc tpDst,
      { flow with nwProto := 0 } = { flow with nwProto, tpSrc, tpDst } ∧
        (hasPorts nwProto = false → tpSrc = 0 ∧ tpDst = 0) :=
    ⟨0, flow.tpSrc, flow.tpDst, rfl, fun _ => hports⟩
  -- a whole one leaves the protocol as it is, which is one with ports
  have hsome : ∀ src dst : BitVec 16, hasPorts flow.nwProto = true → ∃ nwProto tpSrc tpDst,
      { flow with tpSrc := src, tpDst := dst } = { flow with nwProto, tpSrc, tpDst } ∧
        (hasPorts nwProto = false → tpSrc = 0 ∧ tpDst = 0) := by
    intro src dst hp
    refine ⟨flow.nwProto, src, dst, rfl, fun hn => ?_⟩
    rw [hp] at hn
    cases hn
  unfold extractTransport
  split
  next htcp =>
    have hp : hasPorts flow.nwProto = true := by rw [hasPorts, htcp, Bool.true_or, Bool.true_or]
    split
    · exact hsome _ _ hp
    · exact hnone
  next =>
    split
    next hudp =>
      have hp : hasPorts flow.nwProto = true := by
        rw [hasPorts, hudp, Bool.or_true, Bool.true_or]
      split
      · exact hsome _ _ hp
      · exact hnone
    next =>
      split
      next hicmp =>
        have hp : hasPorts flow.nwProto = true := by rw [hasPorts, hicmp, Bool.or_true]
        split
        · exact hsome _ _ hp
        · exact hnone
      next => exact ⟨flow.nwProto, flow.tpSrc, flow.tpDst, rfl, fun _ => hports⟩

/-- What the network layer makes of the flow of a frame. -/
theorem layered_extractNetwork {flow : Flow} (h : flow.Bare) (b : Cursor) :
    (extractNetwork m flow b).flow.Layered := by
  unfold extractNetwork
  split
  next hip =>
    rw [beq_iff_eq] at hip
    have htos : m (b.pos + 1) &&& 0xfc &&& 0xfc = m (b.pos + 1) &&& 0xfc := by
      rw [BitVec.and_assoc, BitVec.and_self]
    split
    next l4 _ =>
      simp only
      split
      next =>
        -- the ports come from a header of a protocol that has them
        obtain ⟨nwProto, tpSrc, tpDst, heq, hzero⟩ := extractTransport_spec m
          { flow with
            nwTos := m (b.pos + 1) &&& 0xfc, nwProto := m (b.pos + 9)
            nwSrc := m.get32 (b.pos + 12), nwDst := m.get32 (b.pos + 16) } h.ports l4
        rw [heq]
        refine ⟨fun hne => absurd hip hne, fun hne => absurd hip hne, htos, fun hn => ?_⟩
        rw [not_and, Bool.not_eq_true] at hn
        exact hzero (hn hip)
      next =>
        exact ⟨fun hne => absurd hip hne, fun hne => absurd hip hne, htos, fun _ => h.ports⟩
    next => exact h.layered
  next hip =>
    have hip : flow.dlType ≠ ethTypeIp := fun heq => hip (beq_iff_eq.2 heq)
    split
    next harp =>
      rw [beq_iff_eq] at harp
      split
      next =>
        simp only
        have hupper : flow.nwTos &&& 0xfc = flow.nwTos := h.layered.nwTos_upper
        split <;>
          exact ⟨fun _ hne => absurd harp hne, fun _ => h.nwTos, hupper, fun _ => h.ports⟩
      next => exact h.layered
    next => exact h.layered

/-- The fields of the layers that a packet does not have are zero in its flow. -/
theorem layered_packetFlow (packet : Ofpbuf) (inPort : BitVec 16) :
    (packetFlow packet inPort).Layered := by
  have hunset : (Flow.unset inPort).Bare := ⟨⟨rfl, rfl⟩, rfl, rfl, ⟨rfl, rfl⟩⟩
  unfold packetFlow
  obtain h | ⟨b0, dlType, b1, flow, b2, -, -, hvlan, h⟩ := flowExtract_cases packet inPort
  · rw [h]
    exact hunset.layered
  · have hframe : ({ Flow.unset inPort with dlType } : Flow).Bare :=
      ⟨hunset.addresses, hunset.nwTos, hunset.nwProto, hunset.ports⟩
    have hbare := bare_extractVlan packet.mem hframe b1
    rw [hvlan] at hbare
    rw [h]
    apply layered_extractNetwork
    -- the addresses of the frame are below the network layer
    exact ⟨hbare.addresses, hbare.nwTos, hbare.nwProto, hbare.ports⟩

/-- The ingress port of a flow is the one that the packet came from. -/
@[simp]
theorem packetFlow_inPort (packet : Ofpbuf) (inPort : BitVec 16) :
    (packetFlow packet inPort).inPort = inPort := by
  -- none of the three steps behind the frame writes the port
  have hvlan : ∀ flow b, (extractVlan packet.mem flow b).1.inPort = flow.inPort := by
    intro flow b
    unfold extractVlan
    split
    · split <;> rfl
    · rfl
  have htransport : ∀ flow b, (extractTransport packet.mem flow b).1.inPort = flow.inPort := by
    intro flow b
    unfold extractTransport
    repeat' split
    all_goals rfl
  have hnetwork : ∀ flow b, (extractNetwork packet.mem flow b).flow.inPort = flow.inPort := by
    intro flow b
    unfold extractNetwork
    split
    · split
      · simp only
        split
        · exact htransport _ _
        · rfl
      · rfl
    · split
      · split
        · simp only
          split <;> rfl
        · rfl
      · rfl
  unfold packetFlow
  obtain h | ⟨b0, dlType, b1, flow, b2, -, -, heq, h⟩ := flowExtract_cases packet inPort
  · rw [h]
    rfl
  · have hflow := hvlan { Flow.unset inPort with dlType } b1
    rw [heq] at hflow
    rw [h]
    exact (hnetwork _ _).trans hflow

/-! ### What is left of a packet -/

/-- The rest of a packet behind some headers. -/
def Cursor.RestOf (b' b : Cursor) : Prop := b.pos ≤ b'.pos ∧ b'.pos + b'.left = b.pos + b.left

/-- The IP header that is taken off. -/
theorem pullIp_eq_some {m : Memory} {b b' : Cursor} (h : pullIp m b = some b') :
    20 ≤ ipIhl (m b.pos) * 4 ∧ b'.pos = b.pos + ipIhl (m b.pos) * 4 ∧
      b'.pos + b'.left = b.pos + b.left := by
  unfold pullIp Cursor.tryPull Cursor.pull at h
  simp only at h
  split at h
  next =>
    split at h
    next hlen =>
      split at h
      next hleft =>
        rw [← Option.some.inj h]
        refine ⟨hlen, rfl, ?_⟩
        change b.pos + ipIhl (m b.pos) * 4 + (b.left - ipIhl (m b.pos) * 4) = _
        omega
      next => cases h
    next => cases h
  next => cases h

namespace Cursor

variable {m : Memory} {b b' b'' : Cursor} {n : ℕ}

theorem RestOf.trans (h : b''.RestOf b') (h' : b'.RestOf b) : b''.RestOf b :=
  ⟨h'.1.trans h.1, h.2.trans h'.2⟩

theorem restOf_pull (h : n ≤ b.left) : (b.pull n).RestOf b := by
  refine ⟨Nat.le_add_right _ _, ?_⟩
  change b.pos + n + (b.left - n) = _
  omega

/-- Behind a header that the code finds to be there. -/
theorem restOf_of_tryPull (h : b.tryPull n = some b') : n ≤ b.left ∧ b'.RestOf b := by
  unfold tryPull at h
  split at h
  next hn =>
    cases h
    exact ⟨hn, restOf_pull hn⟩
  next => cases h

theorem restOf_of_pullIp (h : pullIp m b = some b') : ipHeaderLen ≤ b.left ∧ b'.RestOf b := by
  obtain ⟨hlen, hpos, hend⟩ := pullIp_eq_some h
  unfold ipHeaderLen
  exact ⟨by omega, by omega, hend⟩

/-- Behind a TCP header. -/
theorem restOf_of_pullTcp (h : pullTcp m b = some b') : tcpHeaderLen ≤ b.left ∧ b'.RestOf b := by
  unfold pullTcp at h
  split at h
  next hmin =>
    simp only at h
    split at h
    next => exact ⟨hmin, (restOf_of_tryPull h).2⟩
    next => cases h
  next => cases h

/-- Behind the header of a frame. -/
theorem restOf_of_extractFrame {eth : ℕ} {dlType : BitVec 16}
    (h : extractFrame m eth b = some (dlType, b')) : b'.RestOf b := by
  unfold extractFrame at h
  simp only at h
  split at h
  next => exact (Prod.mk.inj (Option.some.inj h)).2 ▸ ⟨le_refl _, rfl⟩
  next =>
    split at h
    next hllc =>
      split at h
      next hsnap =>
        simp only [Bool.and_eq_true] at hsnap
        have hleft : llcHeaderLen + 5 ≤ b.left := of_decide_eq_true hsnap.1.1.1.1
        exact (Prod.mk.inj (Option.some.inj h)).2 ▸ restOf_pull hleft
      next =>
        have hleft : 0 + llcHeaderLen ≤ b.left := of_decide_eq_true hllc
        rw [Nat.zero_add] at hleft
        exact (Prod.mk.inj (Option.some.inj h)).2 ▸ restOf_pull hleft
    next => cases h

theorem restOf_extractVlan (m : Memory) (flow : Flow) (b : Cursor) :
    (extractVlan m flow b).2.RestOf b := by
  unfold extractVlan
  split
  · split
    next hpull => exact (restOf_of_tryPull hpull).2
    next => exact ⟨le_refl _, rfl⟩
  · exact ⟨le_refl _, rfl⟩

/-- Behind a transport header. -/
theorem restOf_extractTransport {flow : Flow} {l7 : Cursor}
    (h : (extractTransport m flow b).2 = some l7) : l7.RestOf b := by
  unfold extractTransport at h
  split at h
  next =>
    split at h
    next hpull =>
      cases h
      exact (restOf_of_pullTcp hpull).2
    next => cases h
  next =>
    split at h
    next =>
      split at h
      next hpull =>
        cases h
        exact (restOf_of_tryPull hpull).2
      next => cases h
    next =>
      split at h
      next =>
        split at h
        next hpull =>
          cases h
          exact (restOf_of_tryPull hpull).2
        next => cases h
      next => cases h

/-- Behind a network header, and behind a transport header. -/
theorem restOf_extractNetwork (m : Memory) (flow : Flow) (b : Cursor) :
    (∀ l4, (extractNetwork m flow b).l4 = some l4 → l4.RestOf b) ∧
      ∀ l7, (extractNetwork m flow b).l7 = some l7 → l7.RestOf b := by
  have hnone : ∀ l, (none : Option Cursor) = some l → l.RestOf b := by
    intro l h
    cases h
  unfold extractNetwork
  split
  next =>
    split
    next l4 hpull =>
      have hl4 := (restOf_of_pullIp hpull).2
      simp only
      split
      · refine ⟨fun l h => Option.some.inj h ▸ hl4, fun l7 h => ?_⟩
        exact (restOf_extractTransport h).trans hl4
      · exact ⟨fun l h => Option.some.inj h ▸ hl4, hnone⟩
    next => exact ⟨hnone, hnone⟩
  next =>
    split
    · split <;> exact ⟨hnone, hnone⟩
    · exact ⟨hnone, hnone⟩

end Cursor

end OfAgent
