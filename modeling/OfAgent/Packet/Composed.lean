import OfAgent.Packet.Rewriting

/-!
# Packets from their parts

Packets are put together from headers with given fields, as `flowgen.pl` does for the test of
`flow_extract`, and `flow_extract` finds the fields again.

* `ComposedFrame`: what a packet is composed of. `ComposedFrame.bytes`: the packet.
  `ComposedFrame.flow`: the flow with the fields that went into it.
* `Cursor.Holds`: the bytes that are left of a packet. What is read from them, and what is left when
  a header is taken off.
* `packetFlow_composed`: the flow of a composed packet.
-/

namespace OfAgent

/-! ### Headers -/

/-- `struct vlan_header`, without the type of what is behind it. -/
structure VlanTag where
  /-- The priority. -/
  pcp : BitVec 3
  /-- The bit between the priority and the id. -/
  cfi : BitVec 1
  /-- The VLAN id. -/
  vid : BitVec 12

/-- `vlan_tci`. -/
def VlanTag.vlanTci (t : VlanTag) : BitVec 16 := t.pcp ++ t.cfi ++ t.vid

/-- `struct arp_eth_header`. -/
structure ArpEthHeader where
  /-- Hardware type. -/
  arHrd : BitVec 16
  /-- Protocol type. -/
  arPro : BitVec 16
  /-- Hardware address length. -/
  arHln : Byte
  /-- Protocol address length. -/
  arPln : Byte
  /-- Opcode. -/
  arOp : BitVec 16
  /-- Sender hardware address. -/
  arSha : BitVec 48
  /-- Sender protocol address. -/
  arSpa : BitVec 32
  /-- Target hardware address. -/
  arTha : BitVec 48
  /-- Target protocol address. -/
  arTpa : BitVec 32

/-- A TCP header with its options, and what is behind it. -/
structure TcpSegment where
  /-- `tcp_src`. -/
  tcpSrc : BitVec 16
  /-- `tcp_dst`. -/
  tcpDst : BitVec 16
  /-- `tcp_seq`. -/
  tcpSeq : BitVec 32
  /-- `tcp_ack`. -/
  tcpAck : BitVec 32
  /-- The number of words in the header, the upper bits of `tcp_ctl`. -/
  offset : BitVec 4
  /-- The other bits of `tcp_ctl`. -/
  flags : BitVec 12
  /-- `tcp_winsz`. -/
  tcpWinsz : BitVec 16
  /-- `tcp_csum`. -/
  tcpCsum : BitVec 16
  /-- `tcp_urg`. -/
  tcpUrg : BitVec 16
  /-- The options. -/
  options : List Byte
  /-- What is behind the header. -/
  data : List Byte
  /-- The header is as long as it says. -/
  whole : tcpHeaderLen + options.length = offset.toNat * 4

/-- `struct udp_header`, and what is behind it. -/
structure UdpDatagram where
  /-- `udp_src`. -/
  udpSrc : BitVec 16
  /-- `udp_dst`. -/
  udpDst : BitVec 16
  /-- `udp_len`. -/
  udpLen : BitVec 16
  /-- `udp_csum`. -/
  udpCsum : BitVec 16
  /-- What is behind the header. -/
  data : List Byte

/-- `struct icmp_header`, and what is behind it. -/
structure IcmpMessage where
  /-- `icmp_type`. -/
  icmpType : Byte
  /-- `icmp_code`. -/
  icmpCode : Byte
  /-- `icmp_csum`. -/
  icmpCsum : BitVec 16
  /-- What is behind the header. -/
  data : List Byte

/-- What an IP packet carries. -/
inductive IpPayload
  /-- TCP. -/
  | tcp (segment : TcpSegment)
  /-- UDP. -/
  | udp (datagram : UdpDatagram)
  /-- ICMP. -/
  | icmp (message : IcmpMessage)
  /-- Bytes of the protocol with the given number. -/
  | other (nwProto : Byte) (data : List Byte)

/-- `ip_frag_off`. -/
structure IpFragOff where
  /-- The bit without a meaning. -/
  reserved : BitVec 1
  /-- Don't fragment. -/
  dontFragment : BitVec 1
  /-- More fragments. -/
  moreFragments : BitVec 1
  /-- The place of the fragment. -/
  offset : BitVec 13

/-- The packet is a fragment, the first one or another. -/
def IpFragOff.isFragment (f : IpFragOff) : Bool := f.moreFragments != 0 || f.offset != 0

/-- Bytes of a protocol with a header of its own are what a fragment may carry, and any fragment may
carry them. -/
def IpPayload.Known (fragment : Bool) : IpPayload → Prop
  | other nwProto _ => fragment = true ∨ hasPorts nwProto = false
  | _ => True

/-- An IP header with its options, and what the packet carries. -/
structure IpPacket where
  /-- The number of words in the header, the lower bits of `ip_ihl_ver`. -/
  ihl : BitVec 4
  /-- The upper bits of `ip_tos`. -/
  dscp : BitVec 6
  /-- The other bits of `ip_tos`. -/
  ecn : BitVec 2
  /-- `ip_tot_len`. -/
  ipTotLen : BitVec 16
  /-- `ip_id`. -/
  ipId : BitVec 16
  /-- `ip_frag_off`. -/
  ipFragOff : IpFragOff
  /-- `ip_ttl`. -/
  ipTtl : Byte
  /-- `ip_csum`. -/
  ipCsum : BitVec 16
  /-- `ip_src`. -/
  ipSrc : BitVec 32
  /-- `ip_dst`. -/
  ipDst : BitVec 32
  /-- The options. -/
  options : List Byte
  /-- What the packet carries. -/
  payload : IpPayload
  /-- The header is as long as it says. -/
  whole : ipHeaderLen + options.length = ihl.toNat * 4
  /-- A whole packet of TCP, UDP or ICMP carries a header. -/
  known : payload.Known ipFragOff.isFragment

/-- What a frame carries. -/
inductive FramePayload
  /-- ARP. -/
  | arp (header : ArpEthHeader)
  /-- IPv4. -/
  | ip (packet : IpPacket)
  /-- Bytes of another type. -/
  | other (dlType : BitVec 16) (data : List Byte) (h : dlType ≠ ethTypeIp ∧ dlType ≠ ethTypeArp)

/-- `dl_type`. -/
def FramePayload.dlType : FramePayload → BitVec 16
  | arp _ => ethTypeArp
  | ip _ => ethTypeIp
  | other dlType _ _ => dlType

/-- How a frame says what it carries: with its type behind the addresses, or with a length there and
its type in a SNAP header. -/
inductive Framing
  /-- Ethernet II. -/
  | ethernet
  /-- 802.2 with SNAP. -/
  | snap (length : BitVec 16)

/-- The 16 bits behind the addresses are a type or a length, as the frame has it. -/
def Framing.Marks (ethType : BitVec 16) : Framing → Prop
  | ethernet => ofpDlTypeEth2Cutoff ≤ ethType
  | snap length => ¬ ofpDlTypeEth2Cutoff ≤ length

instance (ethType : BitVec 16) : ∀ framing, Decidable (Framing.Marks ethType framing)
  | .ethernet => inferInstanceAs (Decidable (_ ≤ _))
  | .snap _ => inferInstanceAs (Decidable (¬ _))

/-- The type in front of what a frame carries, or in front of its tag. -/
def firstType (tag : Option VlanTag) (payload : FramePayload) : BitVec 16 :=
  match tag with
  | none => payload.dlType
  | some _ => ethTypeVlan

/-- A frame with a type, with or without a VLAN tag. The tag follows the type `0x8100`, which is in
the SNAP header if there is one. -/
structure TypedFrame where
  /-- `eth_dst`. -/
  ethDst : BitVec 48
  /-- `eth_src`. -/
  ethSrc : BitVec 48
  /-- How it says what it carries. -/
  framing : Framing
  /-- The VLAN tag. -/
  tag : Option VlanTag
  /-- What it carries. -/
  payload : FramePayload
  /-- What is behind that. -/
  padding : List Byte
  /-- The 16 bits behind the addresses. -/
  marked : framing.Marks (firstType tag payload)
  /-- A frame without a tag is not of the type of a tag. -/
  untagged : tag = none → payload.dlType ≠ ethTypeVlan

/-- An 802.2 frame without a type. -/
structure LlcFrame where
  /-- `eth_dst`. -/
  ethDst : BitVec 48
  /-- `eth_src`. -/
  ethSrc : BitVec 48
  /-- The length behind the addresses. -/
  length : BitVec 16
  /-- `llc_dsap`. -/
  llcDsap : Byte
  /-- `llc_ssap`. -/
  llcSsap : Byte
  /-- `llc_cntl`. -/
  llcCntl : Byte
  /-- What is behind the LLC header. -/
  data : List Byte
  /-- The length is one. -/
  short : ¬ ofpDlTypeEth2Cutoff ≤ length
  /-- There is no SNAP header with a type. -/
  noSnap : [llcDsap, llcSsap, llcCntl] ++ data.take 3 ≠ [0xaa, 0xaa, 3, 0, 0, 0]

/-- What a packet is composed of. -/
inductive ComposedFrame
  /-- A frame with a type. -/
  | typed (frame : TypedFrame)
  /-- A frame without one. -/
  | llc (frame : LlcFrame)

/-! ### The bytes -/

open Memory (bytes16 bytes32)

/-- The six bytes of an Ethernet address. -/
def bytes48 (v : BitVec 48) : List Byte :=
  bytes16 (v.extractLsb' 32 16) ++ bytes32 (v.extractLsb' 0 32)

/-- The bytes of an ARP header. -/
def ArpEthHeader.bytes (h : ArpEthHeader) : List Byte :=
  List.flatten [bytes16 h.arHrd, bytes16 h.arPro, [h.arHln, h.arPln], bytes16 h.arOp,
    bytes48 h.arSha, bytes32 h.arSpa, bytes48 h.arTha, bytes32 h.arTpa]

/-- The bytes of a TCP header without its options. -/
def TcpSegment.header (s : TcpSegment) : List Byte :=
  List.flatten [bytes16 s.tcpSrc, bytes16 s.tcpDst, bytes32 s.tcpSeq, bytes32 s.tcpAck,
    bytes16 (s.offset ++ s.flags), bytes16 s.tcpWinsz, bytes16 s.tcpCsum, bytes16 s.tcpUrg]

/-- The bytes of a UDP header. -/
def UdpDatagram.header (d : UdpDatagram) : List Byte :=
  List.flatten [bytes16 d.udpSrc, bytes16 d.udpDst, bytes16 d.udpLen, bytes16 d.udpCsum]

/-- The bytes of an ICMP header. -/
def IcmpMessage.header (m : IcmpMessage) : List Byte :=
  [m.icmpType, m.icmpCode] ++ bytes16 m.icmpCsum

/-- The bytes that an IP packet carries. -/
def IpPayload.bytes : IpPayload → List Byte
  | tcp s => s.header ++ s.options ++ s.data
  | udp d => d.header ++ d.data
  | icmp m => m.header ++ m.data
  | other _ data => data

/-- `ip_proto`. -/
def IpPayload.nwProto : IpPayload → Byte
  | tcp _ => ipTypeTcp
  | udp _ => ipTypeUdp
  | icmp _ => ipTypeIcmp
  | other nwProto _ => nwProto

/-- The number that `ip_frag_off` is. -/
def IpFragOff.word (f : IpFragOff) : BitVec 16 :=
  f.reserved ++ f.dontFragment ++ f.moreFragments ++ f.offset

/-- The bytes of an IP header without its options. -/
def IpPacket.header (p : IpPacket) : List Byte :=
  List.flatten [[4#4 ++ p.ihl, p.dscp ++ p.ecn], bytes16 p.ipTotLen, bytes16 p.ipId,
    bytes16 p.ipFragOff.word, [p.ipTtl, p.payload.nwProto], bytes16 p.ipCsum, bytes32 p.ipSrc,
    bytes32 p.ipDst]

/-- The bytes that a frame carries. -/
def FramePayload.bytes : FramePayload → List Byte
  | arp h => h.bytes
  | ip p => p.header ++ p.options ++ p.payload.bytes
  | other _ data _ => data

/-- The bytes between the addresses and the first type. -/
def Framing.bytes : Framing → List Byte
  | ethernet => []
  | snap length => bytes16 length ++ [0xaa, 0xaa, 3, 0, 0, 0]

/-- The bytes between the first type and what a frame carries. -/
def tagBytes (tag : Option VlanTag) (payload : FramePayload) : List Byte :=
  match tag with
  | none => []
  | some t => bytes16 t.vlanTci ++ bytes16 payload.dlType

/-- The bytes of a packet. -/
def ComposedFrame.bytes : ComposedFrame → List Byte
  | typed f =>
    bytes48 f.ethDst ++ bytes48 f.ethSrc ++ f.framing.bytes ++
      bytes16 (firstType f.tag f.payload) ++ (tagBytes f.tag f.payload ++
        (f.payload.bytes ++ f.padding))
  | llc f =>
    bytes48 f.ethDst ++ bytes48 f.ethSrc ++ bytes16 f.length ++
      ([f.llcDsap, f.llcSsap, f.llcCntl] ++ f.data)

/-! ### The fields -/

/-- The ports, or the type and the code of ICMP. -/
def IpPayload.ports : IpPayload → BitVec 16 × BitVec 16
  | tcp s => (s.tcpSrc, s.tcpDst)
  | udp d => (d.udpSrc, d.udpDst)
  | icmp m => (m.icmpType.setWidth 16, m.icmpCode.setWidth 16)
  | other _ _ => (0, 0)

/-- The fields that an IP packet adds to the flow of a frame: no fragment has ports, and the type of
service is without its lowest two bits. -/
def IpPacket.flow (p : IpPacket) (flow : Flow) : Flow :=
  let ports := if p.ipFragOff.isFragment then (0, 0) else p.payload.ports
  { flow with
    nwTos := p.dscp ++ 0#2, nwProto := p.payload.nwProto, nwSrc := p.ipSrc,
    nwDst := p.ipDst, tpSrc := ports.1, tpDst := ports.2 }

/-- The fields that an ARP header adds: the lower bits of the opcode, and the addresses if they are
ones of IP. -/
def ArpEthHeader.flow (h : ArpEthHeader) (flow : Flow) : Flow :=
  let addresses := if h.arPro = 0x0800 ∧ h.arPln = 4 then (h.arSpa, h.arTpa) else (0, 0)
  { flow with nwProto := h.arOp.setWidth 8, nwSrc := addresses.1, nwDst := addresses.2 }

/-- The fields that the payload of a frame adds. -/
def FramePayload.flow (payload : FramePayload) (flow : Flow) : Flow :=
  match payload with
  | arp h => h.flow flow
  | ip p => p.flow flow
  | other _ _ _ => flow

/-- The flow of a packet. -/
def ComposedFrame.flow (inPort : BitVec 16) : ComposedFrame → Flow
  | typed f =>
    f.payload.flow
      { inPort, dlSrc := f.ethSrc, dlDst := f.ethDst
        dlVlan := f.tag.elim ofpVlanNone fun t => t.vid.setWidth 16
        dlVlanPcp := f.tag.elim 0 fun t => t.pcp.setWidth 8
        dlType := f.payload.dlType
        nwSrc := 0, nwDst := 0, nwTos := 0, nwProto := 0, tpSrc := 0, tpDst := 0 }
  | llc f =>
    { inPort, dlSrc := f.ethSrc, dlDst := f.ethDst, dlVlan := ofpVlanNone, dlVlanPcp := 0
      dlType := ofpDlTypeNotEthType
      nwSrc := 0, nwDst := 0, nwTos := 0, nwProto := 0, tpSrc := 0, tpDst := 0 }

/-! ### Reading them back -/

theorem toNat_append_eq {v w : ℕ} (x : BitVec v) (y : BitVec w) :
    (x ++ y).toNat = x.toNat * 2 ^ w + y.toNat := by
  rw [BitVec.toNat_append, ← Nat.shiftLeft_add_eq_or_of_lt y.isLt, Nat.shiftLeft_eq]

/-- The VLAN id of a tag. -/
theorem vlanVid_vlanTci (t : VlanTag) : vlanVid t.vlanTci = t.vid.setWidth 16 := by
  have hmask : vlanVidMask = 0#4 ++ BitVec.allOnes 12 := rfl
  have hsplit : t.vlanTci = (t.pcp ++ t.cfi : BitVec 4) ++ t.vid := rfl
  have hvid := t.vid.isLt
  rw [vlanVid, hmask, hsplit, BitVec.and_append, BitVec.and_zero, BitVec.and_allOnes]
  apply BitVec.eq_of_toNat_eq
  rw [toNat_append_eq, BitVec.toNat_setWidth]
  simp only [BitVec.toNat_zero]
  omega

/-- The priority of a tag. -/
theorem vlanPcp_vlanTci (t : VlanTag) : vlanPcp t.vlanTci = t.pcp.setWidth 8 := by
  have hpcp := t.pcp.isLt
  have hcfi := t.cfi.isLt
  have hvid := t.vid.isLt
  have hseven : (7 : BitVec 16).toNat = 2 ^ 3 - 1 := rfl
  have htci : t.vlanTci.toNat = (t.pcp.toNat * 2 ^ 1 + t.cfi.toNat) * 2 ^ 12 + t.vid.toNat := by
    rw [VlanTag.vlanTci, toNat_append_eq, toNat_append_eq]
  apply BitVec.eq_of_toNat_eq
  rw [vlanPcp, BitVec.toNat_setWidth, BitVec.toNat_and, BitVec.toNat_ushiftRight, hseven,
    Nat.and_two_pow_sub_one_eq_mod, Nat.shiftRight_eq_div_pow, htci, BitVec.toNat_setWidth]
  omega

theorem dscp_append_and (x : BitVec 6) (y : BitVec 2) :
    (x ++ y : BitVec 8) &&& 0xfc = x ++ 0#2 := by
  have hmask : (0xfc : BitVec 8) = BitVec.allOnes 6 ++ 0#2 := rfl
  rw [hmask, BitVec.and_append, BitVec.and_allOnes, BitVec.and_zero]

theorem ipIhl_append (x : BitVec 4) : ipIhl (4#4 ++ x) = x.toNat := by
  have hx := x.isLt
  have hmask : (15 : BitVec 8).toNat = 2 ^ 4 - 1 := rfl
  rw [ipIhl, BitVec.toNat_and, hmask, Nat.and_two_pow_sub_one_eq_mod, toNat_append_eq]
  omega

theorem tcpOffset_append (x : BitVec 4) (y : BitVec 12) : tcpOffset (x ++ y) = x.toNat := by
  have hy := y.isLt
  rw [tcpOffset, BitVec.toNat_ushiftRight, toNat_append_eq, Nat.shiftRight_eq_div_pow]
  omega

/-- A fragment is one whose `ip_frag_off` has more than the bits in front of `IP_MORE_FRAGMENTS`. -/
theorem word_and_mask (f : IpFragOff) :
    f.word &&& ipFragmentMask = 0 ↔ f.isFragment = false := by
  have hmask : ipFragmentMask =
      0#2 ++ BitVec.allOnes 1 ++ BitVec.allOnes 13 := rfl
  have hword : f.word = (f.reserved ++ f.dontFragment : BitVec 2) ++ f.moreFragments ++ f.offset :=
    rfl
  rw [hmask, hword, BitVec.and_append, BitVec.and_append, BitVec.and_zero, BitVec.and_allOnes,
    BitVec.and_allOnes, ← BitVec.toNat_inj, toNat_append_eq, toNat_append_eq, IpFragOff.isFragment,
    Bool.or_eq_false_iff, bne_eq_false_iff_eq, bne_eq_false_iff_eq, ← BitVec.toNat_inj,
    ← BitVec.toNat_inj (x := f.offset)]
  change (0 * 2 ^ 1 + f.moreFragments.toNat) * 2 ^ 13 + f.offset.toNat = 0 ↔
    f.moreFragments.toNat = 0 ∧ f.offset.toNat = 0
  omega

theorem be16_drop (bs : List Byte) (i j : ℕ) : be16 (bs.drop i) j = be16 bs (i + j) := by
  simp only [be16, List.getD_eq_getElem?_getD, List.getElem?_drop, Nat.add_assoc]

/-- A number that starts at a position reads back there. -/
theorem be16_of_drop {bs rest : List Byte} {i : ℕ} {v : BitVec 16}
    (h : bs.drop i = bytes16 v ++ rest) : be16 bs i = v := by
  have hdrop := be16_drop bs i 0
  rw [h, Memory.be16_bytes16] at hdrop
  exact hdrop.symm

theorem be32_of_drop {bs rest : List Byte} {i : ℕ} {v : BitVec 32}
    (h : bs.drop i = bytes32 v ++ rest) : be32 bs i = v := by
  have hlen : (bytes32 v).length = 4 := rfl
  rw [be32, ← Nat.add_zero i, Nat.add_assoc, ← be16_drop, ← be16_drop, h, Nat.zero_add,
    be16_append (by omega), be16_append (by omega)]
  exact Memory.be32_bytes32 v

namespace Cursor

/-- The bytes that are left of a packet. -/
def Holds (m : Memory) (b : Cursor) (bs : List Byte) : Prop := m.slice b.pos b.left = bs

variable {m : Memory} {b : Cursor} {bs rest : List Byte} {i n : ℕ}

theorem Holds.left_eq (h : b.Holds m bs) : b.left = bs.length := by
  rw [← h, Memory.length_slice]

theorem Holds.getD (h : b.Holds m bs) (hi : i < bs.length) : m (b.pos + i) = bs.getD i 0 := by
  rw [← h.left_eq] at hi
  rw [← h]
  simp [Memory.slice, List.getD_eq_getElem?_getD, hi]

/-- As many bytes are left as there are in front of a position and behind it. -/
theorem length_of_drop {hdr : List Byte} (h : bs.drop i = hdr ++ rest) (hne : hdr ≠ []) :
    i + hdr.length ≤ bs.length := by
  have hlen := congrArg List.length h
  have hpos := List.length_pos_of_ne_nil hne
  rw [List.length_drop, List.length_append] at hlen
  omega

/-- A byte that has been put into what is left. -/
theorem Holds.get8 {x : Byte} (h : b.Holds m bs) (hx : bs.drop i = [x] ++ rest) :
    m (b.pos + i) = x := by
  have hlen : i + 1 ≤ bs.length := length_of_drop hx (List.cons_ne_nil _ _)
  have hget : (bs.drop i).getD 0 0 = bs.getD i 0 := by
    rw [List.getD_eq_getElem?_getD, List.getElem?_drop, List.getD_eq_getElem?_getD, Nat.add_zero]
  rw [h.getD hlen, ← hget, hx]
  rfl

/-- A number that has been put into what is left. -/
theorem Holds.get16 {v : BitVec 16} (h : b.Holds m bs) (hv : bs.drop i = bytes16 v ++ rest) :
    m.get16 (b.pos + i) = v := by
  have hlen : i + 2 ≤ bs.length := length_of_drop hv (List.cons_ne_nil _ _)
  rw [Memory.get16, Nat.add_assoc, h.getD (by omega), h.getD (by omega)]
  exact be16_of_drop hv

theorem Holds.get32 {v : BitVec 32} (h : b.Holds m bs) (hv : bs.drop i = bytes32 v ++ rest) :
    m.get32 (b.pos + i) = v := by
  have hlen : i + 4 ≤ bs.length := length_of_drop hv (List.cons_ne_nil _ _)
  rw [Memory.get32, Memory.get16, Memory.get16, Nat.add_assoc, Nat.add_assoc, Nat.add_assoc,
    h.getD (by omega), h.getD (by omega), h.getD (by omega), h.getD (by omega)]
  exact be32_of_drop hv

theorem Holds.get48 {v : BitVec 48} (h : b.Holds m bs) (hv : bs.drop i = bytes48 v ++ rest) :
    m.get48 (b.pos + i) = v := by
  have hlow : bs.drop (i + 2) = bytes32 (v.extractLsb' 0 32) ++ rest := by
    rw [← List.drop_drop, hv]
    rfl
  rw [Memory.get48, Nat.add_assoc, h.get16 hv, h.get32 hlow]
  exact (BitVec.extractLsb'_append_extractLsb'_eq_extractLsb' rfl).trans BitVec.extractLsb'_eq_self

theorem Holds.slice (h : b.Holds m bs) (hn : i + n ≤ bs.length) :
    m.slice (b.pos + i) n = (bs.drop i).take n := by
  obtain ⟨k, hk⟩ := Nat.exists_eq_add_of_le hn
  have hleft : b.left = i + (n + k) := by rw [h.left_eq, hk, Nat.add_assoc]
  have hsplit : m.slice b.pos i ++ (m.slice (b.pos + i) n ++ m.slice (b.pos + i + n) k) = bs := by
    rw [← Memory.slice_add, ← Memory.slice_add, ← hleft]
    exact h
  rw [← hsplit, List.drop_left' (Memory.length_slice ..), List.take_left' (Memory.length_slice ..)]

/-- A header in front of the rest is taken off. -/
theorem Holds.pull (h : b.Holds m (bs ++ rest)) (hn : bs.length = n) :
    n ≤ b.left ∧ (b.pull n).Holds m rest := by
  have hleft := h.left_eq
  rw [List.length_append, hn] at hleft
  refine ⟨by omega, ?_⟩
  have hsplit : m.slice b.pos (n + rest.length) = bs ++ rest := hleft ▸ h
  rw [Memory.slice_add] at hsplit
  have hrest := (List.append_inj hsplit ((Memory.length_slice ..).trans hn.symm)).2
  change m.slice (b.pos + n) (b.left - n) = rest
  rw [hleft, Nat.add_sub_cancel_left]
  exact hrest

theorem Holds.tryPull (h : b.Holds m (bs ++ rest)) (hn : bs.length = n) :
    b.tryPull n = some (b.pull n) ∧ (b.pull n).Holds m rest :=
  ⟨if_pos (h.pull hn).1, (h.pull hn).2⟩

end Cursor

section Layers

variable {m : Memory} {b : Cursor} {rest : List Byte} {flow : Flow}

/-- A TCP header is taken off with its options. -/
theorem pullTcp_segment {s : TcpSegment}
    (h : b.Holds m (s.header ++ s.options ++ (s.data ++ rest))) :
    pullTcp m b = some (b.pull (s.offset.toNat * 4)) := by
  have hwhole := s.whole
  have hlen : s.header.length = 20 := rfl
  have hleft := h.left_eq
  unfold tcpHeaderLen at hwhole
  rw [List.length_append, List.length_append, hlen] at hleft
  have hpull := h.tryPull (by rw [List.length_append, hlen, hwhole])
  have hctl : m.get16 (b.pos + 12) = s.offset ++ s.flags := by
    rw [List.append_assoc] at h
    exact h.get16 rfl
  unfold pullTcp tcpHeaderLen
  simp only
  rw [if_pos (by omega), hctl, tcpOffset_append, if_pos (by omega), hpull.1]

/-- The ports of a transport header that a packet carries, if it is not a fragment. -/
theorem extractTransport_payload {p : IpPayload} (h : b.Holds m (p.bytes ++ rest))
    (hproto : flow.nwProto = p.nwProto) (hports : flow.tpSrc = 0 ∧ flow.tpDst = 0)
    (hknown : p.Known false) :
    (extractTransport m flow b).1 = { flow with tpSrc := p.ports.1, tpDst := p.ports.2 } := by
  unfold extractTransport
  rw [hproto]
  cases p with
  | tcp s =>
    have hall : b.Holds m (s.header ++ s.options ++ (s.data ++ rest)) := by
      rw [← List.append_assoc]
      exact h
    have hpull := pullTcp_segment hall
    rw [List.append_assoc] at hall
    have hsrc : m.get16 b.pos = s.tcpSrc := hall.get16 (i := 0) rfl
    have hdst : m.get16 (b.pos + 2) = s.tcpDst := hall.get16 rfl
    have htcp : ((IpPayload.tcp s).nwProto == ipTypeTcp) = true := rfl
    rw [if_pos htcp, hpull, hsrc, hdst]
    rfl
  | udp d =>
    have hall : b.Holds m (d.header ++ (d.data ++ rest)) := by
      rw [← List.append_assoc]
      exact h
    have hpull : pullUdp b = some (b.pull udpHeaderLen) := (hall.tryPull rfl).1
    have hsrc : m.get16 b.pos = d.udpSrc := hall.get16 (i := 0) rfl
    have hdst : m.get16 (b.pos + 2) = d.udpDst := hall.get16 rfl
    have htcp : ¬ ((IpPayload.udp d).nwProto == ipTypeTcp) = true := by
      change ¬ (ipTypeUdp == ipTypeTcp) = true
      decide
    have hudp : ((IpPayload.udp d).nwProto == ipTypeUdp) = true := rfl
    rw [if_neg htcp, if_pos hudp, hpull, hsrc, hdst]
    rfl
  | icmp msg =>
    have hall : b.Holds m (msg.header ++ (msg.data ++ rest)) := by
      rw [← List.append_assoc]
      exact h
    have hpull : pullIcmp b = some (b.pull icmpHeaderLen) := (hall.tryPull rfl).1
    have htype : m b.pos = msg.icmpType := hall.get8 (i := 0) rfl
    have hcode : m (b.pos + 1) = msg.icmpCode := hall.get8 rfl
    have htcp : ¬ ((IpPayload.icmp msg).nwProto == ipTypeTcp) = true := by
      change ¬ (ipTypeIcmp == ipTypeTcp) = true
      decide
    have hudp : ¬ ((IpPayload.icmp msg).nwProto == ipTypeUdp) = true := by
      change ¬ (ipTypeIcmp == ipTypeUdp) = true
      decide
    have hicmp : ((IpPayload.icmp msg).nwProto == ipTypeIcmp) = true := rfl
    rw [if_neg htcp, if_neg hudp, if_pos hicmp, hpull, htype, hcode]
    rfl
  | other nwProto data =>
    -- no header that `flow_extract` knows, so that the fields stay as they are
    have hnone : hasPorts (IpPayload.other nwProto data).nwProto = false :=
      hknown.resolve_left Bool.false_ne_true
    rw [hasPorts, Bool.or_eq_false_iff, Bool.or_eq_false_iff] at hnone
    obtain ⟨⟨htcp, hudp⟩, hicmp⟩ := hnone
    rw [htcp, hudp, hicmp, if_neg Bool.false_ne_true, if_neg Bool.false_ne_true,
      if_neg Bool.false_ne_true]
    obtain ⟨hsrc, hdst⟩ := hports
    have hzero : (IpPayload.other nwProto data).ports = (flow.tpSrc, flow.tpDst) := by
      rw [hsrc, hdst]
      rfl
    rw [hzero, ← hproto]

/-- An IP header is taken off with its options. -/
theorem pullIp_packet {p : IpPacket} (h : b.Holds m (p.header ++ p.options ++ rest)) :
    pullIp m b = some (b.pull (p.ihl.toNat * 4)) ∧ (b.pull (p.ihl.toNat * 4)).Holds m rest := by
  have hwhole := p.whole
  have hlen : p.header.length = 20 := rfl
  have hleft := h.left_eq
  unfold ipHeaderLen at hwhole
  rw [List.length_append, List.length_append, hlen] at hleft
  have hpull := h.tryPull (by rw [List.length_append, hlen, hwhole])
  have hver : m b.pos = 4#4 ++ p.ihl := by
    rw [List.append_assoc] at h
    exact h.get8 (i := 0) rfl
  refine ⟨?_, hpull.2⟩
  unfold pullIp ipHeaderLen
  simp only
  rw [if_pos (by omega), hver, ipIhl_append, if_pos (by omega), hpull.1]

/-- The fields of an IP packet that a frame carries. -/
theorem extractNetwork_ip {p : IpPacket} (h : b.Holds m ((FramePayload.ip p).bytes ++ rest))
    (htype : flow.dlType = ethTypeIp) (hbare : flow.Bare) :
    (extractNetwork m flow b).flow = p.flow flow := by
  have hall : b.Holds m (p.header ++ p.options ++ (p.payload.bytes ++ rest)) := by
    rw [← List.append_assoc]
    exact h
  obtain ⟨hpull, hl4⟩ := pullIp_packet hall
  rw [List.append_assoc] at hall
  have htos : m (b.pos + 1) = p.dscp ++ p.ecn := hall.get8 rfl
  have hfrag : m.get16 (b.pos + 6) = p.ipFragOff.word := hall.get16 rfl
  have hproto : m (b.pos + 9) = p.payload.nwProto := hall.get8 rfl
  have hsrc : m.get32 (b.pos + 12) = p.ipSrc := hall.get32 rfl
  have hdst : m.get32 (b.pos + 16) = p.ipDst := hall.get32 rfl
  have hmask := word_and_mask p.ipFragOff
  have hknown := p.known
  unfold extractNetwork IpPacket.flow
  rw [if_pos (beq_iff_eq.2 htype), hpull, htos, hfrag, hproto, hsrc, hdst, dscp_append_and]
  simp only
  cases hfragment : p.ipFragOff.isFragment with
  | true =>
    -- a fragment has no ports, like the flow in front
    have hne : ¬ (p.ipFragOff.word &&& ipFragmentMask == 0) = true := by
      rw [beq_iff_eq, hmask, hfragment]
      exact Bool.true_eq_false_eq_False
    have hzero : ((0, 0) : BitVec 16 × BitVec 16) = (flow.tpSrc, flow.tpDst) := by
      rw [hbare.ports.1, hbare.ports.2]
    rw [if_neg hne, if_pos rfl, hzero]
  | false =>
    rw [hfragment] at hknown
    rw [if_pos (beq_iff_eq.2 (hmask.2 hfragment)), if_neg Bool.false_ne_true]
    exact extractTransport_payload hl4 rfl hbare.ports hknown

/-- The fields of an ARP header that a frame carries. -/
theorem extractNetwork_arp {a : ArpEthHeader} (h : b.Holds m (a.bytes ++ rest))
    (htype : flow.dlType = ethTypeArp) (hbare : flow.Bare) :
    (extractNetwork m flow b).flow = a.flow flow := by
  have hne : ¬ (flow.dlType == ethTypeIp) = true := by
    rw [htype]
    decide
  have hpull : pullArp b = some (b.pull arpEthHeaderLen) := (h.tryPull rfl).1
  have hpro : m.get16 (b.pos + 2) = a.arPro := h.get16 rfl
  have hpln : m (b.pos + 5) = a.arPln := h.get8 rfl
  have hop : m.get16 (b.pos + 6) = a.arOp := h.get16 rfl
  have hspa : m.get32 (b.pos + 14) = a.arSpa := h.get32 rfl
  have htpa : m.get32 (b.pos + 24) = a.arTpa := h.get32 rfl
  unfold extractNetwork ArpEthHeader.flow
  rw [if_neg hne, if_pos (beq_iff_eq.2 htype), hpull, hpro, hpln, hop, hspa, htpa]
  simp only
  by_cases hip : a.arPro = 0x0800 ∧ a.arPln = 4
  · have hcond : (a.arPro == 0x0800 && a.arPln == 4) = true := by
      rw [Bool.and_eq_true, beq_iff_eq, beq_iff_eq]
      exact hip
    rw [if_pos hcond, if_pos hip]
  · have hcond : ¬ (a.arPro == 0x0800 && a.arPln == 4) = true := by
      rw [Bool.and_eq_true, beq_iff_eq, beq_iff_eq]
      exact hip
    have hzero : ((0, 0) : BitVec 32 × BitVec 32) = (flow.nwSrc, flow.nwDst) := by
      rw [hbare.addresses.1, hbare.addresses.2]
    rw [if_neg hcond, if_neg hip, hzero]

/-- The fields of what a frame carries. -/
theorem extractNetwork_payload {payload : FramePayload} (h : b.Holds m (payload.bytes ++ rest))
    (htype : flow.dlType = payload.dlType) (hbare : flow.Bare) :
    (extractNetwork m flow b).flow = payload.flow flow := by
  cases payload with
  | arp a => exact extractNetwork_arp h htype hbare
  | ip p => exact extractNetwork_ip h htype hbare
  | other dlType data hother =>
    have hip : ¬ (flow.dlType == ethTypeIp) = true := by
      rw [beq_iff_eq, htype]
      exact hother.1
    have harp : ¬ (flow.dlType == ethTypeArp) = true := by
      rw [beq_iff_eq, htype]
      exact hother.2
    unfold extractNetwork
    rw [if_neg hip, if_neg harp]
    rfl

/-- The tag of a frame. -/
theorem extractVlan_tag {tag : Option VlanTag} {payload : FramePayload}
    (h : b.Holds m (tagBytes tag payload ++ rest)) (htype : flow.dlType = firstType tag payload)
    (huntagged : tag = none → payload.dlType ≠ ethTypeVlan) :
    (extractVlan m flow b).1 = { flow with
      dlType := payload.dlType
      dlVlan := tag.elim flow.dlVlan fun t => t.vid.setWidth 16
      dlVlanPcp := tag.elim flow.dlVlanPcp fun t => t.pcp.setWidth 8 } ∧
      (extractVlan m flow b).2.Holds m rest := by
  unfold extractVlan
  cases tag with
  | none =>
    -- the type is that of the payload, which is no tag
    have hne : ¬ (flow.dlType == ethTypeVlan) = true := by
      rw [beq_iff_eq, htype]
      exact huntagged rfl
    have hpayload : payload.dlType = flow.dlType := htype.symm
    rw [if_neg hne, hpayload]
    exact ⟨rfl, h⟩
  | some t =>
    obtain ⟨hpull, hrest⟩ := h.tryPull (n := vlanHeaderLen) rfl
    have hpull : pullVlan b = some (b.pull vlanHeaderLen) := hpull
    have htci : m.get16 b.pos = t.vlanTci := h.get16 (i := 0) rfl
    have hnext : m.get16 (b.pos + 2) = payload.dlType := h.get16 rfl
    have hvlan : flow.dlType = ethTypeVlan := htype
    rw [if_pos (beq_iff_eq.2 hvlan), hpull, htci, hnext]
    simp only
    rw [vlanVid_vlanTci, vlanPcp_vlanTci]
    exact ⟨rfl, hrest⟩

/-- The type of a frame that has one, and what is behind it. -/
theorem extractFrame_typed {f : TypedFrame} (h : b.Holds m (ComposedFrame.typed f).bytes) :
    ethHeaderLen ≤ b.left ∧ ∃ b', extractFrame m b.pos (b.pull ethHeaderLen) =
        some (firstType f.tag f.payload, b') ∧
      b'.Holds m (tagBytes f.tag f.payload ++ (f.payload.bytes ++ f.padding)) := by
  obtain ⟨dst, src, framing, tag, payload, padding, hmarked, huntagged⟩ := f
  simp only
  generalize hrest : tagBytes tag payload ++ (payload.bytes ++ padding) = rest
  unfold ethHeaderLen
  cases framing with
  | ethernet =>
    have hall :
        b.Holds m (bytes48 dst ++ bytes48 src ++ bytes16 (firstType tag payload) ++ rest) := by
      rw [← hrest]
      exact h
    obtain ⟨hleft, hpull⟩ := hall.pull (n := 14) rfl
    have htype : m.get16 (b.pos + 12) = firstType tag payload := hall.get16 rfl
    refine ⟨hleft, _, ?_, hpull⟩
    unfold extractFrame
    rw [htype]
    exact if_pos hmarked
  | snap length =>
    have hall : b.Holds m (bytes48 dst ++ bytes48 src ++ bytes16 length ++
        ([0xaa, 0xaa, 3, 0, 0, 0] ++ bytes16 (firstType tag payload) ++ rest)) := by
      rw [← hrest]
      exact h
    obtain ⟨hleft, hllc⟩ := hall.pull (n := 14) rfl
    have hlength : m.get16 (b.pos + 12) = length := hall.get16 rfl
    generalize b.pull 14 = b' at hllc
    obtain ⟨hsnap, hpull⟩ := hllc.pull (n := 8) rfl
    have htype : m.get16 (b'.pos + 6) = firstType tag payload := hllc.get16 rfl
    have hdsap : m b'.pos = 0xaa := hllc.get8 (i := 0) rfl
    have hssap : m (b'.pos + 1) = 0xaa := hllc.get8 rfl
    have hcntl : m (b'.pos + 2) = 3 := hllc.get8 rfl
    have horg : m.slice (b'.pos + 3) 3 = [0, 0, 0] := hllc.slice (by
      rw [← hllc.left_eq]
      omega)
    -- the LLC header and the SNAP header are both there
    have hhas : b'.has 0 llcHeaderLen = true ∧ b'.has llcHeaderLen 5 = true := by
      unfold Cursor.has llcHeaderLen
      rw [decide_eq_true_eq, decide_eq_true_eq]
      omega
    refine ⟨hleft, _, ?_, hpull⟩
    unfold extractFrame
    simp only
    rw [hlength, if_neg hmarked, if_pos hhas.1, hhas.2, hdsap, hssap, hcntl, horg, htype]
    rfl

/-- A frame without a type. -/
theorem extractFrame_llc {f : LlcFrame} (h : b.Holds m (ComposedFrame.llc f).bytes) :
    ethHeaderLen ≤ b.left ∧ ∃ b', extractFrame m b.pos (b.pull ethHeaderLen) =
      some (ofpDlTypeNotEthType, b') := by
  unfold ethHeaderLen
  obtain ⟨hleft, hllc⟩ := h.pull (n := 14) rfl
  have hlength : m.get16 (b.pos + 12) = f.length := h.get16 rfl
  generalize b.pull 14 = b' at hllc
  have hmin := hllc.left_eq
  rw [List.length_append] at hmin
  have hhas : b'.has 0 llcHeaderLen = true := by
    unfold Cursor.has llcHeaderLen
    rw [decide_eq_true_eq]
    change b'.left = 3 + f.data.length at hmin
    omega
  refine ⟨hleft, b'.pull llcHeaderLen, ?_⟩
  unfold extractFrame
  simp only
  rw [hlength, if_neg f.short, if_pos hhas, if_neg]
  simp only [Bool.and_eq_true, beq_iff_eq]
  rintro ⟨⟨⟨⟨hsnap, hdsap⟩, hssap⟩, hcntl⟩, horg⟩
  -- the five bytes would have been a SNAP header
  apply f.noSnap
  unfold Cursor.has llcHeaderLen at hsnap
  rw [decide_eq_true_eq] at hsnap
  have hslice : m.slice (b'.pos + 3) 3 = f.data.take 3 := hllc.slice (by
    rw [← hllc.left_eq]
    omega)
  have h0 : m b'.pos = f.llcDsap := hllc.get8 (i := 0) rfl
  have h1 : m (b'.pos + 1) = f.llcSsap := hllc.get8 rfl
  have h2 : m (b'.pos + 2) = f.llcCntl := hllc.get8 rfl
  rw [← hslice, horg, ← h0, ← h1, ← h2, hdsap, hssap, hcntl]
  rfl

end Layers

/-- The flow that `flow_extract` finds in a composed packet is the one that went into it. -/
theorem packetFlow_composed {packet : Ofpbuf} {f : ComposedFrame} (h : packet.bytes = f.bytes)
    (inPort : BitVec 16) : packetFlow packet inPort = f.flow inPort := by
  have hall : (⟨packet.data, packet.size⟩ : Cursor).Holds packet.mem f.bytes := h
  unfold packetFlow flowExtract
  simp only
  cases f with
  | typed f =>
    obtain ⟨hleft, b, hframe, hb⟩ := extractFrame_typed hall
    have heth : pullEth ⟨packet.data, packet.size⟩ =
        some (Cursor.pull ⟨packet.data, packet.size⟩ ethHeaderLen) := if_pos hleft
    have hdst : packet.mem.get48 packet.data = f.ethDst := hall.get48 (i := 0) rfl
    have hsrc : packet.mem.get48 (packet.data + 6) = f.ethSrc := hall.get48 rfl
    rw [heth]
    simp only
    rw [hframe]
    simp only
    -- the tag is taken off, and then the payload is read
    obtain ⟨hvlan, hpayload⟩ := @extractVlan_tag packet.mem b (f.payload.bytes ++ f.padding)
      { Flow.unset inPort with
        dlType := firstType f.tag f.payload } f.tag f.payload hb rfl f.untagged
    rw [hvlan, hdst, hsrc]
    exact extractNetwork_payload hpayload rfl ⟨⟨rfl, rfl⟩, rfl, rfl, ⟨rfl, rfl⟩⟩
  | llc f =>
    obtain ⟨hleft, b, hframe⟩ := extractFrame_llc hall
    have heth : pullEth ⟨packet.data, packet.size⟩ =
        some (Cursor.pull ⟨packet.data, packet.size⟩ ethHeaderLen) := if_pos hleft
    have hdst : packet.mem.get48 packet.data = f.ethDst := hall.get48 (i := 0) rfl
    have hsrc : packet.mem.get48 (packet.data + 6) = f.ethSrc := hall.get48 rfl
    rw [heth]
    simp only
    rw [hframe]
    simp only
    rw [hdst, hsrc]
    rfl

end OfAgent
