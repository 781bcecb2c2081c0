import Mathlib.Data.BitVec

/-!
# OpenFlow 1.0 messages

The parts of `include/openflow/openflow.h` that the datapath and the agent read: port numbers,
wildcard bits, `struct ofp_match`, `struct ofp_flow_mod`, the statistics requests, and the codes
of error messages. Fields are kept in host byte order, so `ntohs` and `htons` disappear; a byte
area, such as the actions of a message, is a list of bytes, and `be16` and `be32` read it in
network byte order.
-/

namespace OfAgent

/-- One byte. -/
abbrev Byte := BitVec 8

/-- The 16-bit number in network byte order at offset `off`. -/
def be16 (bs : List Byte) (off : ℕ) : BitVec 16 := bs.getD off 0 ++ bs.getD (off + 1) 0

/-- The 32-bit number in network byte order at offset `off`. -/
def be32 (bs : List Byte) (off : ℕ) : BitVec 32 := be16 bs off ++ be16 bs (off + 2)

theorem getD_append_of_lt {a : List Byte} {off : ℕ} (h : off < a.length) (b : List Byte) :
    (a ++ b).getD off 0 = a.getD off 0 := by
  rw [List.getD_eq_getElem?_getD, List.getD_eq_getElem?_getD, List.getElem?_append_left h]

theorem be16_append {a : List Byte} {off : ℕ} (h : off + 2 ≤ a.length) (b : List Byte) :
    be16 (a ++ b) off = be16 a off := by
  rw [be16, be16, getD_append_of_lt (by omega), getD_append_of_lt (by omega)]

theorem be32_append {a : List Byte} {off : ℕ} (h : off + 4 ≤ a.length) (b : List Byte) :
    be32 (a ++ b) off = be32 a off := by
  rw [be32, be32, be16_append (by omega), be16_append (by omega)]

theorem be16_append_right (a c : List Byte) (i : ℕ) : be16 (a ++ c) (a.length + i) = be16 c i := by
  have hget : ∀ j, (a ++ c).getD (a.length + j) 0 = c.getD j 0 := by
    intro j
    rw [List.getD_eq_getElem?_getD, List.getD_eq_getElem?_getD,
      List.getElem?_append_right (Nat.le_add_right _ _), Nat.add_sub_cancel_left]
  rw [be16, be16, hget, Nat.add_assoc, hget]

/-! ### Ports -/

/-- `OFPP_MAX`: the maximum number of physical switch ports. -/
def ofppMax : BitVec 16 := 0xff00

/-- `OFPP_IN_PORT`: send the packet out the input port. -/
def ofppInPort : BitVec 16 := 0xfff8

/-- `OFPP_TABLE`: perform actions in the flow table. -/
def ofppTable : BitVec 16 := 0xfff9

/-- `OFPP_CONTROLLER`: send to the controller. -/
def ofppController : BitVec 16 := 0xfffd

/-- `OFPP_NONE`: not associated with a physical port. -/
def ofppNone : BitVec 16 := 0xffff

/-! ### Wildcards and matches -/

/-- `OFPFW_IN_PORT`: switch input port. -/
def ofpfwInPort : BitVec 32 := 1 <<< 0

/-- `OFPFW_DL_VLAN`: VLAN id. -/
def ofpfwDlVlan : BitVec 32 := 1 <<< 1

/-- `OFPFW_DL_SRC`: Ethernet source address. -/
def ofpfwDlSrc : BitVec 32 := 1 <<< 2

/-- `OFPFW_DL_DST`: Ethernet destination address. -/
def ofpfwDlDst : BitVec 32 := 1 <<< 3

/-- `OFPFW_DL_TYPE`: Ethernet frame type. -/
def ofpfwDlType : BitVec 32 := 1 <<< 4

/-- `OFPFW_NW_PROTO`: IP protocol. -/
def ofpfwNwProto : BitVec 32 := 1 <<< 5

/-- `OFPFW_TP_SRC`: TCP/UDP source port. -/
def ofpfwTpSrc : BitVec 32 := 1 <<< 6

/-- `OFPFW_TP_DST`: TCP/UDP destination port. -/
def ofpfwTpDst : BitVec 32 := 1 <<< 7

/-- `OFPFW_NW_SRC_SHIFT`: position of the IP source address wildcard bit count. -/
def ofpfwNwSrcShift : ℕ := 8

/-- `OFPFW_NW_SRC_BITS`: width of the IP source address wildcard bit count. -/
def ofpfwNwSrcBits : ℕ := 6

/-- `OFPFW_NW_SRC_MASK`: the IP source address wildcard bit count. -/
def ofpfwNwSrcMask : BitVec 32 := ((1 <<< ofpfwNwSrcBits) - 1) <<< ofpfwNwSrcShift

/-- `OFPFW_NW_DST_SHIFT`: position of the IP destination address wildcard bit count. -/
def ofpfwNwDstShift : ℕ := 14

/-- `OFPFW_NW_DST_BITS`: width of the IP destination address wildcard bit count. -/
def ofpfwNwDstBits : ℕ := 6

/-- `OFPFW_NW_DST_MASK`: the IP destination address wildcard bit count. -/
def ofpfwNwDstMask : BitVec 32 := ((1 <<< ofpfwNwDstBits) - 1) <<< ofpfwNwDstShift

/-- `OFPFW_DL_VLAN_PCP`: VLAN priority. -/
def ofpfwDlVlanPcp : BitVec 32 := 1 <<< 20

/-- `OFPFW_NW_TOS`: IP ToS. -/
def ofpfwNwTos : BitVec 32 := 1 <<< 21

/-- `OFPFW_ALL`: wildcard all fields. -/
def ofpfwAll : BitVec 32 := (1 <<< 22) - 1

/-- `ETH_TYPE_IP`. -/
def ethTypeIp : BitVec 16 := 0x0800

/-- `ETH_TYPE_ARP`. -/
def ethTypeArp : BitVec 16 := 0x0806

/-- `struct ofp_match`: fields to match against flows. The padding is left out: no function of
the datapath or the agent compares it. -/
structure OfpMatch where
  /-- Wildcard fields. -/
  wildcards : BitVec 32
  /-- Input switch port. -/
  inPort : BitVec 16
  /-- Ethernet source address. -/
  dlSrc : BitVec 48
  /-- Ethernet destination address. -/
  dlDst : BitVec 48
  /-- Input VLAN id. -/
  dlVlan : BitVec 16
  /-- Input VLAN priority. -/
  dlVlanPcp : BitVec 8
  /-- Ethernet frame type. -/
  dlType : BitVec 16
  /-- IP ToS. -/
  nwTos : BitVec 8
  /-- IP protocol or lower 8 bits of ARP opcode. -/
  nwProto : BitVec 8
  /-- IP source address. -/
  nwSrc : BitVec 32
  /-- IP destination address. -/
  nwDst : BitVec 32
  /-- TCP/UDP source port. -/
  tpSrc : BitVec 16
  /-- TCP/UDP destination port. -/
  tpDst : BitVec 16
  deriving DecidableEq, Repr

/-- The match that `memset` leaves behind: every field zero. -/
def OfpMatch.zero : OfpMatch :=
  ⟨0, 0, 0, 0, 0, 0, 0, 0, 0, 0, 0, 0, 0⟩

/-! ### Flow modification -/

/-- `enum ofp_flow_mod_command`. -/
inductive OfpFlowModCommand
  /-- New flow. -/
  | add
  /-- Modify all matching flows. -/
  | modify
  /-- Modify entry strictly matching wildcards. -/
  | modifyStrict
  /-- Delete all matching flows. -/
  | delete
  /-- Strictly match wildcards and priority. -/
  | deleteStrict
  deriving DecidableEq, Repr

/-- The command with a given number, if there is one. -/
def OfpFlowModCommand.ofBitVec (c : BitVec 16) : Option OfpFlowModCommand :=
  if c = 0 then some .add
  else if c = 1 then some .modify
  else if c = 2 then some .modifyStrict
  else if c = 3 then some .delete
  else if c = 4 then some .deleteStrict
  else none

/-- `OFPFF_SEND_FLOW_REM`: send flow removed message when flow expires or is deleted. -/
def ofpffSendFlowRem : BitVec 16 := 1 <<< 0

/-- `OFPFF_CHECK_OVERLAP`: check for overlapping entries first. -/
def ofpffCheckOverlap : BitVec 16 := 1 <<< 1

/-- `OFPFF_EMERG`: remark this is for emergency. -/
def ofpffEmerg : BitVec 16 := 1 <<< 2

/-- `OFP_FLOW_PERMANENT`: the timeout of a permanent entry. -/
def ofpFlowPermanent : BitVec 16 := 0

/-- `sizeof(struct ofp_flow_mod)`. -/
def sizeofOfpFlowMod : ℕ := 72

/-- `sizeof(struct ofp_action_header)`. -/
def sizeofOfpActionHeader : ℕ := 8

/-- `offsetof(struct ofp_packet_in, data)`. -/
def offsetofOfpPacketInData : ℕ := 18

/-- `struct ofp_flow_mod`, as `fwd_control_input` hands it to `recv_flow`: the header's 16-bit
length covers the structure and the bytes of the action area. -/
structure OfpFlowMod where
  /-- Fields to match. -/
  ofpMatch : OfpMatch
  /-- Opaque controller-issued identifier. -/
  cookie : BitVec 64
  /-- One of `OFPFC_*`, or an unknown number. -/
  command : BitVec 16
  /-- Idle time before discarding (seconds). -/
  idleTimeout : BitVec 16
  /-- Max time before discarding (seconds). -/
  hardTimeout : BitVec 16
  /-- Priority level of flow entry. -/
  priority : BitVec 16
  /-- Buffered packet to apply to (or -1). -/
  bufferId : BitVec 32
  /-- For `OFPFC_DELETE*` commands, require matching entries to include this as an output
  port. -/
  outPort : BitVec 16
  /-- One of `OFPFF_*`. -/
  flags : BitVec 16
  /-- The bytes of the action area. -/
  actions : List Byte
  /-- The header's length field holds the size of the message. -/
  length_lt : sizeofOfpFlowMod + actions.length < 2 ^ 16

namespace OfpFlowMod

/-- The header's length field. -/
def length (ofm : OfpFlowMod) : ℕ := sizeofOfpFlowMod + ofm.actions.length

/-- The command of the message, if it is a known one. -/
def knownCommand (ofm : OfpFlowMod) : Option OfpFlowModCommand :=
  OfpFlowModCommand.ofBitVec ofm.command

/-- A bit of the flags field. -/
def hasFlag (ofm : OfpFlowMod) (flag : BitVec 16) : Bool := ofm.flags &&& flag != 0

end OfpFlowMod

/-! ### Action headers -/

/-- `ah->type` of the action at the front of the bytes. -/
def actionType (rest : List Byte) : BitVec 16 := be16 rest 0

/-- `ah->len` of the action at the front of the bytes. -/
def actionLen (rest : List Byte) : ℕ := (be16 rest 2).toNat

theorem actionType_append {a : List Byte} (h : sizeofOfpActionHeader ≤ a.length) (b : List Byte) :
    actionType (a ++ b) = actionType a :=
  be16_append (by rw [sizeofOfpActionHeader] at h; omega) b

theorem actionLen_append (a b : List Byte) (h : sizeofOfpActionHeader ≤ a.length) :
    actionLen (a ++ b) = actionLen a := by
  rw [actionLen, actionLen, be16_append (by rw [sizeofOfpActionHeader] at h; omega)]

/-- `OFPAT_OUTPUT`: output to switch port. -/
def ofpatOutput : BitVec 16 := 0

/-- `OFPAT_SET_VLAN_VID`: set the 802.1q VLAN id. -/
def ofpatSetVlanVid : BitVec 16 := 1

/-- `OFPAT_SET_VLAN_PCP`: set the 802.1q priority. -/
def ofpatSetVlanPcp : BitVec 16 := 2

/-- `OFPAT_ENQUEUE`: output to queue. -/
def ofpatEnqueue : BitVec 16 := 11

/-- `OFPAT_VENDOR`. -/
def ofpatVendor : BitVec 16 := 0xffff

/-! ### Errors -/

/-- The errors with which `recv_flow` answers a flow modification: the pairs of type and code
that `dp_send_error_msg` is called with. -/
inductive FlowModError
  /-- `OFPET_BAD_ACTION` with a code of `enum ofp_bad_action_code`. -/
  | badAction (code : BitVec 16)
  /-- `OFPET_FLOW_MOD_FAILED`, `OFPFMFC_OVERLAP`. -/
  | overlap
  /-- `OFPET_FLOW_MOD_FAILED`, `OFPFMFC_BAD_EMERG_TIMEOUT`. -/
  | badEmergTimeout
  /-- `OFPET_FLOW_MOD_FAILED`, `OFPFMFC_ALL_TABLES_FULL`. -/
  | allTablesFull
  deriving DecidableEq, Repr

/-- The number of the error type `OFPET_*` in the message. -/
def FlowModError.type : FlowModError → BitVec 16
  | badAction _ => 2
  | overlap | badEmergTimeout | allTablesFull => 3

/-- The number of the error code in the message. -/
def FlowModError.code : FlowModError → BitVec 16
  | badAction code => code
  | allTablesFull => 0
  | overlap => 1
  | badEmergTimeout => 3

/-- `OFPBAC_BAD_TYPE`: unknown action type. -/
def ofpbacBadType : BitVec 16 := 0

/-- `OFPBAC_BAD_LEN`: length problem in actions. -/
def ofpbacBadLen : BitVec 16 := 1

/-- `OFPBAC_BAD_VENDOR`: unknown vendor id specified. -/
def ofpbacBadVendor : BitVec 16 := 2

/-- `OFPBAC_BAD_OUT_PORT`: problem validating output action. -/
def ofpbacBadOutPort : BitVec 16 := 4

/-! ### Statistics requests -/

/-- `struct ofp_flow_stats_request` and `struct ofp_aggregate_stats_request`, which have the
same fields. -/
structure OfpFlowStatsRequest where
  /-- Fields to match. -/
  ofpMatch : OfpMatch
  /-- ID of table to read, 0xff for all tables or 0xfe for emergency. -/
  tableId : BitVec 8
  /-- Require matching entries to include this as an output port. -/
  outPort : BitVec 16
  deriving DecidableEq, Repr

end OfAgent
