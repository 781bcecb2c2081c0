import OfAgent.OpenFlow

/-!
# DHCP messages

`dhcp.h`, `dhcp.c`: a message with its options, and what is read out of them.

* `DhcpMsg`: `struct dhcp_msg`, with the bytes of each option in place of the pointers into `data`.
* `DhcpMsg.get`, `DhcpMsg.getSecs`, `DhcpMsg.getIp`, `DhcpMsg.getUint8`, `DhcpMsg.getString`: the
  accessors.
-/

namespace OfAgent

/-- `struct dhcp_msg`. -/
structure DhcpMsg where
  /-- `DHCP_BOOTREQUEST` or `DHCP_BOOTREPLY`. -/
  op : Byte
  /-- The transaction. -/
  xid : BitVec 32
  /-- Seconds since the client has begun. -/
  secs : BitVec 16
  /-- `DHCP_FLAGS_*`. -/
  flags : BitVec 16
  /-- The client's address, if it has a lease for one. -/
  ciaddr : BitVec 32
  /-- The client's address. -/
  yiaddr : BitVec 32
  /-- The next server's address. -/
  siaddr : BitVec 32
  /-- The relay's address. -/
  giaddr : BitVec 32
  /-- The client's hardware address. -/
  chaddr : List Byte
  /-- The argument of the option `DHCP_CODE_DHCP_MSG_TYPE`. -/
  type : ℕ
  /-- The options by their codes. An option that is absent has no `data`. -/
  options : ℕ → Option (List Byte)

/-! ### Types and codes -/

/-- `DHCPOFFER`. -/
def dhcpOffer : ℕ := 2

/-- `DHCPACK`. -/
def dhcpAck : ℕ := 5

/-- `DHCPNAK`. -/
def dhcpNak : ℕ := 6

/-- `DHCP_CODE_SUBNET_MASK`. -/
def dhcpCodeSubnetMask : ℕ := 1

/-- `DHCP_CODE_ROUTER`. -/
def dhcpCodeRouter : ℕ := 3

/-- `DHCP_CODE_LEASE_TIME`. -/
def dhcpCodeLeaseTime : ℕ := 51

/-- `DHCP_CODE_SERVER_IDENTIFIER`. -/
def dhcpCodeServerIdentifier : ℕ := 54

/-- `DHCP_CODE_T1`. -/
def dhcpCodeT1 : ℕ := 58

/-- `DHCP_CODE_T2`. -/
def dhcpCodeT2 : ℕ := 59

namespace DhcpMsg

/-! ### Accessors -/

variable (msg : DhcpMsg)

/-- `dhcp_msg_get`. -/
def get (code offset size : ℕ) : Option (List Byte) :=
  let opt := (msg.options code).getD []
  if offset + size ≤ opt.length then some ((opt.drop offset).take size) else none

/-- `dhcp_msg_get_secs`. -/
def getSecs (code offset : ℕ) : Option ℕ :=
  (msg.get code (offset * 4) 4).map fun bytes => (be32 bytes 0).toNat

/-- `dhcp_msg_get_ip`. An address is given by its bytes in network order. -/
def getIp (code offset : ℕ) : Option (BitVec 32) :=
  (msg.get code (offset * 4) 4).map fun bytes => be32 bytes 0

/-- `dhcp_msg_get_uint8`. -/
def getUint8 (code offset : ℕ) : Option Byte :=
  (msg.get code offset 1).map fun bytes => bytes.getD 0 0

/-- `dhcp_msg_get_string`: a string ends in front of its first null byte, or where the option
does. -/
def getString (code : ℕ) : Option (List Byte) :=
  (msg.options code).map fun bytes => bytes.takeWhile (· ≠ 0)

variable {msg}

theorem getUint8_zero (code : ℕ) : msg.getUint8 code 0 = ((msg.options code).getD []).head? := by
  rw [getUint8, get]
  cases (msg.options code).getD [] <;> rfl

theorem lt_of_getSecs {code offset secs : ℕ} (h : msg.getSecs code offset = some secs) :
    secs < 2 ^ 32 := by
  obtain ⟨bytes, -, rfl⟩ := Option.map_eq_some_iff.1 h
  exact (be32 bytes 0).isLt

end DhcpMsg

end OfAgent
