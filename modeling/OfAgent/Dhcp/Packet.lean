import OfAgent.Dhcp.Store
import OfAgent.Packet.Buffer

/-!
# DHCP packets

`dhcp.h`, `dhcp.c`: the classes of options, a message read from a packet, and a packet made of a
message. What is logged on the way is left out.

* `getOptionClass`, `validateOptions`: how many bytes an option may have.
* `dhcpParse`: `dhcp_parse`, for pointers of `w` bytes, which it takes as the length of the cookie.
* `dhcpAssemble`: `dhcp_assemble`, into a buffer that is empty.
-/

namespace OfAgent

/-! ### Classes of options -/

/-- `DHCP_VENDOR_OFS`: the codes of vendor-specific options begin here. -/
def dhcpVendorOfs : ℕ := 256

/-- `enum dhcp_arg_type`. -/
inductive DhcpArgType
  | fixed | ip | secs | string | uint8 | uint16 | uint32 | boolean

/-- `types[type].size`. -/
def DhcpArgType.size : DhcpArgType → ℕ
  | fixed => 0
  | ip => 4
  | secs => 4
  | string => 1
  | uint8 => 1
  | uint16 => 2
  | uint32 => 4
  | boolean => 1

/-- `struct option_class`. -/
structure OptionClass where
  /-- Argument type. -/
  type : DhcpArgType
  /-- Minimum number of arguments. -/
  minArgs : ℕ
  /-- Maximum number of arguments, unless it is `SIZE_MAX`. -/
  maxArgs : Option ℕ

/-- `DHCP_OPTS`. -/
def dhcpOpts : List (ℕ × OptionClass) :=
  [(0, ⟨.fixed, 0, some 0⟩), (255, ⟨.fixed, 0, some 0⟩), (1, ⟨.ip, 1, some 1⟩),
   (2, ⟨.secs, 1, some 1⟩), (3, ⟨.ip, 1, none⟩), (6, ⟨.ip, 1, none⟩), (9, ⟨.ip, 1, none⟩),
   (12, ⟨.string, 1, none⟩), (13, ⟨.uint16, 1, some 1⟩), (15, ⟨.string, 1, none⟩),
   (17, ⟨.string, 1, none⟩), (18, ⟨.string, 1, none⟩), (19, ⟨.boolean, 1, some 1⟩),
   (20, ⟨.boolean, 1, some 1⟩), (21, ⟨.ip, 2, none⟩), (22, ⟨.uint16, 1, some 1⟩),
   (23, ⟨.uint8, 1, some 1⟩), (24, ⟨.secs, 1, some 1⟩), (25, ⟨.uint16, 2, none⟩),
   (26, ⟨.uint16, 1, some 1⟩), (27, ⟨.boolean, 1, some 1⟩), (28, ⟨.ip, 1, some 1⟩),
   (29, ⟨.boolean, 1, some 1⟩), (30, ⟨.boolean, 1, some 1⟩), (31, ⟨.boolean, 1, some 1⟩),
   (32, ⟨.ip, 1, some 1⟩), (33, ⟨.ip, 2, none⟩), (35, ⟨.secs, 1, some 1⟩),
   (36, ⟨.boolean, 1, some 1⟩), (37, ⟨.uint8, 1, some 1⟩), (38, ⟨.secs, 1, some 1⟩),
   (39, ⟨.boolean, 1, some 1⟩), (40, ⟨.string, 1, none⟩), (41, ⟨.ip, 1, none⟩),
   (42, ⟨.ip, 1, none⟩), (43, ⟨.uint8, 1, none⟩), (44, ⟨.ip, 1, none⟩), (45, ⟨.ip, 1, none⟩),
   (46, ⟨.uint8, 1, some 1⟩), (47, ⟨.string, 1, none⟩), (48, ⟨.ip, 1, none⟩), (49, ⟨.ip, 1, none⟩),
   (64, ⟨.string, 1, none⟩), (65, ⟨.ip, 1, none⟩), (68, ⟨.ip, 0, none⟩), (69, ⟨.ip, 1, none⟩),
   (70, ⟨.ip, 1, none⟩), (71, ⟨.ip, 1, none⟩), (72, ⟨.ip, 1, none⟩), (73, ⟨.ip, 1, none⟩),
   (74, ⟨.ip, 1, none⟩), (50, ⟨.ip, 1, some 1⟩), (51, ⟨.secs, 1, some 1⟩),
   (52, ⟨.uint8, 1, some 1⟩), (66, ⟨.string, 1, none⟩), (67, ⟨.string, 1, none⟩),
   (53, ⟨.uint8, 1, some 1⟩), (54, ⟨.ip, 1, some 1⟩), (55, ⟨.uint8, 1, none⟩),
   (56, ⟨.string, 1, none⟩), (57, ⟨.uint16, 1, some 1⟩), (58, ⟨.secs, 1, some 1⟩),
   (59, ⟨.secs, 1, some 1⟩), (60, ⟨.string, 1, none⟩), (61, ⟨.uint8, 2, none⟩),
   (1 + dhcpVendorOfs, ⟨.string, 1, none⟩), (2 + dhcpVendorOfs, ⟨.string, 1, none⟩)]

/-- `get_option_class`. -/
def getOptionClass (code : ℕ) : OptionClass := (dhcpOpts.lookup code).getD ⟨.uint8, 0, none⟩

/-- `validate_options` leaves an option of `n` bytes alone. -/
def OptionClass.Admits (c : OptionClass) (n : ℕ) : Prop :=
  n % c.type.size = 0 ∧ c.minArgs ≤ n / c.type.size ∧ ∀ most ∈ c.maxArgs, n / c.type.size ≤ most

instance (c : OptionClass) (n : ℕ) : Decidable (c.Admits n) :=
  inferInstanceAs (Decidable (_ ∧ _ ∧ _))

/-- `validate_options`. Options that take no bytes for an argument are never present. -/
def validateOptions (options : ℕ → Option (List Byte)) (code : ℕ) : Option (List Byte) :=
  (options code).filter fun bytes => (getOptionClass code).Admits bytes.length

/-! ### Parsing -/

/-- `DHCP_CODE_VENDOR_SPECIFIC`. -/
def dhcpCodeVendorSpecific : ℕ := 43

/-- `DHCP_CODE_OPTION_OVERLOAD`. -/
def dhcpCodeOptionOverload : ℕ := 52

/-- `DHCP_CODE_DHCP_MSG_TYPE`. -/
def dhcpCodeDhcpMsgType : ℕ := 53

/-- `DHCP_CODE_VENDOR_CLASS`. -/
def dhcpCodeVendorClass : ℕ := 60

/-- `DHCP_BOOTREQUEST`. -/
def dhcpBootRequest : Byte := 1

/-- `DHCP_BOOTREPLY`. -/
def dhcpBootReply : Byte := 2

/-- `ARP_HRD_ETHERNET`. -/
def arpHrdEthernet : Byte := 1

/-- `ETH_ADDR_LEN`. -/
def ethAddrLen : ℕ := 6

/-- `DHCP_HEADER_LEN`. -/
def dhcpHeaderLen : ℕ := 236

/-- `DHCP_OPTS_COOKIE`. -/
def dhcpOptsCookie : BitVec 32 := 0x63825363

/-- The vendor class `"OpenFlow"`. -/
def openFlowClass : List Byte := [0x4f, 0x70, 0x65, 0x6e, 0x46, 0x6c, 0x6f, 0x77]

/-- How `dhcp_parse` can fail. -/
inductive DhcpParseError
  /-- It returns `EPROTO`. -/
  | eproto
  /-- It reads an option from `data` that it has freed. -/
  | useAfterFree

/-- The options that `parse_options` finds in an area, by the codes it puts them under. -/
def optionsIn (area : List Byte) (optionOffset : ℕ) : List (ℕ × List Byte) :=
  (Padded.read (BitVec.ofNat 8 dhcpCodePad) (BitVec.ofNat 8 dhcpCodeEnd) BitVec.toNat area.length
    area).map fun item => (item.1.toNat + optionOffset, item.2)

namespace DhcpStore

/-- `parse_options`, of an area outside of the message. -/
def parseOptions (s : DhcpStore) (area : List Byte) (optionOffset : ℕ) : DhcpStore :=
  s.putAll (optionsIn area optionOffset)

/-- `dhcp_msg_put`, of bytes that lie in the message's own `data`. -/
def putOwn (s : DhcpStore) (item : ℕ × List Byte) : Except DhcpParseError DhcpStore :=
  if s.Moves item.1 item.2.length then .error .useAfterFree else .ok (s.put item.1 item.2)

/-- `parse_options`, of an area in the message's own `data`. -/
def parseOwnOptions (s : DhcpStore) (area : List Byte) (optionOffset : ℕ) :
    Except DhcpParseError DhcpStore :=
  (optionsIn area optionOffset).foldlM putOwn s

end DhcpStore

/-- The part of `dhcp_parse` that copies `struct dhcp_header`. -/
def parseHeader (packet : List Byte) : DhcpMsg where
  op := packet.getD 0 0
  xid := be32 packet 4
  secs := be16 packet 8
  flags := be16 packet 10
  ciaddr := be32 packet 12
  yiaddr := be32 packet 16
  siaddr := be32 packet 20
  giaddr := be32 packet 24
  chaddr := (packet.drop 28).take ethAddrLen
  type := 0
  options _ := none

/-- A message with the options of a store. -/
def DhcpMsg.withOptions (msg : DhcpMsg) (options : ℕ → Option (List Byte)) : DhcpMsg :=
  { msg with options }

/-- The part of `dhcp_parse` that reads the options, and `file` and `sname` where these hold
options. -/
def parseAreas (w : ℕ) (packet : List Byte) : DhcpStore :=
  let area := packet.drop dhcpHeaderLen
  if area.length < w then .empty
  else if be32 area 0 ≠ dhcpOptsCookie then .empty
  else
    let s := DhcpStore.empty.parseOptions (area.drop w) 0
    match ((parseHeader packet).withOptions s.options).getUint8 dhcpCodeOptionOverload 0 with
    | none => s
    | some overload =>
        let s := if overload &&& 1 = 0 then s else s.parseOptions ((packet.drop 108).take 128) 0
        if overload &&& 2 = 0 then s else s.parseOptions ((packet.drop 44).take 64) 0

/-- The part of `dhcp_parse` that reads the vendor-specific options. -/
def parseVendor (packet : List Byte) (s : DhcpStore) : Except DhcpParseError DhcpStore :=
  if ((parseHeader packet).withOptions s.options).getString dhcpCodeVendorClass =
      some openFlowClass then
    s.parseOwnOptions ((s.options dhcpCodeVendorSpecific).getD []) dhcpVendorOfs
  else .ok s

/-- The part of `dhcp_parse` that takes the type of the message out of its options. -/
def parseType (msg : DhcpMsg) : Except DhcpParseError DhcpMsg :=
  match msg.getUint8 dhcpCodeDhcpMsgType 0 with
  | none => .error .eproto
  | some type => .ok { msg with type := type.toNat }

/-- `dhcp_parse`. -/
def dhcpParse (w : ℕ) (packet : List Byte) : Except DhcpParseError DhcpMsg :=
  if packet.length < dhcpHeaderLen then .error .eproto
  else if packet.getD 0 0 ≠ dhcpBootReply ∧ packet.getD 0 0 ≠ dhcpBootRequest then .error .eproto
  else if packet.getD 1 0 ≠ arpHrdEthernet then .error .eproto
  else if packet.getD 2 0 ≠ BitVec.ofNat 8 ethAddrLen then .error .eproto
  else do
    let s ← parseVendor packet (parseAreas w packet)
    parseType ((parseHeader packet).withOptions (validateOptions s.options))

/-! ### Assembling -/

/-- `put_option_chunk`. Its assertion holds by `length_le_of_mem_optionChunks`. -/
def putOptionChunk (code : Byte) (data : List Byte) : List Byte :=
  [code, BitVec.ofNat 8 data.length] ++ data

/-- The chunks of an option, if it has `data`. -/
def optionChunks : Option (List Byte) → List (List Byte)
  | none => []
  | some [] => [[]]
  | some (b :: bs) => Padded.chunks 255 248 (b :: bs).length (b :: bs)

/-- `put_option`. -/
def putOption (code : Byte) (data : Option (List Byte)) : List Byte :=
  (optionChunks data).flatMap (putOptionChunk code)

/-- No chunk is longer than a length byte can say. -/
theorem length_le_of_mem_optionChunks {data : Option (List Byte)} {chunk : List Byte}
    (h : chunk ∈ optionChunks data) : chunk.length ≤ 255 := by
  rcases data with _ | _ | ⟨b, bs⟩
  · cases h
  · rw [List.mem_singleton.mp h]
    exact Nat.zero_le _
  · exact Padded.length_le_of_mem_chunks (by decide) h

namespace DhcpMsg

variable (msg : DhcpMsg)

/-- `struct dhcp_header` as `dhcp_assemble` fills it in. -/
def assembleHeader : List Byte :=
  [msg.op, arpHrdEthernet, BitVec.ofNat 8 ethAddrLen, 0] ++ Memory.bytes32 msg.xid ++
    Memory.bytes16 msg.secs ++ Memory.bytes16 msg.flags ++ Memory.bytes32 msg.ciaddr ++
    Memory.bytes32 msg.yiaddr ++ Memory.bytes32 msg.siaddr ++ Memory.bytes32 msg.giaddr ++
    msg.chaddr ++ List.replicate (16 - ethAddrLen) 0 ++ List.replicate 64 0 ++ List.replicate 128 0

/-- The bytes of the vendor-specific options. -/
def vendorData : List Byte :=
  (List.range' dhcpVendorOfs (dhcpNOptions - dhcpVendorOfs)).flatMap fun i =>
    putOption (BitVec.ofNat 8 (i - dhcpVendorOfs)) (msg.options i)

/-- The bytes of the options. -/
def assembleOptions : List Byte :=
  (if msg.type = 0 then []
    else putOption (BitVec.ofNat 8 dhcpCodeDhcpMsgType) (some [BitVec.ofNat 8 msg.type])) ++
  ((List.range dhcpVendorOfs).flatMap fun i => putOption (BitVec.ofNat 8 i) (msg.options i)) ++
  (if msg.vendorData = [] then []
    else putOption (BitVec.ofNat 8 dhcpCodeVendorSpecific) (some msg.vendorData)) ++
  [BitVec.ofNat 8 dhcpCodeEnd]

/-- `dhcp_assemble`. -/
def dhcpAssemble : List Byte :=
  msg.assembleHeader ++ Memory.bytes32 dhcpOptsCookie ++ msg.assembleOptions

end DhcpMsg

end OfAgent
