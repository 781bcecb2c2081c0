import OfAgent.Dhcp.Packet
import OfAgent.Packet.Tags
import Mathlib.Order.Interval.Finset.Nat

/-!
# A DHCP message through a packet

What `dhcp_parse` makes of the packet that `dhcp_assemble` makes of a message.

* `DhcpMsg.Sendable`: the messages that are meant to come through. `DhcpMsg.Same`: what comes
  through of them.
* `DhcpMsg.standardItems`, `DhcpMsg.vendorItems`: the options of a message in the chunks that they
  are sent in.
* `optionsIn_flatMap`: `parse_options` finds the chunks that have been put.
* `parseAreas_dhcpAssemble`: it finds them in a packet from where the cookie is thought to end.
* `roundTrips_iff`: when a message comes through.
-/

namespace OfAgent

/-! ### Chunks of options -/

/-- The chunks of an option make it up again. -/
theorem collect_optionChunks (data : Option (List Byte)) :
    Padded.collect none (optionChunks data) = data := by
  rcases data with _ | _ | ⟨b, bs⟩
  · rfl
  · rfl
  · have hne := @Padded.chunks_ne_nil _ 255 248 _ _ (List.cons_ne_nil b bs) (Nat.le_refl _)
    have hflat := @Padded.flatten_chunks _ 255 248 (by decide) _ (b :: bs) (Nat.le_refl _)
    rw [optionChunks]
    cases hchunks : Padded.chunks 255 248 (b :: bs).length (b :: bs) with
    | nil => exact absurd hchunks hne
    | cons chunk chunks =>
      rw [hchunks] at hflat
      exact congrArg some hflat

/-- An option without long data takes the fewest bytes. -/
theorem length_putOption (code : Byte) {data : Option (List Byte)}
    (h : ∀ bytes ∈ data, bytes.length ≤ 255) :
    (putOption code data).length = Padded.least 255 data := by
  rcases data with _ | _ | ⟨b, bs⟩
  · rfl
  · rfl
  · have hle := h _ rfl
    have hspan := @Padded.span_of_le 255 _ hle (by decide)
    rw [putOption, optionChunks,
      Padded.chunks_of_length_le (List.cons_ne_nil b bs) hle (Nat.le_refl _),
        List.flatMap_singleton,
      Padded.least, hspan, putOptionChunk, List.length_append]
    rfl

/-- Options, put one after another. -/
def putChunks (optionOffset : ℕ) (items : List (ℕ × List Byte)) : List Byte :=
  items.flatMap fun item => putOptionChunk (BitVec.ofNat 8 (item.1 - optionOffset)) item.2

/-- The chunks of options, put one after another. -/
theorem putChunks_items (optionOffset : ℕ) (codes : List ℕ) (options : ℕ → Option (List Byte)) :
    putChunks optionOffset (Padded.items codes fun code => optionChunks (options code)) =
      codes.flatMap fun code =>
        putOption (BitVec.ofNat 8 (code - optionOffset)) (options code) := by
  rw [putChunks, Padded.items, List.flatMap_assoc]
  refine List.flatMap_congr fun code _ => ?_
  rw [List.flatMap_map, putOption]

/-- Every chunk takes a byte at least. -/
theorem length_le_putChunks (optionOffset : ℕ) (items : List (ℕ × List Byte)) :
    items.length ≤ (putChunks optionOffset items).length := by
  induction items with
  | nil => exact Nat.zero_le _
  | cons item items ih =>
    rw [putChunks, List.flatMap_cons, List.length_append, putOptionChunk, List.length_append,
      List.length_cons, List.length_cons, List.length_cons]
    rw [putChunks] at ih
    omega

theorem optionsIn_replicate (n optionOffset : ℕ) :
    optionsIn (List.replicate n 0) optionOffset = [] := by
  rw [optionsIn, show (0 : Byte) = BitVec.ofNat 8 dhcpCodePad from rfl,
    Padded.read_replicate_pad (by decide), List.map_nil]

/-- `parse_options` finds the options that have been put in front of an end, or of nothing. -/
theorem optionsIn_putChunks {optionOffset : ℕ} {items : List (ℕ × List Byte)}
    (hcode : ∀ item ∈ items, optionOffset < item.1 ∧ item.1 < optionOffset + 255)
    (hlen : ∀ item ∈ items, item.2.length ≤ 255) {rest : List Byte}
    (hrest : rest = [] ∨ rest = [BitVec.ofNat 8 dhcpCodeEnd]) :
    optionsIn (putChunks optionOffset items ++ rest) optionOffset = items := by
  -- the options as they are written, with the codes of their area
  let coded : List (Byte × List Byte) :=
    items.map fun item => (BitVec.ofNat 8 (item.1 - optionOffset), item.2)
  have htoNat : ∀ item ∈ items,
      (BitVec.ofNat 8 (item.1 - optionOffset)).toNat = item.1 - optionOffset := by
    intro item hitem
    have hbounds := hcode item hitem
    rw [BitVec.toNat_ofNat, Nat.mod_eq_of_lt (by omega)]
  have hput : putChunks optionOffset items = coded.flatMap (Padded.encode (BitVec.ofNat 8)) := by
    rw [List.flatMap_map]
    rfl
  -- no code is that of padding or of the end
  have hcoded : ∀ item ∈ coded,
      item.1 ≠ BitVec.ofNat 8 dhcpCodePad ∧ item.1 ≠ BitVec.ofNat 8 dhcpCodeEnd := by
    intro item hmem
    obtain ⟨item, hitem, rfl⟩ := List.mem_map.mp hmem
    have hbounds := hcode item hitem
    have hnat := htoNat item hitem
    constructor
    · intro heq
      have hzero : (BitVec.ofNat 8 (item.1 - optionOffset)).toNat = 0 := congrArg BitVec.toNat heq
      omega
    · intro heq
      have hlast : (BitVec.ofNat 8 (item.1 - optionOffset)).toNat = 255 := congrArg BitVec.toNat heq
      omega
  have hlens : ∀ item ∈ coded, (BitVec.ofNat 8 item.2.length).toNat = item.2.length := by
    intro item hmem
    obtain ⟨item, hitem, rfl⟩ := List.mem_map.mp hmem
    have hle := hlen item hitem
    rw [BitVec.toNat_ofNat, Nat.mod_eq_of_lt (by dsimp only; omega)]
  have hfuel : ∃ fuel, (putChunks optionOffset items ++ rest).length = coded.length + fuel := by
    refine Nat.exists_eq_add_of_le ?_
    rw [List.length_append, List.length_map]
    exact (length_le_putChunks optionOffset items).trans (Nat.le_add_right _ _)
  obtain ⟨fuel, hfuel⟩ := hfuel
  have hnone : Padded.read (BitVec.ofNat 8 dhcpCodePad) (BitVec.ofNat 8 dhcpCodeEnd) BitVec.toNat
      fuel rest = [] := by
    rcases hrest with rfl | rfl
    · exact Padded.read_nil _
    · exact Padded.read_stop _ _
  rw [optionsIn, hfuel, hput, Padded.read_encode hcoded hlens, hnone, List.append_nil, List.map_map]
  refine (List.map_congr_left fun item hitem => ?_).trans (List.map_id _)
  have hbounds := hcode item hitem
  refine Prod.ext ?_ rfl
  change (BitVec.ofNat 8 (item.1 - optionOffset)).toNat + optionOffset = item.1
  rw [htoNat item hitem]
  omega

/-- What `parse_options` finds takes no more bytes than the area has. -/
theorem weight_optionsIn_le (area : List Byte) (optionOffset : ℕ) :
    Padded.weight (optionsIn area optionOffset) ≤ area.length := by
  rw [optionsIn, Padded.weight_map fun code : Byte => code.toNat + optionOffset]
  exact Padded.weight_read_le _ _

/-- Every option that `parse_options` finds has the length of a length byte, and neither the code of
a pad nor that of an end. -/
theorem of_mem_optionsIn {area : List Byte} {optionOffset : ℕ} {item : ℕ × List Byte}
    (h : item ∈ optionsIn area optionOffset) :
    optionOffset < item.1 ∧ item.1 < optionOffset + 255 ∧ item.2.length ≤ 255 := by
  obtain ⟨read, hread, rfl⟩ := List.mem_map.mp h
  obtain ⟨hpad, hend⟩ := Padded.code_of_mem_read hread
  obtain ⟨l, hl⟩ := Padded.length_of_mem_read hread
  have hpos : read.1.toNat ≠ 0 := fun heq => hpad (BitVec.eq_of_toNat_eq heq)
  have hlast : read.1.toNat ≠ 255 := fun heq => hend (BitVec.eq_of_toNat_eq heq)
  have hlt := read.1.isLt
  have hllt := l.isLt
  simp only
  omega

/-! ### The fixed part of a packet -/

namespace DhcpMsg

variable (msg : DhcpMsg)

/-- The header in front of `chaddr`. -/
def headerNumbers : List Byte :=
  [msg.op, arpHrdEthernet, BitVec.ofNat 8 ethAddrLen, 0] ++ Memory.bytes32 msg.xid ++
    Memory.bytes16 msg.secs ++ Memory.bytes16 msg.flags ++ Memory.bytes32 msg.ciaddr ++
    Memory.bytes32 msg.yiaddr ++ Memory.bytes32 msg.siaddr ++ Memory.bytes32 msg.giaddr

/-- The parts of a packet that are read one after another. -/
theorem dhcpAssemble_eq : msg.dhcpAssemble =
    msg.headerNumbers ++ (msg.chaddr ++ (List.replicate (16 - ethAddrLen) 0 ++
      (List.replicate 64 0 ++ (List.replicate 128 0 ++
        (Memory.bytes32 dhcpOptsCookie ++ msg.assembleOptions))))) := by
  simp only [dhcpAssemble, assembleHeader, headerNumbers, List.append_assoc]

variable {msg} (hchaddr : msg.chaddr.length = ethAddrLen)

include hchaddr

/-- The header reads back. -/
theorem parseHeader_dhcpAssemble :
    parseHeader msg.dhcpAssemble = { msg with type := 0, options := fun _ => none } := by
  have hop : msg.dhcpAssemble.getD 0 0 = msg.op := by
    rw [dhcpAssemble_eq]
    rfl
  have h16 : ∀ off, off + 2 ≤ 28 → be16 msg.dhcpAssemble off = be16 msg.headerNumbers off := by
    intro off hoff
    rw [dhcpAssemble_eq]
    exact be16_append hoff _
  have h32 : ∀ off, off + 4 ≤ 28 → be32 msg.dhcpAssemble off = be32 msg.headerNumbers off := by
    intro off hoff
    rw [dhcpAssemble_eq]
    exact be32_append hoff _
  have hxid : be32 msg.headerNumbers 4 = msg.xid := Memory.be32_bytes32 msg.xid
  have hsecs : be16 msg.headerNumbers 8 = msg.secs := Memory.be16_bytes16 msg.secs []
  have hflags : be16 msg.headerNumbers 10 = msg.flags := Memory.be16_bytes16 msg.flags []
  have hciaddr : be32 msg.headerNumbers 12 = msg.ciaddr := Memory.be32_bytes32 msg.ciaddr
  have hyiaddr : be32 msg.headerNumbers 16 = msg.yiaddr := Memory.be32_bytes32 msg.yiaddr
  have hsiaddr : be32 msg.headerNumbers 20 = msg.siaddr := Memory.be32_bytes32 msg.siaddr
  have hgiaddr : be32 msg.headerNumbers 24 = msg.giaddr := Memory.be32_bytes32 msg.giaddr
  have haddr : (msg.dhcpAssemble.drop 28).take ethAddrLen = msg.chaddr := by
    rw [dhcpAssemble_eq, @List.drop_left' _ msg.headerNumbers _ 28 rfl, List.take_left' hchaddr]
  rw [parseHeader, hop, h32 4 (by decide), h16 8 (by decide), h16 10 (by decide),
    h32 12 (by decide), h32 16 (by decide), h32 20 (by decide), h32 24 (by decide), hxid, hsecs,
    hflags, hciaddr, hyiaddr, hsiaddr, hgiaddr, haddr]

/-- The cookie and the options follow the header. -/
theorem drop_dhcpAssemble : msg.dhcpAssemble.drop dhcpHeaderLen =
    Memory.bytes32 dhcpOptsCookie ++ msg.assembleOptions := by
  rw [dhcpAssemble, List.append_assoc]
  refine List.drop_left' ?_
  simp only [assembleHeader, List.length_append, hchaddr, List.length_replicate]
  rfl

theorem sname_dhcpAssemble : (msg.dhcpAssemble.drop 44).take 64 = List.replicate 64 0 := by
  have hlen : (msg.headerNumbers ++ (msg.chaddr ++ List.replicate (16 - ethAddrLen) 0)).length =
      44 := by
    simp only [List.length_append, hchaddr, List.length_replicate]
    rfl
  rw [dhcpAssemble_eq, ← List.append_assoc msg.chaddr, ← List.append_assoc msg.headerNumbers,
    List.drop_left' hlen, List.take_left' List.length_replicate]

theorem file_dhcpAssemble : (msg.dhcpAssemble.drop 108).take 128 = List.replicate 128 0 := by
  have hlen : (msg.headerNumbers ++ (msg.chaddr ++ (List.replicate (16 - ethAddrLen) 0 ++
      List.replicate 64 0))).length = 108 := by
    simp only [List.length_append, hchaddr, List.length_replicate]
    rfl
  rw [dhcpAssemble_eq, ← List.append_assoc (List.replicate (16 - ethAddrLen) 0),
    ← List.append_assoc msg.chaddr, ← List.append_assoc msg.headerNumbers,
    List.drop_left' hlen, List.take_left' List.length_replicate]

/-- `parse_options` reads the options from where the cookie is thought to end. -/
theorem parseAreas_dhcpAssemble {w : ℕ} (hw : 4 ≤ w) :
    parseAreas w msg.dhcpAssemble =
      if 4 + msg.assembleOptions.length < w then .empty
      else DhcpStore.empty.parseOptions (msg.assembleOptions.drop (w - 4)) 0 := by
  have hlen : (Memory.bytes32 dhcpOptsCookie ++ msg.assembleOptions).length =
      4 + msg.assembleOptions.length := List.length_append
  have hcookie : be32 (Memory.bytes32 dhcpOptsCookie ++ msg.assembleOptions) 0 =
    dhcpOptsCookie := by
    rw [be32_append (by decide), Memory.be32_bytes32]
  have hdrop : (Memory.bytes32 dhcpOptsCookie ++ msg.assembleOptions).drop w =
      msg.assembleOptions.drop (w - 4) := by
    rw [List.drop_append, List.drop_eq_nil_of_le hw]
    rfl
  have hzeros : ∀ (s : DhcpStore) n, s.parseOptions (List.replicate n 0) 0 = s := by
    intro s n
    rw [DhcpStore.parseOptions, optionsIn_replicate]
    rfl
  unfold parseAreas
  simp only [drop_dhcpAssemble hchaddr, sname_dhcpAssemble hchaddr, file_dhcpAssemble hchaddr, hlen,
    hcookie, hdrop, hzeros, ne_eq, not_true_eq_false, if_false, ite_self]
  split
  · rfl
  · split <;> rfl

omit hchaddr

/-! ### The options of a message -/

/-- The messages that are meant to come through a packet. -/
structure Sendable (msg : DhcpMsg) : Prop where
  op : msg.op = dhcpBootRequest ∨ msg.op = dhcpBootReply
  chaddr : msg.chaddr.length = ethAddrLen
  /-- The message has a type. -/
  type_pos : 0 < msg.type
  type_lt : msg.type < 256
  /-- `dhcp_msg_put` does not put a pad. -/
  pad : msg.options dhcpCodePad = none
  /-- `dhcp_msg_put` does not put an end. -/
  stop : msg.options dhcpCodeEnd = none
  /-- The packet has this option for the vendor-specific ones. -/
  vendorSpecific : msg.options dhcpCodeVendorSpecific = none
  /-- The packet has this option for the type. -/
  msgType : msg.options dhcpCodeDhcpMsgType = none
  /-- The options satisfy the rules of their classes. -/
  admits : ∀ code < dhcpNOptions, ∀ bytes ∈ msg.options code,
    (getOptionClass code).Admits bytes.length
  /-- The vendor class goes with the vendor-specific options. -/
  vendorClass : ∀ code, dhcpVendorOfs ≤ code → code < dhcpNOptions → msg.options code ≠ none →
    msg.getString dhcpCodeVendorClass = some openFlowClass

/-- The header, the type and the options of a message, but for the two options that only a packet
has. -/
structure Same (msg' msg : DhcpMsg) : Prop where
  op : msg'.op = msg.op
  xid : msg'.xid = msg.xid
  secs : msg'.secs = msg.secs
  flags : msg'.flags = msg.flags
  ciaddr : msg'.ciaddr = msg.ciaddr
  yiaddr : msg'.yiaddr = msg.yiaddr
  siaddr : msg'.siaddr = msg.siaddr
  giaddr : msg'.giaddr = msg.giaddr
  chaddr : msg'.chaddr = msg.chaddr
  type : msg'.type = msg.type
  options : ∀ code < dhcpNOptions, code ≠ dhcpCodeVendorSpecific → code ≠ dhcpCodeDhcpMsgType →
    msg'.options code = msg.options code

/-- `dhcp_parse` yields the message from the packet that `dhcp_assemble` makes of it. -/
def RoundTrips (w : ℕ) (msg : DhcpMsg) : Prop :=
  ∃ msg', dhcpParse w msg.dhcpAssemble = .ok msg' ∧ msg'.Same msg

/-- The chunks in which the vendor-specific options are sent. -/
def vendorItems (msg : DhcpMsg) : List (ℕ × List Byte) :=
  Padded.items (List.range' dhcpVendorOfs (dhcpNOptions - dhcpVendorOfs)) fun code =>
    optionChunks (msg.options code)

/-- The chunks in which the standard options are sent, the type in front of them and the
vendor-specific option behind. -/
def standardItems (msg : DhcpMsg) : List (ℕ × List Byte) :=
  [(dhcpCodeDhcpMsgType, [BitVec.ofNat 8 msg.type])] ++
    Padded.items (List.range dhcpVendorOfs) (fun code => optionChunks (msg.options code)) ++
    (if msg.vendorData = [] then [] else optionChunks (some msg.vendorData)).map
      (Prod.mk dhcpCodeVendorSpecific)

/-- What `dhcp_msg_put` has made of the standard options. -/
def standardStore (msg : DhcpMsg) : DhcpStore := DhcpStore.empty.putAll msg.standardItems

/-- Behind the standard options, the vendor-specific ones fit into what has been allocated. -/
structure VendorFits (msg : DhcpMsg) : Prop where
  stays : msg.standardStore.Stays msg.vendorItems

theorem vendorData_eq (msg : DhcpMsg) : msg.vendorData = putChunks dhcpVendorOfs msg.vendorItems :=
  (putChunks_items _ _ _).symm

/-- The options are sent in these chunks. -/
theorem assembleOptions_eq (h : 0 < msg.type) :
    msg.assembleOptions = putChunks 0 msg.standardItems ++ [BitVec.ofNat 8 dhcpCodeEnd] := by
  have happend : ∀ items items', putChunks 0 (items ++ items') =
      putChunks 0 items ++ putChunks 0 items' := fun _ _ => List.flatMap_append
  have hvendor : ∀ data, putChunks 0 ((optionChunks data).map (Prod.mk dhcpCodeVendorSpecific)) =
      putOption (BitVec.ofNat 8 dhcpCodeVendorSpecific) data := fun _ => List.flatMap_map ..
  rw [assembleOptions, if_neg h.ne', standardItems, happend, happend, putChunks_items]
  split_ifs with hempty
  · rfl
  · rw [hvendor]
    rfl

/-- The vendor-specific options keep to their codes, and to the length of a chunk. -/
theorem of_mem_vendorItems {item : ℕ × List Byte} (h : item ∈ msg.vendorItems) :
    dhcpVendorOfs ≤ item.1 ∧ item.1 < dhcpNOptions ∧ msg.options item.1 ≠ none ∧
      item.2.length ≤ 255 := by
  obtain ⟨hcode, hchunk⟩ := Padded.mem_items.mp h
  obtain ⟨hle, hlt⟩ := List.mem_range'_1.mp hcode
  refine ⟨hle, hlt, ?_, length_le_of_mem_optionChunks hchunk⟩
  intro hnone
  rw [hnone] at hchunk
  cases hchunk

/-- The standard options keep to their codes, and to the length of a chunk. -/
theorem of_mem_standardItems (hmsg : msg.Sendable) {item : ℕ × List Byte}
    (h : item ∈ msg.standardItems) :
    dhcpCodePad < item.1 ∧ item.1 < dhcpCodeEnd ∧ item.2.length ≤ 255 := by
  have htype : dhcpCodePad < dhcpCodeDhcpMsgType ∧ dhcpCodeDhcpMsgType < dhcpCodeEnd := by decide
  have hvendor : dhcpCodePad < dhcpCodeVendorSpecific ∧ dhcpCodeVendorSpecific < dhcpCodeEnd := by
    decide
  rw [standardItems, List.mem_append, List.mem_append] at h
  -- the type of the message, the options that are there, and the data of the vendor
  rcases h with (h | h) | h
  · rw [List.mem_singleton.mp h]
    exact ⟨htype.1, htype.2, Nat.le_add_left 1 254⟩
  · obtain ⟨hcode, hchunk⟩ := Padded.mem_items.mp h
    have hlt : item.1 < 256 := List.mem_range.mp hcode
    have hpad : item.1 ≠ dhcpCodePad := by
      intro heq
      rw [heq, hmsg.pad] at hchunk
      cases hchunk
    have hstop : item.1 ≠ dhcpCodeEnd := by
      intro heq
      rw [heq, hmsg.stop] at hchunk
      cases hchunk
    change item.1 ≠ 0 at hpad
    change item.1 ≠ 255 at hstop
    refine ⟨Nat.pos_of_ne_zero hpad, ?_, length_le_of_mem_optionChunks hchunk⟩
    change item.1 < 255
    omega
  · obtain ⟨chunk, hchunk, rfl⟩ := List.mem_map.mp h
    refine ⟨hvendor.1, hvendor.2, ?_⟩
    split_ifs at hchunk
    · cases hchunk
    · exact length_le_of_mem_optionChunks hchunk

/-- Each standard option has the bytes of its chunks. -/
theorem options_standardStore (hmsg : msg.Sendable) (code : ℕ) :
    msg.standardStore.options code =
      Padded.collect none (Padded.payloadsOf msg.standardItems code) := by
  refine DhcpStore.options_putAll (fun item hitem => ?_) (Or.inr ?_) code
  · obtain ⟨hpad, hstop, -⟩ := of_mem_standardItems hmsg hitem
    exact ⟨hpad.ne', hstop.ne⟩
  · rintro item ⟨rfl⟩
    exact List.cons_ne_nil _ _

/-- The type is among the options that are sent. -/
theorem options_standardStore_msgType (hmsg : msg.Sendable) :
    msg.standardStore.options dhcpCodeDhcpMsgType = some [BitVec.ofNat 8 msg.type] := by
  have htype : Padded.payloadsOf [(dhcpCodeDhcpMsgType, [BitVec.ofNat 8 msg.type])]
      dhcpCodeDhcpMsgType = [[BitVec.ofNat 8 msg.type]] :=
    Padded.payloadsOf_map_mk dhcpCodeDhcpMsgType [[BitVec.ofNat 8 msg.type]]
  rw [options_standardStore hmsg, standardItems, Padded.payloadsOf_append, Padded.payloadsOf_append,
    htype, Padded.payloadsOf_items List.nodup_range (by decide), hmsg.msgType,
    Padded.payloadsOf_map_mk_of_ne (by decide)]
  rfl

/-- The vendor-specific options are sent as one of the standard options. -/
theorem options_standardStore_vendorSpecific (hmsg : msg.Sendable) :
    (msg.standardStore.options dhcpCodeVendorSpecific).getD [] = msg.vendorData := by
  have htype : Padded.payloadsOf [(dhcpCodeDhcpMsgType, [BitVec.ofNat 8 msg.type])]
      dhcpCodeVendorSpecific = [] :=
    Padded.payloadsOf_map_mk_of_ne (by decide) [[BitVec.ofNat 8 msg.type]]
  rw [options_standardStore hmsg, standardItems, Padded.payloadsOf_append, Padded.payloadsOf_append,
    htype, Padded.payloadsOf_items List.nodup_range (by decide), hmsg.vendorSpecific,
    Padded.payloadsOf_map_mk]
  split_ifs with hempty
  · exact hempty.symm
  · exact congrArg (Option.getD · []) (collect_optionChunks (some msg.vendorData))

/-- The other standard options are sent as they are. -/
theorem options_standardStore_of_lt (hmsg : msg.Sendable) {code : ℕ} (hlt : code < dhcpVendorOfs)
    (hvendor : code ≠ dhcpCodeVendorSpecific) (htype : code ≠ dhcpCodeDhcpMsgType) :
    msg.standardStore.options code = msg.options code := by
  have hfirst : Padded.payloadsOf [(dhcpCodeDhcpMsgType, [BitVec.ofNat 8 msg.type])] code = [] :=
    Padded.payloadsOf_map_mk_of_ne htype.symm [[BitVec.ofNat 8 msg.type]]
  rw [options_standardStore hmsg, standardItems, Padded.payloadsOf_append, Padded.payloadsOf_append,
    hfirst, Padded.payloadsOf_items List.nodup_range (List.mem_range.mpr hlt),
    Padded.payloadsOf_map_mk_of_ne hvendor.symm, List.nil_append, List.append_nil,
    collect_optionChunks]

/-- No vendor-specific option is among the standard ones. -/
theorem options_standardStore_of_le (hmsg : msg.Sendable) {code : ℕ} (hle : dhcpVendorOfs ≤ code) :
    msg.standardStore.options code = none := by
  refine DhcpStore.options_putAll_of_ne fun item hitem => ?_
  obtain ⟨-, hlt, -⟩ := of_mem_standardItems hmsg hitem
  change item.1 < 255 at hlt
  change 256 ≤ code at hle
  omega

/-! ### Parsing the packet of a message -/

/-- Options in the message's own `data` are read unless one of them makes `dhcp_msg_put` replace
it. -/
theorem foldlM_putOwn_eq_ok_iff {items : List (ℕ × List Byte)} {s s' : DhcpStore} :
    items.foldlM DhcpStore.putOwn s = .ok s' ↔ s.Stays items ∧ s' = s.putAll items := by
  induction items generalizing s with
  | nil =>
    constructor
    · rintro ⟨⟩
      exact ⟨trivial, rfl⟩
    · rintro ⟨-, rfl⟩
      rfl
  | cons item items ih =>
    rw [List.foldlM_cons, DhcpStore.putOwn, DhcpStore.Stays]
    split_ifs with hmoves
    · constructor
      · rintro ⟨⟩
      · rintro ⟨⟨hstays, -⟩, -⟩
        exact absurd hmoves hstays
    · rw [and_iff_right hmoves]
      exact ih

/-- The vendor-specific options are read where the vendor class asks for it. -/
theorem parseVendor_eq_ok_iff {packet : List Byte} {s s' : DhcpStore} :
    parseVendor packet s = .ok s' ↔
      ((s.options dhcpCodeVendorClass).map fun bytes => bytes.takeWhile (· ≠ 0)) =
          some openFlowClass ∧
        s.Stays (optionsIn ((s.options dhcpCodeVendorSpecific).getD []) dhcpVendorOfs) ∧
        s' = s.putAll (optionsIn ((s.options dhcpCodeVendorSpecific).getD []) dhcpVendorOfs) ∨
      ((s.options dhcpCodeVendorClass).map fun bytes => bytes.takeWhile (· ≠ 0)) ≠
          some openFlowClass ∧ s' = s := by
  have hstring : ((parseHeader packet).withOptions s.options).getString dhcpCodeVendorClass =
      (s.options dhcpCodeVendorClass).map fun bytes => bytes.takeWhile (· ≠ 0) := rfl
  rw [parseVendor, hstring, DhcpStore.parseOwnOptions]
  split_ifs with hclass
  · rw [foldlM_putOwn_eq_ok_iff]
    exact ⟨fun h => Or.inl ⟨hclass, h⟩, fun h => h.elim And.right fun h => absurd hclass h.1⟩
  · constructor
    · rintro ⟨⟩
      exact Or.inr ⟨hclass, rfl⟩
    · rintro (⟨h, -⟩ | ⟨-, rfl⟩)
      · exact absurd h hclass
      · rfl

/-- The message that is read has the header of the one that has been sent. -/
theorem dhcpParse_dhcpAssemble_eq_ok_iff (hmsg : msg.Sendable) {w : ℕ} {msg' : DhcpMsg} :
    dhcpParse w msg.dhcpAssemble = .ok msg' ↔
      ∃ s type, parseVendor msg.dhcpAssemble (parseAreas w msg.dhcpAssemble) = .ok s ∧
        (msg.withOptions (validateOptions s.options)).getUint8 dhcpCodeDhcpMsgType 0 = some type ∧
        msg' = { msg with type := type.toNat, options := validateOptions s.options } := by
  -- none of the checks of the header fails
  have hlen : ¬ msg.dhcpAssemble.length < dhcpHeaderLen := by
    have hdrop := congrArg List.length (drop_dhcpAssemble hmsg.chaddr)
    have hcookie : (Memory.bytes32 dhcpOptsCookie).length = 4 := rfl
    rw [List.length_drop, List.length_append, hcookie] at hdrop
    omega
  have hop : msg.dhcpAssemble.getD 0 0 = msg.op := by
    rw [dhcpAssemble_eq]
    rfl
  have hop' : ¬ (msg.op ≠ dhcpBootReply ∧ msg.op ≠ dhcpBootRequest) := by
    rintro ⟨hreply, hrequest⟩
    exact hmsg.op.elim hrequest hreply
  have hhtype : msg.dhcpAssemble.getD 1 0 = arpHrdEthernet := by
    rw [dhcpAssemble_eq]
    rfl
  have hhlen : msg.dhcpAssemble.getD 2 0 = BitVec.ofNat 8 ethAddrLen := by
    rw [dhcpAssemble_eq]
    rfl
  rw [dhcpParse, if_neg hlen, hop, if_neg hop', if_neg (not_not.mpr hhtype),
    if_neg (not_not.mpr hhlen), parseHeader_dhcpAssemble hmsg.chaddr]
  cases hvendor : parseVendor msg.dhcpAssemble (parseAreas w msg.dhcpAssemble) with
  | error e =>
    constructor
    · rintro ⟨⟩
    · rintro ⟨s, type, ⟨⟩, -⟩
  | ok s =>
    -- the header has been read as it was, so that the options decide
    have hget : ((({ msg with type := 0, options := fun _ => none } : DhcpMsg)).withOptions
        (validateOptions s.options)).getUint8 dhcpCodeDhcpMsgType 0 =
      (msg.withOptions (validateOptions s.options)).getUint8 dhcpCodeDhcpMsgType 0 := rfl
    change parseType _ = _ ↔ _
    rw [parseType, hget]
    constructor
    · intro h
      cases htype : (msg.withOptions (validateOptions s.options)).getUint8 dhcpCodeDhcpMsgType
        0 with
      | none =>
        rw [htype] at h
        cases h
      | some type =>
        rw [htype] at h
        cases h
        exact ⟨s, type, rfl, htype, rfl⟩
    · rintro ⟨s', type, ⟨⟩, htype, rfl⟩
      rw [htype]
      rfl

/-- A message that comes through has its options from those that `dhcp_msg_put` has put. -/
theorem options_of_roundTrips (hmsg : msg.Sendable) {w : ℕ} (h : msg.RoundTrips w) :
    ∃ s, parseVendor msg.dhcpAssemble (parseAreas w msg.dhcpAssemble) = .ok s ∧
      (∀ code < dhcpNOptions, code ≠ dhcpCodeVendorSpecific → code ≠ dhcpCodeDhcpMsgType →
        validateOptions s.options code = msg.options code) ∧
      (s.options dhcpCodeDhcpMsgType).getD [] ≠ [] := by
  obtain ⟨msg', hparse, hsame⟩ := h
  obtain ⟨s, type, hs, htype, rfl⟩ := (dhcpParse_dhcpAssemble_eq_ok_iff hmsg).mp hparse
  refine ⟨s, hs, hsame.options, ?_⟩
  intro hnil
  have hoptions : (msg.withOptions (validateOptions s.options)).options dhcpCodeDhcpMsgType =
      validateOptions s.options dhcpCodeDhcpMsgType := rfl
  have hvalidate : (validateOptions s.options dhcpCodeDhcpMsgType).getD [] = [] := by
    rw [validateOptions]
    cases htypes : s.options dhcpCodeDhcpMsgType with
    | none => rfl
    | some bytes =>
      rw [htypes] at hnil
      rw [Option.filter_some]
      split_ifs
      · exact hnil
      · rfl
  rw [getUint8_zero, hoptions, hvalidate] at htype
  cases htype

/-- A message comes through if its options do. -/
theorem roundTrips_of_options (hmsg : msg.Sendable) {w : ℕ} {s : DhcpStore}
    (hs : parseVendor msg.dhcpAssemble (parseAreas w msg.dhcpAssemble) = .ok s)
    (hoptions : ∀ code < dhcpNOptions, code ≠ dhcpCodeVendorSpecific →
      code ≠ dhcpCodeDhcpMsgType → s.options code = msg.options code)
    (htype : s.options dhcpCodeDhcpMsgType = some [BitVec.ofNat 8 msg.type]) :
    msg.RoundTrips w := by
  have hvalidate : validateOptions s.options dhcpCodeDhcpMsgType =
    some [BitVec.ofNat 8 msg.type] := by
    have hadmits : (getOptionClass dhcpCodeDhcpMsgType).Admits 1 := by decide
    rw [validateOptions, htype]
    exact Option.filter_eq_some_iff.mpr ⟨rfl, decide_eq_true hadmits⟩
  have hget : (msg.withOptions (validateOptions s.options)).getUint8 dhcpCodeDhcpMsgType 0 =
      some (BitVec.ofNat 8 msg.type) := by
    have hoptions : (msg.withOptions (validateOptions s.options)).options dhcpCodeDhcpMsgType =
        some [BitVec.ofNat 8 msg.type] := hvalidate
    rw [getUint8_zero, hoptions]
    rfl
  refine ⟨_, (dhcpParse_dhcpAssemble_eq_ok_iff hmsg).mpr ⟨s, _, hs, hget, rfl⟩, ?_⟩
  refine ⟨rfl, rfl, rfl, rfl, rfl, rfl, rfl, rfl, rfl, ?_, fun code hlt hvendor hne => ?_⟩
  · rw [BitVec.toNat_ofNat, Nat.mod_eq_of_lt hmsg.type_lt]
  · change validateOptions s.options code = msg.options code
    rw [validateOptions, hoptions code hlt hvendor hne]
    cases hopt : msg.options code with
    | none => rfl
    | some bytes =>
      have hadmits := hmsg.admits code hlt bytes hopt
      exact Option.filter_eq_some_iff.mpr ⟨rfl, decide_eq_true hadmits⟩

/-! ### Pointers of four bytes -/

/-- With pointers of four bytes, the cookie ends where the options begin. -/
theorem parseAreas_four (hmsg : msg.Sendable) :
    parseAreas 4 msg.dhcpAssemble = msg.standardStore := by
  have hitems : optionsIn msg.assembleOptions 0 = msg.standardItems := by
    rw [assembleOptions_eq hmsg.type_pos]
    refine optionsIn_putChunks (fun item hitem => ?_) (fun item hitem => ?_) (Or.inr rfl)
    · obtain ⟨hpad, hstop, -⟩ := of_mem_standardItems hmsg hitem
      exact ⟨hpad, by rw [Nat.zero_add]; exact hstop⟩
    · exact (of_mem_standardItems hmsg hitem).2.2
  rw [parseAreas_dhcpAssemble hmsg.chaddr (Nat.le_refl 4), if_neg (by omega), Nat.sub_self,
    List.drop_zero, DhcpStore.parseOptions, hitems]
  rfl

/-- The vendor-specific options are read back, but for those with the codes of a pad and an end. -/
theorem optionsIn_vendorData (hpad : msg.options dhcpVendorOfs = none)
    (hstop : msg.options (dhcpVendorOfs + dhcpCodeEnd) = none) :
    optionsIn msg.vendorData dhcpVendorOfs = msg.vendorItems := by
  rw [vendorData_eq, ← List.append_nil (putChunks dhcpVendorOfs msg.vendorItems)]
  refine optionsIn_putChunks (fun item hitem => ?_) (fun item hitem => ?_) (Or.inl rfl)
  · obtain ⟨hle, hlt, hne, -⟩ := of_mem_vendorItems hitem
    have hfirst : item.1 ≠ dhcpVendorOfs := by
      intro heq
      rw [heq] at hne
      exact hne hpad
    have hlast : item.1 ≠ dhcpVendorOfs + dhcpCodeEnd := by
      intro heq
      rw [heq] at hne
      exact hne hstop
    change item.1 < 512 at hlt
    change 256 ≤ item.1 at hle
    change item.1 ≠ 256 at hfirst
    change item.1 ≠ 511 at hlast
    change 256 < item.1 ∧ item.1 < 511
    omega
  · exact (of_mem_vendorItems hitem).2.2.2

theorem vendorClass_standardStore (hmsg : msg.Sendable) :
    ((msg.standardStore.options dhcpCodeVendorClass).map fun bytes => bytes.takeWhile (· ≠ 0)) =
      msg.getString dhcpCodeVendorClass := by
  rw [options_standardStore_of_lt hmsg (by decide) (by decide) (by decide), getString]

/-- Without the vendor class there are no vendor-specific options. -/
theorem vendorItems_eq_nil (hmsg : msg.Sendable)
    (hclass : msg.getString dhcpCodeVendorClass ≠ some openFlowClass) : msg.vendorItems = [] := by
  refine List.eq_nil_iff_forall_not_mem.mpr fun item hitem => ?_
  obtain ⟨hle, hlt, hne, -⟩ := of_mem_vendorItems hitem
  exact hclass (hmsg.vendorClass item.1 hle hlt hne)

/-- Without the vendor class nothing has to fit. -/
theorem vendorFits_of_class_ne (hmsg : msg.Sendable)
    (hclass : msg.getString dhcpCodeVendorClass ≠ some openFlowClass) : msg.VendorFits where
  stays := by
    rw [vendorItems_eq_nil hmsg hclass]
    trivial

/-- Some bytes are allocated for the options of a message. -/
theorem allocated_standardStore_ne_zero : msg.standardStore.allocated ≠ 0 := by
  have hfirst := (@DhcpStore.options_put .empty dhcpCodeDhcpMsgType [BitVec.ofNat 8 msg.type]
    (by decide) (Or.inr (List.cons_ne_nil _ _))).2
  have hrest := @DhcpStore.allocated_le_putAll
    (DhcpStore.empty.put dhcpCodeDhcpMsgType [BitVec.ofNat 8 msg.type]) msg.standardItems.tail
  change _ ≤ msg.standardStore.allocated at hrest
  omega

/-- A message comes through with pointers of four bytes. -/
theorem roundTrips_four (hmsg : msg.Sendable) (hpad : msg.options dhcpVendorOfs = none)
    (hstop : msg.options (dhcpVendorOfs + dhcpCodeEnd) = none) (hfits : msg.VendorFits) :
    msg.RoundTrips 4 := by
  by_cases hclass : msg.getString dhcpCodeVendorClass = some openFlowClass
  -- the class is ours, so that the vendor data are taken apart
  · have hs : parseVendor msg.dhcpAssemble (parseAreas 4 msg.dhcpAssemble) =
        .ok (msg.standardStore.putAll msg.vendorItems) := by
      rw [parseAreas_four hmsg, parseVendor_eq_ok_iff, vendorClass_standardStore hmsg,
        options_standardStore_vendorSpecific hmsg, optionsIn_vendorData hpad hstop]
      exact Or.inl ⟨hclass, hfits.stays, rfl⟩
    have hstandard : ∀ code, code < dhcpVendorOfs →
        (msg.standardStore.putAll msg.vendorItems).options code =
          msg.standardStore.options code := by
      intro code hlt
      refine DhcpStore.options_putAll_of_ne fun item hitem => ?_
      exact (hlt.trans_le (of_mem_vendorItems hitem).1).ne'
    refine roundTrips_of_options hmsg hs (fun code hlt hvendor htype => ?_) ?_
    · rcases Nat.lt_or_ge code dhcpVendorOfs with hstd | hle
      · rw [hstandard code hstd, options_standardStore_of_lt hmsg hstd hvendor htype]
      -- an option of the vendor: its chunks are put together again
      · have hmem : code ∈ List.range' dhcpVendorOfs (dhcpNOptions - dhcpVendorOfs) :=
          List.mem_range'_1.mpr ⟨hle, hlt⟩
        rw [DhcpStore.options_putAll ?_ (Or.inl allocated_standardStore_ne_zero),
          options_standardStore_of_le hmsg hle, vendorItems,
          Padded.payloadsOf_items List.nodup_range' hmem, collect_optionChunks]
        intro item hitem
        have hge : 256 ≤ item.1 := (of_mem_vendorItems hitem).1
        exact ⟨(Nat.zero_lt_of_lt hge).ne', ((by decide : 255 < 256).trans_le hge).ne'⟩
    · rw [hstandard _ (by decide), options_standardStore_msgType hmsg]
  · have hs : parseVendor msg.dhcpAssemble (parseAreas 4 msg.dhcpAssemble) =
        .ok msg.standardStore := by
      rw [parseAreas_four hmsg, parseVendor_eq_ok_iff, vendorClass_standardStore hmsg]
      exact Or.inr ⟨hclass, rfl⟩
    refine roundTrips_of_options hmsg hs (fun code hlt hvendor htype => ?_)
      (options_standardStore_msgType hmsg)
    rcases Nat.lt_or_ge code dhcpVendorOfs with hstd | hle
    · exact options_standardStore_of_lt hmsg hstd hvendor htype
    · rw [options_standardStore_of_le hmsg hle]
      -- another class means that there are no options of the vendor
      by_contra hne
      exact hclass (hmsg.vendorClass code hle hlt (Ne.symm hne))

/-- In the options of a packet there are no vendor-specific ones. -/
theorem options_parseAreas_of_le (hmsg : msg.Sendable) {w : ℕ} (hw : 4 ≤ w) {code : ℕ}
    (hle : dhcpVendorOfs ≤ code) : (parseAreas w msg.dhcpAssemble).options code = none := by
  rw [parseAreas_dhcpAssemble hmsg.chaddr hw]
  split_ifs
  · rfl
  · refine DhcpStore.options_putAll_of_ne fun item hitem => ?_
    obtain ⟨-, hlt, -⟩ := of_mem_optionsIn hitem
    change 256 ≤ code at hle
    omega

/-- Reading the vendor-specific options changes only those between a pad and an end. -/
theorem options_parseVendor_of_ne {packet : List Byte} {s s' : DhcpStore}
    (h : parseVendor packet s = .ok s') {code : ℕ}
    (hcode : code ≤ dhcpVendorOfs ∨ dhcpVendorOfs + dhcpCodeEnd ≤ code) :
    s'.options code = s.options code := by
  rcases parseVendor_eq_ok_iff.mp h with ⟨-, -, rfl⟩ | ⟨-, rfl⟩
  · refine DhcpStore.options_putAll_of_ne fun item hitem => ?_
    obtain ⟨hgt, hlt, -⟩ := of_mem_optionsIn hitem
    change _ ∨ dhcpVendorOfs + 255 ≤ code at hcode
    omega
  · rfl

/-- No option comes through with the code of a vendor-specific pad or end. -/
theorem options_eq_none_of_roundTrips (hmsg : msg.Sendable) {w : ℕ} (hw : 4 ≤ w)
    (h : msg.RoundTrips w) {code : ℕ}
    (hcode : code = dhcpVendorOfs ∨ code = dhcpVendorOfs + dhcpCodeEnd) :
    msg.options code = none := by
  obtain ⟨s, hs, hoptions, -⟩ := options_of_roundTrips hmsg h
  have hnat : code = 256 ∨ code = 511 := hcode
  have hnone : s.options code = none := by
    rw [options_parseVendor_of_ne hs (hcode.imp le_of_eq ge_of_eq)]
    refine options_parseAreas_of_le hmsg hw ?_
    change 256 ≤ code
    omega
  have hlt : code < 512 := by omega
  have hvendor : code ≠ 43 := by omega
  have htype : code ≠ 53 := by omega
  rw [← hoptions code hlt hvendor htype, validateOptions, hnone]
  rfl

/-- A message that comes through with pointers of four bytes has its vendor-specific options read
from what has been allocated for the standard ones. -/
theorem vendorFits_of_roundTrips (hmsg : msg.Sendable) (h : msg.RoundTrips 4) : msg.VendorFits := by
  have hpad := options_eq_none_of_roundTrips hmsg (Nat.le_refl 4) h (Or.inl rfl)
  have hstop := options_eq_none_of_roundTrips hmsg (Nat.le_refl 4) h (Or.inr rfl)
  obtain ⟨s, hs, -⟩ := options_of_roundTrips hmsg h
  rw [parseAreas_four hmsg, parseVendor_eq_ok_iff, vendorClass_standardStore hmsg,
    options_standardStore_vendorSpecific hmsg, optionsIn_vendorData hpad hstop] at hs
  rcases hs with ⟨-, hfits, -⟩ | ⟨hclass, -⟩
  · exact ⟨hfits⟩
  · exact vendorFits_of_class_ne hmsg hclass

/-! ### Pointers of eight bytes -/

/-- The fewest bytes for the vendor-specific options. -/
def vendorLeast (msg : DhcpMsg) : ℕ :=
  ∑ code ∈ Finset.Ico dhcpVendorOfs dhcpNOptions, Padded.least 255 (msg.options code)

/-- The fewest bytes for the type and the options. -/
def leastLen (msg : DhcpMsg) : ℕ :=
  3 + ∑ code ∈ Finset.range dhcpVendorOfs, Padded.least 255 (msg.options code) +
    if msg.vendorLeast = 0 then 0 else Padded.span 255 msg.vendorLeast

/-- The options are not sent in so many more bytes than they take that they could be found again
behind the first four of these. -/
def Compact (msg : DhcpMsg) : Prop := msg.assembleOptions.length < msg.leastLen + 4

/-- Options without long data are sent in the fewest bytes. -/
theorem compact_of_length_le (htype : 0 < msg.type)
    (hoptions : ∀ code, ∀ bytes ∈ msg.options code, bytes.length ≤ 255)
    (hvendor : msg.vendorData.length ≤ 255) : msg.Compact := by
  have hput : ∀ (code : Byte) i,
      (putOption code (msg.options i)).length = Padded.least 255 (msg.options i) :=
    fun code i => length_putOption code (hoptions i)
  have hstandard : ((List.range dhcpVendorOfs).flatMap fun i =>
      putOption (BitVec.ofNat 8 i) (msg.options i)).length =
        ∑ code ∈ Finset.range dhcpVendorOfs, Padded.least 255 (msg.options code) := by
    rw [List.length_flatMap, List.map_congr_left fun i _ => hput _ i]
    rfl
  have hdata : msg.vendorData.length = msg.vendorLeast := by
    rw [vendorData, List.length_flatMap, List.map_congr_left fun i _ => hput _ i]
    rfl
  have hfirst : (putOption (BitVec.ofNat 8 dhcpCodeDhcpMsgType)
      (some [BitVec.ofNat 8 msg.type])).length = 3 := rfl
  -- the vendor data are one option, unless there are none
  have hlast : (if msg.vendorData = [] then []
      else putOption (BitVec.ofNat 8 dhcpCodeVendorSpecific) (some msg.vendorData)).length =
        if msg.vendorLeast = 0 then 0 else Padded.span 255 msg.vendorLeast := by
    rw [← hdata]
    split_ifs with hnil hzero hzero
    · rfl
    · exact absurd (congrArg List.length hnil) hzero
    · exact absurd (List.eq_nil_of_length_eq_zero hzero) hnil
    · refine length_putOption _ fun bytes hbytes => ?_
      rw [← Option.some_inj.mp hbytes]
      exact hvendor
  rw [Compact, leastLen, assembleOptions, if_neg htype.ne', List.length_append, List.length_append,
    List.length_append, hfirst, hstandard, hlast, List.length_singleton]
  omega

/-- With pointers of eight bytes, the options that are read take four bytes less than those that are
sent. -/
theorem sum_least_parseAreas_eight (hmsg : msg.Sendable) :
    ∑ code ∈ Finset.range dhcpVendorOfs,
        Padded.least 255 ((parseAreas 8 msg.dhcpAssemble).options code) ≤
      msg.assembleOptions.length - 4 := by
  have hempty : ∑ code ∈ Finset.range dhcpVendorOfs,
      Padded.least 255 (DhcpStore.empty.options code) = 0 := Finset.sum_eq_zero fun _ _ => rfl
  rw [parseAreas_dhcpAssemble hmsg.chaddr (by decide)]
  split_ifs
  · rw [hempty]
    exact Nat.zero_le _
  · have hput := @DhcpStore.sum_least_putAll_le .empty 255 (by decide)
      (Finset.range dhcpVendorOfs) (optionsIn (msg.assembleOptions.drop (8 - 4)) 0)
      fun item hitem => (of_mem_optionsIn hitem).2.2
    have hweight := weight_optionsIn_le (msg.assembleOptions.drop (8 - 4)) 0
    rw [hempty, Nat.zero_add] at hput
    rw [List.length_drop] at hweight
    exact hput.trans hweight

/-- The vendor-specific options that are read take no more bytes than the option that holds them. -/
theorem sum_least_parseVendor {packet : List Byte} {s s' : DhcpStore}
    (hnone : ∀ code, dhcpVendorOfs ≤ code → s.options code = none)
    (h : parseVendor packet s = .ok s') :
    ∑ code ∈ Finset.Ico dhcpVendorOfs dhcpNOptions, Padded.least 255 (s'.options code) ≤
      ((s.options dhcpCodeVendorSpecific).getD []).length := by
  have hempty : ∑ code ∈ Finset.Ico dhcpVendorOfs dhcpNOptions,
      Padded.least 255 (s.options code) = 0 := by
    refine Finset.sum_eq_zero fun code hcode => ?_
    rw [hnone code (Finset.mem_Ico.mp hcode).1]
    rfl
  rcases parseVendor_eq_ok_iff.mp h with ⟨-, -, rfl⟩ | ⟨-, rfl⟩
  · have hput := @DhcpStore.sum_least_putAll_le s 255 (by decide)
      (Finset.Ico dhcpVendorOfs dhcpNOptions)
      (optionsIn ((s.options dhcpCodeVendorSpecific).getD []) dhcpVendorOfs)
      fun item hitem => (of_mem_optionsIn hitem).2.2
    rw [hempty, Nat.zero_add] at hput
    exact hput.trans (weight_optionsIn_le _ _)
  · rw [hempty]
    exact Nat.zero_le _

/-- A message does not come through with pointers of eight bytes. -/
theorem not_roundTrips_eight (hmsg : msg.Sendable) (hcompact : msg.Compact) :
    ¬ msg.RoundTrips 8 := by
  intro h
  obtain ⟨s, hs, hoptions, htype⟩ := options_of_roundTrips hmsg h
  have hstandard : ∀ code, code < dhcpVendorOfs →
      s.options code = (parseAreas 8 msg.dhcpAssemble).options code :=
    fun code hlt => options_parseVendor_of_ne hs (Or.inl hlt.le)
  have hleast : ∀ code, code < dhcpNOptions → code ≠ dhcpCodeVendorSpecific →
      code ≠ dhcpCodeDhcpMsgType →
      Padded.least 255 (msg.options code) ≤ Padded.least 255 (s.options code) := by
    intro code hlt hvendor hne
    rw [← hoptions code hlt hvendor hne, validateOptions]
    cases s.options code with
    | none => exact Nat.le_refl _
    | some bytes =>
      rw [Option.filter_some]
      split_ifs
      · exact Nat.le_refl _
      · exact Nat.zero_le _
  have hread := sum_least_parseAreas_eight hmsg
  have hvendor : msg.vendorLeast ≤
      (((parseAreas 8 msg.dhcpAssemble).options dhcpCodeVendorSpecific).getD []).length := by
    refine le_trans (Finset.sum_le_sum fun code hcode => ?_) (sum_least_parseVendor
      (fun code hle => options_parseAreas_of_le hmsg (by decide) hle) hs)
    obtain ⟨hle, hlt⟩ := Finset.mem_Ico.mp hcode
    change 256 ≤ code at hle
    exact hleast code hlt (by change code ≠ 43; omega) (by change code ≠ 53; omega)
  -- The type and the vendor-specific options have to be read from the same bytes.
  have htypeLeast : 3 ≤
      Padded.least 255 ((parseAreas 8 msg.dhcpAssemble).options dhcpCodeDhcpMsgType) := by
    rw [hstandard _ (by decide)] at htype
    cases hopt : (parseAreas 8 msg.dhcpAssemble).options dhcpCodeDhcpMsgType with
    | none =>
      rw [hopt] at htype
      exact absurd rfl htype
    | some bytes =>
      rw [hopt] at htype
      have hpos : 0 < bytes.length := List.length_pos_of_ne_nil htype
      have hmax := le_max_left 1 ((bytes.length + (255 - 1)) / 255)
      rw [Padded.least, Padded.span]
      omega
  have hvendorLeast : (if msg.vendorLeast = 0 then 0 else Padded.span 255 msg.vendorLeast) ≤
      Padded.least 255 ((parseAreas 8 msg.dhcpAssemble).options dhcpCodeVendorSpecific) := by
    split_ifs with hzero
    · exact Nat.zero_le _
    · cases hopt : (parseAreas 8 msg.dhcpAssemble).options dhcpCodeVendorSpecific with
      | none =>
        rw [hopt] at hvendor
        exact absurd (Nat.le_zero.mp hvendor) hzero
      | some bytes =>
        rw [hopt] at hvendor
        exact Padded.span_mono hvendor
  have hcode : ∀ code ∈ Finset.range dhcpVendorOfs,
      Padded.least 255 (msg.options code) + ((if code = dhcpCodeDhcpMsgType then 3 else 0) +
        if code = dhcpCodeVendorSpecific then
          if msg.vendorLeast = 0 then 0 else Padded.span 255 msg.vendorLeast
        else 0) ≤ Padded.least 255 ((parseAreas 8 msg.dhcpAssemble).options code) := by
    intro code hmem
    have hlt := Finset.mem_range.mp hmem
    rcases eq_or_ne code dhcpCodeDhcpMsgType with rfl | hne
    · rw [if_pos rfl, if_neg (by decide), hmsg.msgType]
      exact htypeLeast
    · rcases eq_or_ne code dhcpCodeVendorSpecific with rfl | hne'
      · rw [if_neg hne, if_pos rfl, hmsg.vendorSpecific, Padded.least, Nat.zero_add, Nat.zero_add]
        exact hvendorLeast
      · rw [if_neg hne, if_neg hne', ← hstandard code hlt]
        exact hleast code (hlt.trans (by decide)) hne' hne
  have hsum := (Finset.sum_le_sum hcode).trans (sum_least_parseAreas_eight hmsg)
  rw [Finset.sum_add_distrib, Finset.sum_add_distrib, Finset.sum_ite_eq', Finset.sum_ite_eq',
    if_pos (Finset.mem_range.mpr (by decide)), if_pos (Finset.mem_range.mpr (by decide))] at hsum
  rw [Compact, leastLen] at hcompact
  omega

/-! ### Both -/

/-- A message comes through exactly where the cookie has the size of a pointer, no vendor-specific
option has the code of a pad or an end, and no vendor-specific option makes `dhcp_msg_put` replace
the bytes that it is read from. -/
theorem roundTrips_iff (hmsg : msg.Sendable) {w : ℕ} (hw : w = 4 ∨ w = 8)
    (hcompact : w = 8 → msg.Compact) :
    msg.RoundTrips w ↔
      w = 4 ∧ msg.options dhcpVendorOfs = none ∧
        msg.options (dhcpVendorOfs + dhcpCodeEnd) = none ∧ msg.VendorFits := by
  rcases hw with rfl | rfl
  · constructor
    · intro h
      exact ⟨rfl, options_eq_none_of_roundTrips hmsg (Nat.le_refl 4) h (Or.inl rfl),
        options_eq_none_of_roundTrips hmsg (Nat.le_refl 4) h (Or.inr rfl),
        vendorFits_of_roundTrips hmsg h⟩
    · rintro ⟨-, hpad, hstop, hfits⟩
      exact roundTrips_four hmsg hpad hstop hfits
  · constructor
    · intro h
      exact absurd h (not_roundTrips_eight hmsg (hcompact rfl))
    · rintro ⟨h, -⟩
      cases h

end DhcpMsg

/-- A `DHCPDISCOVER` without options. -/
def dhcpDiscoverMsg : DhcpMsg where
  op := dhcpBootRequest
  xid := 0x12345678
  secs := 0
  flags := 0
  ciaddr := 0
  yiaddr := 0
  siaddr := 0
  giaddr := 0
  chaddr := [0, 0x23, 0x20, 1, 2, 3]
  type := 1
  options _ := none

/-- It is meant to come through. -/
theorem sendable_dhcpDiscoverMsg : dhcpDiscoverMsg.Sendable where
  op := Or.inl rfl
  chaddr := rfl
  type_pos := Nat.one_pos
  type_lt := by decide
  pad := rfl
  stop := rfl
  vendorSpecific := rfl
  msgType := rfl
  admits code _ bytes h := by cases h
  vendorClass code _ _ h := absurd rfl h

/-- It has no long data. -/
theorem compact_dhcpDiscoverMsg : dhcpDiscoverMsg.Compact := by
  have hclass : dhcpDiscoverMsg.getString dhcpCodeVendorClass ≠ some openFlowClass := by
    rintro ⟨⟩
  refine DhcpMsg.compact_of_length_le Nat.one_pos (fun code bytes h => by cases h) ?_
  rw [DhcpMsg.vendorData_eq, DhcpMsg.vendorItems_eq_nil sendable_dhcpDiscoverMsg hclass]
  exact Nat.zero_le _

/-- It comes through with pointers of four bytes, and not with pointers of eight. -/
theorem roundTrips_dhcpDiscoverMsg :
    dhcpDiscoverMsg.RoundTrips 4 ∧ ¬ dhcpDiscoverMsg.RoundTrips 8 := by
  have hclass : dhcpDiscoverMsg.getString dhcpCodeVendorClass ≠ some openFlowClass := by
    rintro ⟨⟩
  have hfits := DhcpMsg.vendorFits_of_class_ne sendable_dhcpDiscoverMsg hclass
  have hnone : ∀ code, dhcpDiscoverMsg.options code = none := fun _ => rfl
  have hfour := DhcpMsg.roundTrips_iff sendable_dhcpDiscoverMsg (Or.inl rfl) fun h : 4 = 8 =>
    absurd h (by decide)
  constructor
  · rw [hfour, hnone, hnone]
    exact ⟨rfl, rfl, rfl, hfits⟩
  · rw [DhcpMsg.roundTrips_iff sendable_dhcpDiscoverMsg (Or.inr rfl) fun _ =>
      compact_dhcpDiscoverMsg]
    rintro ⟨h, -⟩
    cases h

/-- With pointers of eight bytes a `DHCPDISCOVER` without options is not parsed. -/
theorem not_roundTrips_dhcpDiscoverMsg :
    dhcpDiscoverMsg.Sendable ∧ ¬ dhcpDiscoverMsg.RoundTrips 8 :=
  ⟨sendable_dhcpDiscoverMsg,
    DhcpMsg.not_roundTrips_eight sendable_dhcpDiscoverMsg compact_dhcpDiscoverMsg⟩

end OfAgent
