import OfAgent.Lib.Numeral
import OfAgent.Lib.Tokens
import OfAgent.Packet.Extract

/-!
# Reading a match

`str_to_flow` of `dpctl.c` with the functions that it calls, for the commands that give no actions:
it reads a match, and what else the caller asks for, from an argument of the command line.

* `Platform`: what the C library of the host decides. `inetAton`, `lookupIp`: addresses.
* `strToU32`, `strToMac`, `strToIp`: the values of fields.
* `MatchField`: the members of a match. `fields`, `protocols`: the tables of names.
* `parseFlow`: the loop over the text; `strToFlow`.

An error of `ofp_fatal`, after which `dpctl` is gone, is the message.
-/

namespace OfAgent.Dpctl

/-! ### Library functions -/

/-- What is different from host to host: the size of `unsigned long`, and the names that
`gethostbyname` finds. -/
structure Platform where
  /-- The bits of an `unsigned long`. -/
  longBits : ℕ
  /-- There are at least as many as the C standard demands. -/
  le_longBits : 32 ≤ longBits
  /-- `gethostbyname`: the first address of a host. -/
  gethostbyname : List Char → Option (BitVec 32)

/-- The message of `ofp_fatal`. -/
abbrev Fatal := List Char

/-- `atoi`. -/
def atoi (text : List Char) : ℤ :=
  match Decimal.scan text with
  | some (z, _) => z
  | none => 0

/-- The parts of an address in the notation of `inet_aton`, at most so many after the first, and
what follows them. A part that is not the last has eight bits. -/
def inetParts : ℕ → List Char → Option (List ℕ × List Char)
  | k, text =>
    if text.head?.any Char.isDigit then
      match Numeral.scan 0 text with
      | none => none
      | some (z, rest) =>
        if rest.head? = some '.' then
          match k with
          | 0 => none
          | k + 1 =>
            if 255 < z.natAbs then none
            else (inetParts k rest.tail).map fun (parts, rest) => (z.natAbs :: parts, rest)
        else some ([z.natAbs], rest)
    else none

/-- `inet_aton`: up to four parts, of which the last one fills what the others leave. Behind them
only a space may stand. -/
def inetAton (text : List Char) : Option (BitVec 32) :=
  match inetParts 3 text with
  | none => none
  | some (parts, rest) =>
    if rest.head?.all Decimal.isSpace then
      match parts with
      | [a] => if a < 2 ^ 32 then some (.ofNat 32 a) else none
      | [a, b] => if b < 2 ^ 24 then some (BitVec.ofNat 8 a ++ BitVec.ofNat 24 b) else none
      | [a, b, c] =>
        if c < 2 ^ 16 then some (BitVec.ofNat 8 a ++ BitVec.ofNat 8 b ++ BitVec.ofNat 16 c)
        else none
      | [a, b, c, d] =>
        if d < 2 ^ 8 then
          some (BitVec.ofNat 8 a ++ BitVec.ofNat 8 b ++ BitVec.ofNat 8 c ++ BitVec.ofNat 8 d)
        else none
      | _ => none
    else none

/-- `lookup_ip`. -/
def Platform.lookupIp (p : Platform) (hostName : List Char) : Option (BitVec 32) :=
  match inetAton hostName with
  | some addr => some addr
  | none => p.gethostbyname hostName

/-! ### Values -/

/-- `str_to_u32`. Where `strtoul` converts nothing, it leaves the text as the tail. -/
def strToU32 (p : Platform) (str : List Char) : Except Fatal (BitVec 32) :=
  let (value, tail) := (Numeral.scan 0 str).getD (0, str)
  if 2 ^ p.longBits ≤ value.natAbs ∨ tail ≠ [] then
    .error ("invalid numeric format ".toList ++ str)
  else .ok (.ofInt 32 value)

/-- `str_to_mac`: `sscanf` has to find six numbers. -/
def strToMac (str : List Char) : Except Fatal (BitVec 48) :=
  let mac := Numeral.scanFields 16 ':' 6 str
  if mac.length ≠ 6 then .error ("invalid mac address ".toList ++ str)
  else .ok ((Memory.ofBytes (mac.map (.ofInt 8))).get48 0)

/-- The wild bits of an address that a netmask or a prefix length leaves. The text in front of a
message is what `strtok_r` has left of the argument. -/
def wildOfNetmask (str netmask : List Char) : Except Fatal ℕ :=
  match Numeral.scanFields 10 '.' 4 netmask with
  | [a, b, c, d] =>
    let nm := BitVec.ofInt 8 a ++ BitVec.ofInt 8 b ++ BitVec.ofInt 8 c ++ BitVec.ofInt 8 d
    -- find first 1-bit
    let nWild := ((List.range 32).find? fun i => nm.getLsbD i).getD 32
    -- verify that the rest of the bits are 1-bits
    if (List.range 32).all fun i => i < nWild || nm.getLsbD i then .ok nWild
    else .error (str ++ ": ".toList ++ netmask ++ " is not a valid netmask".toList)
  | _ =>
    let pfx := atoi netmask
    if pfx ≤ 0 ∨ 32 < pfx then
      .error (str ++ ": network prefix bits not between 1 and 32".toList)
    else .ok (32 - pfx).toNat

/-- `str_to_ip`: the address, and the number of its wild bits. -/
def strToIp (p : Platform) (str : List Char) : Except Fatal (BitVec 32 × ℕ) :=
  let couldNot := ": could not convert to IP address".toList
  match Tokens.next (· == '/') str with
  | none => .error (str ++ couldNot)
  | some (name, rest) =>
    let str := str.takeWhile (· == '/') ++ name
    match p.lookupIp name with
    | none => .error (str ++ couldNot)
    | some ip =>
      match Tokens.next (· == '/') rest with
      | none => .ok (ip, 0)
      | some (netmask, _) => (wildOfNetmask str netmask).map fun nWild => (ip, nWild)

/-! ### Members of a match -/

/-- The types of fields: `F_U8`, `F_U16`, `F_MAC` and `F_IP`. -/
inductive FieldType
  | u8
  | u16
  | mac
  | ip
  deriving DecidableEq

/-- The bits of a value. -/
def FieldType.width : FieldType → ℕ
  | u8 => 8
  | u16 => 16
  | mac => 48
  | ip => 32

/-- The members of a match that a field can name. -/
inductive MatchField
  | inPort
  | dlVlan
  | dlVlanPcp
  | dlSrc
  | dlDst
  | dlType
  | nwTos
  | nwProto
  | nwSrc
  | nwDst
  | tpSrc
  | tpDst
  deriving DecidableEq

/-- The type that the table of fields gives a member. -/
def MatchField.type : MatchField → FieldType
  | inPort | dlVlan | dlType | tpSrc | tpDst => .u16
  | dlVlanPcp | nwTos | nwProto => .u8
  | dlSrc | dlDst => .mac
  | nwSrc | nwDst => .ip

/-- The value of a member. -/
def MatchField.get (om : OfpMatch) : (f : MatchField) → BitVec f.type.width
  | inPort => om.inPort
  | dlVlan => om.dlVlan
  | dlVlanPcp => om.dlVlanPcp
  | dlSrc => om.dlSrc
  | dlDst => om.dlDst
  | dlType => om.dlType
  | nwTos => om.nwTos
  | nwProto => om.nwProto
  | nwSrc => om.nwSrc
  | nwDst => om.nwDst
  | tpSrc => om.tpSrc
  | tpDst => om.tpDst

/-- The match with another value of a member. -/
def MatchField.set (om : OfpMatch) : (f : MatchField) → BitVec f.type.width → OfpMatch
  | inPort, v => { om with inPort := v }
  | dlVlan, v => { om with dlVlan := v }
  | dlVlanPcp, v => { om with dlVlanPcp := v }
  | dlSrc, v => { om with dlSrc := v }
  | dlDst, v => { om with dlDst := v }
  | dlType, v => { om with dlType := v }
  | nwTos, v => { om with nwTos := v }
  | nwProto, v => { om with nwProto := v }
  | nwSrc, v => { om with nwSrc := v }
  | nwDst, v => { om with nwDst := v }
  | tpSrc, v => { om with tpSrc := v }
  | tpDst, v => { om with tpDst := v }

/-! ### Names -/

/-- `struct protocol`. -/
structure Protocol where
  /-- The name. -/
  name : List Char
  /-- The Ethernet type. -/
  dlType : BitVec 16
  /-- The IP protocol, or zero. -/
  nwProto : BitVec 8

/-- The table of `parse_protocol`. -/
def protocols : List Protocol := [
  ⟨"ip".toList, ethTypeIp, 0⟩,
  ⟨"arp".toList, ethTypeArp, 0⟩,
  ⟨"icmp".toList, ethTypeIp, ipTypeIcmp⟩,
  ⟨"tcp".toList, ethTypeIp, ipTypeTcp⟩,
  ⟨"udp".toList, ethTypeIp, ipTypeUdp⟩]

/-- `parse_protocol`. -/
def parseProtocol (name : List Char) : Option Protocol := protocols.find? (·.name = name)

/-- `struct field`. -/
structure Field where
  /-- The name. -/
  name : List Char
  /-- The bits of the wildcards. -/
  wildcard : BitVec 32
  /-- The member at the offset, with its type. -/
  member : MatchField
  /-- Where the number of wild bits stands in the wildcards. -/
  shift : ℕ

/-- The table of `parse_field`. -/
def fields : List Field := [
  ⟨"in_port".toList, ofpfwInPort, .inPort, 0⟩,
  ⟨"dl_vlan".toList, ofpfwDlVlan, .dlVlan, 0⟩,
  ⟨"dl_vlan_pcp".toList, ofpfwDlVlanPcp, .dlVlanPcp, 0⟩,
  ⟨"dl_src".toList, ofpfwDlSrc, .dlSrc, 0⟩,
  ⟨"dl_dst".toList, ofpfwDlDst, .dlDst, 0⟩,
  ⟨"dl_type".toList, ofpfwDlType, .dlType, 0⟩,
  ⟨"nw_tos".toList, ofpfwNwTos, .nwTos, 0⟩,
  ⟨"nw_proto".toList, ofpfwNwProto, .nwProto, 0⟩,
  ⟨"nw_src".toList, ofpfwNwSrcMask, .nwSrc, ofpfwNwSrcShift⟩,
  ⟨"nw_dst".toList, ofpfwNwDstMask, .nwDst, ofpfwNwDstShift⟩,
  ⟨"tp_src".toList, ofpfwTpSrc, .tpSrc, 0⟩,
  ⟨"tp_dst".toList, ofpfwTpDst, .tpDst, 0⟩,
  ⟨"icmp_type".toList, ofpfwTpSrc, .tpSrc, 0⟩,
  ⟨"icmp_code".toList, ofpfwTpDst, .tpDst, 0⟩]

/-- `parse_field`. -/
def parseField (name : List Char) : Option Field := fields.find? (·.name = name)

/-! ### The loop -/

/-- What the caller wants besides the match: a pointer that is not null leads to a value. -/
structure FlowOptions where
  /-- `table_idx`. -/
  tableIdx : Option (BitVec 8)
  /-- `out_port`. -/
  outPort : Option (BitVec 16)
  /-- `priority`. -/
  priority : Option (BitVec 16)
  /-- `idle_timeout`. -/
  idleTimeout : Option (BitVec 16)
  /-- `hard_timeout`. -/
  hardTimeout : Option (BitVec 16)
  /-- `cookie`. -/
  cookie : Option (BitVec 64)

/-- The values before anything is read. -/
def FlowOptions.defaults (o : FlowOptions) : FlowOptions where
  tableIdx := o.tableIdx.map fun _ => 0xff
  outPort := o.outPort.map fun _ => ofppNone
  priority := o.priority.map fun _ => 0x8000
  idleTimeout := o.idleTimeout.map fun _ => 60
  hardTimeout := o.hardTimeout.map fun _ => ofpFlowPermanent
  cookie := o.cookie.map fun _ => 0

/-- The options with the value of the one that a name stands for, if the caller wants it. -/
def FlowOptions.assign (o : FlowOptions) (name value : List Char) : Option FlowOptions :=
  let n := atoi value
  if o.tableIdx.isSome ∧ name = "table".toList then
    some { o with tableIdx := some (.ofInt 8 n) }
  else if o.outPort.isSome ∧ name = "out_port".toList then
    some { o with outPort := some (.ofInt 16 n) }
  else if o.priority.isSome ∧ name = "priority".toList then
    some { o with priority := some (.ofInt 16 n) }
  else if o.idleTimeout.isSome ∧ name = "idle_timeout".toList then
    some { o with idleTimeout := some (.ofInt 16 n) }
  else if o.hardTimeout.isSome ∧ name = "hard_timeout".toList then
    some { o with hardTimeout := some (.ofInt 16 n) }
  else if o.cookie.isSome ∧ name = "cookie".toList then
    some { o with cookie := some (.ofInt 64 n) }
  else none

/-- The variables of `str_to_flow`. -/
structure FlowSpec where
  /-- `wildcards`. -/
  wildcards : BitVec 32
  /-- `match`, whose own wildcards are set at the end. -/
  om : OfpMatch
  /-- What else is asked for. -/
  options : FlowOptions

/-- The name of a protocol. -/
def FlowSpec.protocol (st : FlowSpec) (p : Protocol) : FlowSpec :=
  let st := { st with
    wildcards := st.wildcards &&& ~~~ofpfwDlType
    om := { st.om with dlType := p.dlType } }
  if p.nwProto ≠ 0 then
    { st with
      wildcards := st.wildcards &&& ~~~ofpfwNwProto
      om := { st.om with nwProto := p.nwProto } }
  else st

/-- The value of a member as its type has it, and the number of wild bits of an address. -/
def parseValue (p : Platform) (value : List Char) :
    (t : FieldType) → Except Fatal (BitVec t.width × ℕ)
  | .u8 => (strToU32 p value).map fun v => (v.setWidth 8, 0)
  | .u16 => (strToU32 p value).map fun v => (v.setWidth 16, 0)
  | .mac => (strToMac value).map fun v => (v, 0)
  | .ip => strToIp p value

/-- A field that is set. -/
def FlowSpec.store (st : FlowSpec) (f : Field) (v : BitVec f.member.type.width) (nWild : ℕ) :
    FlowSpec :=
  { st with
    wildcards := st.wildcards &&& ~~~f.wildcard ||| BitVec.ofNat 32 nWild <<< f.shift
    om := f.member.set st.om v }

/-- A field that is wild. -/
def FlowSpec.wild (st : FlowSpec) (f : Field) : FlowSpec :=
  { st with wildcards := st.wildcards ||| f.wildcard }

/-- What a name and a value do. -/
def FlowSpec.assign (p : Platform) (st : FlowSpec) (name value : List Char) :
    Except Fatal FlowSpec :=
  match st.options.assign name value with
  | some options => .ok { st with options }
  | none =>
    match parseField name with
    | none => .error ("unknown keyword ".toList ++ name)
    | some f =>
      if value = ['*'] ∨ value = "ANY".toList then .ok (st.wild f)
      else (parseValue p value f.member.type).map fun (v, nWild) => st.store f v nWild

/-- The delimiters of a name: `"=, \t\r\n"`. -/
def nameDelim (c : Char) : Bool := "=, \t\r\n".toList.contains c

/-- The delimiters of a value: `", \t\r\n"`. -/
def valueDelim (c : Char) : Bool := ", \t\r\n".toList.contains c

/-- The loop of `str_to_flow` over the text that is left. -/
def parseFlow (p : Platform) (st : FlowSpec) (string : List Char) : Except Fatal FlowSpec :=
  match _ : Tokens.next nameDelim string with
  | none => .ok st
  | some (name, rest) =>
    match parseProtocol name with
    | some protocol => parseFlow p (st.protocol protocol) rest
    | none =>
      match _ : Tokens.next valueDelim rest with
      | none => .error ("field ".toList ++ name ++ " missing value".toList)
      | some (value, rest') =>
        match st.assign p name value with
        | .error message => .error message
        | .ok st => parseFlow p st rest'
termination_by string.length
decreasing_by
  · exact Tokens.length_next_lt (by assumption)
  · exact (Tokens.length_next_lt (by assumption)).trans (Tokens.length_next_lt (by assumption))

/-- `str_to_flow` without actions: the match, and the values that the caller wants. -/
def strToFlow (p : Platform) (asked : FlowOptions) (string : List Char) :
    Except Fatal (OfpMatch × FlowOptions) :=
  (parseFlow p ⟨ofpfwAll, OfpMatch.zero, asked.defaults⟩ string).map fun st =>
    ({ st.om with wildcards := st.wildcards }, st.options)

end OfAgent.Dpctl
