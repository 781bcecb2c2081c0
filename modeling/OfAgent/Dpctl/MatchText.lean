import OfAgent.Agent.CommandLine
import OfAgent.Lib.Numeral
import OfAgent.Packet.Composed

/-!
# The text of a match

`ofp_match_to_string` of `ofp-print.c`, which prints a match for `ofp_print` and the log, and the
fields of a match as it prints them.

* `shorthand`: the name of a protocol in front, which stands for the Ethernet type and perhaps for
  the IP protocol too.
* `printWild`, `printIpNetmask`: one field. A field that is wild is left out unless the verbosity
  is at least two.
* `ofpMatchToString`: the text.
-/

namespace OfAgent.Dpctl

/-! ### Formats -/

/-- `%d` and `%u` of a number that is not negative. -/
def decimal (n : ℕ) : List Char := Nat.toDigits 10 n

/-- `0x%02x` and `0x%04x`. -/
def hexadecimal (width n : ℕ) : List Char := '0' :: 'x' :: Numeral.ofNat 16 width n

/-- `ETH_ADDR_FMT`. -/
def ethAddr (ea : BitVec 48) : List Char :=
  [':'].intercalate ((bytes48 ea).map fun b => Numeral.ofNat 16 2 b.toNat)

/-! ### Fields -/

/-- `print_wild`, with the text that the format and its arguments make. -/
def printWild (leader : List Char) (isWild : Bool) (verbosity : ℤ) (text : List Char) :
    List Char :=
  if isWild = true ∧ verbosity < 2 then []
  else leader ++ (if isWild then ['*'] else text) ++ [',']

/-- `print_ip_netmask`. -/
def printIpNetmask (leader : List Char) (ip wildBits : BitVec 32) (verbosity : ℤ) : List Char :=
  if 32 ≤ wildBits.toNat ∧ verbosity < 2 then []
  else
    leader ++
      (if wildBits.toNat < 32 then
        dottedQuad ip ++ if wildBits ≠ 0 then '/' :: decimal (32 - wildBits.toNat) else []
      else ['*']) ++
      [',']

/-- The name in front of a match, with `skip_type` and `skip_proto`. -/
def shorthand (om : OfpMatch) : List Char × Bool × Bool :=
  if om.wildcards &&& ofpfwDlType = 0 then
    if om.dlType = ethTypeIp then
      if om.wildcards &&& ofpfwNwProto = 0 then
        if om.nwProto = ipTypeIcmp then ("icmp,".toList, true, true)
        else if om.nwProto = ipTypeTcp then ("tcp,".toList, true, true)
        else if om.nwProto = ipTypeUdp then ("udp,".toList, true, true)
        else ("ip,".toList, true, false)
      else ("ip,".toList, true, false)
    else if om.dlType = ethTypeArp then ("arp,".toList, true, false)
    else ([], false, false)
  else ([], false, false)

/-- `ofp_match_to_string`. -/
def ofpMatchToString (om : OfpMatch) (verbosity : ℤ) : List Char :=
  let w := om.wildcards
  let (text, skipType, skipProto) := shorthand om
  List.flatten [
    text,
    printWild "in_port=".toList (w &&& ofpfwInPort != 0) verbosity (decimal om.inPort.toNat),
    printWild "dl_vlan=".toList (w &&& ofpfwDlVlan != 0) verbosity (hexadecimal 4 om.dlVlan.toNat),
    printWild "dl_vlan_pcp=".toList (w &&& ofpfwDlVlanPcp != 0) verbosity
      (hexadecimal 2 om.dlVlanPcp.toNat),
    printWild "dl_src=".toList (w &&& ofpfwDlSrc != 0) verbosity (ethAddr om.dlSrc),
    printWild "dl_dst=".toList (w &&& ofpfwDlDst != 0) verbosity (ethAddr om.dlDst),
    if skipType then []
    else printWild "dl_type=".toList (w &&& ofpfwDlType != 0) verbosity
      (hexadecimal 4 om.dlType.toNat),
    printIpNetmask "nw_src=".toList om.nwSrc ((w &&& ofpfwNwSrcMask) >>> ofpfwNwSrcShift) verbosity,
    printIpNetmask "nw_dst=".toList om.nwDst ((w &&& ofpfwNwDstMask) >>> ofpfwNwDstShift) verbosity,
    printWild "nw_tos=".toList (w &&& ofpfwNwTos != 0) verbosity (hexadecimal 2 om.nwTos.toNat),
    if skipProto then []
    else printWild "nw_proto=".toList (w &&& ofpfwNwProto != 0) verbosity
      (decimal om.nwProto.toNat),
    -- the ports of ICMP are its type and its code, and have the same bits of the wildcards
    if om.nwProto = ipTypeIcmp then
      printWild "icmp_type=".toList (w &&& ofpfwTpSrc != 0) verbosity (decimal om.tpSrc.toNat) ++
        printWild "icmp_code=".toList (w &&& ofpfwTpDst != 0) verbosity (decimal om.tpDst.toNat)
    else
      printWild "tp_src=".toList (w &&& ofpfwTpSrc != 0) verbosity (decimal om.tpSrc.toNat) ++
        printWild "tp_dst=".toList (w &&& ofpfwTpDst != 0) verbosity (decimal om.tpDst.toNat)]

end OfAgent.Dpctl
