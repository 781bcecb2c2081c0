import OfAgent.Dpctl.Values
import OfAgent.Forward.Switch
import OfAgent.Packet.Writes

/-!
# The text of a list of actions

`ofp_print_actions` of `ofp-print.c` prints the actions of a flow, and `str_to_action` of `dpctl.c`
reads the actions of a flow from the command line.

* `printedActions`: the sizes and the texts of the known actions. `ofpPrintAction`,
  `ofpPrintActions`.
* `actionReaders`: the names that are known, and what is made of them. `readAction`, `strToAction`.
-/

namespace OfAgent.Dpctl

open Memory (bytes16 bytes32)

/-- `OFPP_NORMAL`. -/
def ofppNormal : BitVec 16 := 0xfffa

/-! ### Printing -/

/-- `ofp_print_port_name`. -/
def ofpPrintPortName (port : BitVec 16) : List Char :=
  if port = ofppInPort then "IN_PORT".toList
  else if port = ofppTable then "TABLE".toList
  else if port = ofppNormal then "NORMAL".toList
  else if port = ofppFlood then "FLOOD".toList
  else if port = ofppAll then "ALL".toList
  else if port = ofppController then "CONTROLLER".toList
  else if port = ofppLocal then "LOCAL".toList
  else if port = ofppNone then "NONE".toList
  else decimal port.toNat

/-- The text of an output action. -/
def printOutput (ah : List Byte) : List Char :=
  let port := be16 ah 4
  if port < ofppMax then "output:".toList ++ decimal port.toNat
  else
    ofpPrintPortName port ++
      if port = ofppController then
        if be16 ah 6 ≠ 0 then ':' :: decimal (be16 ah 6).toNat else ":all".toList
      else []

/-- The Ethernet address of an action. -/
def dlAddr (ah : List Byte) : BitVec 48 := be16 ah 4 ++ be32 ah 6

/-- The sizes of an action, and its text. -/
structure PrintedAction where
  /-- The minimum size of the action. -/
  minSize : ℕ
  /-- The maximum size of the action. -/
  maxSize : ℕ
  /-- The case of the action. -/
  text : List Byte → List Char

/-- `of_actions` of `ofp-print.c`, with the cases for its types. -/
def printedActions : List PrintedAction := [
  ⟨8, 8, printOutput⟩,
  ⟨8, 8, fun ah => "mod_vlan_vid:".toList ++ decimal (be16 ah 4).toNat⟩,
  ⟨8, 8, fun ah => "mod_vlan_pcp:".toList ++ decimal (ah.getD 4 0).toNat⟩,
  ⟨8, 8, fun _ => "strip_vlan".toList⟩,
  ⟨16, 16, fun ah => "mod_dl_src:".toList ++ ethAddr (dlAddr ah)⟩,
  ⟨16, 16, fun ah => "mod_dl_dst:".toList ++ ethAddr (dlAddr ah)⟩,
  ⟨8, 8, fun ah => "mod_nw_src:".toList ++ dottedQuad (be32 ah 4)⟩,
  ⟨8, 8, fun ah => "mod_nw_dst:".toList ++ dottedQuad (be32 ah 4)⟩,
  ⟨8, 8, fun ah => "mod_nw_tos:".toList ++ hexadecimal 1 (ah.getD 4 0).toNat⟩,
  ⟨8, 8, fun ah => "mod_tp_src:".toList ++ decimal (be16 ah 4).toNat⟩,
  ⟨8, 8, fun ah => "mod_tp_dst:".toList ++ decimal (be16 ah 4).toNat⟩,
  ⟨16, 16, fun ah => "enqueue:".toList ++ decimal (be16 ah 4).toNat ++
    ':' :: decimal (be32 ah 12).toNat⟩]

/-- `ofp_print_action`: what is printed of the action at the front, and its length, unless something
is wrong. -/
def ofpPrintAction (rest : List Byte) : List Char × Option ℕ :=
  if rest.length < sizeofOfpActionHeader then
    ("***action array too short for next action***\n".toList, none)
  else
    let type := decimal (actionType rest).toNat
    let len := actionLen rest
    if rest.length < len then ("***truncated action ".toList ++ type ++ "***\n".toList, none)
    else if len % 8 ≠ 0 then
      ("***action ".toList ++ type ++ " length not a multiple of 8***\n".toList, none)
    else
      match printedActions[(actionType rest).toNat]? with
      | some act =>
        if len < act.minSize ∨ act.maxSize < len then
          (List.flatten ["***action ".toList, type, " wrong length: ".toList, decimal len, [' '],
            decimal act.minSize, [' '], decimal act.maxSize, "***\n".toList], none)
        else (act.text rest, some len)
      | none =>
        if actionType rest = ofpatVendor then
          if len < 8 then ("***ofpat_vendor truncated***\n".toList, none)
          else ("vendor action:".toList ++ hexadecimal 1 (be32 rest 4).toNat, some len)
        else ("(decoder ".toList ++ type ++ " not implemented)".toList, some len)

/-- The loop of `ofp_print_actions`, with the length of the action before. An action whose length is
zero is printed for ever: the fuel is used up. -/
def ofpPrintActionsLoop : ℕ → ℕ → List Byte → Option (List Char)
  | 0, _, rest => if rest.length = 0 then some [] else none
  | fuel + 1, len, rest =>
    if rest.length = 0 then some []
    else
      let comma := if len ≠ 0 then [','] else []
      match ofpPrintAction rest with
      | (text, none) => some (comma ++ text)
      | (text, some len) =>
        (ofpPrintActionsLoop fuel len (rest.drop len)).map fun texts => comma ++ text ++ texts

/-- `ofp_print_actions`. Nothing is returned if it does not end. -/
def ofpPrintActions (actions : List Byte) : Option (List Char) :=
  (ofpPrintActionsLoop actions.length 0 actions).map fun texts => "actions=".toList ++ texts

/-! ### Reading -/

/-- What ends `dpctl` while it reads actions. -/
inductive ActionFault
  /-- `ofp_fatal`. -/
  | fatal (message : Fatal)
  /-- An argument is missing, and its null pointer is followed. -/
  | nullPointer

/-- `strcasecmp`, as far as it is about equality. -/
def strcasecmp (s t : List Char) : Bool := s.map Char.toLower == t.map Char.toLower

/-- `put_action`, with what is written into the zeros behind the header. -/
def putAction (size : ℕ) (type : BitVec 16) (args : List Byte) : List Byte :=
  bytes16 type ++ (bytes16 (.ofNat 16 size) ++ (args ++ List.replicate (size - 4 - args.length) 0))

/-- `put_output_action`, with the `max_len` that is written into it. -/
def putOutputAction (port maxLen : BitVec 16) : List Byte :=
  putAction 8 ofpatOutput (bytes16 port ++ bytes16 maxLen)

/-- `put_enqueue_action`. -/
def putEnqueueAction (port : BitVec 16) (queue : BitVec 32) : List Byte :=
  putAction 16 ofpatEnqueue (bytes16 port ++ (List.replicate 6 0 ++ bytes32 queue))

/-- `str_to_u32` of an argument. -/
def argToU32 (p : Platform) : Option (List Char) → Except ActionFault (BitVec 32)
  | none => .error .nullPointer
  | some arg => (strToU32 p arg).mapError .fatal

/-- `str_to_mac` of an argument. -/
def argToMac : Option (List Char) → Except ActionFault (BitVec 48)
  | none => .error .nullPointer
  | some arg => (strToMac arg).mapError .fatal

/-- The case of a queue. -/
def readEnqueue (p : Platform) : Option (List Char) → Except ActionFault (List Byte)
  | none => .error .nullPointer
  | some arg => do
    let (arg, arg2) := Tokens.cut ':' arg
    let port ← argToU32 p (some arg)
    let queue ← argToU32 p arg2
    return putEnqueueAction (port.setWidth 16) queue

/-- `strspn(act, "0123456789") == strlen(act)`. -/
def isNumeric (act : List Char) : Bool := act.all Char.isDigit

/-- The case of the controller. -/
def readController (p : Platform) (act : List Char) (arg : Option (List Char)) :
    Except ActionFault (List Byte) :=
  -- the name of the action is asked for digits, and not its argument
  if arg.isSome ∧ isNumeric act then
    (argToU32 p arg).map fun maxLen => putOutputAction ofppController (maxLen.setWidth 16)
  else .ok (putOutputAction ofppController 0)

/-- The name of an action, and what is made of it and its argument. -/
structure ActionReader where
  /-- The name. -/
  name : List Char
  /-- The case of the name. -/
  read : Platform → List Char → Option (List Char) → Except ActionFault (List Byte)

/-- The names of `str_to_action`, in the order in which they are tried. -/
def actionReaders : List ActionReader := [
  ⟨"mod_nw_tos".toList, fun p _ arg => (argToU32 p arg).map fun v =>
    putAction 8 ofpatSetNwTos [v.setWidth 8]⟩,
  ⟨"mod_vlan_vid".toList, fun p _ arg =>
    (argToU32 p arg).map fun v => putAction 8 ofpatSetVlanVid (bytes16 (v.setWidth 16))⟩,
  ⟨"mod_vlan_pcp".toList, fun p _ arg => (argToU32 p arg).map fun v =>
    putAction 8 ofpatSetVlanPcp [v.setWidth 8]⟩,
  ⟨"mod_dl_dst".toList, fun _ _ arg => (argToMac arg).map fun mac =>
    putAction 16 ofpatSetDlDst (bytes48 mac)⟩,
  ⟨"mod_dl_src".toList, fun _ _ arg => (argToMac arg).map fun mac =>
    putAction 16 ofpatSetDlSrc (bytes48 mac)⟩,
  ⟨"strip_vlan".toList, fun _ _ _ => .ok (putAction 8 ofpatStripVlan [])⟩,
  ⟨"enqueue".toList, fun p _ arg => readEnqueue p arg⟩,
  ⟨"output".toList, fun p _ arg => (argToU32 p arg).map fun v => putOutputAction (v.setWidth 16) 0⟩,
  ⟨"TABLE".toList, fun _ _ _ => .ok (putOutputAction ofppTable 0)⟩,
  ⟨"NORMAL".toList, fun _ _ _ => .ok (putOutputAction ofppNormal 0)⟩,
  ⟨"FLOOD".toList, fun _ _ _ => .ok (putOutputAction ofppFlood 0)⟩,
  ⟨"ALL".toList, fun _ _ _ => .ok (putOutputAction ofppAll 0)⟩,
  ⟨"CONTROLLER".toList, readController⟩,
  ⟨"LOCAL".toList, fun _ _ _ => .ok (putOutputAction ofppLocal 0)⟩]

/-- One turn of the loop of `str_to_action`: the action of a token. -/
def readAction (p : Platform) (token : List Char) : Except ActionFault (List Byte) :=
  -- arguments are separated by colons
  let (act, arg) := Tokens.cut ':' token
  match actionReaders.find? fun r => strcasecmp act r.name with
  | some r => r.read p act arg
  | none =>
    if isNumeric act then (argToU32 p (some act)).map fun v => putOutputAction (v.setWidth 16) 0
    else .error (.fatal ("Unknown action: ".toList ++ act))

/-- The loop of `str_to_action`. -/
def readActions (p : Platform) : List (List Char) → Except ActionFault (List Byte)
  | [] => .ok []
  | token :: tokens => do
    let action ← readAction p token
    let actions ← readActions p tokens
    return action ++ actions

/-- `str_to_action`: what is put into the buffer. -/
def strToAction (p : Platform) (str : List Char) : Except ActionFault (List Byte) :=
  readActions p (Tokens.all valueDelim str)

end OfAgent.Dpctl
