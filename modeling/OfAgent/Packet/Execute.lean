import OfAgent.Flow.Actions
import OfAgent.Lib.Transition
import OfAgent.Packet.Extract

/-!
# Execution of action lists

The second half of `dp_act.c`: the functions that rewrite a packet, and `execute_actions`, which
goes through a list of actions and hands the packet, or a copy of it, to an output function.

* `modifyVlanTci`, `vlanPullTag` and the functions built on them: the actions that change the
  packet. Making room for a tag fails without headroom.
* `ForwardFault`: what can go wrong while a packet is processed.
* `executeActions`: the loop. The output function is a parameter with a state of its own, so that
  it may send the packet through the tables again.
* `executeActions_invariant`: what the output function keeps, the loop keeps.
-/

namespace OfAgent

/-! ### Checksums -/

/-- `recalc_csum16`. -/
def recalcCsum16 (oldCsum oldU16 newU16 : BitVec 16) : BitVec 16 :=
  let sum : BitVec 32 :=
    (~~~oldCsum).setWidth 32 + (~~~oldU16).setWidth 32 + newU16.setWidth 32
  let hcPrimeComplement := (sum + sum >>> 16).setWidth 16
  ~~~hcPrimeComplement

/-- `recalc_csum32`. -/
def recalcCsum32 (oldCsum : BitVec 16) (oldU32 newU32 : BitVec 32) : BitVec 16 :=
  recalcCsum16 (recalcCsum16 oldCsum (oldU32.setWidth 16) (newU32.setWidth 16))
    ((oldU32 >>> 16).setWidth 16) ((newU32 >>> 16).setWidth 16)

/-! ### Actions that change the packet -/

/-- `OFPAT_SET_DL_SRC`: Ethernet source address. -/
def ofpatSetDlSrc : BitVec 16 := 4

/-- `OFPAT_SET_NW_SRC`: IP source address. -/
def ofpatSetNwSrc : BitVec 16 := 6

/-- `OFPAT_SET_TP_SRC`: TCP/UDP source port. -/
def ofpatSetTpSrc : BitVec 16 := 9

namespace Ofpbuf

variable (b : Ofpbuf)

/-- The position of the Ethernet header. -/
def l2Pos : ℕ := b.l2.getD 0

/-- The position of the network header. -/
def l3Pos : ℕ := b.l3.getD 0

/-- The position of the transport header. -/
def l4Pos : ℕ := b.l4.getD 0

/-- The type of the Ethernet header. -/
def ethType : BitVec 16 := b.mem.get16 (b.l2Pos + 12)

/-- The buffer with bytes written at a position. -/
def put (off : ℕ) (bs : List Byte) : Ofpbuf := { b with mem := b.mem.put off bs }

/-- The buffer with a 16-bit number written at a position. -/
def put16 (off : ℕ) (v : BitVec 16) : Ofpbuf := { b with mem := b.mem.put16 off v }

/-- The buffer with a 32-bit number written at a position. -/
def put32 (off : ℕ) (v : BitVec 32) : Ofpbuf := { b with mem := b.mem.put32 off v }

/-- The subtraction of the type `size_t`, which wraps. -/
def subSize (size n : ℕ) : ℕ := if n ≤ size then size - n else size + 2 ^ 64 - n

end Ofpbuf

namespace SwFlowKey

/-- The key with the VLAN fields of a tag. -/
def setTci (key : SwFlowKey) (tci : BitVec 16) : SwFlowKey :=
  { key with flow := { key.flow with dlVlan := vlanVid tci, dlVlanPcp := vlanPcp tci } }

/-- The key without VLAN; the priority stays. -/
def clearVlan (key : SwFlowKey) : SwFlowKey :=
  { key with flow := { key.flow with dlVlan := ofpVlanNone } }

end SwFlowKey

/-- The Ethernet header with a tag that `modify_vlan_tci` puts in front of a packet without
one. -/
def taggedHeader (b : Ofpbuf) (tci : BitVec 16) : List Byte :=
  b.mem.slice b.l2Pos 12 ++ Memory.bytes16 ethTypeVlan ++ Memory.bytes16 tci ++
    Memory.bytes16 b.ethType

/-- `modify_vlan_tci`. -/
def modifyVlanTci (b : Ofpbuf) (key : SwFlowKey) (tci mask : BitVec 16) :
    Except OfpbufFault (Ofpbuf × SwFlowKey) :=
  if key.flow.dlVlan ≠ ofpVlanNone then
    -- modify vlan id, but maintain other TCI values
    let vethTci := (b.mem.get16 (b.l2Pos + 14) &&& ~~~mask) ||| tci
    .ok (b.put16 (b.l2Pos + 14) vethTci, key.setTci vethTci)
  else
    -- insert new vlan id
    match b.pushUninit vlanHeaderLen with
    | .error e => .error e
    | .ok b' =>
        .ok ({ b'.put b'.data (taggedHeader b tci) with l2 := some (b.l2Pos - vlanHeaderLen) },
          key.setTci tci)

/-- `vlan_pull_tag`. -/
def vlanPullTag (b : Ofpbuf) : Ofpbuf :=
  if b.ethType = ethTypeVlan then
    let header := b.mem.slice b.l2Pos 12 ++ b.mem.slice (b.l2Pos + 16) 2
    let data := b.data + vlanHeaderLen
    { b.put data header with
      size := Ofpbuf.subSize b.size vlanHeaderLen
      data := data
      l2 := some (b.l2Pos + vlanHeaderLen) }
  else b

/-- `set_vlan_vid`. -/
def setVlanVid (b : Ofpbuf) (key : SwFlowKey) (ah : List Byte) :
    Except OfpbufFault (Ofpbuf × SwFlowKey) :=
  modifyVlanTci b key (be16 ah 4) vlanVidMask

/-- `set_vlan_pcp`. -/
def setVlanPcp (b : Ofpbuf) (key : SwFlowKey) (ah : List Byte) :
    Except OfpbufFault (Ofpbuf × SwFlowKey) :=
  modifyVlanTci b key ((ah.getD 4 0).setWidth 16 <<< 13) vlanPcpMask

/-- `strip_vlan`. -/
def stripVlan (b : Ofpbuf) (key : SwFlowKey) (_ah : List Byte) :
    Except OfpbufFault (Ofpbuf × SwFlowKey) :=
  .ok (vlanPullTag b, key.clearVlan)

/-- The buffer that `set_dl_addr` makes. -/
def putDlAddr (b : Ofpbuf) (ah : List Byte) : Ofpbuf :=
  if actionType ah = ofpatSetDlSrc then b.put (b.l2Pos + 6) (ah.extract 4 10)
  else b.put b.l2Pos (ah.extract 4 10)

/-- `set_dl_addr`. -/
def setDlAddr (b : Ofpbuf) (key : SwFlowKey) (ah : List Byte) :
    Except OfpbufFault (Ofpbuf × SwFlowKey) :=
  .ok (putDlAddr b ah, key)

/-- The transport checksum after a change of an address, as `set_nw_addr` puts it. -/
def putAddrCsum (b : Ofpbuf) (nwProto : BitVec 8) (old new : BitVec 32) : Ofpbuf :=
  if nwProto = ipTypeTcp then
    b.put16 (b.l4Pos + 16) (recalcCsum32 (b.mem.get16 (b.l4Pos + 16)) old new)
  else if nwProto = ipTypeUdp then
    let csum := b.mem.get16 (b.l4Pos + 6)
    if csum ≠ 0 then
      let csum := recalcCsum32 csum old new
      b.put16 (b.l4Pos + 6) (if csum = 0 then 0xffff else csum)
    else b
  else b

/-- The buffer that `set_nw_addr` makes. -/
def putNwAddr (b : Ofpbuf) (key : SwFlowKey) (ah : List Byte) : Ofpbuf :=
  if key.flow.dlType = ethTypeIp then
    let new := be32 ah 4
    let field := b.l3Pos + if actionType ah = ofpatSetNwSrc then 12 else 16
    let b := putAddrCsum b key.flow.nwProto (b.mem.get32 field) new
    let b := b.put16 (b.l3Pos + 10)
      (recalcCsum32 (b.mem.get16 (b.l3Pos + 10)) (b.mem.get32 field) new)
    b.put32 field new
  else b

/-- `set_nw_addr`, on a host with the byte order of the network: the words that are summed up are as
in the packet. -/
def setNwAddr (b : Ofpbuf) (key : SwFlowKey) (ah : List Byte) :
    Except OfpbufFault (Ofpbuf × SwFlowKey) :=
  .ok (putNwAddr b key ah, key)

/-- The buffer that `set_nw_tos` makes. -/
def putNwTos (b : Ofpbuf) (key : SwFlowKey) (ah : List Byte) : Ofpbuf :=
  if key.flow.dlType = ethTypeIp then
    let old := b.mem (b.l3Pos + 1)
    -- set only 6 bits
    let new := (ah.getD 4 0 &&& 0xfc) ||| (old &&& 0x03)
    let b := b.put16 (b.l3Pos + 10)
      (recalcCsum32 (b.mem.get16 (b.l3Pos + 10)) (old.setWidth 32) (new.setWidth 32))
    b.put (b.l3Pos + 1) [new]
  else b

/-- `set_nw_tos`, on such a host: `htons` leaves the type of service as it is. -/
def setNwTos (b : Ofpbuf) (key : SwFlowKey) (ah : List Byte) :
    Except OfpbufFault (Ofpbuf × SwFlowKey) :=
  .ok (putNwTos b key ah, key)

/-- The change of a port with the checksum at the given distance behind the transport header. -/
def putPortAt (b : Ofpbuf) (csum field : ℕ) (new : BitVec 16) : Ofpbuf :=
  let b' := b.put16 (b.l4Pos + csum)
    (recalcCsum16 (b.mem.get16 (b.l4Pos + csum)) (b.mem.get16 (b.l4Pos + field)) new)
  b'.put16 (b.l4Pos + field) new

/-- The buffer that `set_tp_port` makes. -/
def putTpPort (b : Ofpbuf) (key : SwFlowKey) (ah : List Byte) : Ofpbuf :=
  if key.flow.dlType = ethTypeIp then
    let field := if actionType ah = ofpatSetTpSrc then 0 else 2
    if key.flow.nwProto = ipTypeTcp then putPortAt b 16 field (be16 ah 4)
    else if key.flow.nwProto = ipTypeUdp then putPortAt b 6 field (be16 ah 4)
    else b
  else b

/-- `set_tp_port`, on such a host. -/
def setTpPort (b : Ofpbuf) (key : SwFlowKey) (ah : List Byte) :
    Except OfpbufFault (Ofpbuf × SwFlowKey) :=
  .ok (putTpPort b key ah, key)

/-- The functions in `of_actions` that execute an action, indexed by its type. -/
def ofActionsExecute :
    List (Option (Ofpbuf → SwFlowKey → List Byte → Except OfpbufFault (Ofpbuf × SwFlowKey))) :=
  [none,  -- OFPAT_OUTPUT
   some setVlanVid,  -- OFPAT_SET_VLAN_VID
   some setVlanPcp,  -- OFPAT_SET_VLAN_PCP
   some stripVlan,  -- OFPAT_STRIP_VLAN
   some setDlAddr,  -- OFPAT_SET_DL_SRC
   some setDlAddr,  -- OFPAT_SET_DL_DST
   some setNwAddr,  -- OFPAT_SET_NW_SRC
   some setNwAddr,  -- OFPAT_SET_NW_DST
   some setNwTos,  -- OFPAT_SET_NW_TOS
   some setTpPort,  -- OFPAT_SET_TP_SRC
   some setTpPort,  -- OFPAT_SET_TP_DST
   none]  -- OFPAT_ENQUEUE

/-! ### The loop -/

/-- What can go wrong while a packet is processed. -/
inductive ForwardFault
  /-- A walk over actions goes wrong. -/
  | walk (fault : Tlv.Fault)
  /-- The argument of an action is read outside the actions. -/
  | argument
  /-- An assertion of `ofpbuf.c` fails. -/
  | ofpbuf (fault : OfpbufFault)
  /-- The packet has entered the tables more often than the fuel allows. -/
  | endless
  deriving DecidableEq, Repr

/-- The arguments of a call of `do_output`. -/
structure OutputCall where
  /-- The packet, or a copy of it. -/
  buffer : Ofpbuf
  /-- The port that the packet came from. -/
  inPort : BitVec 16
  /-- How much of the packet to send to the controller. -/
  maxLen : BitVec 16
  /-- The output port. -/
  outPort : BitVec 16
  /-- The queue of the output port. -/
  queueId : BitVec 32

/-- The variables of `execute_actions`, and the state of the output function. -/
structure ExecState (σ : Type*) where
  /-- The packet. -/
  buffer : Ofpbuf
  /-- The key of the packet. -/
  key : SwFlowKey
  /-- `prev_port`: the port of an output action that has not been executed yet. -/
  prevPort : Option (BitVec 16)
  /-- `prev_queue`. -/
  prevQueue : BitVec 32
  /-- `max_len`. -/
  maxLen : BitVec 16
  /-- The state of the output function. -/
  world : σ

section Execute

variable {σ : Type*} (doOutput : OutputCall → σ → Except ForwardFault σ) (inPort : BitVec 16)

/-- The output that is left over from the action before the current one, which gets a copy of the
packet. -/
def flushOutput (s : ExecState σ) : Except ForwardFault (ExecState σ) :=
  match s.prevPort with
  | none => .ok s
  | some port =>
      match doOutput ⟨s.buffer.clone, inPort, s.maxLen, port, s.prevQueue⟩ s.world with
      | .error e => .error e
      | .ok world => .ok { s with prevPort := none, world }

/-- `execute_ofpat`, and `execute_vendor`, which only reads the vendor. -/
def executeOther (ah : List Byte) (s : ExecState σ) : Except ForwardFault (ExecState σ) :=
  match ofActions[(actionType ah).toNat]? with
  | some act =>
      if ah.length < act.minSize then .error .argument
      else
        match ofActionsExecute.getD (actionType ah).toNat none with
        | none => .ok s
        | some execute =>
            match execute s.buffer s.key ah with
            | .error e => .error (.ofpbuf e)
            | .ok (buffer, key) => .ok { s with buffer, key }
  | none =>
      if actionType ah = ofpatVendor then
        if ah.length < 8 then .error .argument else .ok s
      else .ok s

/-- The action at the front of the bytes. -/
def executeAction (ah : List Byte) (s : ExecState σ) : Except ForwardFault (ExecState σ) :=
  if actionType ah = ofpatOutput then
    if ah.length < 8 then .error .argument
    else .ok { s with prevPort := some (be16 ah 4), prevQueue := 0, maxLen := be16 ah 6 }
  else if actionType ah = ofpatEnqueue then
    if ah.length < 16 then .error .argument
    else .ok { s with prevPort := some (be16 ah 4), prevQueue := be32 ah 12, maxLen := 0 }
  else executeOther ah s

/-- One turn of the loop of `execute_actions`. -/
def executeTurn (_k : ℕ) (ah : List Byte) (s : ExecState σ) :
    Except ForwardFault (ExecState σ) :=
  match flushOutput doOutput inPort s with
  | .error e => .error e
  | .ok s => executeAction ah s

/-- The end of `execute_actions`: the last output gets the packet itself. -/
def finishActions (s : ExecState σ) : Except ForwardFault σ :=
  match s.prevPort with
  | none => .ok s.world
  | some port => doOutput ⟨s.buffer, inPort, s.maxLen, port, s.prevQueue⟩ s.world

/-- The variables of `execute_actions` before the loop. -/
def ExecState.init (buffer : Ofpbuf) (key : SwFlowKey) (world : σ) : ExecState σ :=
  { buffer, key, prevPort := none, prevQueue := 0, maxLen := 0xffff, world }

/-- `execute_actions`. Every turn takes at least one byte of an accepted list, so the length of the
area is enough fuel. -/
def executeActions (buffer : Ofpbuf) (key : SwFlowKey) (actions : List Byte) (world : σ) :
    Except ForwardFault σ :=
  match Tlv.walk sizeofOfpActionHeader actionLen .walk (executeTurn doOutput key.flow.inPort)
      actions.length 0 actions (.init buffer key world) with
  | .error e => .error e
  | .ok s => finishActions doOutput key.flow.inPort s

variable {doOutput inPort}

theorem executeAction_world {ah : List Byte} {s s' : ExecState σ}
    (h : executeAction ah s = .ok s') : s'.world = s.world := by
  unfold executeAction executeOther at h
  repeat' split at h
  all_goals
    cases h
    try rfl

/-- One turn of the loop keeps what the output function keeps, when it only gets packets that the
actions lead to. -/
theorem executeTurn_invariant {P : σ → Prop} {B : Ofpbuf → SwFlowKey → Prop}
    (hact : ∀ ah (s s' : ExecState σ), B s.buffer s.key → executeAction ah s = .ok s' →
      B s'.buffer s'.key)
    (hout : ∀ call w w' b key, B b key → call.buffer = b ∨ call.buffer = b.clone → P w →
      doOutput call w = .ok w' → P w') {k : ℕ} {ah : List Byte} {s s' : ExecState σ}
    (hb : B s.buffer s.key) (hs : P s.world)
    (h : executeTurn doOutput inPort k ah s = .ok s') : B s'.buffer s'.key ∧ P s'.world := by
  -- the output that is pending gets a copy of the packet
  have hflush : ∀ s₁, flushOutput doOutput inPort s = .ok s₁ →
      B s₁.buffer s₁.key ∧ P s₁.world := by
    intro s₁ h₁
    unfold flushOutput at h₁
    split at h₁
    next => exact Except.ok.inj h₁ ▸ ⟨hb, hs⟩
    next =>
      split at h₁
      next => cases h₁
      next w hw =>
        rw [← Except.ok.inj h₁]
        exact ⟨hb, hout _ _ _ _ _ hb (.inr rfl) hs hw⟩
  unfold executeTurn at h
  split at h
  next => cases h
  next s₁ h₁ =>
    obtain ⟨hb₁, hs₁⟩ := hflush s₁ h₁
    refine ⟨hact ah s₁ s' hb₁ h, ?_⟩
    rw [executeAction_world h]
    exact hs₁

/-- The loop keeps what the output function keeps, when it only gets packets that the actions lead
to. -/
theorem executeActions_invariant {P : σ → Prop} {B : Ofpbuf → SwFlowKey → Prop}
    (hact : ∀ ah (s s' : ExecState σ), B s.buffer s.key → executeAction ah s = .ok s' →
      B s'.buffer s'.key)
    (hout : ∀ call w w' b key, B b key → call.buffer = b ∨ call.buffer = b.clone → P w →
      doOutput call w = .ok w' → P w') {buffer : Ofpbuf} {key : SwFlowKey} {actions : List Byte}
    {w w' : σ} (hb : B buffer key) (hw : P w)
    (h : executeActions doOutput buffer key actions w = .ok w') : P w' := by
  unfold executeActions at h
  split at h
  next => cases h
  next s hwalk =>
    -- the walk is a run whose steps are the turns
    have hrun := Transition.reachable_of_foldlM (Tlv.foldlM_items_of_walk hwalk)
    obtain ⟨hbs, hs⟩ : B s.buffer s.key ∧ P s.world := by
      refine hrun.invariant (fun s => B s.buffer s.key ∧ P s.world) ⟨hb, hw⟩ ?_
      rintro s₁ i s₂ ⟨hb₁, h₁⟩ _ hstep
      exact executeTurn_invariant hact hout hb₁ h₁ hstep
    unfold finishActions at h
    split at h
    next => exact Except.ok.inj h ▸ hs
    next => exact hout _ _ _ _ _ hbs (.inl rfl) hs h

end Execute

end OfAgent
