import OfAgent.Packet.Tags

/-!
# Where actions write

The functions of `dp_act.c` that change a packet look at its key and at the positions of its
headers, but not at its size.

* `Written`: a memory after writes to given places.
* `actionWrites`: where an action writes; `executeAction_effect`: it writes there and nowhere else.
* `WritesInside`: going through a list of actions, every write is inside the packet.
* `AllFit`: what the sizes of the headers have to be for that, in terms of the packet before the
  list.
* `writesInside_iff`: there is nothing else that it takes.
-/

namespace OfAgent

/-! ### Writes -/

/-- Bytes that are written. -/
structure Write where
  /-- The position of the first one. -/
  off : ℕ
  /-- Their number. -/
  len : ℕ
  deriving DecidableEq, Repr

/-- A memory before and after writes to the given places, one after the other. -/
inductive Written : List Write → Memory → Memory → Prop
  /-- Nothing is written. -/
  | nil (m : Memory) : Written [] m m
  /-- Some bytes are written, and then the rest. -/
  | cons {off len : ℕ} {ws : List Write} {m m' : Memory} {bs : List Byte} (hlen : bs.length = len)
      (rest : Written ws (m.put off bs) m') : Written (⟨off, len⟩ :: ws) m m'

namespace Written

variable {ws ws' : List Write} {m m' m'' : Memory}

theorem put (m : Memory) (off : ℕ) {len : ℕ} {bs : List Byte} (hlen : bs.length = len) :
    Written [⟨off, len⟩] m (m.put off bs) := .cons hlen (.nil _)

theorem cons16 {m : Memory} {off : ℕ} {v : BitVec 16} (h : Written ws (m.put16 off v) m') :
    Written (⟨off, 2⟩ :: ws) m m' := .cons rfl h

theorem put16 (m : Memory) (off : ℕ) (v : BitVec 16) : Written [⟨off, 2⟩] m (m.put16 off v) :=
  .cons16 (.nil _)

theorem append (h : Written ws m m') (h' : Written ws' m' m'') : Written (ws ++ ws') m m'' := by
  induction h with
  | nil => exact h'
  | cons hlen _ ih => exact .cons hlen (ih h')

/-- A byte outside all writes stays as it is. -/
theorem eq_of_outside (h : Written ws m m') {i : ℕ}
    (hi : ∀ w ∈ ws, i < w.off ∨ w.off + w.len ≤ i) : m' i = m i := by
  induction h with
  | nil => rfl
  | cons hlen _ ih =>
    rw [ih fun w hw => hi w (List.mem_cons_of_mem _ hw)]
    exact Memory.put_of_outside _ (hlen ▸ hi _ List.mem_cons_self)

theorem get16_eq_of_outside (h : Written ws m m') {i : ℕ}
    (hi : ∀ w ∈ ws, i + 2 ≤ w.off ∨ w.off + w.len ≤ i) : m'.get16 i = m.get16 i := by
  have hbyte : ∀ j, i ≤ j → j < i + 2 → m' j = m j := fun j hle hlt =>
    h.eq_of_outside fun w hw => by
      have := hi w hw
      omega
  rw [Memory.get16, Memory.get16, hbyte i (by omega) (by omega),
    hbyte (i + 1) (by omega) (by omega)]

end Written

namespace Ofpbuf

/-- `ofpbuf_tail`: one past the last byte of the packet. The sum is one of pointers, and wraps as
the size does. -/
def tail (b : Ofpbuf) : ℕ := (b.data + b.size) % 2 ^ 64

/-- The bytes are inside the packet. -/
def Contains (b : Ofpbuf) (w : Write) : Prop := b.data ≤ w.off ∧ w.off + w.len ≤ b.tail

instance (b : Ofpbuf) (w : Write) : Decidable (b.Contains w) :=
  inferInstanceAs (Decidable (_ ∧ _))

/-- The bytes from a position on. -/
@[simp]
theorem contains_mk (b : Ofpbuf) (off len : ℕ) :
    b.Contains ⟨off, len⟩ ↔ b.data ≤ off ∧ off + len ≤ b.tail := Iff.rfl

end Ofpbuf

/-! ### The writes of the actions -/

/-- The writes of `modify_vlan_tci`: a tag in place, or the header in front of the packet. -/
def modifyVlanTciWrites (b : Ofpbuf) (key : SwFlowKey) (_ah : List Byte) : List Write :=
  if key.flow.dlVlan ≠ ofpVlanNone then [⟨b.l2Pos + 14, 2⟩] else [⟨b.data - vlanHeaderLen, 18⟩]

/-- The writes of `strip_vlan`: the header without a tag. -/
def stripVlanWrites (b : Ofpbuf) (_key : SwFlowKey) (_ah : List Byte) : List Write :=
  if b.ethType = ethTypeVlan then [⟨b.data + vlanHeaderLen, ethHeaderLen⟩] else []

/-- The writes of `set_dl_addr`. -/
def setDlAddrWrites (b : Ofpbuf) (_key : SwFlowKey) (ah : List Byte) : List Write :=
  [⟨b.l2Pos + if actionType ah = ofpatSetDlSrc then 6 else 0, 6⟩]

/-- The writes of `set_nw_addr` to the transport checksum. -/
def addrCsumWrites (b : Ofpbuf) (nwProto : BitVec 8) : List Write :=
  if nwProto = ipTypeTcp then [⟨b.l4Pos + 16, 2⟩]
  else if nwProto = ipTypeUdp then
    if b.mem.get16 (b.l4Pos + 6) ≠ 0 then [⟨b.l4Pos + 6, 2⟩] else []
  else []

/-- The writes of `set_nw_addr`. -/
def setNwAddrWrites (b : Ofpbuf) (key : SwFlowKey) (ah : List Byte) : List Write :=
  if key.flow.dlType = ethTypeIp then
    addrCsumWrites b key.flow.nwProto ++
      [⟨b.l3Pos + 10, 2⟩, ⟨b.l3Pos + if actionType ah = ofpatSetNwSrc then 12 else 16, 4⟩]
  else []

/-- The writes of `set_nw_tos`. -/
def setNwTosWrites (b : Ofpbuf) (key : SwFlowKey) (_ah : List Byte) : List Write :=
  if key.flow.dlType = ethTypeIp then [⟨b.l3Pos + 10, 2⟩, ⟨b.l3Pos + 1, 1⟩] else []

/-- The writes of `set_tp_port`. -/
def setTpPortWrites (b : Ofpbuf) (key : SwFlowKey) (ah : List Byte) : List Write :=
  if key.flow.dlType = ethTypeIp then
    let field := if actionType ah = ofpatSetTpSrc then 0 else 2
    if key.flow.nwProto = ipTypeTcp then [⟨b.l4Pos + 16, 2⟩, ⟨b.l4Pos + field, 2⟩]
    else if key.flow.nwProto = ipTypeUdp then [⟨b.l4Pos + 6, 2⟩, ⟨b.l4Pos + field, 2⟩]
    else []
  else []

/-- The writes of the functions in `of_actions`, indexed by the type of the action. -/
def ofActionsWrites : List (Option (Ofpbuf → SwFlowKey → List Byte → List Write)) :=
  [none,  -- OFPAT_OUTPUT
   some modifyVlanTciWrites,  -- OFPAT_SET_VLAN_VID
   some modifyVlanTciWrites,  -- OFPAT_SET_VLAN_PCP
   some stripVlanWrites,  -- OFPAT_STRIP_VLAN
   some setDlAddrWrites,  -- OFPAT_SET_DL_SRC
   some setDlAddrWrites,  -- OFPAT_SET_DL_DST
   some setNwAddrWrites,  -- OFPAT_SET_NW_SRC
   some setNwAddrWrites,  -- OFPAT_SET_NW_DST
   some setNwTosWrites,  -- OFPAT_SET_NW_TOS
   some setTpPortWrites,  -- OFPAT_SET_TP_SRC
   some setTpPortWrites,  -- OFPAT_SET_TP_DST
   none]  -- OFPAT_ENQUEUE

/-- The writes of an action. -/
def actionWrites (b : Ofpbuf) (key : SwFlowKey) (a : List Byte) : List Write :=
  match ofActionsWrites.getD (actionType a).toNat none with
  | some writes => writes b key a
  | none => []

/-- Every action of a list writes inside the packet that it leaves. An action that fails has not
written anything. -/
def WritesInside {σ : Type*} : ExecState σ → List (List Byte) → Prop
  | _, [] => True
  | s, a :: as =>
      match executeAction a s with
      | .error _ => True
      | .ok s' =>
          (∀ w ∈ actionWrites s.buffer s.key a, s'.buffer.Contains w) ∧ WritesInside s' as

/-! ### What an action does to a packet -/

/-- An action writes to its places, and keeps the end of the packet, the positions of its upper
headers and their protocols. -/
structure Effect (ws : List Write) (b : Ofpbuf) (key : SwFlowKey) (b' : Ofpbuf)
    (key' : SwFlowKey) : Prop where
  /-- The memory. -/
  written : Written ws b.mem b'.mem
  /-- The end of the packet. -/
  tail : b'.tail = b.tail
  /-- The network header. -/
  l3 : b'.l3 = b.l3
  /-- The transport header. -/
  l4 : b'.l4 = b.l4
  /-- The Ethernet type. -/
  dlType : key'.flow.dlType = key.flow.dlType
  /-- The IP protocol. -/
  nwProto : key'.flow.nwProto = key.flow.nwProto

namespace Effect

variable {b : Ofpbuf} {key : SwFlowKey} {ws : List Write}

theorem refl (b : Ofpbuf) (key : SwFlowKey) : Effect [] b key b key :=
  ⟨.nil _, rfl, rfl, rfl, rfl, rfl⟩

theorem ofMem {m' : Memory} (h : Written ws b.mem m') : Effect ws b key { b with mem := m' } key :=
  ⟨h, rfl, rfl, rfl, rfl, rfl⟩

variable {ah : List Byte}

/-- `modify_vlan_tci`. -/
theorem modifyVlanTci {tci mask : BitVec 16} {b' : Ofpbuf} {key' : SwFlowKey}
    (h : modifyVlanTci b key tci mask = .ok (b', key')) :
    Effect (modifyVlanTciWrites b key ah) b key b' key' := by
  unfold OfAgent.modifyVlanTci at h
  unfold modifyVlanTciWrites
  split at h
  next hvlan =>
    rw [if_pos hvlan]
    obtain ⟨rfl, rfl⟩ := Prod.mk.inj (Except.ok.inj h)
    exact ⟨.put16 _ _ _, rfl, rfl, rfl, rfl, rfl⟩
  next hvlan =>
    rw [if_neg hvlan]
    unfold Ofpbuf.pushUninit at h
    by_cases hroom : vlanHeaderLen ≤ b.headroom
    · rw [if_pos hroom] at h
      obtain ⟨rfl, rfl⟩ := Prod.mk.inj (Except.ok.inj h)
      have hlen := (Ofpbuf.taggedHeader_spec b tci).1
      refine ⟨.put _ _ hlen, ?_, rfl, rfl, rfl, rfl⟩
      · change (b.data - 4 + (b.size + 4)) % 2 ^ 64 = (b.data + b.size) % 2 ^ 64
        change 4 ≤ b.data at hroom
        congr 1
        omega
    · rw [if_neg hroom] at h
      cases h

/-- `strip_vlan`. -/
theorem stripVlan : Effect (stripVlanWrites b key ah) b key (vlanPullTag b) key.clearVlan := by
  unfold stripVlanWrites vlanPullTag
  split
  next =>
    have hlen : (b.mem.slice b.l2Pos 12 ++ b.mem.slice (b.l2Pos + 16) 2).length = ethHeaderLen := by
      rw [List.length_append, Memory.length_slice, Memory.length_slice]
      rfl
    refine ⟨.put _ _ hlen, ?_, rfl, rfl, rfl, rfl⟩
    · change (b.data + 4 + (if 4 ≤ b.size then b.size - 4 else b.size + 2 ^ 64 - 4)) % 2 ^ 64 =
        (b.data + b.size) % 2 ^ 64
      split <;> omega
  next => exact ⟨.nil _, rfl, rfl, rfl, rfl, rfl⟩

/-- `set_dl_addr`. -/
theorem setDlAddr (hlen : 10 ≤ ah.length) :
    Effect (setDlAddrWrites b key ah) b key (putDlAddr b ah) key := by
  have haddr : (ah.extract 4 10).length = 6 := by
    rw [List.extract_eq_take_drop, List.length_take, List.length_drop]
    omega
  unfold setDlAddrWrites putDlAddr
  split
  · exact ofMem (.put _ _ haddr)
  · exact ofMem (.put _ _ haddr)

/-- `set_nw_addr`. -/
theorem setNwAddr : Effect (setNwAddrWrites b key ah) b key (putNwAddr b key ah) key := by
  unfold setNwAddrWrites putNwAddr
  split
  next =>
    simp only
    generalize (if actionType ah = ofpatSetNwSrc then 12 else 16) = field
    -- the transport checksum first
    have hcsum : ∃ m', putAddrCsum b key.flow.nwProto (b.mem.get32 (b.l3Pos + field)) (be32 ah 4) =
        { b with mem := m' } ∧ Written (addrCsumWrites b key.flow.nwProto) b.mem m' := by
      unfold putAddrCsum addrCsumWrites
      split
      · exact ⟨_, rfl, .put16 _ _ _⟩
      · split
        · simp only
          split
          · exact ⟨_, rfl, .put16 _ _ _⟩
          · exact ⟨_, rfl, .nil _⟩
        · exact ⟨_, rfl, .nil _⟩
    obtain ⟨m', heq, hwritten⟩ := hcsum
    rw [heq]
    exact ofMem (hwritten.append (.cons16 (.put _ _ rfl)))
  next => exact refl b key

theorem setNwTos : Effect (setNwTosWrites b key ah) b key (putNwTos b key ah) key := by
  unfold setNwTosWrites putNwTos
  split
  · exact ofMem (.cons16 (.put _ _ rfl))
  · exact refl b key

/-- `set_tp_port`. -/
theorem setTpPort : Effect (setTpPortWrites b key ah) b key (putTpPort b key ah) key := by
  unfold setTpPortWrites putTpPort
  split
  · simp only
    split
    · exact ofMem (.cons16 (.put16 _ _ _))
    · split
      · exact ofMem (.cons16 (.put16 _ _ _))
      · exact refl b key
  · exact refl b key

end Effect

/-- An action that succeeds has the result of its function. -/
theorem execute_eq_ok {σ : Type*} {key : SwFlowKey} {a : List Byte} {s s' : ExecState σ}
    (h : AcceptedAction key a)
    {execute : Ofpbuf → SwFlowKey → List Byte → Except OfpbufFault (Ofpbuf × SwFlowKey)}
    (hex : ofActionsExecute.getD (actionType a).toNat none = some execute)
    (hok : executeAction a s = .ok s') : execute s.buffer s.key a = .ok (s'.buffer, s'.key) := by
  rw [(executeAction_of_execute h hex).2] at hok
  cases hr : execute s.buffer s.key a with
  | error e =>
    rw [hr] at hok
    cases hok
  | ok r =>
    rw [hr] at hok
    cases hok
    rfl

/-- What an accepted action does to a packet is what its function does. -/
theorem executeAction_effect {σ : Type*} {key : SwFlowKey} {a : List Byte} {s s' : ExecState σ}
    (h : AcceptedAction key a) (hok : executeAction a s = .ok s') :
    Effect (actionWrites s.buffer s.key a) s.buffer s.key s'.buffer s'.key := by
  obtain ⟨act, hact, hmin, -⟩ := h.known
  have hlt : (actionType a).toNat < 12 := (List.getElem?_eq_some_iff.1 hact).1
  cases hex : ofActionsExecute.getD (actionType a).toNat none with
  | none =>
    -- outputs write nothing
    obtain ⟨port, prevQueue, maxLen, -, heq⟩ := executeAction_of_output (s := s) h hex
    rw [heq] at hok
    cases hok
    have hnone : ofActionsWrites.getD (actionType a).toNat none = none := by
      generalize (actionType a).toNat = n at *
      match n with
      | 0 | 11 => rfl
      | 1 | 2 | 3 | 4 | 5 | 6 | 7 | 8 | 9 | 10 => cases hex
      | n + 12 => omega
    rw [actionWrites, hnone]
    exact .refl _ _
  | some execute =>
    have hdone := execute_eq_ok h hex hok
    rw [actionWrites]
    -- the tables of functions and of writes agree, number by number
    generalize (actionType a).toNat = n at *
    match n with
    | 0 | 11 => cases hex
    | 1 | 2 =>
      cases hex
      exact .modifyVlanTci hdone
    | 3 =>
      cases hex
      obtain ⟨hb, hkey⟩ := Prod.mk.inj (Except.ok.inj hdone)
      rw [← hb, ← hkey]
      exact .stripVlan
    | 4 | 5 =>
      cases hex
      cases hact
      obtain ⟨hb, hkey⟩ := Prod.mk.inj (Except.ok.inj hdone)
      rw [← hb, ← hkey]
      exact .setDlAddr (by simp only at hmin; omega)
    | 6 | 7 =>
      cases hex
      obtain ⟨hb, hkey⟩ := Prod.mk.inj (Except.ok.inj hdone)
      rw [← hb, ← hkey]
      exact .setNwAddr
    | 8 =>
      cases hex
      obtain ⟨hb, hkey⟩ := Prod.mk.inj (Except.ok.inj hdone)
      rw [← hb, ← hkey]
      exact .setNwTos
    | 9 | 10 =>
      cases hex
      obtain ⟨hb, hkey⟩ := Prod.mk.inj (Except.ok.inj hdone)
      rw [← hb, ← hkey]
      exact .setTpPort
    | n + 12 => omega

/-! ### When the writes are inside -/

/-- `OFPAT_SET_DL_DST`: Ethernet destination address. -/
def ofpatSetDlDst : BitVec 16 := 5

/-- `OFPAT_SET_NW_DST`: IP destination address. -/
def ofpatSetNwDst : BitVec 16 := 7

/-- `OFPAT_SET_NW_TOS`: IP ToS. -/
def ofpatSetNwTos : BitVec 16 := 8

/-- `OFPAT_SET_TP_DST`: TCP/UDP destination port. -/
def ofpatSetTpDst : BitVec 16 := 10

/-- Something that reaches so far behind a position ends at `tail` at the latest, unless it reaches
nowhere. -/
def InReach (pos reach tail : ℕ) : Prop := reach = 0 ∨ pos + reach ≤ tail

/-- How far behind the start of a packet an action writes. -/
def TagRoom.reach (t : TagRoom) (a : List Byte) : ℕ :=
  if setsVlan a then if t.tagged then 16 else 14
  else if actionType a = ofpatStripVlan then if t.tags 0 then 18 else 0
  else if actionType a = ofpatSetDlSrc then 12
  else if actionType a = ofpatSetDlDst then 6
  else 0

/-- How far behind the network header of an IP packet an action writes. -/
def networkReach (a : List Byte) : ℕ :=
  if actionType a = ofpatSetNwSrc then 16
  else if actionType a = ofpatSetNwDst then 20
  else if actionType a = ofpatSetNwTos then 12
  else 0

/-- The action sets an address of an IP packet. -/
def setsNwAddr (a : List Byte) : Bool :=
  actionType a == ofpatSetNwSrc || actionType a == ofpatSetNwDst

/-- The action sets a port. -/
def setsTpPort (a : List Byte) : Bool :=
  actionType a == ofpatSetTpSrc || actionType a == ofpatSetTpDst

/-- How far behind the transport header of an IP packet an action writes. A new address leaves a UDP
checksum of zero alone. -/
def transportReach (nwProto : BitVec 8) (udpCsum : BitVec 16) (a : List Byte) : ℕ :=
  if nwProto = ipTypeTcp then if setsNwAddr a || setsTpPort a then 18 else 0
  else if nwProto = ipTypeUdp then
    if setsNwAddr a && udpCsum != 0 || setsTpPort a then 8 else 0
  else 0

/-- The packet is long enough for an action, if it is in front of the list. -/
structure Fits (p : Ofpbuf) (flow : Flow) (t : TagRoom) (a : List Byte) : Prop where
  /-- Behind the start of the frame, wherever the actions before have put it. -/
  frame : InReach t.headroom (t.reach a) p.tail
  /-- Behind the network header. -/
  network : flow.dlType = ethTypeIp → InReach p.l3Pos (networkReach a) p.tail
  /-- Behind the transport header. -/
  transport : flow.dlType = ethTypeIp →
    InReach p.l4Pos (transportReach flow.nwProto (p.mem.get16 (p.l4Pos + 6)) a) p.tail

/-- The packet is long enough for a list of actions, up to a tag for which there is no room in front
of it. -/
def AllFit (p : Ofpbuf) (flow : Flow) : TagRoom → List (List Byte) → Prop
  | _, [] => True
  | t, a :: as =>
      (setsVlan a = true ∧ t.tagged = false ∧ t.headroom < vlanHeaderLen) ∨
        Fits p flow t a ∧ AllFit p flow (t.act a) as

/-- What the actions of a list have left of a packet. -/
structure Descends (p : Ofpbuf) (flow : Flow) (b : Ofpbuf) (key : SwFlowKey) : Prop where
  /-- Its headers are where its key says. -/
  framed : b.Framed key
  /-- It ends where it did. -/
  tail : b.tail = p.tail
  /-- The network header is where it was. -/
  l3Pos : b.l3Pos = p.l3Pos
  /-- The transport header is where it was. -/
  l4Pos : b.l4Pos = p.l4Pos
  /-- The Ethernet type is the one of the packet. -/
  dlType : key.flow.dlType = flow.dlType
  /-- The IP protocol is the one of the packet. -/
  nwProto : key.flow.nwProto = flow.nwProto
  /-- A transport header is behind a whole IP header. -/
  options : flow.dlType = ethTypeIp → flow.nwProto = ipTypeTcp ∨ flow.nwProto = ipTypeUdp →
    p.l3Pos + ipHeaderLen ≤ p.l4Pos
  /-- The UDP checksum is the one of the packet, or inside it. -/
  csum : flow.dlType = ethTypeIp → flow.nwProto = ipTypeUdp →
    b.mem.get16 (p.l4Pos + 6) = p.mem.get16 (p.l4Pos + 6) ∨ p.l4Pos + 8 ≤ p.tail

namespace Descends

variable {p b : Ofpbuf} {flow : Flow} {key : SwFlowKey} {a : List Byte}

/-- The network header is behind the header of the frame. -/
theorem frame_le (h : Descends p flow b key) (hip : flow.dlType = ethTypeIp) :
    b.data + ethHeaderLen ≤ p.l3Pos := by
  obtain ⟨k, -, hle⟩ := h.framed.network (h.dlType.trans hip)
  rw [h.framed.l2Pos_eq, h.l3Pos] at hle
  exact le_trans (Nat.le_add_right _ _) hle

variable {b' : Ofpbuf}

/-- The writes of `modify_vlan_tci` are inside the packet exactly if the frame is long enough. -/
theorem contains_modifyVlanTci (h : Descends p flow b key) (htail : b'.tail = p.tail)
    (hdata : b'.data = ((b.tagRoom key).setVlan).headroom)
    (hroom : (b.tagRoom key).tagged = false → vlanHeaderLen ≤ b.data) :
    (∀ w ∈ modifyVlanTciWrites b key a, b'.Contains w) ↔
      InReach b.data (if (b.tagRoom key).tagged then 16 else 14) p.tail := by
  have hl2 := h.framed.l2Pos_eq
  have htagged : (b.tagRoom key).tagged = (key.flow.dlVlan != ofpVlanNone) := rfl
  unfold TagRoom.setVlan at hdata
  unfold modifyVlanTciWrites InReach
  cases htag : (b.tagRoom key).tagged with
  | true =>
    rw [htag] at hdata
    rw [if_pos (bne_iff_ne.1 (htagged.symm.trans htag)), List.forall_mem_singleton]
    change b'.data = b.data at hdata
    change b'.data ≤ b.l2Pos + 14 ∧ b.l2Pos + 14 + 2 ≤ b'.tail ↔ 16 = 0 ∨ b.data + 16 ≤ p.tail
    omega
  | false =>
    have hnone : ¬ key.flow.dlVlan ≠ ofpVlanNone := by
      rw [← bne_iff_ne, ← htagged, htag]
      exact Bool.false_ne_true
    have hroom : 4 ≤ b.data := hroom htag
    rw [htag] at hdata
    rw [if_neg hnone, List.forall_mem_singleton]
    change b'.data = b.data - 4 at hdata
    change b'.data ≤ b.data - 4 ∧ b.data - 4 + 18 ≤ b'.tail ↔ 14 = 0 ∨ b.data + 14 ≤ p.tail
    omega

/-- The write of `strip_vlan` is inside the packet exactly if there is a header behind the tag. -/
theorem contains_stripVlan (htail : b'.tail = p.tail)
    (hdata : b'.data = ((b.tagRoom key).strip).headroom) :
    (∀ w ∈ stripVlanWrites b key a, b'.Contains w) ↔
      InReach b.data (if (b.tagRoom key).tags 0 then 18 else 0) p.tail := by
  have htags : (b.tagRoom key).tags 0 = decide (b.ethType = ethTypeVlan) := Ofpbuf.tags_zero
  unfold TagRoom.strip at hdata
  unfold stripVlanWrites InReach
  by_cases hvlan : b.ethType = ethTypeVlan
  · rw [htags, decide_eq_true hvlan] at hdata ⊢
    rw [if_pos hvlan, List.forall_mem_singleton]
    change b'.data = b.data + 4 at hdata
    change b'.data ≤ b.data + 4 ∧ b.data + 4 + 14 ≤ b'.tail ↔ 18 = 0 ∨ b.data + 18 ≤ p.tail
    omega
  · rw [htags, decide_eq_false hvlan, if_neg hvlan]
    simp

/-- The write of `set_dl_addr` is inside the packet exactly if the address is. -/
theorem contains_setDlAddr (h : Descends p flow b key) (htail : b'.tail = p.tail)
    (hdata : b'.data = b.data) :
    (∀ w ∈ setDlAddrWrites b key a, b'.Contains w) ↔
      InReach b.data (if actionType a = ofpatSetDlSrc then 12 else 6) p.tail := by
  have hl2 := h.framed.l2Pos_eq
  unfold setDlAddrWrites InReach
  rw [List.forall_mem_singleton, Ofpbuf.contains_mk]
  split <;> simp only [OfNat.ofNat_ne_zero, false_or] <;> omega

/-- The transport checksum that `set_nw_addr` writes is inside the packet exactly if the packet is
long enough for it, unless it is a UDP checksum of zero. -/
theorem contains_addrCsum (h : Descends p flow b key) (hip : flow.dlType = ethTypeIp)
    (htail : b'.tail = p.tail) (hdata : b'.data = b.data) :
    (∀ w ∈ addrCsumWrites b flow.nwProto, b'.Contains w) ↔
      InReach p.l4Pos (if flow.nwProto = ipTypeTcp then 18
        else if flow.nwProto = ipTypeUdp then
          if p.mem.get16 (p.l4Pos + 6) ≠ 0 then 8 else 0
        else 0) p.tail := by
  have hframe : b.data + 14 ≤ p.l3Pos := h.frame_le hip
  unfold addrCsumWrites InReach
  rw [h.l4Pos]
  by_cases htcp : flow.nwProto = ipTypeTcp
  · have hopts : p.l3Pos + 20 ≤ p.l4Pos := h.options hip (.inl htcp)
    rw [if_pos htcp, if_pos htcp, List.forall_mem_singleton, Ofpbuf.contains_mk]
    omega
  · rw [if_neg htcp, if_neg htcp]
    by_cases hudp : flow.nwProto = ipTypeUdp
    · have hopts : p.l3Pos + 20 ≤ p.l4Pos := h.options hip (.inr hudp)
      rw [if_pos hudp, if_pos hudp]
      rcases h.csum hip hudp with hcsum | hinside
      · rw [hcsum]
        split
        · rw [List.forall_mem_singleton, Ofpbuf.contains_mk]
          omega
        · simp
      · -- a checksum inside the packet is in reach in any case
        refine ⟨fun _ => ?_, fun _ w hw => ?_⟩
        · split <;> omega
        · split at hw
          · rw [List.mem_singleton.1 hw, Ofpbuf.contains_mk]
            omega
          · cases hw
    · rw [if_neg hudp, if_neg hudp]
      simp

/-- The writes of `set_nw_addr` are inside the packet exactly if the address and the transport
checksum are. -/
theorem contains_setNwAddr (h : Descends p flow b key) (htail : b'.tail = p.tail)
    (hdata : b'.data = b.data) :
    (∀ w ∈ setNwAddrWrites b key a, b'.Contains w) ↔ (flow.dlType = ethTypeIp →
      InReach p.l3Pos (if actionType a = ofpatSetNwSrc then 16 else 20) p.tail ∧
        InReach p.l4Pos (if flow.nwProto = ipTypeTcp then 18
          else if flow.nwProto = ipTypeUdp then
            if p.mem.get16 (p.l4Pos + 6) ≠ 0 then 8 else 0
          else 0) p.tail) := by
  unfold setNwAddrWrites
  rw [h.dlType, h.nwProto, h.l3Pos]
  by_cases hip : flow.dlType = ethTypeIp
  · have hframe : b.data + 14 ≤ p.l3Pos := h.frame_le hip
    rw [if_pos hip, List.forall_mem_append, h.contains_addrCsum hip htail hdata, and_comm,
      forall_prop_of_true hip, List.forall_mem_cons, List.forall_mem_singleton]
    refine and_congr_left fun _ => ?_
    rw [Ofpbuf.contains_mk, Ofpbuf.contains_mk]
    unfold InReach
    split <;> simp only [OfNat.ofNat_ne_zero, false_or] <;> omega
  · rw [if_neg hip]
    simp [hip]

/-- The writes of `set_nw_tos` are inside the packet exactly if the header checksum is. -/
theorem contains_setNwTos (h : Descends p flow b key) (htail : b'.tail = p.tail)
    (hdata : b'.data = b.data) :
    (∀ w ∈ setNwTosWrites b key a, b'.Contains w) ↔
      (flow.dlType = ethTypeIp → InReach p.l3Pos 12 p.tail) := by
  unfold setNwTosWrites InReach
  rw [h.dlType, h.l3Pos]
  by_cases hip : flow.dlType = ethTypeIp
  · have hframe : b.data + 14 ≤ p.l3Pos := h.frame_le hip
    rw [if_pos hip, forall_prop_of_true hip, List.forall_mem_cons, List.forall_mem_singleton,
      Ofpbuf.contains_mk, Ofpbuf.contains_mk]
    omega
  · rw [if_neg hip]
    simp [hip]

/-- The writes of `set_tp_port` are inside the packet exactly if the transport checksum is. -/
theorem contains_setTpPort (h : Descends p flow b key) (htail : b'.tail = p.tail)
    (hdata : b'.data = b.data) :
    (∀ w ∈ setTpPortWrites b key a, b'.Contains w) ↔ (flow.dlType = ethTypeIp →
      InReach p.l4Pos (if flow.nwProto = ipTypeTcp then 18
        else if flow.nwProto = ipTypeUdp then 8 else 0) p.tail) := by
  unfold setTpPortWrites InReach
  rw [h.dlType, h.nwProto, h.l4Pos]
  by_cases hip : flow.dlType = ethTypeIp
  · have hframe : b.data + 14 ≤ p.l3Pos := h.frame_le hip
    have hfield : (if actionType a = ofpatSetTpSrc then 0 else 2) ≤ 2 := by split <;> omega
    rw [if_pos hip, forall_prop_of_true hip]
    by_cases htcp : flow.nwProto = ipTypeTcp
    · have hopts : p.l3Pos + 20 ≤ p.l4Pos := h.options hip (.inl htcp)
      simp only [if_pos htcp]
      rw [List.forall_mem_cons, List.forall_mem_singleton, Ofpbuf.contains_mk, Ofpbuf.contains_mk]
      omega
    · by_cases hudp : flow.nwProto = ipTypeUdp
      · have hopts : p.l3Pos + 20 ≤ p.l4Pos := h.options hip (.inr hudp)
        simp only [if_neg htcp, if_pos hudp]
        rw [List.forall_mem_cons, List.forall_mem_singleton, Ofpbuf.contains_mk, Ofpbuf.contains_mk]
        omega
      · simp [htcp, hudp]
  · rw [if_neg hip]
    simp [hip]

/-- The writes of an action are inside the packet exactly if the packet is long enough for it. -/
theorem contains_iff (h : Descends p flow b key) (hlt : (actionType a).toNat < 12)
    (hroom : setsVlan a = true → (b.tagRoom key).tagged = false → vlanHeaderLen ≤ b.data)
    (htail : b'.tail = p.tail) (hdata : b'.data = ((b.tagRoom key).act a).headroom) :
    (∀ w ∈ actionWrites b key a, b'.Contains w) ↔ Fits p flow (b.tagRoom key) a := by
  have htype : actionType a = BitVec.ofNat 16 (actionType a).toNat := by simp
  have hfits : Fits p flow (b.tagRoom key) a ↔
      InReach b.data ((b.tagRoom key).reach a) p.tail ∧
        (flow.dlType = ethTypeIp → InReach p.l3Pos (networkReach a) p.tail) ∧
        (flow.dlType = ethTypeIp →
          InReach p.l4Pos (transportReach flow.nwProto (p.mem.get16 (p.l4Pos + 6)) a) p.tail) :=
    ⟨fun hf => ⟨hf.frame, hf.network, hf.transport⟩, fun hf => ⟨hf.1, hf.2.1, hf.2.2⟩⟩
  have hnowhere : ∀ pos tail, InReach pos 0 tail := fun _ _ => .inl rfl
  rw [hfits, actionWrites]
  unfold TagRoom.reach networkReach transportReach setsNwAddr setsTpPort
  unfold TagRoom.act at hdata
  have hset : setsVlan a = (actionType a == ofpatSetVlanVid || actionType a == ofpatSetVlanPcp) :=
    rfl
  rw [hset] at hroom hdata ⊢
  -- one case for each function of the table
  generalize (actionType a).toNat = n at htype hlt
  rw [htype] at hroom hdata ⊢
  match n with
  | 0 | 11 => simp +decide [ofActionsWrites, hnowhere]
  | 1 | 2 =>
    refine (h.contains_modifyVlanTci htail hdata (hroom rfl)).trans ?_
    simp +decide [hnowhere]
  | 3 =>
    refine (contains_stripVlan htail hdata).trans ?_
    simp +decide [hnowhere]
  | 4 | 5 =>
    refine (h.contains_setDlAddr htail hdata).trans ?_
    simp +decide [hnowhere, htype]
  | 6 | 7 =>
    refine (h.contains_setNwAddr htail hdata).trans ?_
    simp +decide [hnowhere, htype, ← imp_and]
  | 8 =>
    refine (h.contains_setNwTos htail hdata).trans ?_
    simp +decide [hnowhere]
  | 9 | 10 =>
    refine (h.contains_setTpPort htail hdata).trans ?_
    simp +decide [hnowhere]
  | n + 12 => omega

/-- An action on a UDP packet writes the whole checksum or nothing of it. -/
theorem writes_udpCsum (h : Descends p flow b key) (hip : flow.dlType = ethTypeIp)
    (hudp : flow.nwProto = ipTypeUdp) (hlt : (actionType a).toNat < 12) :
    ⟨p.l4Pos + 6, 2⟩ ∈ actionWrites b key a ∨ ∀ w ∈ actionWrites b key a,
      p.l4Pos + 6 + 2 ≤ w.off ∨ w.off + w.len ≤ p.l4Pos + 6 := by
  have hframe : b.data + 14 ≤ p.l3Pos := h.frame_le hip
  have hopts : p.l3Pos + 20 ≤ p.l4Pos := h.options hip (.inr hudp)
  have hl2 := h.framed.l2Pos_eq
  have hkip : key.flow.dlType = ethTypeIp := h.dlType.trans hip
  have hkudp : key.flow.nwProto = ipTypeUdp := h.nwProto.trans hudp
  have htcp : ¬ key.flow.nwProto = ipTypeTcp := by
    rw [hkudp]
    decide
  have hone : ∀ off len, off + len ≤ p.l4Pos + 6 → ∀ w ∈ [(⟨off, len⟩ : Write)],
      p.l4Pos + 6 + 2 ≤ w.off ∨ w.off + w.len ≤ p.l4Pos + 6 := by
    intro off len hle w hw
    rw [List.mem_singleton.1 hw]
    exact .inr hle
  unfold actionWrites
  generalize (actionType a).toNat = n at hlt
  match n with
  | 0 | 11 => exact .inr fun w hw => absurd hw List.not_mem_nil
  | 1 | 2 =>
    -- what is in front of the IP header is in front of the checksum
    change _ ∈ modifyVlanTciWrites b key a ∨ ∀ w ∈ modifyVlanTciWrites b key a, _
    unfold modifyVlanTciWrites vlanHeaderLen
    right
    split
    · exact hone _ _ (by omega)
    · exact hone _ _ (by omega)
  | 3 =>
    change _ ∈ stripVlanWrites b key a ∨ ∀ w ∈ stripVlanWrites b key a, _
    unfold stripVlanWrites vlanHeaderLen ethHeaderLen
    right
    split
    · exact hone _ _ (by omega)
    · exact fun w hw => absurd hw List.not_mem_nil
  | 4 | 5 =>
    change _ ∈ setDlAddrWrites b key a ∨ ∀ w ∈ setDlAddrWrites b key a, _
    unfold setDlAddrWrites
    right
    split
    · exact hone _ _ (by omega)
    · exact hone _ _ (by omega)
  | 6 | 7 =>
    -- a checksum that is zero has not been computed, and stays
    change _ ∈ setNwAddrWrites b key a ∨ ∀ w ∈ setNwAddrWrites b key a, _
    unfold setNwAddrWrites addrCsumWrites
    rw [if_pos hkip, if_neg htcp, if_pos hkudp, h.l4Pos, h.l3Pos]
    split
    · exact .inl List.mem_cons_self
    · right
      have hfield : (if actionType a = ofpatSetNwSrc then 12 else 16) ≤ 16 := by split <;> omega
      rw [List.nil_append, List.forall_mem_cons]
      exact ⟨.inr (by simp only; omega), hone _ _ (by omega)⟩
  | 8 =>
    change _ ∈ setNwTosWrites b key a ∨ ∀ w ∈ setNwTosWrites b key a, _
    unfold setNwTosWrites
    right
    rw [if_pos hkip, h.l3Pos, List.forall_mem_cons]
    exact ⟨.inr (by simp only; omega), hone _ _ (by omega)⟩
  | 9 | 10 =>
    change _ ∈ setTpPortWrites b key a ∨ ∀ w ∈ setTpPortWrites b key a, _
    unfold setTpPortWrites
    left
    simp only [if_pos hkip, if_neg htcp, if_pos hkudp, h.l4Pos, List.mem_cons_self]
  | n + 12 => omega

/-- An action that writes inside the packet leaves a packet of the same shape. -/
theorem step (h : Descends p flow b key) {key' : SwFlowKey} (hlt : (actionType a).toNat < 12)
    (heff : Effect (actionWrites b key a) b key b' key') (hframed : b'.Framed key')
    (hinside : ∀ w ∈ actionWrites b key a, b'.Contains w) : Descends p flow b' key' where
  framed := hframed
  tail := heff.tail.trans h.tail
  l3Pos := by rw [← h.l3Pos, Ofpbuf.l3Pos, Ofpbuf.l3Pos, heff.l3]
  l4Pos := by rw [← h.l4Pos, Ofpbuf.l4Pos, Ofpbuf.l4Pos, heff.l4]
  dlType := heff.dlType.trans h.dlType
  nwProto := heff.nwProto.trans h.nwProto
  options := h.options
  csum hip hudp := by
    rcases h.writes_udpCsum hip hudp hlt with hmem | hout
    · right
      have hle := (hinside _ hmem).2
      rw [heff.tail, h.tail] at hle
      exact hle
    · rcases h.csum hip hudp with hcsum | hle
      · exact .inl ((heff.written.get16_eq_of_outside hout).trans hcsum)
      · exact .inr hle

/-- Going through a list of accepted actions, every write is inside the packet exactly if the packet
is long enough for the list. -/
theorem writesInside_iff {σ : Type*} {key' : SwFlowKey} {as : List (List Byte)}
    (has : ∀ a ∈ as, AcceptedAction key' a) {s : ExecState σ}
    (h : Descends p flow s.buffer s.key) :
    WritesInside s as ↔ AllFit p flow (s.buffer.tagRoom s.key) as := by
  induction as generalizing s with
  | nil => exact Iff.rfl
  | cons a as ih =>
    have ha := has a List.mem_cons_self
    have ih := fun {s} => @ih (fun x hx => has x (List.mem_cons_of_mem _ hx)) s
    obtain ⟨act, hact, -⟩ := ha.known
    have hlt : (actionType a).toNat < 12 := (List.getElem?_eq_some_iff.1 hact).1
    rw [WritesInside, AllFit]
    by_cases habort : setsVlan a = true ∧ (s.buffer.tagRoom s.key).tagged = false ∧
        (s.buffer.tagRoom s.key).headroom < vlanHeaderLen
    · -- no room for the tag
      rw [executeAction_no_room ha habort.1 habort.2.1 habort.2.2]
      exact iff_of_true trivial (.inl habort)
    · have hroom : setsVlan a = true → (s.buffer.tagRoom s.key).tagged = false →
          vlanHeaderLen ≤ (s.buffer.tagRoom s.key).headroom := by
        intro hset htag
        exact Nat.not_lt.1 fun hlt => habort ⟨hset, htag, hlt⟩
      obtain ⟨s', hok, hframed, htags, -, -⟩ := executeAction_framed ha h.framed hroom
      have heff := executeAction_effect ha hok
      have hdata : s'.buffer.data = ((s.buffer.tagRoom s.key).act a).headroom := by
        rw [← htags]
        rfl
      have hinside := h.contains_iff hlt hroom (heff.tail.trans h.tail) hdata
      rw [hok, or_iff_right habort, ← htags]
      change (_ ∧ WritesInside s' as) ↔ _
      rw [← hinside]
      exact and_congr_right fun hin => ih (h.step hlt heff hframed hin)

end Descends

/-! ### Packets in front of a list -/

/-- A packet descends from itself. -/
theorem descends_flowExtract (packet : Ofpbuf) (inPort : BitVec 16) :
    Descends (flowExtract packet inPort).2.2 (packetFlow packet inPort)
      (flowExtract packet inPort).2.2 (packetKey (packetFlow packet inPort)) where
  framed := framed_flowExtract packet inPort
  tail := rfl
  l3Pos := rfl
  l4Pos := rfl
  dlType := rfl
  nwProto := rfl
  options := options_flowExtract packet inPort
  csum _ _ := .inl rfl

/-- On a list that `validate_actions` accepts, for whatever key, every action writes inside the
packet exactly if the packet is long enough for the headers that the actions change. -/
theorem writesInside_iff_allFit {σ : Type*} (packet : Ofpbuf) (inPort : BitVec 16)
    (key : SwFlowKey) (actions : List Byte) (world : σ)
    (h : validateActions key actions = actValidationOk) :
    (let p := (flowExtract packet inPort).2.2
    let flow := packetFlow packet inPort
    WritesInside (.init p (packetKey flow) world) (actionItems actions) ↔
      AllFit p flow (p.tagRoom (packetKey flow)) (actionItems actions)) :=
  (descends_flowExtract packet inPort).writesInside_iff (actionItems_spec h).2

/-- A frame of an IP fragment of TCP behind the first, with the given payload. -/
def fragmentFrame (payload : List Byte) : List Byte :=
  [2, 0, 0, 0, 0, 1, 2, 0, 0, 0, 0, 2, 0x08, 0x00] ++
    [0x45, 0, 0, 28, 0, 1, 0, 1, 64, 6, 0, 0, 10, 0, 0, 1, 10, 0, 0, 2] ++ payload

/-- The action that sets the destination port to 80. -/
def setTpDstAction : List Byte := [0, 10, 0, 8, 0, 80, 0, 0]

/-- With 18 bytes of payload the write is inside the packet. -/
theorem writesInside_fragmentFrame :
    (let key := flowExtractMatch { OfpMatch.zero with wildcards := ofpfwAll }
    let packet := Ofpbuf.cloneData (fragmentFrame (List.replicate 18 0))
    validateActions key setTpDstAction = actValidationOk ∧
      WritesInside (.init (flowExtract packet 1).2.2 (packetKey (packetFlow packet 1)) ())
        (actionItems setTpDstAction)) := by
  have hval : validateActions (flowExtractMatch { OfpMatch.zero with wildcards := ofpfwAll })
      setTpDstAction = actValidationOk := by decide
  have hitems : actionItems setTpDstAction = [setTpDstAction] := by decide
  refine ⟨hval, (writesInside_iff_allFit _ 1 _ _ () hval).2 ?_⟩
  rw [hitems]
  exact .inr ⟨⟨.inl rfl, fun _ => .inl rfl, fun _ => .inr (by decide +kernel)⟩, trivial⟩

/-- With 8 bytes of payload, the least that a fragment can have, the checksum is written behind the
end of the packet. -/
theorem not_writesInside_fragmentFrame :
    ¬ ∀ (packet : Ofpbuf) (inPort : BitVec 16) (key : SwFlowKey) (actions : List Byte),
      validateActions key actions = actValidationOk →
        WritesInside
          (.init (flowExtract packet inPort).2.2 (packetKey (packetFlow packet inPort)) ())
          (actionItems actions) := by
  intro hall
  have hitems : actionItems setTpDstAction = [setTpDstAction] := by decide
  have hinside := hall (.cloneData (fragmentFrame (List.replicate 8 0))) 1
    (flowExtractMatch { OfpMatch.zero with wildcards := ofpfwAll }) setTpDstAction (by decide)
  rw [hitems] at hinside
  have hcsum := (hinside.1 ⟨50, 2⟩ (by decide +kernel)).2
  exact absurd hcsum (by decide +kernel)

end OfAgent
