import OfAgent.Packet.Ports

/-!
# VLAN tags and headroom

Actions add a VLAN tag in front of a packet, for which they take headroom, and take tags off, which
gives headroom back. How much is left does not depend on the rest of the packet.

* `TagRoom`: the headroom of a packet, whether its key has a VLAN, and the tags that it starts
  with; `TagRoom.act`: what an action does to them.
* `RoomFor`: going through a list of actions, the headroom is enough for every push.
* `tagRoom`: the tags and the headroom of a packet.
* `Framed`: where the headers of a packet are; `framed_flowExtract`, `executeAction_framed`: after
  the extraction of the flow, and after an action, which does to the tags what `TagRoom.act` says.
-/

namespace OfAgent

/-- What decides whether there is room in front of a packet. -/
structure TagRoom where
  /-- The headroom. -/
  headroom : ℕ
  /-- The key of the packet has a VLAN. -/
  tagged : Bool
  /-- The packet starts with more than so many VLAN tags. -/
  tags : ℕ → Bool

/-- The action sets a field of the VLAN tag. -/
def setsVlan (a : List Byte) : Bool :=
  actionType a == ofpatSetVlanVid || actionType a == ofpatSetVlanPcp

/-- `OFPAT_STRIP_VLAN`: strip the 802.1q header. -/
def ofpatStripVlan : BitVec 16 := 3

namespace TagRoom

variable (t : TagRoom)

/-- A tag is put in front of a packet whose key has no VLAN. -/
def setVlan : TagRoom :=
  if t.tagged then t
  else
    { headroom := t.headroom - vlanHeaderLen, tagged := true
      tags := fun | 0 => true | i + 1 => t.tags i }

/-- A tag is taken off, if the packet starts with one; in any case the key has no VLAN then. -/
def strip : TagRoom :=
  if t.tags 0 then
    { headroom := t.headroom + vlanHeaderLen, tagged := false, tags := fun i => t.tags (i + 1) }
  else { t with tagged := false }

/-- What an action does. -/
def act (a : List Byte) : TagRoom :=
  if setsVlan a then t.setVlan else if actionType a = ofpatStripVlan then t.strip else t

end TagRoom

/-- There is room for every push of a list of actions: for a tag where an action sets the VLAN of a
packet without one, and for the message where the packet goes to the controller, which has to be
the end of the list, because only the last output gets the packet itself. -/
def RoomFor : TagRoom → List (List Byte) → Prop
  | _, [] => True
  | t, a :: as =>
      (setsVlan a = true → t.tagged = false → vlanHeaderLen ≤ t.headroom) ∧
        (outputsTo ofppController a = true → as = [] ∧ offsetofOfpPacketInData ≤ t.headroom) ∧
        RoomFor (t.act a) as

/-- A packet with room for a message and a tag, or for a message only behind a tag of its own. -/
def TagRoom.Ample (t : TagRoom) : Prop :=
  22 ≤ t.headroom ∨ 18 ≤ t.headroom ∧ t.tagged = true ∧ t.tags 0 = true

/-- No action takes the last of the room. -/
theorem TagRoom.Ample.act {t : TagRoom} (h : t.Ample) (a : List Byte) : (t.act a).Ample := by
  unfold TagRoom.act
  split
  next =>
    -- a tag takes four bytes of the room, once
    unfold setVlan
    split
    next => exact h
    next htag =>
      rcases h with h | ⟨-, h, -⟩
      · right
        refine ⟨?_, rfl, rfl⟩
        change 18 ≤ t.headroom - 4
        omega
      · exact absurd h htag
  next =>
    split
    next =>
      -- and gives them back
      unfold strip
      split
      next =>
        left
        change 22 ≤ t.headroom + 4
        rcases h with h | ⟨h, -⟩ <;> omega
      next htags =>
        rcases h with h | ⟨-, -, h⟩
        · exact .inl h
        · exact absurd h htags
    next => exact h

/-- With the headroom of a received packet only a packet that goes to the controller before the end
of the list is a problem. -/
theorem roomFor_iff_of_ample {t : TagRoom} (h : t.Ample) (as : List (List Byte)) :
    RoomFor t as ↔ ∀ pre a post, as = pre ++ a :: post → outputsTo ofppController a = true →
      post = [] := by
  induction as generalizing t with
  | nil => simp [RoomFor]
  | cons a as ih =>
    have hmsg : offsetofOfpPacketInData ≤ t.headroom := by
      change 18 ≤ t.headroom
      rcases h with h | ⟨h, -⟩ <;> omega
    have htag : t.tagged = false → vlanHeaderLen ≤ t.headroom :=
      fun _ => le_trans (by decide) hmsg
    rw [RoomFor, ih (h.act a)]
    constructor
    · rintro ⟨-, hlast, hrest⟩ pre b post heq hb
      cases pre with
      | nil =>
        obtain ⟨rfl, rfl⟩ := List.cons.inj heq
        exact (hlast hb).1
      | cons c pre =>
        obtain ⟨rfl, heq'⟩ := List.cons.inj heq
        exact hrest pre b post heq' hb
    · intro hall
      refine ⟨fun _ => htag, fun ha => ⟨hall [] a as rfl ha, hmsg⟩, ?_⟩
      intro pre b post heq hb
      exact hall (a :: pre) b post (by rw [heq, List.cons_append]) hb

/-! ### The tags of a packet -/

namespace Ofpbuf

/-- The Ethernet type behind the given number of VLAN tags. -/
def typeBehind (b : Ofpbuf) (i : ℕ) : BitVec 16 := b.mem.get16 (b.l2Pos + 12 + 4 * i)

/-- The packet starts with more than `i` VLAN tags. -/
def tags (b : Ofpbuf) (i : ℕ) : Bool := decide (∀ j ≤ i, b.typeBehind j = ethTypeVlan)

/-- The tags of a packet and the room in front of it. -/
def tagRoom (b : Ofpbuf) (key : SwFlowKey) : TagRoom :=
  { headroom := b.headroom, tagged := key.flow.dlVlan != ofpVlanNone, tags := b.tags }

/-- The headers of a packet are where its key says. -/
structure Framed (b : Ofpbuf) (key : SwFlowKey) : Prop where
  /-- The packet begins with its Ethernet header. -/
  l2 : b.l2 = some b.data
  /-- The network header of an IP packet is behind a type that is none of a VLAN. -/
  network : key.flow.dlType = ethTypeIp →
    ∃ k, b.typeBehind k ≠ ethTypeVlan ∧ b.l2Pos + 14 + 4 * k ≤ b.l3Pos
  /-- A transport header is behind the network header. -/
  transport : key.flow.dlType = ethTypeIp →
    key.flow.nwProto = ipTypeTcp ∨ key.flow.nwProto = ipTypeUdp → b.l3Pos ≤ b.l4Pos

variable {b b' : Ofpbuf} {key : SwFlowKey}

theorem Framed.l2Pos_eq (h : b.Framed key) : b.l2Pos = b.data := by
  rw [l2Pos, h.l2, Option.getD_some]

/-- Packets with the same types up to one that is none of a VLAN have the same tags. -/
theorem tags_congr {k : ℕ} (hk : b.typeBehind k ≠ ethTypeVlan)
    (h : ∀ j ≤ k, b'.typeBehind j = b.typeBehind j) : b'.tags = b.tags := by
  funext i
  unfold tags
  by_cases hik : k ≤ i
  · -- neither has that many
    have hk' : b'.typeBehind k ≠ ethTypeVlan := (h k (le_refl k)).symm ▸ hk
    rw [decide_eq_false fun hall => hk' (hall k hik), decide_eq_false fun hall => hk (hall k hik)]
  · congr 1
    refine propext (forall_congr' fun j => forall_congr' fun hj => ?_)
    rw [h j (by omega)]

theorem tags_congr_all (h : ∀ j, b'.typeBehind j = b.typeBehind j) : b'.tags = b.tags := by
  funext i
  unfold tags
  simp only [h]

/-- The tags of a packet that has got one more. -/
theorem tags_push (h0 : b'.typeBehind 0 = ethTypeVlan)
    (h : ∀ j, b'.typeBehind (j + 1) = b.typeBehind j) :
    b'.tags = fun | 0 => true | i + 1 => b.tags i := by
  funext i
  cases i with
  | zero => exact decide_eq_true fun j hj => (Nat.le_zero.1 hj) ▸ h0
  | succ i =>
    unfold tags
    congr 1
    refine propext ⟨fun hall j hj => ?_, fun hall j hj => ?_⟩
    · rw [← h j]
      exact hall (j + 1) (Nat.succ_le_succ hj)
    · cases j with
      | zero => exact h0
      | succ j =>
        rw [h j]
        exact hall j (Nat.le_of_succ_le_succ hj)

/-- The tags of a packet that has lost one. -/
theorem tags_pull (h0 : b.typeBehind 0 = ethTypeVlan)
    (h : ∀ j, b'.typeBehind j = b.typeBehind (j + 1)) : b'.tags = fun i => b.tags (i + 1) := by
  have hpush : b.tags = fun | 0 => true | i + 1 => b'.tags i := tags_push h0 fun j => (h j).symm
  funext i
  rw [hpush]

/-- A packet starts with a tag when its type is the one of a VLAN. -/
theorem tags_zero : b.tags 0 = decide (b.ethType = ethTypeVlan) := by
  unfold tags
  congr 1
  refine propext ⟨fun h => h 0 (le_refl 0), fun h j hj => ?_⟩
  rw [Nat.le_zero.1 hj]
  exact h

/-- The packet is the same below a position, and its headers are where they were. -/
structure SameBelow (n : ℕ) (b b' : Ofpbuf) : Prop where
  /-- The bytes below the position. -/
  mem : ∀ i < n, b'.mem i = b.mem i
  /-- The start of the packet. -/
  data : b'.data = b.data
  /-- The Ethernet header. -/
  l2 : b'.l2 = b.l2
  /-- The network header. -/
  l3 : b'.l3 = b.l3
  /-- The transport header. -/
  l4 : b'.l4 = b.l4

namespace SameBelow

variable {n : ℕ} {b'' : Ofpbuf}

theorem refl (n : ℕ) (b : Ofpbuf) : SameBelow n b b := ⟨fun _ _ => rfl, rfl, rfl, rfl, rfl⟩

/-- One change behind the position after another. -/
theorem trans (h : SameBelow n b b') (h' : SameBelow n b' b'') : SameBelow n b b'' where
  mem i hi := (h'.mem i hi).trans (h.mem i hi)
  data := h'.data.trans h.data
  l2 := h'.l2.trans h.l2
  l3 := h'.l3.trans h.l3
  l4 := h'.l4.trans h.l4

theorem put (n : ℕ) (b : Ofpbuf) {off : ℕ} (h : n ≤ off) (bs : List Byte) :
    SameBelow n b (b.put off bs) where
  mem _ hi := Memory.put_of_outside b.mem (.inl (lt_of_lt_of_le hi h))
  data := rfl
  l2 := rfl
  l3 := rfl
  l4 := rfl

/-- The types in front of the position are the same. -/
theorem typeBehind_eq (h : SameBelow n b b') {j : ℕ} (hj : b.l2Pos + 14 + 4 * j ≤ n) :
    b'.typeBehind j = b.typeBehind j := by
  rw [typeBehind, typeBehind, l2Pos, h.l2]
  change b'.mem.get16 (b.l2Pos + 12 + 4 * j) = _
  rw [Memory.get16, Memory.get16, h.mem _ (by omega), h.mem _ (by omega)]

/-- A change from the network header of an IP packet on leaves its tags alone. -/
theorem framed (h : SameBelow b.l3Pos b b') (hf : b.Framed key)
    (hip : key.flow.dlType = ethTypeIp) :
    b'.Framed key ∧ b'.tagRoom key = b.tagRoom key := by
  obtain ⟨k, hk, hpos⟩ := hf.network hip
  have hl2 : b'.l2Pos = b.l2Pos := by rw [l2Pos, h.l2, l2Pos]
  have hl3 : b'.l3Pos = b.l3Pos := by rw [l3Pos, h.l3, l3Pos]
  have hl4 : b'.l4Pos = b.l4Pos := by rw [l4Pos, h.l4, l4Pos]
  have htypes : ∀ j ≤ k, b'.typeBehind j = b.typeBehind j :=
    fun j hj => h.typeBehind_eq (by omega)
  refine ⟨⟨?_, fun _ => ⟨k, ?_, ?_⟩, fun hip hproto => ?_⟩, ?_⟩
  · rw [h.l2, h.data]
    exact hf.l2
  · rw [htypes k (le_refl k)]
    exact hk
  · rw [hl2, hl3]
    exact hpos
  · rw [hl3, hl4]
    exact hf.transport hip hproto
  · rw [tagRoom, tagRoom, headroom, headroom, h.data, tags_congr hk htypes]

/-- A change of IP packets only, from their network header on, leaves the tags alone. -/
theorem framed_of_ip (h : SameBelow b.l3Pos b b') (hf : b.Framed key)
    (hother : key.flow.dlType ≠ ethTypeIp → b' = b) :
    b'.Framed key ∧ b'.tagRoom key = b.tagRoom key := by
  by_cases hip : key.flow.dlType = ethTypeIp
  · exact h.framed hf hip
  · rw [hother hip]
    exact ⟨hf, rfl⟩

end SameBelow

/-! ### What the actions do to the tags -/

variable {ah : List Byte}

/-- `set_nw_addr` writes from the network header on. -/
theorem sameBelow_putNwAddr (hf : b.Framed key) : SameBelow b.l3Pos b (putNwAddr b key ah) := by
  unfold putNwAddr
  split
  next hip =>
    simp only
    -- the checksum of the transport header is behind the network header
    have hcsum : SameBelow b.l3Pos b (putAddrCsum b key.flow.nwProto
        (b.mem.get32 (b.l3Pos + if actionType ah = ofpatSetNwSrc then 12 else 16))
          (be32 ah 4)) := by
      unfold putAddrCsum
      split
      next htcp =>
        have := hf.transport hip (.inl htcp)
        exact .put _ _ (by omega) _
      next =>
        split
        next hudp =>
          have := hf.transport hip (.inr hudp)
          simp only
          split
          · exact .put _ _ (by omega) _
          · exact .refl _ _
        next => exact .refl _ _
    have hl3 : (putAddrCsum b key.flow.nwProto
        (b.mem.get32 (b.l3Pos + if actionType ah = ofpatSetNwSrc then 12 else 16))
        (be32 ah 4)).l3Pos = b.l3Pos := by
      rw [l3Pos, hcsum.l3, l3Pos]
    rw [hl3]
    exact (hcsum.trans (.put _ _ (by omega) _)).trans (.put _ _ (by omega) _)
  next => exact .refl _ _

/-- `set_nw_tos` writes from the network header on. -/
theorem sameBelow_putNwTos : SameBelow b.l3Pos b (putNwTos b key ah) := by
  unfold putNwTos
  split
  next =>
    simp only
    exact (SameBelow.put _ _ (by omega) _).trans (.put _ _ (Nat.le_add_right _ _) _)
  next => exact .refl _ _

/-- `set_tp_port` writes from the network header on. -/
theorem sameBelow_putTpPort (hf : b.Framed key) : SameBelow b.l3Pos b (putTpPort b key ah) := by
  have hport : b.l3Pos ≤ b.l4Pos → ∀ csum field new,
      SameBelow b.l3Pos b (putPortAt b csum field new) := by
    intro hle csum field new
    exact (SameBelow.put _ _ (by omega) _).trans
      (.put _ _ (Nat.le_trans hle (Nat.le_add_right _ _)) _)
  unfold putTpPort
  split
  next hip =>
    simp only
    split
    next htcp => exact hport (hf.transport hip (.inl htcp)) _ _ _
    next =>
      split
      next hudp => exact hport (hf.transport hip (.inr hudp)) _ _ _
      next => exact .refl _ _
  next => exact .refl _ _

/-- A write into the packet that keeps the types keeps the tags. -/
theorem framed_put (hf : b.Framed key) {off : ℕ} {bs : List Byte}
    (h : ∀ j, (b.put off bs).typeBehind j = b.typeBehind j) :
    (b.put off bs).Framed key ∧ (b.put off bs).tagRoom key = b.tagRoom key := by
  refine ⟨⟨hf.l2, fun hip => ?_, hf.transport⟩, ?_⟩
  · obtain ⟨k, hk, hpos⟩ := hf.network hip
    exact ⟨k, (h k).symm ▸ hk, hpos⟩
  · rw [tagRoom, tagRoom, tags_congr_all h]
    rfl

/-- `set_dl_addr` leaves the tags alone. -/
theorem framed_putDlAddr (hf : b.Framed key) :
    (putDlAddr b ah).Framed key ∧ (putDlAddr b ah).tagRoom key = b.tagRoom key := by
  have hlen : (ah.extract 4 10).length ≤ 6 := by
    simp only [List.extract_eq_take_drop, List.length_take]
    omega
  unfold putDlAddr
  split
  · refine framed_put hf fun j => Memory.get16_put_of_outside b.mem (.inr ?_)
    change b.l2Pos + 6 + _ ≤ b.l2Pos + 12 + 4 * j
    omega
  · refine framed_put hf fun j => Memory.get16_put_of_outside b.mem (.inr ?_)
    change b.l2Pos + _ ≤ b.l2Pos + 12 + 4 * j
    omega

/-- A key with the VLAN fields of a tag has a VLAN. -/
theorem setTci_tagged (key : SwFlowKey) (tci : BitVec 16) :
    ((key.setTci tci).flow.dlVlan != ofpVlanNone) = true := by
  have hbit : (vlanVid tci).getLsbD 15 = false := by
    rw [vlanVid, BitVec.getLsbD_and]
    have hmask : vlanVidMask.getLsbD 15 = false := by decide
    rw [hmask, Bool.and_false]
  rw [bne_iff_ne]
  intro h
  change vlanVid tci = ofpVlanNone at h
  rw [h] at hbit
  exact absurd hbit (by decide)

theorem Framed.setTci (h : b.Framed key) (tci : BitVec 16) : b.Framed (key.setTci tci) :=
  ⟨h.l2, h.network, h.transport⟩

theorem Framed.clearVlan (h : b.Framed key) : b.Framed key.clearVlan :=
  ⟨h.l2, h.network, h.transport⟩

/-- The parts of the header that `modify_vlan_tci` puts in front of a packet. -/
theorem taggedHeader_spec (b : Ofpbuf) (tci : BitVec 16) :
    (taggedHeader b tci).length = 18 ∧ be16 (taggedHeader b tci) 12 = ethTypeVlan ∧
      be16 (taggedHeader b tci) 16 = b.ethType := by
  have hlen : (b.mem.slice b.l2Pos 12).length = 12 := Memory.length_slice ..
  have hlen16 : ∀ v, (Memory.bytes16 v).length = 2 := fun v => rfl
  refine ⟨?_, ?_, ?_⟩
  · simp [taggedHeader, hlen16]
  · have h := be16_append_right (b.mem.slice b.l2Pos 12)
      (Memory.bytes16 ethTypeVlan ++ (Memory.bytes16 tci ++ Memory.bytes16 b.ethType)) 0
    rw [hlen, Memory.be16_bytes16] at h
    rw [taggedHeader, List.append_assoc, List.append_assoc]
    exact h
  · have h := be16_append_right
      (b.mem.slice b.l2Pos 12 ++ Memory.bytes16 ethTypeVlan ++ Memory.bytes16 tci)
      (Memory.bytes16 b.ethType ++ []) 0
    have hlen' : (b.mem.slice b.l2Pos 12 ++ Memory.bytes16 ethTypeVlan ++
        Memory.bytes16 tci).length = 16 := by simp [hlen16]
    rw [Memory.be16_bytes16, List.append_nil, hlen'] at h
    exact h

/-- `modify_vlan_tci` on a packet whose key has a VLAN changes its tag in place. -/
theorem modifyVlanTci_tagged (hf : b.Framed key) (tci mask : BitVec 16)
    (htag : (key.flow.dlVlan != ofpVlanNone) = true) :
    ∃ b' key', modifyVlanTci b key tci mask = .ok (b', key') ∧ b'.Framed key' ∧
      b'.tagRoom key' = (b.tagRoom key).setVlan := by
  -- the tag lies between the types
  have htypes : ∀ vethTci j, (b.put (b.l2Pos + 14) (Memory.bytes16 vethTci)).typeBehind j =
      b.typeBehind j := by
    intro vethTci j
    refine Memory.get16_put_of_outside b.mem ?_
    change b.l2Pos + 12 + 4 * j + 2 ≤ b.l2Pos + 14 ∨ b.l2Pos + 14 + 2 ≤ b.l2Pos + 12 + 4 * j
    omega
  have hmod : modifyVlanTci b key tci mask = .ok
      (let vethTci := (b.mem.get16 (b.l2Pos + 14) &&& ~~~mask) ||| tci
      (b.put (b.l2Pos + 14) (Memory.bytes16 vethTci), key.setTci vethTci)) := by
    rw [modifyVlanTci, if_pos (bne_iff_ne.1 htag)]
    rfl
  refine ⟨_, _, hmod, ?_⟩
  generalize (b.mem.get16 (b.l2Pos + 14) &&& ~~~mask) ||| tci = vethTci
  obtain ⟨hframed, hroom⟩ := framed_put hf (htypes vethTci)
  refine ⟨hframed.setTci vethTci, ?_⟩
  simp only [tagRoom, TagRoom.mk.injEq] at hroom ⊢
  rw [TagRoom.setVlan]
  simp only [htag, if_true, hroom, setTci_tagged]

/-- `modify_vlan_tci` on a packet whose key has no VLAN fails without headroom. -/
theorem modifyVlanTci_eq_error (tci mask : BitVec 16)
    (htag : (key.flow.dlVlan != ofpVlanNone) = false) (hroom : b.headroom < vlanHeaderLen) :
    modifyVlanTci b key tci mask = .error .headroom := by
  have hnone : ¬ key.flow.dlVlan ≠ ofpVlanNone := by
    rw [← bne_iff_ne, htag]
    exact Bool.false_ne_true
  rw [modifyVlanTci, if_neg hnone, pushUninit, if_neg (Nat.not_le.2 hroom)]

/-- `modify_vlan_tci` on a packet whose key has no VLAN puts a tag in front of it. -/
theorem modifyVlanTci_untagged (hf : b.Framed key) (tci mask : BitVec 16)
    (htag : (key.flow.dlVlan != ofpVlanNone) = false) (hroom : vlanHeaderLen ≤ b.headroom) :
    ∃ b' key', modifyVlanTci b key tci mask = .ok (b', key') ∧ b'.Framed key' ∧
      b'.tagRoom key' = (b.tagRoom key).setVlan := by
  have hnone : ¬ key.flow.dlVlan ≠ ofpVlanNone := by
    rw [← bne_iff_ne, htag]
    exact Bool.false_ne_true
  obtain ⟨hlen, h12, h16⟩ := taggedHeader_spec b tci
  have hdata := hf.l2Pos_eq
  have h4 : 4 ≤ b.data := hroom
  have hmod : modifyVlanTci b key tci mask = .ok
      ({ b with
          mem := b.mem.put (b.data - 4) (taggedHeader b tci)
          data := b.data - 4, size := b.size + 4, l2 := some (b.l2Pos - 4) }, key.setTci tci) := by
    rw [modifyVlanTci, if_neg hnone, pushUninit, if_pos hroom]
    rfl
  refine ⟨_, _, hmod, ?_⟩
  generalize hb' : ({ b with
      mem := b.mem.put (b.data - 4) (taggedHeader b tci)
      data := b.data - 4, size := b.size + 4, l2 := some (b.l2Pos - 4) } : Ofpbuf) = b'
  have hmem : b'.mem = b.mem.put (b.data - 4) (taggedHeader b tci) := by rw [← hb']
  have hl2 : b'.l2Pos = b.data - 4 := by
    rw [← hb', ← hdata]
    rfl
  have h0 : b'.typeBehind 0 = ethTypeVlan := by
    have hpos : b.data - 4 + 12 + 4 * 0 = b.data - 4 + 12 := by omega
    rw [typeBehind, hl2, hmem, hpos, Memory.get16_put_of_inside _ (by omega), h12]
  -- the old type is written behind the tag, at its place
  have hsucc : ∀ j, b'.typeBehind (j + 1) = b.typeBehind j := by
    intro j
    rw [typeBehind, typeBehind, hl2, hdata, hmem]
    cases j with
    | zero =>
      have hpos : b.data - 4 + 12 + 4 * (0 + 1) = b.data - 4 + 16 := by omega
      rw [hpos, Memory.get16_put_of_inside _ (by omega), h16, ethType, hdata]
    | succ j =>
      have hpos : b.data - 4 + 12 + 4 * (j + 1 + 1) = b.data + 12 + 4 * (j + 1) := by omega
      rw [Memory.get16_put_of_outside _ (by omega), hpos]
  refine ⟨⟨?_, fun hip => ?_, ?_⟩, ?_⟩
  · rw [← hb', ← hdata]
  · obtain ⟨k, hk, hpos⟩ := hf.network hip
    refine ⟨k + 1, ?_, ?_⟩
    · rw [hsucc k]
      exact hk
    · rw [hl2, ← hb']
      change b.data - 4 + 14 + 4 * (k + 1) ≤ b.l3Pos
      omega
  · rw [← hb']
    exact hf.transport
  · rw [tagRoom, tagRoom, TagRoom.setVlan, tags_push h0 hsucc, setTci_tagged, ← hb', htag]
    rfl

/-- `strip_vlan` takes off the tag that a packet starts with. -/
theorem framed_vlanPullTag (hf : b.Framed key) :
    (vlanPullTag b).Framed key.clearVlan ∧
      (vlanPullTag b).tagRoom key.clearVlan = (b.tagRoom key).strip := by
  have hclear : (key.clearVlan.flow.dlVlan != ofpVlanNone) = false := by
    rw [bne_eq_false_iff_eq]
    rfl
  have hdata := hf.l2Pos_eq
  unfold vlanPullTag
  split
  next hvlan =>
    have htags : (b.tagRoom key).tags 0 = true := by
      change b.tags 0 = true
      rw [tags_zero, hvlan]
      exact decide_eq_true rfl
    have hlen : (b.mem.slice b.l2Pos 12 ++ b.mem.slice (b.l2Pos + 16) 2).length = 14 := by simp
    simp only
    generalize hb' : ({ b.put (b.data + vlanHeaderLen)
        (b.mem.slice b.l2Pos 12 ++ b.mem.slice (b.l2Pos + 16) 2) with
      size := subSize b.size vlanHeaderLen
      data := b.data + vlanHeaderLen
      l2 := some (b.l2Pos + vlanHeaderLen) } : Ofpbuf) = b'
    have hmem : b'.mem = b.mem.put (b.data + 4)
        (b.mem.slice b.l2Pos 12 ++ b.mem.slice (b.l2Pos + 16) 2) := by
      rw [← hb']
      rfl
    have hl2 : b'.l2Pos = b.data + 4 := by
      rw [← hb', ← hdata]
      rfl
    -- the header is written over the tag, with the type behind it
    have hsucc : ∀ j, b'.typeBehind j = b.typeBehind (j + 1) := by
      intro j
      rw [typeBehind, typeBehind, hl2, hmem]
      cases j with
      | zero =>
        have hsl : (b.mem.slice b.l2Pos 12).length = 12 := Memory.length_slice ..
        have htype := be16_append_right (b.mem.slice b.l2Pos 12) (b.mem.slice (b.l2Pos + 16) 2) 0
        rw [hsl] at htype
        have hpos : b.data + 4 + 12 + 4 * 0 = b.data + 4 + (12 + 0) := by omega
        rw [hpos, Memory.get16_put_of_inside _ (by omega), htype]
        rfl
      | succ j =>
        have hpos : b.data + 4 + 12 + 4 * (j + 1) = b.l2Pos + 12 + 4 * (j + 1 + 1) := by omega
        rw [Memory.get16_put_of_outside _ (by omega), hpos]
    refine ⟨⟨?_, fun hip => ?_, ?_⟩, ?_⟩
    · rw [← hb', ← hdata]
    · obtain ⟨k, hk, hpos⟩ := hf.network hip
      cases k with
      | zero => exact absurd hvlan hk
      | succ k =>
        refine ⟨k, ?_, ?_⟩
        · rw [hsucc k]
          exact hk
        · rw [hl2, ← hb']
          change b.data + 4 + 14 + 4 * k ≤ b.l3Pos
          omega
    · rw [← hb']
      exact hf.transport
    · rw [TagRoom.strip, htags, if_pos rfl, tagRoom, tags_pull hvlan hsucc, hclear, ← hb']
      rfl
  next hvlan =>
    have htags : (b.tagRoom key).tags 0 = false := by
      change b.tags 0 = false
      rw [tags_zero]
      exact decide_eq_false hvlan
    refine ⟨hf.clearVlan, ?_⟩
    rw [TagRoom.strip, htags, tagRoom, hclear]
    rfl

end Ofpbuf

/-! ### The actions one by one -/

section Actions

variable {σ : Type*} {key : SwFlowKey} {a : List Byte} {s : ExecState σ}

/-- An action with a function of its own does what the function does. -/
theorem executeAction_of_execute (h : AcceptedAction key a)
    {execute : Ofpbuf → SwFlowKey → List Byte → Except OfpbufFault (Ofpbuf × SwFlowKey)}
    (hex : ofActionsExecute.getD (actionType a).toNat none = some execute) :
    actionPort a = none ∧
      executeAction a s =
        match execute s.buffer s.key a with
        | .error e => .error (.ofpbuf e)
        | .ok (buffer, key) => .ok { s with buffer, key } := by
  have hout : actionType a ≠ ofpatOutput := by
    intro htype
    rw [htype] at hex
    cases hex
  have henq : actionType a ≠ ofpatEnqueue := by
    intro htype
    rw [htype] at hex
    cases hex
  obtain ⟨act, hact, hmin, -⟩ := h.known
  constructor
  · rw [actionPort, if_neg (not_or.2 ⟨hout, henq⟩)]
  · rw [executeAction, if_neg hout, if_neg henq, executeOther, hact]
    simp only [hex]
    refine (if_neg (Nat.not_lt.2 hmin)).trans ?_
    cases execute s.buffer s.key a <;> rfl

/-- An action without a function of its own names the port that is left over. -/
theorem executeAction_of_output (h : AcceptedAction key a)
    (hex : ofActionsExecute.getD (actionType a).toNat none = none) :
    ∃ port prevQueue maxLen, actionPort a = some port ∧
      executeAction a s = .ok { s with prevPort := some port, prevQueue, maxLen } := by
  have h8 : 8 ≤ a.length := h.header_le
  obtain ⟨act, hact, hmin, -⟩ := h.known
  rw [executeAction, actionPort]
  by_cases hout : actionType a = ofpatOutput
  · rw [if_pos (.inl hout), if_pos hout, if_neg (by omega)]
    exact ⟨_, _, _, rfl, rfl⟩
  · by_cases henq : actionType a = ofpatEnqueue
    · have h16 := h.length_of_enqueue henq
      rw [if_pos (.inr henq), if_neg hout, if_pos henq, if_neg (by omega)]
      exact ⟨_, _, _, rfl, rfl⟩
    · -- every other type has a function
      exfalso
      have hlt : (actionType a).toNat < 12 := (List.getElem?_eq_some_iff.1 hact).1
      have hout' : (actionType a).toNat ≠ 0 := fun h => hout (BitVec.eq_of_toNat_eq h)
      have henq' : (actionType a).toNat ≠ 11 := fun h => henq (BitVec.eq_of_toNat_eq h)
      generalize (actionType a).toNat = n at *
      match n with
      | 0 => exact hout' rfl
      | 1 | 2 | 3 | 4 | 5 | 6 | 7 | 8 | 9 | 10 => cases hex
      | 11 => exact henq' rfl
      | n + 12 => omega

/-- What an action does, when there is room for its push. -/
theorem executeAction_framed (h : AcceptedAction key a) (hf : s.buffer.Framed s.key)
    (hroom : setsVlan a = true → (s.buffer.tagRoom s.key).tagged = false →
      vlanHeaderLen ≤ (s.buffer.tagRoom s.key).headroom) :
    ∃ s', executeAction a s = .ok s' ∧ s'.buffer.Framed s'.key ∧
      s'.buffer.tagRoom s'.key = (s.buffer.tagRoom s.key).act a ∧
      s'.prevPort = (actionPort a).or s.prevPort ∧ s'.world = s.world := by
  cases hex : ofActionsExecute.getD (actionType a).toNat none with
  | none =>
    obtain ⟨port, prevQueue, maxLen, hport, heq⟩ := executeAction_of_output (s := s) h hex
    refine ⟨_, heq, hf, ?_, ?_, rfl⟩
    · -- an output is no action on the tags
      have hnone : setsVlan a = false ∧ actionType a ≠ ofpatStripVlan := by
        unfold actionPort at hport
        split at hport
        next htype => rcases htype with h | h <;> rw [setsVlan, h] <;> exact ⟨rfl, by decide⟩
        next => cases hport
      rw [TagRoom.act, hnone.1, if_neg hnone.2]
      rfl
    · rw [hport]
      rfl
  | some execute =>
    obtain ⟨hport, heq⟩ := executeAction_of_execute (s := s) h hex
    suffices hdone : ∃ b key', execute s.buffer s.key a = .ok (b, key') ∧ b.Framed key' ∧
        b.tagRoom key' = (s.buffer.tagRoom s.key).act a by
      obtain ⟨b, key', hok, hframed, htags⟩ := hdone
      rw [hok] at heq
      refine ⟨_, heq, hframed, htags, ?_, rfl⟩
      rw [hport]
      rfl
    obtain ⟨act, hact, -⟩ := h.known
    have htype : actionType a = BitVec.ofNat 16 (actionType a).toNat := by simp
    rw [TagRoom.act, setsVlan, htype]
    rw [setsVlan, htype] at hroom
    generalize (actionType a).toNat = n at *
    have hset : ∀ tci mask, (setsVlan a = true) → (∃ b key',
        modifyVlanTci s.buffer s.key tci mask = .ok (b, key') ∧ b.Framed key' ∧
          b.tagRoom key' = (s.buffer.tagRoom s.key).setVlan) := by
      intro tci mask hsets
      cases htag : s.key.flow.dlVlan != ofpVlanNone with
      | true => exact Ofpbuf.modifyVlanTci_tagged hf tci mask htag
      | false =>
        rw [setsVlan, htype] at hsets
        exact Ofpbuf.modifyVlanTci_untagged hf tci mask htag (hroom hsets htag)
    match n with
    | 0 | 11 => cases hex
    | 1 | 2 =>
      cases hex
      exact hset _ _ (by rw [setsVlan, htype]; rfl)
    | 3 =>
      cases hex
      exact ⟨_, _, rfl, Ofpbuf.framed_vlanPullTag hf⟩
    | 4 | 5 =>
      cases hex
      exact ⟨_, _, rfl, Ofpbuf.framed_putDlAddr hf⟩
    | 6 | 7 =>
      cases hex
      exact ⟨_, _, rfl, (Ofpbuf.sameBelow_putNwAddr hf).framed_of_ip hf fun hip => if_neg hip⟩
    | 8 =>
      cases hex
      exact ⟨_, _, rfl, Ofpbuf.sameBelow_putNwTos.framed_of_ip hf fun hip => if_neg hip⟩
    | 9 | 10 =>
      cases hex
      exact ⟨_, _, rfl, (Ofpbuf.sameBelow_putTpPort hf).framed_of_ip hf fun hip => if_neg hip⟩
    | n + 12 => cases hact

/-- An action that sets the VLAN of a packet without one fails without headroom. -/
theorem executeAction_no_room (h : AcceptedAction key a) (hset : setsVlan a = true)
    (htag : (s.buffer.tagRoom s.key).tagged = false)
    (hroom : (s.buffer.tagRoom s.key).headroom < vlanHeaderLen) :
    executeAction a s = .error (.ofpbuf .headroom) := by
  have hmod := fun tci mask => Ofpbuf.modifyVlanTci_eq_error tci mask htag hroom
  rw [setsVlan, Bool.or_eq_true, beq_iff_eq, beq_iff_eq] at hset
  rcases hset with hvid | hpcp
  · obtain ⟨-, heq⟩ := executeAction_of_execute (s := s) h
      (by rw [hvid]; rfl : ofActionsExecute.getD (actionType a).toNat none = some setVlanVid)
    rw [heq, setVlanVid, hmod]
  · obtain ⟨-, heq⟩ := executeAction_of_execute (s := s) h
      (by rw [hpcp]; rfl : ofActionsExecute.getD (actionType a).toNat none = some setVlanPcp)
    rw [heq, setVlanPcp, hmod]

end Actions

/-! ### The extraction of the flow -/

section Extract

variable (m : Memory)

/-- The Ethernet type is the one of the header, or the header has none. -/
theorem extractFrame_spec {eth : ℕ} {b b' : Cursor} {dlType : BitVec 16}
    (h : extractFrame m eth b = some (dlType, b')) :
    dlType = m.get16 (eth + 12) ∧ b' = b ∨ m.get16 (eth + 12) ≠ ethTypeVlan ∧ b.pos ≤ b'.pos := by
  have hrest := Cursor.restOf_of_extractFrame h
  unfold extractFrame at h
  simp only at h
  split at h
  next =>
    obtain ⟨rfl, rfl⟩ := Prod.mk.inj (Option.some.inj h)
    exact .inl ⟨rfl, rfl⟩
  next hcutoff =>
    have hne : m.get16 (eth + 12) ≠ ethTypeVlan := by
      intro heq
      rw [heq] at hcutoff
      exact hcutoff (by decide)
    exact .inr ⟨hne, hrest.1⟩

/-- A frame without a whole tag is left as it is; a tag gives the type behind it. -/
theorem extractVlan_spec (flow : Flow) (b : Cursor) :
    extractVlan m flow b = (flow, b) ∨
      flow.dlType = ethTypeVlan ∧ (extractVlan m flow b).1.dlType = m.get16 (b.pos + 2) ∧
        (extractVlan m flow b).1.nwProto = flow.nwProto ∧
        (extractVlan m flow b).2.pos = b.pos + 4 := by
  unfold extractVlan pullVlan Cursor.tryPull
  by_cases hvlan : flow.dlType = ethTypeVlan
  · rw [if_pos (beq_iff_eq.2 hvlan)]
    split
    next b' hb' =>
      split at hb'
      · exact .inr ⟨hvlan, rfl, rfl, Option.some.inj hb' ▸ rfl⟩
      · cases hb'
    next => exact .inl rfl
  · rw [if_neg (fun h => hvlan (beq_iff_eq.1 h))]
    exact .inl rfl

/-- The network layer keeps the Ethernet type. -/
theorem extractNetwork_dlType (flow : Flow) (b : Cursor) :
    (extractNetwork m flow b).flow.dlType = flow.dlType := by
  have htransport : ∀ flow b, (extractTransport m flow b).1.dlType = flow.dlType := by
    intro flow b
    unfold extractTransport
    repeat' split
    all_goals rfl
  unfold extractNetwork
  split
  · split
    · simp only
      split
      · exact htransport _ _
      · rfl
    · rfl
  · split
    · split
      · simp only
        split <;> rfl
      · rfl
    · rfl

/-- The transport header starts behind the fixed part of the network header. -/
theorem extractNetwork_options {flow : Flow} (b : Cursor) (hzero : flow.nwProto = 0)
    (hip : flow.dlType = ethTypeIp)
    (hproto : (extractNetwork m flow b).flow.nwProto = ipTypeTcp ∨
      (extractNetwork m flow b).flow.nwProto = ipTypeUdp) :
    ∃ l4, (extractNetwork m flow b).l4 = some l4 ∧ b.pos + ipHeaderLen ≤ l4.pos := by
  unfold extractNetwork at hproto ⊢
  rw [if_pos (beq_iff_eq.2 hip)] at hproto ⊢
  cases hpull : pullIp m b with
  | none =>
    rw [hpull] at hproto
    simp only at hproto
    rw [hzero] at hproto
    exact absurd hproto (by decide)
  | some l4 =>
    obtain ⟨hlen, hpos, -⟩ := pullIp_eq_some hpull
    refine ⟨l4, ?_, hpos ▸ Nat.add_le_add_left hlen _⟩
    simp only
    split <;> rfl

end Extract

/-- The transport header of a packet is behind the fixed part of its network header. -/
theorem options_flowExtract (packet : Ofpbuf) (inPort : BitVec 16)
    (hip : (packetFlow packet inPort).dlType = ethTypeIp)
    (hproto : (packetFlow packet inPort).nwProto = ipTypeTcp ∨
      (packetFlow packet inPort).nwProto = ipTypeUdp) :
    (flowExtract packet inPort).2.2.l3Pos + ipHeaderLen ≤
      (flowExtract packet inPort).2.2.l4Pos := by
  unfold packetFlow at hip hproto
  obtain h | ⟨b0, dlType, b1, flow, b2, -, -, heq, h⟩ := flowExtract_cases packet inPort
  · rw [h] at hip
    exact absurd hip (by decide : (0 : BitVec 16) ≠ ethTypeIp)
  · have hvlan := extractVlan_spec packet.mem { Flow.unset inPort with dlType } b1
    rw [heq] at hvlan
    rw [h] at hip hproto ⊢
    -- there is no protocol before the network layer
    have hzero : flow.nwProto = 0 := by
      rcases hvlan with heq | ⟨-, -, heq, -⟩
      · rw [(Prod.mk.inj heq).1]
        rfl
      · exact heq
    have hdl : flow.dlType = ethTypeIp := (extractNetwork_dlType packet.mem { flow with
      dlSrc := packet.mem.get48 (packet.data + 6), dlDst := packet.mem.get48 packet.data }
      b2).symm.trans hip
    obtain ⟨l4, hl4, hle⟩ := @extractNetwork_options packet.mem { flow with
      dlSrc := packet.mem.get48 (packet.data + 6), dlDst := packet.mem.get48 packet.data }
      b2 hzero hdl hproto
    change b2.pos + ipHeaderLen ≤ (Option.map Cursor.pos _).getD 0
    rw [hl4]
    exact hle

/-- The type of an IP packet is behind a tag, or there is none. -/
theorem network_flowExtract (packet : Ofpbuf) (inPort : BitVec 16)
    (hip : (packetFlow packet inPort).dlType = ethTypeIp) :
    (let p := (flowExtract packet inPort).2.2
    ∃ k, p.typeBehind k ≠ ethTypeVlan ∧ p.l2Pos + 14 + 4 * k ≤ p.l3Pos) := by
  unfold packetFlow at hip
  obtain h | ⟨b0, dlType, b1, flow, b2, heth, hframe, heq, h⟩ := flowExtract_cases packet inPort
  · rw [h] at hip
    exact absurd hip (by decide : (0 : BitVec 16) ≠ ethTypeIp)
  · have hb0 : b0.pos = packet.data + 14 := by
      unfold pullEth Cursor.tryPull at heth
      split at heth
      · exact Option.some.inj heth ▸ rfl
      · cases heth
    have hvlan := extractVlan_spec packet.mem { Flow.unset inPort with dlType } b1
    rw [heq] at hvlan
    rw [h] at hip ⊢
    have hip : flow.dlType = ethTypeIp := (extractNetwork_dlType packet.mem { flow with
      dlSrc := packet.mem.get48 (packet.data + 6), dlDst := packet.mem.get48 packet.data }
      b2).symm.trans hip
    intro p
    -- the type is in the frame itself, or behind an LLC header
    rcases extractFrame_spec packet.mem hframe with ⟨hdl, rfl⟩ | ⟨hne, hpos⟩
    · rcases hvlan with heq | ⟨-, hdl', -, hpos'⟩
      · obtain ⟨rfl, rfl⟩ := Prod.mk.inj heq
        refine ⟨0, ?_, ?_⟩
        · change packet.mem.get16 (packet.data + 12) ≠ _
          rw [← hdl]
          intro hv
          exact absurd (hv.symm.trans hip) (by decide)
        · change packet.data + 14 ≤ b2.pos
          omega
      · refine ⟨1, ?_, ?_⟩
        · change packet.mem.get16 (packet.data + 16) ≠ _
          have hoff : b1.pos + 2 = packet.data + 16 := by omega
          rw [← hoff, ← hdl', hip]
          decide
        · change packet.data + 18 ≤ b2.pos
          change b2.pos = b1.pos + 4 at hpos'
          omega
    · refine ⟨0, hne, ?_⟩
      change packet.data + 14 ≤ b2.pos
      rcases hvlan with heq | ⟨-, -, -, hpos'⟩
      · obtain ⟨rfl, rfl⟩ := Prod.mk.inj heq
        omega
      · change b2.pos = b1.pos + 4 at hpos'
        omega

/-- The headers are where the extraction of the flow says. -/
theorem framed_flowExtract (packet : Ofpbuf) (inPort : BitVec 16) :
    (flowExtract packet inPort).2.2.Framed (packetKey (packetFlow packet inPort)) := by
  refine ⟨?_, network_flowExtract packet inPort, fun hip hproto => ?_⟩
  · obtain ⟨l3, l4, l7, h⟩ := flowExtract_headers packet inPort
    rw [h]
  · exact le_trans (Nat.le_add_right _ _) (options_flowExtract packet inPort hip hproto)

end OfAgent
