import OfAgent.Forward.Headroom

/-!
# Sizes of packets

A received packet fits into the buffer that `dp_run` has for it, and whatever actions do to it, it
stays there: a tag is put into the headroom, and taken off only when the packet starts with one. So
the message to the controller has a length of 16 bits.

* `Ofpbuf.Fits`: the packet is inside a buffer, and its tags are inside the packet.
* `Switch.Sizes`: the packets that are saved are short, and the messages about packets say how long
  they are; `kept_sizes`: forwarding keeps that.
-/

namespace OfAgent

open Switch

/-- The bytes of the buffer that `dp_run` receives packets into. -/
def receiveBufferSize : ℕ := 130 + 18 + 1024

namespace Ofpbuf

/-- The packet is inside a buffer, and the tags that it starts with are inside the packet. -/
structure Fits (b : Ofpbuf) : Prop where
  /-- The end of the packet. -/
  le : b.data + b.size ≤ receiveBufferSize
  /-- The tags. -/
  tags : ∀ i, (∀ j ≤ i, b.mem.get16 (b.data + 12 + 4 * j) = ethTypeVlan) → 4 * (i + 1) ≤ b.size

/-- The packet fits, and its headers are where its key says. -/
structure Bounded (b : Ofpbuf) (key : SwFlowKey) : Prop where
  /-- The headers. -/
  framed : b.Framed key
  /-- The sizes. -/
  fits : b.Fits

variable {b b' : Ofpbuf} {key key' : SwFlowKey}

/-- The tags of a packet whose Ethernet header is at its beginning. -/
theorem Framed.tags_eq_true_iff (h : b.Framed key) (i : ℕ) :
    b.tags i = true ↔ ∀ j ≤ i, b.mem.get16 (b.data + 12 + 4 * j) = ethTypeVlan := by
  rw [tags, decide_eq_true_iff]
  simp only [typeBehind, h.l2Pos_eq]

/-- A packet with the same tags and the same size at the same place. -/
theorem Bounded.congr (h : b.Bounded key) (hf : b'.Framed key') (hdata : b'.data = b.data)
    (hsize : b'.size = b.size) (htags : b'.tags = b.tags) : b'.Bounded key' where
  framed := hf
  fits := {
    le := by
      rw [hdata, hsize]
      exact h.fits.le
    tags := fun i hi => by
      rw [← hf.tags_eq_true_iff, htags, h.framed.tags_eq_true_iff] at hi
      rw [hsize]
      exact h.fits.tags i hi }

/-- Bytes in front of which there are zeros only, from the end of the packet on. -/
theorem fits_of_zeros (hle : b.data + b.size ≤ receiveBufferSize)
    (hzero : ∀ i, b.data + b.size ≤ i → b.mem i = 0) : b.Fits where
  le := hle
  tags i hi := by
    -- the last type is the one of a tag, so that its first byte is in the packet
    by_contra hlt
    have hbyte : b.mem (b.data + 12 + 4 * i) = 0 := hzero _ (by omega)
    have htype := hi i (le_refl i)
    rw [Memory.get16, hbyte] at htype
    have hfirst := congrArg (fun v : BitVec 16 => v.extractLsb' 8 8) htype
    simp only [BitVec.extractLsb'_append_eq_left] at hfirst
    exact absurd hfirst (by decide)

/-- A received packet fits. -/
theorem fits_received {packet : List Byte} (h : packet.length ≤ 18 + 1024) :
    (received packet).Fits := by
  refine fits_of_zeros ?_ fun i hi => ?_
  · change 130 + packet.length ≤ 130 + 18 + 1024
    omega
  · change packet.getD (i - 130) 0 = 0
    have hle : 130 + packet.length ≤ i := hi
    rw [List.getD_eq_getElem?_getD, List.getElem?_eq_none (by omega)]
    rfl

/-- Bytes in a buffer of their own fit. -/
theorem fits_cloneData {bs : List Byte} (h : bs.length ≤ receiveBufferSize) :
    (cloneData bs).Fits := by
  refine fits_of_zeros ?_ fun i hi => ?_
  · change 0 + bs.length ≤ _
    rwa [Nat.zero_add]
  · change bs.getD i 0 = 0
    have hle : 0 + bs.length ≤ i := hi
    rw [List.getD_eq_getElem?_getD, List.getElem?_eq_none (by omega)]
    rfl

theorem Fits.clone (h : b.Fits) : b.clone.Fits := by
  refine fits_cloneData ?_
  have hle := h.le
  rw [bytes, Memory.length_slice]
  omega

end Ofpbuf

/-- A packet that fits does so when its flow has been extracted, and before. -/
theorem ready_bounded_iff {b : Ofpbuf} : Ready Ofpbuf.Bounded b ↔ b.Fits := by
  constructor
  · intro h
    obtain ⟨hmem, hdata, hsize⟩ := flowExtract_mem b 0
    obtain ⟨hle, htags⟩ := (h 0).fits
    rw [hmem, hdata, hsize] at htags
    rw [hdata, hsize] at hle
    exact ⟨hle, htags⟩
  · rintro ⟨hle, htags⟩ inPort
    obtain ⟨hmem, hdata, hsize⟩ := flowExtract_mem b inPort
    refine ⟨framed_flowExtract b inPort, ?_, ?_⟩
    · rw [hdata, hsize]
      exact hle
    · rw [hmem, hdata, hsize]
      exact htags

/-! ### Actions -/

namespace Ofpbuf

variable {b b' : Ofpbuf} {key key' : SwFlowKey}

/-- A change that leaves the tags and the size alone. -/
theorem Bounded.of_tagRoom_eq (h : b.Bounded key)
    (hframed : b'.Framed key' ∧ b'.tagRoom key' = b.tagRoom key) (hsize : b'.size = b.size) :
    b'.Bounded key' := by
  obtain ⟨hf, hroom⟩ := hframed
  rw [tagRoom, tagRoom, TagRoom.mk.injEq] at hroom
  exact h.congr hf hroom.1 hsize hroom.2.2

/-- Rewriting bytes changes no size. -/
theorem size_puts (b : Ofpbuf) (key : SwFlowKey) (ah : List Byte) :
    ((putDlAddr b ah).size = b.size ∧ (putNwAddr b key ah).size = b.size) ∧
      (putNwTos b key ah).size = b.size ∧ (putTpPort b key ah).size = b.size := by
  refine ⟨⟨?_, ?_⟩, ?_, ?_⟩
  · unfold putDlAddr
    split <;> rfl
  · unfold putNwAddr putAddrCsum
    split
    · simp only
      split
      · rfl
      · split
        · split <;> rfl
        · rfl
    · rfl
  · unfold putNwTos
    split <;> rfl
  · unfold putTpPort
    split
    · simp only
      split
      · rfl
      · split <;> rfl
    · rfl

/-- `modify_vlan_tci` puts a tag into the headroom, or changes the one that is there. -/
theorem Bounded.modifyVlanTci (h : b.Bounded key) {tci mask : BitVec 16}
    (hok : OfAgent.modifyVlanTci b key tci mask = .ok (b', key')) : b'.Bounded key' := by
  cases htag : key.flow.dlVlan != ofpVlanNone with
  | true =>
    obtain ⟨b₁, key₁, heq, hf, hroom⟩ := modifyVlanTci_tagged h.framed tci mask htag
    have hsize : b'.size = b.size := by
      rw [OfAgent.modifyVlanTci, if_pos (bne_iff_ne.1 htag)] at hok
      rw [← (Prod.mk.inj (Except.ok.inj hok)).1]
      rfl
    rw [hok] at heq
    obtain ⟨rfl, rfl⟩ := Prod.mk.inj (Except.ok.inj heq)
    refine h.of_tagRoom_eq ⟨hf, hroom.trans ?_⟩ hsize
    rw [TagRoom.setVlan, tagRoom, htag]
    rfl
  | false =>
    by_cases hroom : vlanHeaderLen ≤ b.headroom
    · obtain ⟨b₁, key₁, heq, hf, htags⟩ := modifyVlanTci_untagged h.framed tci mask htag hroom
      have hnone : ¬ key.flow.dlVlan ≠ ofpVlanNone := by
        rw [← bne_iff_ne, htag]
        exact Bool.false_ne_true
      have hsize : b'.size = b.size + 4 := by
        rw [OfAgent.modifyVlanTci, if_neg hnone, pushUninit, if_pos hroom] at hok
        rw [← (Prod.mk.inj (Except.ok.inj hok)).1]
        rfl
      rw [hok] at heq
      obtain ⟨rfl, rfl⟩ := Prod.mk.inj (Except.ok.inj heq)
      rw [TagRoom.setVlan, tagRoom, tagRoom, htag] at htags
      obtain ⟨hhead, -, htags⟩ := (TagRoom.mk.injEq ..).mp htags
      have hdata : b'.data = b.data - 4 := hhead
      have hle := h.fits.le
      have h4 : 4 ≤ b.data := hroom
      refine ⟨hf, by omega, fun i hi => ?_⟩
      -- there is one tag more
      rw [← hf.tags_eq_true_iff, htags] at hi
      cases i with
      | zero => omega
      | succ i =>
        have hlt := h.fits.tags i ((h.framed.tags_eq_true_iff i).1 hi)
        omega
    · rw [modifyVlanTci_eq_error tci mask htag (Nat.lt_of_not_le hroom)] at hok
      cases hok

/-- `vlan_pull_tag` takes off a tag that is inside the packet. -/
theorem Bounded.vlanPullTag (h : b.Bounded key) : (vlanPullTag b).Bounded key.clearVlan := by
  obtain ⟨hf, hroom⟩ := framed_vlanPullTag h.framed
  by_cases hvlan : b.ethType = ethTypeVlan
  · have htag : b.tags 0 = true := by
      rw [tags_zero, hvlan]
      exact decide_eq_true rfl
    have h4 := h.fits.tags 0 ((h.framed.tags_eq_true_iff 0).1 htag)
    have hshape : (OfAgent.vlanPullTag b).data = b.data + 4 ∧
        (OfAgent.vlanPullTag b).size = b.size - 4 := by
      rw [OfAgent.vlanPullTag, if_pos hvlan]
      exact ⟨rfl, if_pos h4⟩
    have htags : (OfAgent.vlanPullTag b).tags = fun i => b.tags (i + 1) := by
      have hstrip := congrArg TagRoom.tags hroom
      rw [TagRoom.strip, tagRoom, tagRoom, if_pos htag] at hstrip
      exact hstrip
    have hle := h.fits.le
    refine ⟨hf, by omega, fun i hi => ?_⟩
    rw [← hf.tags_eq_true_iff, htags] at hi
    have hlt := h.fits.tags (i + 1) ((h.framed.tags_eq_true_iff _).1 hi)
    omega
  · rw [OfAgent.vlanPullTag, if_neg hvlan] at hf ⊢
    exact h.congr hf rfl rfl rfl

/-- What an action does to a packet that fits is one that fits. -/
theorem Bounded.execute {n : ℕ}
    {execute : Ofpbuf → SwFlowKey → List Byte → Except OfpbufFault (Ofpbuf × SwFlowKey)}
    (hex : ofActionsExecute.getD n none = some execute) (h : b.Bounded key) {ah : List Byte}
    (hok : execute b key ah = .ok (b', key')) : b'.Bounded key' := by
  obtain ⟨⟨hdl, hnw⟩, htos, htp⟩ := size_puts b key ah
  -- only the two functions for tags change the size of a packet
  match n with
  | 0 | 11 => cases hex
  | 1 | 2 =>
    cases hex
    exact h.modifyVlanTci hok
  | 3 =>
    cases hex
    obtain ⟨rfl, rfl⟩ := Prod.mk.inj (Except.ok.inj hok)
    exact h.vlanPullTag
  | 4 | 5 =>
    cases hex
    obtain ⟨rfl, rfl⟩ := Prod.mk.inj (Except.ok.inj hok)
    exact h.of_tagRoom_eq (framed_putDlAddr h.framed) hdl
  | 6 | 7 =>
    cases hex
    obtain ⟨rfl, rfl⟩ := Prod.mk.inj (Except.ok.inj hok)
    exact h.of_tagRoom_eq
      ((sameBelow_putNwAddr h.framed).framed_of_ip h.framed fun hip => if_neg hip) hnw
  | 8 =>
    cases hex
    obtain ⟨rfl, rfl⟩ := Prod.mk.inj (Except.ok.inj hok)
    exact h.of_tagRoom_eq (sameBelow_putNwTos.framed_of_ip h.framed fun hip => if_neg hip) htos
  | 9 | 10 =>
    cases hex
    obtain ⟨rfl, rfl⟩ := Prod.mk.inj (Except.ok.inj hok)
    exact h.of_tagRoom_eq
      ((sameBelow_putTpPort h.framed).framed_of_ip h.framed fun hip => if_neg hip) htp
  | n + 12 => cases hex

end Ofpbuf

/-- Every action leads from a packet that fits to one that fits. -/
theorem Ofpbuf.Bounded.executeAction {σ : Type*} {ah : List Byte} {s s' : ExecState σ}
    (h : s.buffer.Bounded s.key) (hok : executeAction ah s = .ok s') :
    s'.buffer.Bounded s'.key := by
  unfold OfAgent.executeAction at hok
  split at hok
  next =>
    split at hok
    next => cases hok
    next => exact Except.ok.inj hok ▸ h
  next =>
    split at hok
    next =>
      split at hok
      next => cases hok
      next => exact Except.ok.inj hok ▸ h
    next =>
      -- outputs leave the packet alone, so the table of functions is left
      unfold executeOther at hok
      split at hok
      next =>
        split at hok
        next => cases hok
        next =>
          split at hok
          next => exact Except.ok.inj hok ▸ h
          next execute hex =>
            split at hok
            next => cases hok
            next buffer key hrun =>
              rw [← Except.ok.inj hok]
              exact h.execute hex hrun
      next =>
        split at hok
        next =>
          split at hok
          next => cases hok
          next => exact Except.ok.inj hok ▸ h
        next => exact Except.ok.inj hok ▸ h

/-! ### Saved packets and messages about packets -/

/-- The message to the controller says how long it is. -/
def Emission.Exact : Emission → Prop
  | .transmit _ _ _ => True
  | .packetIn opi => opi.length.toNat = offsetofOfpPacketInData + opi.data.length

namespace Switch

/-- The packets that are saved are short, and the messages about packets say how long they are. -/
structure Sizes (sw : Switch) : Prop where
  /-- The saved packets. -/
  saved : ∀ i packet, (sw.buffers.slots i).buffer = some packet →
    packet.length ≤ receiveBufferSize
  /-- What has been sent. -/
  sent : ∀ e ∈ sw.sent, e.Exact

variable {sw sw' : Switch}

/-- Only the buffers and what has been sent matter. -/
theorem Sizes.congr (h : sw.Sizes) (hbuffers : sw'.buffers = sw.buffers)
    (hsent : sw'.sent = sw.sent) : sw'.Sizes := by
  obtain ⟨hsaved, hall⟩ := h
  constructor
  · rw [hbuffers]
    exact hsaved
  · rw [hsent]
    exact hall

theorem Sizes.emit (h : sw.Sizes) {e : Emission} (he : e.Exact) : (sw.emit e).Sizes where
  saved := h.saved
  sent e' he' := by
    rcases List.mem_append.1 he' with he' | he'
    · exact h.sent e' he'
    · exact List.mem_singleton.1 he' ▸ he

/-- Saving a short packet. -/
theorem Sizes.saveBuffer (h : sw.Sizes) (now : BitVec 64) {packet : List Byte}
    (hle : packet.length ≤ receiveBufferSize) :
    ({ sw with buffers := (sw.buffers.saveBuffer now packet).1 } : Switch).Sizes where
  saved i packet' hi := by
    change ((sw.buffers.saveBuffer now packet).1.slots i).buffer = _ at hi
    unfold PacketBuffers.saveBuffer at hi
    simp only at hi
    split at hi
    next => exact h.saved i packet' hi
    next =>
      simp only [Function.update_apply] at hi
      split at hi
      next => exact Option.some.inj hi ▸ hle
      next => exact h.saved i packet' hi
  sent := h.sent

/-- Taking a packet out of its buffer. -/
theorem Sizes.takeBuffer (h : sw.Sizes) (ofm : OfpFlowMod) :
    (∀ packet, (sw.toDatapath.takeBuffer ofm).1 = some packet →
        packet.length ≤ receiveBufferSize) ∧
      ({ sw with toDatapath := (sw.toDatapath.takeBuffer ofm).2 } : Switch).Sizes := by
  unfold Datapath.takeBuffer PacketBuffers.retrieveBuffer
  split
  next => exact ⟨fun packet hp => (Option.some_ne_none _ hp.symm).elim, h⟩
  next =>
    simp only
    split
    next =>
      refine ⟨fun packet hp => h.saved _ packet hp, fun i packet hi => ?_, h.sent⟩
      simp only [Function.update_apply] at hi
      split at hi
      next => cases hi
      next => exact h.saved i packet hi
    next => exact ⟨fun packet hp => (Option.some_ne_none _ hp.symm).elim, h⟩

/-- A message to the controller about a packet that fits says how long it is. -/
theorem Sizes.dpOutputControl (h : sw.Sizes) {now : BitVec 64} {b : Ofpbuf} {inPort : BitVec 16}
    {maxLen : ℕ} {reason : OfpPacketInReason} (hfits : b.Fits)
    (hout : sw.dpOutputControl now b inPort maxLen reason = .ok sw') : sw'.Sizes := by
  have hle : b.size ≤ receiveBufferSize := le_trans (Nat.le_add_left ..) hfits.le
  unfold Switch.dpOutputControl at hout
  simp only at hout
  -- the message holds no more than the packet
  generalize hb : (if (sw.buffers.saveBuffer now b.bytes).2 ≠ noBuffer ∧ maxLen < b.size then
      { b with size := maxLen } else b) = b' at hout
  have hsize : b'.size ≤ b.size := by
    rw [← hb]
    split
    next hcut => exact Nat.le_of_lt hcut.2
    next => exact le_refl _
  unfold Ofpbuf.pushUninit at hout
  split at hout
  next => cases hout
  next b'' hpush =>
    split at hpush
    next =>
      have hb'' : b''.size = b'.size + offsetofOfpPacketInData := by
        rw [← Except.ok.inj hpush]
      rw [← Except.ok.inj hout]
      refine (h.saveBuffer now ((Memory.length_slice ..).trans_le hle)).emit ?_
      change (BitVec.ofNat 16 b''.size).toNat = offsetofOfpPacketInData + b'.bytes.length
      rw [Ofpbuf.bytes, Memory.length_slice, BitVec.toNat_ofNat, hb'',
        Nat.mod_eq_of_lt, Nat.add_comm]
      rw [receiveBufferSize] at hle
      rw [offsetofOfpPacketInData]
      omega
    next => cases hpush

/-- Forwarding a packet that fits keeps the sizes. -/
theorem kept_sizes : Kept Sizes Ofpbuf.Bounded where
  action h hok := h.executeAction hok
  ready h := ready_bounded_iff.2 h.fits
  clone h := ready_bounded_iff.2 (ready_bounded_iff.1 h).clone
  transmit hP _ := hP.emit trivial
  control hP hb hout := hP.dpOutputControl (ready_bounded_iff.1 hb) hout
  used hP _ := hP.congr rfl rfl

end Switch

end OfAgent
