import OfAgent.Packet.Writes

/-!
# The tag of a packet and the VLAN of its key

`set_vlan_vid`, `set_vlan_pcp` and `strip_vlan` change the tag of a packet and the VLAN fields of
its key side by side. Whether the two still belong together shows when `flow_extract` takes the
packet apart again.

* `vlanTagAt`: where `flow_extract` finds a tag; `packetFlow_vlan`: the fields that it takes from
  it.
* `Ofpbuf.untagged`: a packet without its tag.
* `VlanKept`: what an action has to keep.
* `VlanOk`: when it does.
-/

namespace OfAgent

/-! ### The tag that a packet has -/

/-- The position of the VLAN tag of a packet, from its start: behind the addresses, or inside the
SNAP header of an 802.2 frame. -/
def vlanTagAt (m : Memory) (pos size : ℕ) : Option ℕ :=
  let ethType := m.get16 (pos + 12)
  if ethType = ethTypeVlan then if 18 ≤ size then some 12 else none
  else if ¬ ofpDlTypeEth2Cutoff ≤ ethType ∧ m.slice (pos + 14) 6 = [0xaa, 0xaa, 3, 0, 0, 0] ∧
      m.get16 (pos + 20) = ethTypeVlan ∧ 26 ≤ size then some 20
  else none

/-- The VLAN fields of a packet. -/
def vlanFields (m : Memory) (pos size : ℕ) : BitVec 16 × BitVec 8 :=
  match vlanTagAt m pos size with
  | none => (ofpVlanNone, 0)
  | some i =>
      let tci := m.get16 (pos + i + 2)
      (vlanVid tci, vlanPcp tci)

namespace Ofpbuf

variable (b : Ofpbuf)

/-- The position of the tag of a packet. -/
def tagAt : Option ℕ := vlanTagAt b.mem b.data b.size

/-- The bytes of a packet without its tag. -/
def untagged : List Byte :=
  match b.tagAt with
  | none => b.bytes
  | some i => b.bytes.take i ++ b.bytes.drop (i + vlanHeaderLen)

end Ofpbuf

/-- The tag decides the VLAN fields of a frame; a frame without one has none. -/
theorem extractVlan_vlan (m : Memory) (flow : Flow) (b : Cursor)
    (hnone : flow.dlVlan = ofpVlanNone ∧ flow.dlVlanPcp = 0) :
    ((extractVlan m flow b).1.dlVlan, (extractVlan m flow b).1.dlVlanPcp) =
      if flow.dlType = ethTypeVlan ∧ 4 ≤ b.left then
        (vlanVid (m.get16 b.pos), vlanPcp (m.get16 b.pos))
      else (ofpVlanNone, 0) := by
  unfold extractVlan pullVlan Cursor.tryPull vlanHeaderLen
  by_cases hvlan : flow.dlType = ethTypeVlan
  · rw [if_pos (beq_iff_eq.2 hvlan)]
    by_cases hlen : 4 ≤ b.left
    · rw [if_pos hlen, if_pos ⟨hvlan, hlen⟩]
    · rw [if_neg hlen, if_neg fun h => hlen h.2, ← hnone.1, ← hnone.2]
  · rw [if_neg fun h => hvlan (beq_iff_eq.1 h), if_neg fun h => hvlan h.1, ← hnone.1, ← hnone.2]

/-- The layers above the frame leave its VLAN alone. -/
theorem extractNetwork_vlan (m : Memory) (flow : Flow) (b : Cursor) :
    (extractNetwork m flow b).flow.dlVlan = flow.dlVlan ∧
      (extractNetwork m flow b).flow.dlVlanPcp = flow.dlVlanPcp := by
  have htransport : ∀ flow b, (extractTransport m flow b).1.dlVlan = flow.dlVlan ∧
      (extractTransport m flow b).1.dlVlanPcp = flow.dlVlanPcp := by
    intro flow b
    unfold extractTransport
    repeat' split
    all_goals exact ⟨rfl, rfl⟩
  unfold extractNetwork
  split
  · split
    · simp only
      split
      · exact htransport _ _
      · exact ⟨rfl, rfl⟩
    · exact ⟨rfl, rfl⟩
  · split
    · split
      · simp only
        split <;> exact ⟨rfl, rfl⟩
      · exact ⟨rfl, rfl⟩
    · exact ⟨rfl, rfl⟩

/-- The comparisons with an 802.2 header, as a comparison of bytes. -/
theorem snap_iff (m : Memory) (pos : ℕ) :
    (m pos == 0xaa && m (pos + 1) == 0xaa && m (pos + 2) == 3 &&
      m.slice (pos + 3) 3 == [0, 0, 0]) = true ↔
      m.slice pos 6 = [0xaa, 0xaa, 3, 0, 0, 0] := by
  rw [show (6 : ℕ) = 3 + 3 from rfl, Memory.slice_add]
  simp [Memory.slice, List.range_succ, and_assoc]

/-- The tag of a frame is where its type says that one follows. -/
theorem vlanTagAt_eq (m : Memory) (pos : ℕ) {size : ℕ} (hsize : 14 ≤ size) :
    match extractFrame m pos ⟨pos + 14, size - 14⟩ with
    | none => vlanTagAt m pos size = none
    | some (dlType, c) => ∃ i, c.pos = pos + i + 2 ∧
        vlanTagAt m pos size = if dlType = ethTypeVlan ∧ 4 ≤ c.left then some i else none := by
  have hcutoff : ofpDlTypeEth2Cutoff ≤ ethTypeVlan := by decide
  have hother : ofpDlTypeNotEthType ≠ ethTypeVlan := by decide
  unfold extractFrame vlanTagAt Cursor.has llcHeaderLen llcSnapHeaderLen Cursor.pull
  simp only [decide_eq_true_eq]
  by_cases hcut : ofpDlTypeEth2Cutoff ≤ m.get16 (pos + 12)
  · -- an Ethernet II frame
    rw [if_pos hcut]
    refine ⟨12, rfl, ?_⟩
    by_cases hvlan : m.get16 (pos + 12) = ethTypeVlan
    · rw [if_pos hvlan]
      refine if_congr ?_ rfl rfl
      rw [and_iff_right hvlan]
      change 18 ≤ size ↔ 4 ≤ size - 14
      omega
    · rw [if_neg hvlan, if_neg fun h => h.1 hcut, if_neg fun h => hvlan h.1]
  · -- an 802.2 frame
    have hvlan : ¬ m.get16 (pos + 12) = ethTypeVlan := fun h => hcut (h ▸ hcutoff)
    rw [if_neg hcut, if_neg hvlan]
    simp only [hcut, not_false_eq_true, true_and]
    have hsnap : (decide (3 + 5 ≤ size - 14) && m (pos + 14) == 0xaa && m (pos + 14 + 1) == 0xaa &&
        m (pos + 14 + 2) == 3 && m.slice (pos + 14 + 3) 3 == [0, 0, 0]) = true ↔
        3 + 5 ≤ size - 14 ∧ m.slice (pos + 14) 6 = [0xaa, 0xaa, 3, 0, 0, 0] := by
      rw [← snap_iff]
      simp only [Bool.and_eq_true, decide_eq_true_eq, and_assoc]
    by_cases hllc : 0 + 3 ≤ size - 14
    · rw [if_pos hllc]
      by_cases hfive : 3 + 5 ≤ size - 14 ∧ m.slice (pos + 14) 6 = [0xaa, 0xaa, 3, 0, 0, 0]
      · rw [if_pos (hsnap.2 hfive)]
        refine ⟨20, rfl, if_congr ?_ rfl rfl⟩
        rw [and_iff_right hfive.2]
        refine and_congr_right fun _ => ?_
        change 26 ≤ size ↔ 4 ≤ size - 14 - 8
        omega
      · rw [if_neg fun h => hfive (hsnap.1 h), if_neg fun h => hfive ⟨by omega, h.1⟩]
        exact ⟨15, rfl, (if_neg fun h => hother h.1).symm⟩
    · rw [if_neg hllc]
      exact if_neg fun h => hllc (by omega)

/-- `flow_extract` takes the VLAN of a packet from its tag. -/
theorem packetFlow_vlan (b : Ofpbuf) (inPort : BitVec 16) :
    ((packetFlow b inPort).dlVlan, (packetFlow b inPort).dlVlanPcp) =
      vlanFields b.mem b.data b.size := by
  unfold packetFlow flowExtract vlanFields pullEth Cursor.tryPull ethHeaderLen
  simp only
  by_cases heth : 14 ≤ b.size
  · have htag := vlanTagAt_eq b.mem b.data heth
    rw [if_pos heth]
    simp only [Cursor.pull]
    cases hframe : extractFrame b.mem b.data ⟨b.data + 14, b.size - 14⟩ with
    | none =>
      rw [hframe] at htag
      simp only [htag]
      rfl
    | some r =>
      obtain ⟨dlType, c⟩ := r
      rw [hframe] at htag
      obtain ⟨i, hpos, htag⟩ := htag
      simp only [extractNetwork_vlan, htag]
      refine (extractVlan_vlan b.mem _ c ⟨rfl, rfl⟩).trans ?_
      by_cases hvlan : dlType = ethTypeVlan ∧ 4 ≤ c.left
      · rw [if_pos hvlan, if_pos hvlan, hpos]
      · rw [if_neg hvlan, if_neg hvlan]
  · -- a frame that is cut short has no tag
    have hnone : vlanTagAt b.mem b.data b.size = none := by
      unfold vlanTagAt
      simp only
      split
      · exact if_neg (by omega)
      · exact if_neg fun h => heth (by omega)
    rw [if_neg heth, hnone]
    rfl

/-! ### Packets with and without a tag -/

namespace Ofpbuf

variable {b b' : Ofpbuf}

/-- The VLAN fields of a packet. -/
def fields (b : Ofpbuf) : BitVec 16 × BitVec 8 := vlanFields b.mem b.data b.size

theorem fields_of_tagAt {i : ℕ} (h : b.tagAt = some i) :
    b.fields =
      (vlanVid (b.mem.get16 (b.data + i + 2)), vlanPcp (b.mem.get16 (b.data + i + 2))) := by
  rw [tagAt] at h
  rw [fields, vlanFields, h]

theorem fields_of_none (h : b.tagAt = none) : b.fields = (ofpVlanNone, 0) := by
  rw [tagAt] at h
  rw [fields, vlanFields, h]

theorem vlanVid_ne_none (tci : BitVec 16) : vlanVid tci ≠ ofpVlanNone :=
  bne_iff_ne.1 (setTci_tagged ⟨Flow.unset 0, 0, 0, 0⟩ tci)

/-- A packet has a tag when its fields say so. -/
theorem tagAt_eq_none_iff : b.tagAt = none ↔ b.fields.1 = ofpVlanNone := by
  cases h : b.tagAt with
  | none => exact iff_of_true rfl (by rw [fields_of_none h])
  | some i =>
    refine iff_of_false (by simp) ?_
    rw [fields_of_tagAt h]
    exact vlanVid_ne_none _

/-- Where a tag can be. -/
theorem tagAt_eq_some {i : ℕ} (h : b.tagAt = some i) :
    i = 12 ∧ b.mem.get16 (b.data + 12) = ethTypeVlan ∧ 18 ≤ b.size ∨
      i = 20 ∧ b.mem.get16 (b.data + 12) ≠ ethTypeVlan ∧
        b.mem.slice (b.data + 14) 6 = [0xaa, 0xaa, 3, 0, 0, 0] ∧ 26 ≤ b.size := by
  unfold tagAt vlanTagAt at h
  simp only at h
  split at h
  next hvlan =>
    split at h
    next hsize => exact .inl ⟨(Option.some.inj h).symm, hvlan, hsize⟩
    next => cases h
  next hvlan =>
    split at h
    next hsnap => exact .inr ⟨(Option.some.inj h).symm, hvlan, hsnap.2.1, hsnap.2.2.2⟩
    next => cases h

/-- A packet whose type is the one of a VLAN has its tag behind the addresses. -/
theorem tagAt_of_ethType (hvlan : b.mem.get16 (b.data + 12) = ethTypeVlan) :
    b.tagAt = if 18 ≤ b.size then some 12 else none := by
  unfold tagAt vlanTagAt
  rw [if_pos hvlan]

theorem bytes_eq {i n k : ℕ} (h : b.size = i + (n + k)) :
    b.bytes = b.mem.slice b.data i ++ (b.mem.slice (b.data + i) n ++
      b.mem.slice (b.data + i + n) k) := by
  rw [bytes, h, Memory.slice_add, Memory.slice_add]

/-- A packet without its tag, when it has one. -/
theorem untagged_of_tagAt {i k : ℕ} (h : b.tagAt = some i) (hsize : b.size = i + (4 + k)) :
    b.untagged = b.mem.slice b.data i ++ b.mem.slice (b.data + i + 4) k := by
  have hi : (b.mem.slice b.data i).length = i := Memory.length_slice ..
  have h4 : (b.mem.slice (b.data + i) 4).length = 4 := Memory.length_slice ..
  rw [untagged, h, bytes_eq hsize]
  change List.take i _ ++ List.drop (i + 4) _ = _
  rw [List.take_left' hi, ← List.drop_drop, List.drop_left' hi, List.drop_left' h4]

theorem untagged_of_none (h : b.tagAt = none) : b.untagged = b.bytes := by
  rw [untagged, h]

end Ofpbuf

/-! ### What the actions have to keep -/

/-- The action changes the tag of a packet, or takes it off. -/
def changesTag (a : List Byte) : Bool := setsVlan a || actionType a == ofpatStripVlan

/-- An action leaves a packet with the VLAN that its key says, and changes nothing else. -/
structure VlanKept (a : List Byte) (b b' : Ofpbuf) (key' : SwFlowKey) : Prop where
  /-- The VLAN of the key is the one that `flow_extract` finds in the packet. -/
  key : ∀ inPort, key'.flow.dlVlan = (packetFlow b' inPort).dlVlan ∧
    key'.flow.dlVlanPcp = (packetFlow b' inPort).dlVlanPcp
  /-- A new VLAN id leaves the priority of a tag alone. -/
  pcp : actionType a = ofpatSetVlanVid → ∀ inPort, (packetFlow b inPort).dlVlan ≠ ofpVlanNone →
    (packetFlow b' inPort).dlVlanPcp = (packetFlow b inPort).dlVlanPcp
  /-- A new priority leaves the VLAN id of a tag alone. -/
  vid : actionType a = ofpatSetVlanPcp → ∀ inPort, (packetFlow b inPort).dlVlan ≠ ofpVlanNone →
    (packetFlow b' inPort).dlVlan = (packetFlow b inPort).dlVlan
  /-- The bytes apart from the tag are the same, in the same order. -/
  others : (if actionType a = ofpatStripVlan then b'.bytes else b'.untagged) = b.untagged

/-- The tag control information that an action makes of another. -/
def newTci (a : List Byte) (old : BitVec 16) : BitVec 16 :=
  if actionType a = ofpatSetVlanVid then (old &&& ~~~vlanVidMask) ||| be16 a 4
  else (old &&& ~~~vlanPcpMask) ||| ((a.getD 4 0).setWidth 16 <<< 13)

/-- An action meets the tag of a packet where it looks for it, and has no more bits than the tag has
room for. -/
structure VlanOk (a : List Byte) (b : Ofpbuf) (key : SwFlowKey) : Prop where
  /-- A tag that is changed is behind the addresses, and the bits of a VLAN id above its 12 are set
  in the priority already; or what is found behind the header of an 802.2 frame happens to be what
  the tag should be. -/
  set : setsVlan a = true → key.flow.dlVlan ≠ ofpVlanNone →
    if b.ethType = ethTypeVlan then
      actionType a = ofpatSetVlanVid →
        vlanPcp (be16 a 4) ||| key.flow.dlVlanPcp = key.flow.dlVlanPcp
    else
      let word := b.mem.get16 (b.l2Pos + 14)
      newTci a word = word ∧ (key.flow.dlVlan, key.flow.dlVlanPcp) = (vlanVid word, vlanPcp word)
  /-- A tag that is taken off is a whole one behind the addresses, has no priority, and no other
  tag follows it. -/
  strip : actionType a = ofpatStripVlan →
    if b.ethType = ethTypeVlan then
      18 ≤ b.size ∧ key.flow.dlVlanPcp = 0 ∧ vlanTagAt b.mem (b.data + 4) (b.size - 4) = none
    else key.flow.dlVlan = ofpVlanNone

/-- Every step of a run through a list of actions satisfies a condition. The run ends where an
action fails. -/
def EveryStep {σ : Type*} (P : ExecState σ → List Byte → ExecState σ → Prop) :
    ExecState σ → List (List Byte) → Prop
  | _, [] => True
  | s, a :: as =>
      match executeAction a s with
      | .error _ => True
      | .ok s' => P s a s' ∧ EveryStep P s' as

/-- Two conditions that are the same in every state that satisfies an invariant, which one of them
keeps, are the same in a run. -/
theorem everyStep_congr {σ : Type*} {P Q : ExecState σ → List Byte → ExecState σ → Prop}
    (Inv : ExecState σ → Prop) {as : List (List Byte)}
    (hstep : ∀ a ∈ as, ∀ s s', Inv s → executeAction a s = .ok s' →
      (P s a s' ↔ Q s a s') ∧ (P s a s' → Inv s'))
    {s : ExecState σ} (h : Inv s) : EveryStep P s as ↔ EveryStep Q s as := by
  induction as generalizing s with
  | nil => exact Iff.rfl
  | cons a as ih =>
    rw [EveryStep, EveryStep]
    cases hok : executeAction a s with
    | error e => exact Iff.rfl
    | ok s' =>
      obtain ⟨hiff, hinv⟩ := hstep a List.mem_cons_self s s' h hok
      change (P s a s' ∧ EveryStep P s' as) ↔ (Q s a s' ∧ EveryStep Q s' as)
      rw [← hiff]
      exact and_congr_right fun hp =>
        ih (fun x hx => hstep x (List.mem_cons_of_mem _ hx)) (hinv hp)

/-- The VLAN of a key is the one of its packet, which has a whole Ethernet header. -/
structure VlanAgrees (b : Ofpbuf) (key : SwFlowKey) : Prop where
  /-- The packet begins with its Ethernet header. -/
  l2 : b.l2 = some b.data
  /-- The header is whole. -/
  size : 14 ≤ b.size
  /-- The fields are the ones of the packet. -/
  fields : (key.flow.dlVlan, key.flow.dlVlanPcp) = b.fields

/-- What an action has to keep, in terms of the fields of the packets. -/
theorem vlanKept_iff {a : List Byte} {b b' : Ofpbuf} {key' : SwFlowKey} :
    VlanKept a b b' key' ↔
      (key'.flow.dlVlan, key'.flow.dlVlanPcp) = b'.fields ∧
        (actionType a = ofpatSetVlanVid → b.tagAt ≠ none → b'.fields.2 = b.fields.2) ∧
        (actionType a = ofpatSetVlanPcp → b.tagAt ≠ none → b'.fields.1 = b.fields.1) ∧
        (if actionType a = ofpatStripVlan then b'.bytes else b'.untagged) = b.untagged := by
  have hfst : ∀ (p : Ofpbuf) inPort, (packetFlow p inPort).dlVlan = p.fields.1 :=
    fun p inPort => congrArg Prod.fst (packetFlow_vlan p inPort)
  have hsnd : ∀ (p : Ofpbuf) inPort, (packetFlow p inPort).dlVlanPcp = p.fields.2 :=
    fun p inPort => congrArg Prod.snd (packetFlow_vlan p inPort)
  have hnone : b.tagAt ≠ none ↔ b.fields.1 ≠ ofpVlanNone := not_congr Ofpbuf.tagAt_eq_none_iff
  rw [hnone]
  constructor
  · rintro ⟨hkey, hpcp, hvid, hothers⟩
    simp only [hfst, hsnd] at hkey hpcp hvid
    exact ⟨Prod.ext (hkey 0).1 (hkey 0).2, fun h => hpcp h 0, fun h => hvid h 0, hothers⟩
  · rintro ⟨hkey, hpcp, hvid, hothers⟩
    refine ⟨fun inPort => ?_, fun h inPort => ?_, fun h inPort => ?_, hothers⟩
    · rw [hfst, hsnd, ← hkey]
      exact ⟨rfl, rfl⟩
    · rw [hfst, hsnd, hsnd]
      exact hpcp h
    · rw [hfst, hfst]
      exact hvid h

/-! ### The actions one by one -/

namespace Ofpbuf

variable {b : Ofpbuf}

/-- A new word in the place of the tag of an Ethernet II frame is its new tag. -/
theorem put16_front (hl2 : b.l2 = some b.data) (hvlan : b.ethType = ethTypeVlan)
    (hsize : 18 ≤ b.size) (tci : BitVec 16) :
    b.tagAt = some 12 ∧ (b.put16 (b.l2Pos + 14) tci).fields = (vlanVid tci, vlanPcp tci) ∧
      (b.put16 (b.l2Pos + 14) tci).untagged = b.untagged := by
  have hdata : b.l2Pos = b.data := by rw [l2Pos, hl2, Option.getD_some]
  rw [ethType, hdata] at hvlan
  rw [hdata]
  have hlen : (Memory.bytes16 tci).length = 2 := rfl
  have hvlan' : (b.put16 (b.data + 14) tci).mem.get16 (b.data + 12) = ethTypeVlan :=
    (Memory.get16_put_of_outside b.mem (by omega)).trans hvlan
  -- the type in front of the tag is left alone, so that the tag is found in its place again
  have htag : b.tagAt = some 12 := (tagAt_of_ethType hvlan).trans (if_pos hsize)
  have htag' : (b.put16 (b.data + 14) tci).tagAt = some 12 :=
    (tagAt_of_ethType hvlan').trans (if_pos hsize)
  obtain ⟨k, hk⟩ : ∃ k, b.size = 12 + (4 + k) := ⟨b.size - 16, by omega⟩
  refine ⟨htag, ?_, ?_⟩
  · have hword : (b.put16 (b.data + 14) tci).mem.get16 (b.data + 14) = tci :=
      Memory.get16_put16 b.mem _ tci
    rw [fields_of_tagAt htag']
    change (vlanVid ((b.put16 (b.data + 14) tci).mem.get16 (b.data + 14)),
      vlanPcp ((b.put16 (b.data + 14) tci).mem.get16 (b.data + 14))) = _
    rw [hword]
  · have hhead : (b.put16 (b.data + 14) tci).mem.slice b.data 12 = b.mem.slice b.data 12 :=
      Memory.slice_put_of_outside b.mem (by omega)
    have hrest : (b.put16 (b.data + 14) tci).mem.slice (b.data + 12 + 4) k =
        b.mem.slice (b.data + 12 + 4) k := Memory.slice_put_of_outside b.mem (by omega)
    rw [untagged_of_tagAt htag hk, untagged_of_tagAt htag' hk, ← hhead, ← hrest]
    rfl

/-- A new word behind the Ethernet header of an 802.2 frame with a tag is no tag: the rest of the
packet changes, unless it is the word that was there. -/
theorem put16_snap (hl2 : b.l2 = some b.data) (hvlan : b.ethType ≠ ethTypeVlan)
    (htag : b.tagAt ≠ none) {word : BitVec 16} :
    (b.put16 (b.l2Pos + 14) word).untagged = b.untagged ↔ word = b.mem.get16 (b.l2Pos + 14) := by
  have hdata : b.l2Pos = b.data := by rw [l2Pos, hl2, Option.getD_some]
  rw [ethType, hdata] at hvlan
  rw [hdata]
  obtain ⟨i, hi⟩ := Option.ne_none_iff_exists'.1 htag
  obtain ⟨-, hfront, -⟩ | ⟨rfl, -, hsnap, hsize⟩ := tagAt_eq_some hi
  · exact absurd hfront hvlan
  -- the word of an 802.2 frame with a SNAP header
  have haa : ∀ m : Memory, m.slice (b.data + 14) 6 = [0xaa, 0xaa, 3, 0, 0, 0] →
      m.get16 (b.data + 14) = 0xaaaa := by
    intro m hm
    simp only [Memory.slice, List.range_succ, List.range_zero, List.nil_append,
      List.map_cons, List.map_nil, List.cons_append, List.cons.injEq] at hm
    rw [Memory.get16, hm.1, hm.2.1]
    rfl
  constructor
  · intro heq
    by_contra hne
    have hlen : (Memory.bytes16 word).length = 2 := rfl
    have hword : (b.put16 (b.data + 14) word).mem.get16 (b.data + 14) = word :=
      Memory.get16_put16 b.mem _ word
    have hnone : (b.put16 (b.data + 14) word).tagAt = none := by
      cases htag' : (b.put16 (b.data + 14) word).tagAt with
      | none => rfl
      | some j =>
        exfalso
        obtain ⟨-, hfront, -⟩ | ⟨-, -, hsnap', -⟩ := tagAt_eq_some htag'
        · have hkeep : (b.put16 (b.data + 14) word).mem.get16 (b.data + 12) =
              b.mem.get16 (b.data + 12) := Memory.get16_put_of_outside b.mem (by omega)
          exact hvlan (hkeep.symm.trans hfront)
        · apply hne
          rw [← hword, haa _ hsnap', haa _ hsnap]
    -- the packet would lose a tag
    obtain ⟨k, hk⟩ : ∃ k, b.size = 20 + (4 + k) := ⟨b.size - 24, by omega⟩
    rw [untagged_of_none hnone, untagged_of_tagAt hi hk] at heq
    have hcount := congrArg List.length heq
    rw [List.length_append, bytes, Memory.length_slice, Memory.length_slice,
      Memory.length_slice] at hcount
    change b.size = 20 + k at hcount
    omega
  · rintro rfl
    rw [put16, Memory.put16_get16]

end Ofpbuf

namespace Ofpbuf

variable {b b' : Ofpbuf}

/-- A tag in front of a packet is its tag. -/
theorem tagged_front {tci : BitVec 16} (hl2 : b.l2 = some b.data) (hsize : 14 ≤ b.size)
    (hroom : 4 ≤ b.data) (hmem : b'.mem = b.mem.put (b.data - 4) (taggedHeader b tci))
    (hdata : b'.data = b.data - 4) (hlen : b'.size = b.size + 4) :
    b'.fields = (vlanVid tci, vlanPcp tci) ∧ b'.untagged = b.bytes := by
  have hpos : b.l2Pos = b.data := by rw [l2Pos, hl2, Option.getD_some]
  obtain ⟨h18, h12, -⟩ := taggedHeader_spec b tci
  have htype : b'.mem.get16 (b'.data + 12) = ethTypeVlan := by
    rw [hmem, hdata, Memory.get16_put_of_inside _ (by omega), h12]
  have htag : b'.tagAt = some 12 := (tagAt_of_ethType htype).trans (if_pos (by omega))
  have hword : b'.mem.get16 (b'.data + 12 + 2) = tci := by
    have h := be16_append_right (b.mem.slice b.l2Pos 12 ++ Memory.bytes16 ethTypeVlan)
      (Memory.bytes16 tci ++ Memory.bytes16 b.ethType) 0
    have hfourteen : (b.mem.slice b.l2Pos 12 ++ Memory.bytes16 ethTypeVlan).length = 14 := by
      rw [List.length_append, Memory.length_slice]
      rfl
    rw [hfourteen, Memory.be16_bytes16, ← List.append_assoc] at h
    rw [hmem, hdata, Nat.add_assoc, Memory.get16_put_of_inside _ (by omega)]
    exact h
  refine ⟨?_, ?_⟩
  · rw [fields_of_tagAt htag, hword]
  · obtain ⟨k, hk⟩ : ∃ k, b.size = 12 + (2 + k) := ⟨b.size - 14, by omega⟩
    have hk' : b'.size = 12 + (4 + (2 + k)) := by omega
    -- the addresses move to the front, and the old type comes back behind the tag
    have hhead : b'.mem.slice b'.data 12 = b.mem.slice b.data 12 := by
      rw [hmem, hdata, ← hpos]
      refine (Memory.slice_put_of_inside b.mem (i := 0) ?_).trans ?_
      · omega
      · rw [taggedHeader, List.append_assoc, List.append_assoc]
        exact List.take_left' (by simp)
    have htype' : b'.mem.slice (b'.data + 12 + 4) 2 = b.mem.slice (b.data + 12) 2 := by
      have hsixteen : (b.mem.slice b.l2Pos 12 ++ Memory.bytes16 ethTypeVlan ++
          Memory.bytes16 tci).length = 16 := by
        rw [List.length_append, List.length_append, Memory.length_slice]
        rfl
      rw [hmem, hdata, Nat.add_assoc]
      refine (Memory.slice_put_of_inside b.mem (by omega)).trans ?_
      rw [taggedHeader, List.drop_left' hsixteen, ethType, hpos, Memory.bytes16_get16]
      exact List.take_of_length_le (by simp)
    have hrest : b'.mem.slice (b'.data + 12 + 4 + 2) k = b.mem.slice (b.data + 12 + 2) k := by
      have hsame : b'.data + 12 + 4 + 2 = b.data + 12 + 2 := by omega
      rw [hsame, hmem]
      exact Memory.slice_put_of_outside b.mem (by omega)
    rw [untagged_of_tagAt htag hk', bytes_eq hk, hhead, Memory.slice_add, htype', hrest]

/-- A packet whose tag is taken off is the packet without its tag, if the tag is a whole one. -/
theorem vlanPullTag_front (hl2 : b.l2 = some b.data) (hvlan : b.ethType = ethTypeVlan)
    (hsize : 14 ≤ b.size) :
    ((vlanPullTag b).bytes = b.untagged ↔ 18 ≤ b.size) ∧
      (vlanPullTag b).tagAt = vlanTagAt b.mem (b.data + 4) (b.size - 4) := by
  have hpos : b.l2Pos = b.data := by rw [l2Pos, hl2, Option.getD_some]
  have htype : b.mem.get16 (b.data + 12) = ethTypeVlan := by
    rw [← hpos]
    exact hvlan
  have hlen : (b.mem.slice b.l2Pos 12 ++ b.mem.slice (b.l2Pos + 16) 2).length = 14 := by simp
  have hpull : vlanPullTag b = { b with
      mem := b.mem.put (b.data + 4) (b.mem.slice b.l2Pos 12 ++ b.mem.slice (b.l2Pos + 16) 2)
      size := b.size - 4, data := b.data + 4, l2 := some (b.l2Pos + 4) } := by
    have hsub : subSize b.size vlanHeaderLen = b.size - 4 := if_pos (by change 4 ≤ b.size; omega)
    rw [vlanPullTag, if_pos hvlan]
    simp only [hsub]
    rfl
  generalize hb' : vlanPullTag b = b' at *
  have hmem : b'.mem =
      b.mem.put (b.data + 4) (b.mem.slice b.l2Pos 12 ++ b.mem.slice (b.l2Pos + 16) 2) := by
    rw [hpull]
  have hdata : b'.data = b.data + 4 := by rw [hpull]
  have hsize' : b'.size = b.size - 4 := by rw [hpull]
  have htwo : b'.mem.slice (b'.data + 12) 2 = b.mem.slice (b.data + 16) 2 := by
    have htwelve : (b.mem.slice b.l2Pos 12).length = 12 := Memory.length_slice ..
    rw [hmem, hdata]
    refine (Memory.slice_put_of_inside b.mem (by omega)).trans ?_
    rw [List.drop_left' htwelve, hpos]
    exact List.take_of_length_le (by simp)
  constructor
  · constructor
    · -- a packet that is cut short inside its tag has none that `flow_extract` finds
      intro heq
      by_contra hshort
      have hnone : b.tagAt = none := (tagAt_of_ethType htype).trans (if_neg hshort)
      rw [untagged_of_none hnone] at heq
      have hcount := congrArg List.length heq
      rw [bytes, bytes, Memory.length_slice, Memory.length_slice] at hcount
      omega
    · intro h18
      have htag : b.tagAt = some 12 := (tagAt_of_ethType htype).trans (if_pos h18)
      obtain ⟨k, hk⟩ : ∃ k, b.size = 12 + (4 + (2 + k)) := ⟨b.size - 18, by omega⟩
      have hk' : b'.size = 12 + (2 + k) := by omega
      have hhead : b'.mem.slice b'.data 12 = b.mem.slice b.data 12 := by
        rw [hmem, hdata, ← hpos]
        refine (Memory.slice_put_of_inside b.mem (i := 0) ?_).trans (List.take_left' (by simp))
        omega
      have hrest : b'.mem.slice (b'.data + 12 + 2) k = b.mem.slice (b.data + 12 + 4 + 2) k := by
        have hsame : b'.data + 12 + 2 = b.data + 12 + 4 + 2 := by omega
        rw [hsame, hmem]
        exact Memory.slice_put_of_outside b.mem (by omega)
      rw [untagged_of_tagAt htag hk, bytes_eq hk', hhead, htwo, hrest, Memory.slice_add]
  · -- everything from the old type on is where it was
    have h12 : b'.mem.get16 (b.data + 4 + 12) = b.mem.get16 (b.data + 4 + 12) := by
      have htwelve : (b.mem.slice b.l2Pos 12).length = 12 := Memory.length_slice ..
      have h := be16_append_right (b.mem.slice b.l2Pos 12) (b.mem.slice (b.l2Pos + 16) 2) 0
      rw [htwelve] at h
      rw [hmem, Memory.get16_put_of_inside _ (by omega)]
      refine h.trans ?_
      rw [hpos]
      rfl
    have h14 : b'.mem.slice (b.data + 4 + 14) 6 = b.mem.slice (b.data + 4 + 14) 6 := by
      rw [hmem]
      exact Memory.slice_put_of_outside b.mem (by omega)
    have h20 : b'.mem.get16 (b.data + 4 + 20) = b.mem.get16 (b.data + 4 + 20) := by
      rw [hmem]
      exact Memory.get16_put_of_outside b.mem (by omega)
    rw [tagAt, hdata, hsize']
    simp only [vlanTagAt, h12, h14, h20]

end Ofpbuf

/-- A VLAN id adds its upper bits to the priority of a tag. -/
theorem vlanPcp_newTci {a : List Byte} (h : actionType a = ofpatSetVlanVid) (old : BitVec 16) :
    vlanPcp (newTci a old) = vlanPcp (be16 a 4) ||| vlanPcp old := by
  rw [newTci, if_pos h]
  unfold vlanPcp vlanVidMask
  apply BitVec.eq_of_getLsbD_eq
  intro i hi
  match i with
  | 0 | 1 | 2 | 3 | 4 | 5 | 6 | 7 => simp [Bool.or_comm]
  | n + 8 => omega

/-- A priority leaves the VLAN id of a tag alone. -/
theorem vlanVid_newTci {a : List Byte} (h : actionType a = ofpatSetVlanPcp) (old : BitVec 16) :
    vlanVid (newTci a old) = vlanVid old := by
  have hne : actionType a ≠ ofpatSetVlanVid := by
    rw [h]
    decide
  rw [newTci, if_neg hne]
  unfold vlanVid vlanVidMask vlanPcpMask
  apply BitVec.eq_of_getLsbD_eq
  intro i hi
  match i with
  | 0 | 1 | 2 | 3 | 4 | 5 | 6 | 7 | 8 | 9 | 10 | 11 | 12 | 13 | 14 | 15 => simp
  | n + 16 => omega

/-- What setting the VLAN does to a packet and its key: a new tag in the place of the old one, or in
front of a packet without one. -/
theorem executeAction_setsVlan {σ : Type*} {key : SwFlowKey} {a : List Byte} {s s' : ExecState σ}
    (ha : AcceptedAction key a) (hset : setsVlan a = true) (hok : executeAction a s = .ok s') :
    (s.key.flow.dlVlan ≠ ofpVlanNone ∧
        (let tci := newTci a (s.buffer.mem.get16 (s.buffer.l2Pos + 14))
        s'.buffer = s.buffer.put16 (s.buffer.l2Pos + 14) tci ∧ s'.key = s.key.setTci tci)) ∨
      s.key.flow.dlVlan = ofpVlanNone ∧ 4 ≤ s.buffer.data ∧ ∃ tci, s'.buffer = { s.buffer with
          mem := s.buffer.mem.put (s.buffer.data - 4) (taggedHeader s.buffer tci)
          data := s.buffer.data - 4, size := s.buffer.size + 4
          l2 := some (s.buffer.l2Pos - 4) } ∧ s'.key = s.key.setTci tci := by
  -- both functions are `modify_vlan_tci` with a mask
  have hmod : ∃ tci mask, (∀ old, (old &&& ~~~mask) ||| tci = newTci a old) ∧
      modifyVlanTci s.buffer s.key tci mask = .ok (s'.buffer, s'.key) := by
    rw [setsVlan, Bool.or_eq_true, beq_iff_eq, beq_iff_eq] at hset
    rcases hset with hvid | hpcp
    · have hex : ofActionsExecute.getD (actionType a).toNat none = some setVlanVid := by
        rw [hvid]
        rfl
      exact ⟨_, _, fun old => (if_pos hvid).symm, execute_eq_ok ha hex hok⟩
    · have hex : ofActionsExecute.getD (actionType a).toNat none = some setVlanPcp := by
        rw [hpcp]
        rfl
      have hne : actionType a ≠ ofpatSetVlanVid := by
        rw [hpcp]
        decide
      exact ⟨_, _, fun old => (if_neg hne).symm, execute_eq_ok ha hex hok⟩
  obtain ⟨tci, mask, htci, hmod⟩ := hmod
  unfold modifyVlanTci at hmod
  split at hmod
  next htag =>
    left
    rw [htci] at hmod
    obtain ⟨hb, hkey⟩ := Prod.mk.inj (Except.ok.inj hmod)
    exact ⟨htag, hb.symm, hkey.symm⟩
  next htag =>
    right
    unfold Ofpbuf.pushUninit at hmod
    by_cases hroom : vlanHeaderLen ≤ s.buffer.headroom
    · rw [if_pos hroom] at hmod
      obtain ⟨hb, hkey⟩ := Prod.mk.inj (Except.ok.inj hmod)
      exact ⟨not_not.1 htag, hroom, tci, hb.symm, hkey.symm⟩
    · rw [if_neg hroom] at hmod
      cases hmod

section Step

variable {σ : Type*} {key' : SwFlowKey} {a : List Byte} {s s' : ExecState σ}

/-- Setting the VLAN keeps what it has to exactly if the action meets the tag where it looks for it
and has no more bits than there is room for. -/
theorem VlanAgrees.step_set (h : VlanAgrees s.buffer s.key) (ha : AcceptedAction key' a)
    (hset : setsVlan a = true) (hok : executeAction a s = .ok s') :
    (VlanKept a s.buffer s'.buffer s'.key ↔ VlanOk a s.buffer s.key) ∧
      (VlanKept a s.buffer s'.buffer s'.key → VlanAgrees s'.buffer s'.key) := by
  obtain ⟨hl2, hsize, hfields⟩ := h
  have hpos : s.buffer.l2Pos = s.buffer.data := by rw [Ofpbuf.l2Pos, hl2, Option.getD_some]
  have hstrip : actionType a ≠ ofpatStripVlan := by
    rw [setsVlan, Bool.or_eq_true, beq_iff_eq, beq_iff_eq] at hset
    rcases hset with hset | hset <;> rw [hset] <;> decide
  have htag : s.buffer.tagAt = none ↔ s.key.flow.dlVlan = ofpVlanNone := by
    rw [Ofpbuf.tagAt_eq_none_iff, ← hfields]
  rw [vlanKept_iff]
  obtain ⟨hvlan, hb, hkey⟩ | ⟨hvlan, hroom, tci, hb, hkey⟩ := executeAction_setsVlan ha hset hok
  · have hsome : s.buffer.tagAt ≠ none := fun h => hvlan (htag.1 h)
    generalize htci : newTci a (s.buffer.mem.get16 (s.buffer.l2Pos + 14)) = tci at hb hkey
    have hkept : ∀ P : Prop, ((s'.key.flow.dlVlan, s'.key.flow.dlVlanPcp) = s'.buffer.fields ∧ P →
        VlanAgrees s'.buffer s'.key) := by
      rintro P ⟨hagrees, -⟩
      refine ⟨?_, ?_, hagrees⟩
      · rw [hb]
        exact hl2
      · rw [hb]
        exact hsize
    refine ⟨?_, hkept _⟩
    have hkeyFields : (s'.key.flow.dlVlan, s'.key.flow.dlVlanPcp) = (vlanVid tci, vlanPcp tci) := by
      rw [hkey]
      rfl
    have hok : VlanOk a s.buffer s.key ↔
        if s.buffer.ethType = ethTypeVlan then
          actionType a = ofpatSetVlanVid →
            vlanPcp (be16 a 4) ||| s.key.flow.dlVlanPcp = s.key.flow.dlVlanPcp
        else
          let word := s.buffer.mem.get16 (s.buffer.l2Pos + 14)
          newTci a word = word ∧
            (s.key.flow.dlVlan, s.key.flow.dlVlanPcp) = (vlanVid word, vlanPcp word) :=
      ⟨fun h => h.set hset hvlan, fun h => ⟨fun _ _ => h, fun h => absurd h hstrip⟩⟩
    rw [hok, hkeyFields]
    by_cases hfront : s.buffer.ethType = ethTypeVlan
    · -- the tag of an Ethernet II frame
      obtain ⟨i, hi⟩ := Option.ne_none_iff_exists'.1 hsome
      have h18 : 18 ≤ s.buffer.size := by
        obtain ⟨-, -, h⟩ | ⟨-, -, -, h⟩ := Ofpbuf.tagAt_eq_some hi <;> omega
      obtain ⟨htwelve, hfields', hothers⟩ := Ofpbuf.put16_front hl2 hfront h18 tci
      have hold : s.buffer.fields = (vlanVid (s.buffer.mem.get16 (s.buffer.l2Pos + 14)),
          vlanPcp (s.buffer.mem.get16 (s.buffer.l2Pos + 14))) := by
        rw [Ofpbuf.fields_of_tagAt htwelve, Nat.add_assoc, hpos]
      generalize s.buffer.mem.get16 (s.buffer.l2Pos + 14) = old at htci hold
      have hpcp : s.key.flow.dlVlanPcp = vlanPcp old := congrArg Prod.snd (hfields.trans hold)
      rw [← hb] at hfields' hothers
      rw [if_pos hfront, if_neg hstrip, hfields', hold, hpcp, ← htci]
      constructor
      · rintro ⟨-, hkeeps, -, -⟩ hvid
        exact (vlanPcp_newTci hvid old).symm.trans (hkeeps hvid hsome)
      · intro hbits
        exact ⟨rfl, fun hvid _ => (vlanPcp_newTci hvid old).trans (hbits hvid),
          fun hpcp _ => vlanVid_newTci hpcp old, hothers⟩
    · -- what is behind the header of an 802.2 frame
      have hsnap : s'.buffer.untagged = s.buffer.untagged ↔
          tci = s.buffer.mem.get16 (s.buffer.l2Pos + 14) := by
        rw [hb]
        exact Ofpbuf.put16_snap hl2 hfront hsome
      have hsame : tci = s.buffer.mem.get16 (s.buffer.l2Pos + 14) → s'.buffer = s.buffer := by
        intro hword
        rw [hb, hword, Ofpbuf.put16, Memory.put16_get16]
      rw [if_neg hfront, if_neg hstrip, hsnap]
      simp only [htci, hfields]
      constructor
      · rintro ⟨hfields', -, -, hword⟩
        rw [hsame hword] at hfields'
        rw [← hword]
        exact ⟨rfl, hfields'.symm⟩
      · rintro ⟨hword, hold⟩
        rw [hsame hword, hold, ← hword]
        exact ⟨rfl, fun _ _ => rfl, fun _ _ => rfl, rfl⟩
  · -- a tag in front of a packet without one
    have hnone := htag.2 hvlan
    obtain ⟨hfields', hothers⟩ := Ofpbuf.tagged_front hl2 hsize hroom
      (by rw [hb] : s'.buffer.mem = _) (by rw [hb]) (by rw [hb])
    have hagrees : (s'.key.flow.dlVlan, s'.key.flow.dlVlanPcp) = s'.buffer.fields := by
      rw [hkey, hfields']
      rfl
    refine ⟨iff_of_true ⟨hagrees, fun _ hne => absurd hnone hne, fun _ hne => absurd hnone hne, ?_⟩
      ⟨fun _ hne => absurd hvlan hne, fun h => absurd h hstrip⟩, fun _ => ⟨?_, ?_, hagrees⟩⟩
    · rw [if_neg hstrip, hothers, Ofpbuf.untagged_of_none hnone]
    · rw [hb, hpos]
    · rw [hb]
      exact Nat.le_add_right_of_le hsize

/-- A packet has the fields of one without a tag exactly when it has none. -/
theorem Ofpbuf.untagged_eq_fields_iff {b : Ofpbuf} {pcp : Byte} :
    (ofpVlanNone, pcp) = b.fields ↔ pcp = 0 ∧ b.tagAt = none := by
  constructor
  · intro heq
    have htag : b.tagAt = none := Ofpbuf.tagAt_eq_none_iff.2 (congrArg Prod.fst heq).symm
    rw [Ofpbuf.fields_of_none htag] at heq
    exact ⟨congrArg Prod.snd heq, htag⟩
  · rintro ⟨hzero, htag⟩
    rw [Ofpbuf.fields_of_none htag, hzero]

/-- Taking the tag off keeps what it has to exactly if there is a whole tag behind the addresses,
without a priority and with no other tag behind it, or no tag at all. -/
theorem VlanAgrees.step_strip (h : VlanAgrees s.buffer s.key) (ha : AcceptedAction key' a)
    (hstrip : actionType a = ofpatStripVlan) (hok : executeAction a s = .ok s') :
    (VlanKept a s.buffer s'.buffer s'.key ↔ VlanOk a s.buffer s.key) ∧
      (VlanKept a s.buffer s'.buffer s'.key → VlanAgrees s'.buffer s'.key) := by
  obtain ⟨hl2, hsize, hfields⟩ := h
  have hpos : s.buffer.l2Pos = s.buffer.data := by rw [Ofpbuf.l2Pos, hl2, Option.getD_some]
  have hset : ¬ setsVlan a = true := by
    rw [setsVlan, hstrip]
    decide
  have hvid : actionType a ≠ ofpatSetVlanVid := by
    rw [hstrip]
    decide
  have hpcp : actionType a ≠ ofpatSetVlanPcp := by
    rw [hstrip]
    decide
  have hex : ofActionsExecute.getD (actionType a).toNat none = some stripVlan := by
    rw [hstrip]
    rfl
  obtain ⟨hb, hkey⟩ := Prod.mk.inj (Except.ok.inj (execute_eq_ok ha hex hok))
  have hkeyFields : (s'.key.flow.dlVlan, s'.key.flow.dlVlanPcp) =
      (ofpVlanNone, s.key.flow.dlVlanPcp) := by
    rw [← hkey]
    rfl
  have hokIff : VlanOk a s.buffer s.key ↔
      if s.buffer.ethType = ethTypeVlan then
        18 ≤ s.buffer.size ∧ s.key.flow.dlVlanPcp = 0 ∧
          vlanTagAt s.buffer.mem (s.buffer.data + 4) (s.buffer.size - 4) = none
      else s.key.flow.dlVlan = ofpVlanNone :=
    ⟨fun h => h.strip hstrip, fun h => ⟨fun h => absurd h hset, fun _ => h⟩⟩
  rw [vlanKept_iff, hokIff, if_pos hstrip, hkeyFields]
  by_cases hvlan : s.buffer.ethType = ethTypeVlan
  · -- the tag comes off, and the priority stays in the key
    obtain ⟨hbytes, htag⟩ := Ofpbuf.vlanPullTag_front hl2 hvlan hsize
    rw [hb] at hbytes htag
    rw [if_pos hvlan, hbytes, ← htag]
    constructor
    · rw [Ofpbuf.untagged_eq_fields_iff]
      exact ⟨fun h => ⟨h.2.2.2, h.1⟩,
        fun h => ⟨h.2, fun h => absurd h hvid, fun h => absurd h hpcp, h.1⟩⟩
    · rintro ⟨hagrees, -, -, h18⟩
      refine ⟨?_, ?_, hkeyFields.trans hagrees⟩
      · rw [← hb, vlanPullTag, if_pos hvlan, hpos]
      · have h4 : 4 ≤ s.buffer.size := by omega
        rw [← hb, vlanPullTag, if_pos hvlan]
        change 14 ≤ Ofpbuf.subSize s.buffer.size 4
        rw [Ofpbuf.subSize, if_pos h4]
        exact Nat.le_sub_of_add_le h18
  · -- the packet stays as it is, and the key says that it has no tag
    have hsame : s'.buffer = s.buffer := by
      rw [← hb, vlanPullTag, if_neg hvlan]
    rw [hsame, if_neg hvlan]
    constructor
    · constructor
      · rintro ⟨hagrees, -⟩
        exact congrArg Prod.fst (hfields.trans hagrees.symm)
      · intro hnone
        have htag : s.buffer.tagAt = none := by
          rw [Ofpbuf.tagAt_eq_none_iff, ← hfields, hnone]
        exact ⟨by rw [← hfields, hnone], fun h => absurd h hvid, fun h => absurd h hpcp,
          (Ofpbuf.untagged_of_none htag).symm⟩
    · rintro ⟨hagrees, -⟩
      exact ⟨hl2, hsize, hkeyFields.trans hagrees⟩

end Step

/-- An extracted packet with a whole Ethernet header has the VLAN of its key. -/
theorem vlanAgrees_flowExtract (packet : Ofpbuf) (inPort : BitVec 16)
    (hsize : ethHeaderLen ≤ packet.size) :
    VlanAgrees (flowExtract packet inPort).2.2 (packetKey (packetFlow packet inPort)) := by
  have hsame := flowExtract_mem packet inPort
  refine ⟨?_, ?_, ?_⟩
  · rw [(framed_flowExtract packet inPort).l2]
  · rw [hsame.2.2]
    exact hsize
  · rw [Ofpbuf.fields, hsame.1, hsame.2.1, hsame.2.2]
    exact packetFlow_vlan packet inPort

/-- Going through a list of actions on the tag that `validate_actions` accepts, every action keeps
what it has to exactly if every action meets the tag where it looks for it, has no more bits than
there is room for, and takes off only a tag without a priority and with no other tag behind it. -/
theorem vlanKept_iff_vlanOk {σ : Type*} (packet : Ofpbuf) (inPort : BitVec 16) (key : SwFlowKey)
    (actions : List Byte) (world : σ) (hsize : ethHeaderLen ≤ packet.size)
    (hval : validateActions key actions = actValidationOk)
    (htag : ∀ a ∈ actionItems actions, changesTag a = true) :
    (let s := .init (flowExtract packet inPort).2.2 (packetKey (packetFlow packet inPort)) world
    EveryStep (fun s a s' => VlanKept a s.buffer s'.buffer s'.key) s (actionItems actions) ↔
      EveryStep (fun s a _ => VlanOk a s.buffer s.key) s (actionItems actions)) := by
  refine everyStep_congr (fun s => VlanAgrees s.buffer s.key) ?_
    (vlanAgrees_flowExtract packet inPort hsize)
  intro a ha s s' hinv hok
  have hacc := (actionItems_spec hval).2 a ha
  have hchanges := htag a ha
  rw [changesTag, Bool.or_eq_true, beq_iff_eq] at hchanges
  rcases hchanges with hset | hstrip
  · exact hinv.step_set hacc hset hok
  · exact hinv.step_strip hacc hstrip hok

/-- A frame of no more than a tag, with the given tag control information, and a type. -/
def taggedFrame (tci : BitVec 16) : List Byte :=
  [2, 0, 0, 0, 0, 1, 2, 0, 0, 0, 0, 2, 0x81, 0x00] ++ Memory.bytes16 tci ++ [0x88, 0xb5]

/-- The action that sets the VLAN id. -/
def setVlanVidAction (vid : BitVec 16) : List Byte :=
  [0, 1, 0, 8] ++ Memory.bytes16 vid ++ [0, 0]

/-- A VLAN id of 12 bits keeps the priority of a tag. -/
theorem vlanKept_taggedFrame :
    (let key := flowExtractMatch { OfpMatch.zero with wildcards := ofpfwAll }
    let packet := Ofpbuf.cloneData (taggedFrame 0x6005)
    let s := ExecState.init (flowExtract packet 1).2.2 (packetKey (packetFlow packet 1)) ()
    validateActions key (setVlanVidAction 7) = actValidationOk ∧
      EveryStep (fun s a s' => VlanKept a s.buffer s'.buffer s'.key) s
        (actionItems (setVlanVidAction 7))) := by
  have hval : validateActions (flowExtractMatch { OfpMatch.zero with wildcards := ofpfwAll })
      (setVlanVidAction 7) = actValidationOk := by decide
  have hitems : actionItems (setVlanVidAction 7) = [setVlanVidAction 7] := by decide
  refine ⟨hval, (vlanKept_iff_vlanOk _ 1 _ _ () (by decide) hval ?_).2 ?_⟩
  · rw [hitems]
    decide
  · rw [hitems]
    exact ⟨⟨fun _ _ => by decide +kernel, fun h => absurd h (by decide)⟩, trivial⟩

/-- A VLAN id with a bit above its 12 sets a bit of the priority. -/
theorem not_vlanKept_taggedFrame :
    ¬ ∀ (packet : Ofpbuf) (inPort : BitVec 16) (key : SwFlowKey) (actions : List Byte),
      ethHeaderLen ≤ packet.size → validateActions key actions = actValidationOk →
        (∀ a ∈ actionItems actions, changesTag a = true) →
          EveryStep (fun s a s' => VlanKept a s.buffer s'.buffer s'.key)
            (.init (flowExtract packet inPort).2.2 (packetKey (packetFlow packet inPort)) ())
            (actionItems actions) := by
  intro hall
  have hitems : actionItems (setVlanVidAction 0x2007) = [setVlanVidAction 0x2007] := by decide
  have hkept := hall (.cloneData (taggedFrame 0x0005)) 1
    (flowExtractMatch { OfpMatch.zero with wildcards := ofpfwAll }) (setVlanVidAction 0x2007)
    (by decide) (by decide) (by rw [hitems]; decide)
  rw [hitems] at hkept
  exact absurd (hkept.1.pcp (by decide) 1 (by decide +kernel)) (by decide +kernel)

end OfAgent
