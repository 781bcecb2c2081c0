import OfAgent.Lib.Ternary
import OfAgent.OpenFlow

/-!
# Flow keys and their comparison

`struct flow` and `struct sw_flow_key`, the comparisons of `switch-flow.c`, and the
normalisation `flow_extract_match`. A key is a ternary pattern over the twelve header fields,
and the three comparisons are pattern operations:

* `flowMatches1wild_iff`: `flow_matches_1wild(a, b)` is matching `a`'s values against `b`;
* `flowMatches2wild_iff`: `flow_matches_2wild(a, b)` is overlap;
* `flowExtractMatch_flowFillMatch`: a normalised key survives the way through an `ofp_match`.
-/

namespace OfAgent

/-- `struct flow`: identification data for a flow. The padding is left out: every function that
fills a flow zeroes it. -/
structure Flow where
  /-- IP source address. -/
  nwSrc : BitVec 32
  /-- IP destination address. -/
  nwDst : BitVec 32
  /-- Input switch port. -/
  inPort : BitVec 16
  /-- Input VLAN id. -/
  dlVlan : BitVec 16
  /-- Ethernet frame type. -/
  dlType : BitVec 16
  /-- TCP/UDP source port. -/
  tpSrc : BitVec 16
  /-- TCP/UDP destination port. -/
  tpDst : BitVec 16
  /-- Ethernet source address. -/
  dlSrc : BitVec 48
  /-- Ethernet destination address. -/
  dlDst : BitVec 48
  /-- Input VLAN priority. -/
  dlVlanPcp : BitVec 8
  /-- IPv4 DSCP. -/
  nwTos : BitVec 8
  /-- IP protocol. -/
  nwProto : BitVec 8
  deriving DecidableEq, Repr

/-- `struct sw_flow_key`. -/
structure SwFlowKey where
  /-- Flow data. -/
  flow : Flow
  /-- Wildcard fields. -/
  wildcards : BitVec 32
  /-- 1-bit in each significant `nw_src` bit. -/
  nwSrcMask : BitVec 32
  /-- 1-bit in each significant `nw_dst` bit. -/
  nwDstMask : BitVec 32
  deriving DecidableEq, Repr

/-- `w & bit`, as a condition. -/
def wild (w bit : BitVec 32) : Bool := w &&& bit != 0

/-- `flow_fields_match`. -/
def flowFieldsMatch (a b : Flow) (w srcMask dstMask : BitVec 32) : Bool :=
  (wild w ofpfwInPort || a.inPort == b.inPort)
    && (wild w ofpfwDlVlan || a.dlVlan == b.dlVlan)
    && (wild w ofpfwDlVlanPcp || a.dlVlanPcp == b.dlVlanPcp)
    && (wild w ofpfwDlSrc || a.dlSrc == b.dlSrc)
    && (wild w ofpfwDlDst || a.dlDst == b.dlDst)
    && (wild w ofpfwDlType || a.dlType == b.dlType)
    && (wild w ofpfwNwTos || a.nwTos == b.nwTos)
    && (wild w ofpfwNwProto || a.nwProto == b.nwProto)
    && ((a.nwSrc ^^^ b.nwSrc) &&& srcMask == 0)
    && ((a.nwDst ^^^ b.nwDst) &&& dstMask == 0)
    && (wild w ofpfwTpSrc || a.tpSrc == b.tpSrc)
    && (wild w ofpfwTpDst || a.tpDst == b.tpDst)

/-- `make_nw_mask`. -/
def makeNwMask (nWildBits : BitVec 32) : BitVec 32 :=
  let n := nWildBits &&& ((1 <<< ofpfwNwSrcBits) - 1)
  if n.toNat < 32 then ~~~((1 <<< n.toNat) - 1) else 0

/-- `flow_matches_1wild`: fields are equal modulo wildcards in `b`. -/
def flowMatches1wild (a b : SwFlowKey) : Bool :=
  flowFieldsMatch a.flow b.flow b.wildcards b.nwSrcMask b.nwDstMask

/-- `flow_matches_2wild`: fields are equal modulo wildcards in `a` or `b`. -/
def flowMatches2wild (a b : SwFlowKey) : Bool :=
  flowFieldsMatch a.flow b.flow (a.wildcards ||| b.wildcards) (a.nwSrcMask &&& b.nwSrcMask)
    (a.nwDstMask &&& b.nwDstMask)

/-- `flow_matches_desc`: the table entry's key `t` against the description `d`. -/
def flowMatchesDesc (t d : SwFlowKey) (strict : Bool) : Bool :=
  if strict && d.wildcards != t.wildcards then false else flowMatches1wild t d

/-- `flow_matches_2desc`. -/
def flowMatches2desc (t d : SwFlowKey) (strict : Bool) : Bool :=
  if strict && d.wildcards != t.wildcards then false else flowMatches2wild t d

/-- `OFPFW_TP`. -/
def ofpfwTp : BitVec 32 := ofpfwTpSrc ||| ofpfwTpDst

/-- `OFPFW_NW`. -/
def ofpfwNw : BitVec 32 := ofpfwNwTos ||| ofpfwNwProto ||| ofpfwNwSrcMask ||| ofpfwNwDstMask

/-- The flow and the wildcards that `flow_extract_match` computes before the address masks. -/
def flowExtractFields (m : OfpMatch) : Flow × BitVec 32 :=
  let wildcards := m.wildcards &&& ofpfwAll
  let flow : Flow :=
    { dlVlanPcp := m.dlVlanPcp, inPort := m.inPort, dlVlan := m.dlVlan, dlSrc := m.dlSrc,
      dlDst := m.dlDst, dlType := m.dlType, nwTos := 0, nwProto := 0, nwSrc := 0, nwDst := 0,
      tpSrc := 0, tpDst := 0 }
  if wild wildcards ofpfwDlType then (flow, wildcards ||| (ofpfwNw ||| ofpfwTp))
  else if m.dlType == ethTypeIp then
    let flow := { flow with
      nwTos := m.nwTos &&& 0xfc, nwProto := m.nwProto, nwSrc := m.nwSrc, nwDst := m.nwDst }
    if wild wildcards ofpfwNwProto then (flow, wildcards ||| ofpfwTp)
    else if m.nwProto == 6 || m.nwProto == 17 || m.nwProto == 1 then
      -- TCP, UDP and ICMP
      ({ flow with tpSrc := m.tpSrc, tpDst := m.tpDst }, wildcards)
    else (flow, wildcards &&& ~~~ofpfwTp)
  else if m.dlType == ethTypeArp then
    ({ flow with nwSrc := m.nwSrc, nwDst := m.nwDst, nwProto := m.nwProto },
      wildcards &&& ~~~ofpfwTp)
  else
    -- the code that would mark the undefined fields as exact is commented out in the source
    (flow, wildcards)

/-- `flow_extract_match`. -/
def flowExtractMatch (m : OfpMatch) : SwFlowKey :=
  let (flow, wildcards) := flowExtractFields m
  { flow, wildcards,
    nwSrcMask := makeNwMask (wildcards >>> ofpfwNwSrcShift),
    nwDstMask := makeNwMask (wildcards >>> ofpfwNwDstShift) }

/-- `flow_fill_match`. -/
def flowFillMatch (flow : Flow) (wildcards : BitVec 32) : OfpMatch :=
  { wildcards, inPort := flow.inPort, dlVlan := flow.dlVlan, dlSrc := flow.dlSrc,
    dlDst := flow.dlDst, dlType := flow.dlType, nwTos := flow.nwTos, nwProto := flow.nwProto,
    nwSrc := flow.nwSrc, nwDst := flow.nwDst, tpSrc := flow.tpSrc, tpDst := flow.tpDst,
    dlVlanPcp := flow.dlVlanPcp }

/-- The key of a packet: a flow without wildcards, as `run_flow_through_tables` passes it to
`chain_lookup`. The source leaves the masks unset; no lookup reads them. -/
def packetKey (flow : Flow) : SwFlowKey :=
  { flow, wildcards := 0, nwSrcMask := makeNwMask 0, nwDstMask := makeNwMask 0 }

/-! ### Keys as ternary patterns -/

/-- The twelve header fields. -/
inductive Field
  | nwSrc | nwDst | inPort | dlVlan | dlType | tpSrc | tpDst | dlSrc | dlDst | dlVlanPcp
  | nwTos | nwProto
  deriving DecidableEq, Repr

/-- The width of a header field. -/
def Field.width : Field → ℕ
  | nwSrc | nwDst => 32
  | inPort | dlVlan | dlType | tpSrc | tpDst => 16
  | dlSrc | dlDst => 48
  | dlVlanPcp | nwTos | nwProto => 8

/-- The header fields as a word of a ternary pattern. -/
def Flow.word (f : Flow) : Ternary.Word Field.width
  | .nwSrc => f.nwSrc
  | .nwDst => f.nwDst
  | .inPort => f.inPort
  | .dlVlan => f.dlVlan
  | .dlType => f.dlType
  | .tpSrc => f.tpSrc
  | .tpDst => f.tpDst
  | .dlSrc => f.dlSrc
  | .dlDst => f.dlDst
  | .dlVlanPcp => f.dlVlanPcp
  | .nwTos => f.nwTos
  | .nwProto => f.nwProto

/-- The flow with given header fields. -/
def Flow.ofWord (k : Ternary.Word Field.width) : Flow :=
  { nwSrc := k .nwSrc, nwDst := k .nwDst, inPort := k .inPort, dlVlan := k .dlVlan,
    dlType := k .dlType, tpSrc := k .tpSrc, tpDst := k .tpDst, dlSrc := k .dlSrc,
    dlDst := k .dlDst, dlVlanPcp := k .dlVlanPcp, nwTos := k .nwTos, nwProto := k .nwProto }

/-- A word is the word of its flow. -/
@[simp]
theorem Flow.word_ofWord (k : Ternary.Word Field.width) : (Flow.ofWord k).word = k := by
  funext i
  cases i <;> rfl

/-- The mask of a field that is compared as a whole or not at all. -/
def flagMask (n : ℕ) (w bit : BitVec 32) : BitVec n := if wild w bit then 0 else BitVec.allOnes n

/-- The masks that a comparison under given wildcards and address masks uses. -/
def fieldMask (w srcMask dstMask : BitVec 32) : Ternary.Word Field.width
  | .nwSrc => srcMask
  | .nwDst => dstMask
  | .inPort => flagMask 16 w ofpfwInPort
  | .dlVlan => flagMask 16 w ofpfwDlVlan
  | .dlType => flagMask 16 w ofpfwDlType
  | .tpSrc => flagMask 16 w ofpfwTpSrc
  | .tpDst => flagMask 16 w ofpfwTpDst
  | .dlSrc => flagMask 48 w ofpfwDlSrc
  | .dlDst => flagMask 48 w ofpfwDlDst
  | .dlVlanPcp => flagMask 8 w ofpfwDlVlanPcp
  | .nwTos => flagMask 8 w ofpfwNwTos
  | .nwProto => flagMask 8 w ofpfwNwProto

/-- The ternary pattern of a key. -/
def SwFlowKey.pattern (k : SwFlowKey) : Ternary.Pattern Field.width where
  value := k.flow.word
  mask := fieldMask k.wildcards k.nwSrcMask k.nwDstMask

/-- Agreement under the mask of a whole field. -/
theorem xor_and_flagMask {n : ℕ} (a b : BitVec n) (w bit : BitVec 32) :
    (a ^^^ b) &&& flagMask n w bit = 0 ↔ (wild w bit || a == b) = true := by
  unfold flagMask
  cases wild w bit with
  | true => simp
  | false => simp

/-- `flow_fields_match` compares field by field under the masks. -/
theorem flowFieldsMatch_iff (a b : Flow) (w srcMask dstMask : BitVec 32) :
    flowFieldsMatch a b w srcMask dstMask = true ↔
      ∀ i, (a.word i ^^^ b.word i) &&& fieldMask w srcMask dstMask i = 0 := by
  -- a masked difference for each field, in the terms of the code
  have key : (∀ i, (a.word i ^^^ b.word i) &&& fieldMask w srcMask dstMask i = 0) ↔
      (∀ i : Field, match i with
        | .nwSrc => ((a.nwSrc ^^^ b.nwSrc) &&& srcMask == 0) = true
        | .nwDst => ((a.nwDst ^^^ b.nwDst) &&& dstMask == 0) = true
        | .inPort => (wild w ofpfwInPort || a.inPort == b.inPort) = true
        | .dlVlan => (wild w ofpfwDlVlan || a.dlVlan == b.dlVlan) = true
        | .dlType => (wild w ofpfwDlType || a.dlType == b.dlType) = true
        | .tpSrc => (wild w ofpfwTpSrc || a.tpSrc == b.tpSrc) = true
        | .tpDst => (wild w ofpfwTpDst || a.tpDst == b.tpDst) = true
        | .dlSrc => (wild w ofpfwDlSrc || a.dlSrc == b.dlSrc) = true
        | .dlDst => (wild w ofpfwDlDst || a.dlDst == b.dlDst) = true
        | .dlVlanPcp => (wild w ofpfwDlVlanPcp || a.dlVlanPcp == b.dlVlanPcp) = true
        | .nwTos => (wild w ofpfwNwTos || a.nwTos == b.nwTos) = true
        | .nwProto => (wild w ofpfwNwProto || a.nwProto == b.nwProto) = true) := by
    refine forall_congr' fun i => ?_
    cases i
    case nwSrc =>
      change (a.nwSrc ^^^ b.nwSrc) &&& srcMask = 0 ↔ _
      exact beq_iff_eq.symm
    case nwDst =>
      change (a.nwDst ^^^ b.nwDst) &&& dstMask = 0 ↔ _
      exact beq_iff_eq.symm
    all_goals exact xor_and_flagMask _ _ _ _
  rw [key, flowFieldsMatch]
  simp only [Bool.and_eq_true]
  constructor
  · rintro ⟨⟨⟨⟨⟨⟨⟨⟨⟨⟨⟨h1, h2⟩, h3⟩, h4⟩, h5⟩, h6⟩, h7⟩, h8⟩, h9⟩, h10⟩, h11⟩, h12⟩ i
    cases i <;> assumption
  · intro h
    exact ⟨⟨⟨⟨⟨⟨⟨⟨⟨⟨⟨h .inPort, h .dlVlan⟩, h .dlVlanPcp⟩, h .dlSrc⟩, h .dlDst⟩, h .dlType⟩,
      h .nwTos⟩, h .nwProto⟩, h .nwSrc⟩, h .nwDst⟩, h .tpSrc⟩, h .tpDst⟩

theorem wild_or (w w' bit : BitVec 32) : wild (w ||| w') bit = (wild w bit || wild w' bit) := by
  rw [Bool.eq_iff_iff]
  simp [wild, BitVec.and_or_distrib_right, -not_and, not_and_or]

/-- Combined wildcards mean combined masks. -/
theorem flagMask_or (n : ℕ) (w w' bit : BitVec 32) :
    flagMask n (w ||| w') bit = flagMask n w bit &&& flagMask n w' bit := by
  unfold flagMask
  rw [wild_or]
  cases wild w bit <;> cases wild w' bit <;> simp

/-- `flow_matches_1wild(a, b)`: the values of `a` match the pattern of `b`. -/
theorem flowMatches1wild_iff (a b : SwFlowKey) :
    flowMatches1wild a b = true ↔ b.pattern.Matches a.flow.word :=
  flowFieldsMatch_iff _ _ _ _ _

/-- `flow_matches_2wild(a, b)`: the patterns of `a` and `b` overlap. -/
theorem flowMatches2wild_iff (a b : SwFlowKey) :
    flowMatches2wild a b = true ↔ a.pattern.Overlaps b.pattern := by
  rw [flowMatches2wild, flowFieldsMatch_iff, Ternary.Pattern.overlaps_iff]
  refine forall_congr' fun i => ?_
  have hmask : fieldMask (a.wildcards ||| b.wildcards) (a.nwSrcMask &&& b.nwSrcMask)
      (a.nwDstMask &&& b.nwDstMask) i = a.pattern.mask i &&& b.pattern.mask i := by
    cases i
    case nwSrc => rfl
    case nwDst => rfl
    all_goals exact flagMask_or _ _ _ _
  rw [hmask]
  rfl

/-! ### Normalised keys -/

/-- The keys that `flow_extract_match` makes: every key of a table entry and of a flow
modification is one. -/
def SwFlowKey.Normal (k : SwFlowKey) : Prop := ∃ m, k = flowExtractMatch m

/-- The address masks of a normalised key follow from its wildcards. -/
theorem SwFlowKey.Normal.masks {k : SwFlowKey} (h : k.Normal) :
    k.nwSrcMask = makeNwMask (k.wildcards >>> ofpfwNwSrcShift) ∧
      k.nwDstMask = makeNwMask (k.wildcards >>> ofpfwNwDstShift) := by
  obtain ⟨m, rfl⟩ := h
  exact ⟨rfl, rfl⟩

/-- Two flows agree on every bit exactly when they are equal. -/
theorem Flow.word_injective {a b : Flow} (h : ∀ i, a.word i = b.word i) : a = b := by
  obtain ⟨⟩ := a
  obtain ⟨⟩ := b
  simp only [Flow.mk.injEq]
  exact ⟨h .nwSrc, h .nwDst, h .inPort, h .dlVlan, h .dlType, h .tpSrc, h .tpDst, h .dlSrc,
    h .dlDst, h .dlVlanPcp, h .nwTos, h .nwProto⟩

theorem fieldMask_zero (i : Field) :
    fieldMask 0 (makeNwMask 0) (makeNwMask 0) i = BitVec.allOnes i.width := by
  cases i <;> decide

/-- Without wildcards, `flow_fields_match` is equality. -/
theorem flowFieldsMatch_exact (a b : Flow) :
    flowFieldsMatch a b 0 (makeNwMask 0) (makeNwMask 0) = (a == b) := by
  rw [Bool.eq_iff_iff, flowFieldsMatch_iff, beq_iff_eq]
  constructor
  · intro h
    refine Flow.word_injective fun i => ?_
    have hi := h i
    rw [fieldMask_zero, BitVec.and_allOnes] at hi
    exact BitVec.xor_eq_zero_iff.1 hi
  · rintro rfl i
    simp

/-- A normalised key without wildcards has full address masks. -/
theorem SwFlowKey.Normal.masks_of_exact {k : SwFlowKey} (h : k.Normal) (hw : k.wildcards = 0) :
    k.nwSrcMask = makeNwMask 0 ∧ k.nwDstMask = makeNwMask 0 := by
  obtain ⟨hs, hd⟩ := h.masks
  rw [hs, hd, hw]
  exact ⟨rfl, rfl⟩

/-- A key matches a normalised key without wildcards exactly when the flows are equal. -/
theorem SwFlowKey.Normal.flowMatches1wild_exact {b : SwFlowKey} (h : b.Normal)
    (hw : b.wildcards = 0) (a : SwFlowKey) : flowMatches1wild a b = (a.flow == b.flow) := by
  obtain ⟨hs, hd⟩ := h.masks_of_exact hw
  rw [flowMatches1wild, hs, hd, hw, flowFieldsMatch_exact]

/-- Two normalised keys without wildcards overlap exactly when the flows are equal. -/
theorem SwFlowKey.Normal.flowMatches2wild_exact {a b : SwFlowKey} (ha : a.Normal)
    (hb : b.Normal) (hwa : a.wildcards = 0) (hwb : b.wildcards = 0) :
    flowMatches2wild a b = (a.flow == b.flow) := by
  obtain ⟨hsa, hda⟩ := ha.masks_of_exact hwa
  obtain ⟨hsb, hdb⟩ := hb.masks_of_exact hwb
  rw [flowMatches2wild, hsa, hsb, hda, hdb, hwa, hwb, BitVec.and_self, BitVec.or_self,
    flowFieldsMatch_exact]

/-- A normalised key without wildcards adds none to a comparison. -/
theorem SwFlowKey.Normal.flowMatches2wild_eq {a : SwFlowKey} (h : a.Normal)
    (hw : a.wildcards = 0) (b : SwFlowKey) : flowMatches2wild a b = flowMatches1wild a b := by
  obtain ⟨hs, hd⟩ := h.masks_of_exact hw
  have hmask : makeNwMask 0 = BitVec.allOnes 32 := by decide
  have hor : (0 : BitVec 32) ||| b.wildcards = b.wildcards := BitVec.zero_or
  rw [flowMatches2wild, flowMatches1wild, hs, hd, hw, hmask, hor, BitVec.allOnes_and,
    BitVec.allOnes_and]

/-- `flow_matches_2wild` does not depend on the order of the keys. -/
theorem flowMatches2wild_comm (a b : SwFlowKey) :
    flowMatches2wild a b = flowMatches2wild b a := by
  rw [Bool.eq_iff_iff, flowMatches2wild_iff, flowMatches2wild_iff]
  exact ⟨fun ⟨k, ha, hb⟩ => ⟨k, hb, ha⟩, fun ⟨k, hb, ha⟩ => ⟨k, ha, hb⟩⟩

/-- Every key overlaps with itself. -/
@[simp]
theorem flowMatches2wild_self (a : SwFlowKey) : flowMatches2wild a a = true :=
  (flowMatches2wild_iff a a).2 ⟨_, a.pattern.matches_value, a.pattern.matches_value⟩

/-- A normalised key overlaps with one of the same wildcards when the values agree under the
common masks. -/
theorem SwFlowKey.Normal.flowMatches2wild_iff_of_wildcards_eq {a b : SwFlowKey} (ha : a.Normal)
    (hb : b.Normal) (hw : a.wildcards = b.wildcards) :
    flowMatches2wild a b = true ↔
      ∀ i, (a.flow.word i ^^^ b.flow.word i) &&& b.pattern.mask i = 0 := by
  obtain ⟨hsa, hda⟩ := ha.masks
  obtain ⟨hsb, hdb⟩ := hb.masks
  have hs : a.nwSrcMask = b.nwSrcMask := by rw [hsa, hsb, hw]
  have hd : a.nwDstMask = b.nwDstMask := by rw [hda, hdb, hw]
  rw [flowMatches2wild, hw, hs, hd, BitVec.or_self, BitVec.and_self, BitVec.and_self,
    flowFieldsMatch_iff]
  rfl

/-- Normalised keys of the same wildcards that overlap compare alike with a third one. -/
theorem SwFlowKey.Normal.flowMatches2wild_congr_right {a b c : SwFlowKey} (ha : a.Normal)
    (hb : b.Normal) (hc : c.Normal) (hab : a.wildcards = b.wildcards)
    (hcb : c.wildcards = b.wildcards) (h : flowMatches2wild a b = true) :
    flowMatches2wild c a = flowMatches2wild c b := by
  have hmask : ∀ i, a.pattern.mask i = b.pattern.mask i := by
    intro i
    obtain ⟨hsa, hda⟩ := ha.masks
    obtain ⟨hsb, hdb⟩ := hb.masks
    simp only [SwFlowKey.pattern, hsa, hda, hsb, hdb, hab]
  rw [ha.flowMatches2wild_iff_of_wildcards_eq hb hab] at h
  rw [Bool.eq_iff_iff, hc.flowMatches2wild_iff_of_wildcards_eq ha (hcb.trans hab.symm),
    hc.flowMatches2wild_iff_of_wildcards_eq hb hcb]
  refine forall_congr' fun i => ?_
  rw [hmask, Ternary.xor_and_eq_zero_iff, Ternary.xor_and_eq_zero_iff]
  have hi := (Ternary.xor_and_eq_zero_iff _ _ _).1 (h i)
  exact forall_congr' fun j => imp_congr_right fun hj => by rw [hi j hj]

theorem wild_and_not {w c bit : BitVec 32} (h : ~~~c &&& bit = bit) :
    wild (w &&& ~~~c) bit = wild w bit := by
  rw [wild, wild, BitVec.and_assoc, h]

theorem and_ofpfwAll_idem (w : BitVec 32) : w &&& ofpfwAll &&& ofpfwAll = w &&& ofpfwAll := by
  rw [BitVec.and_assoc, BitVec.and_self]

theorem or_and_ofpfwAll {w c : BitVec 32} (hc : c &&& ofpfwAll = c) :
    (w &&& ofpfwAll ||| c) &&& ofpfwAll = w &&& ofpfwAll ||| c := by
  rw [BitVec.and_or_distrib_right, and_ofpfwAll_idem, hc]

theorem and_not_and_ofpfwAll (w c : BitVec 32) :
    (w &&& ofpfwAll &&& ~~~c) &&& ofpfwAll = w &&& ofpfwAll &&& ~~~c := by
  rw [BitVec.and_assoc, BitVec.and_comm (~~~c), ← BitVec.and_assoc, and_ofpfwAll_idem]

/-- The fields and wildcards of a normalised key are kept by another normalisation. -/
theorem flowExtractFields_flowFillMatch (m : OfpMatch) :
    flowExtractFields (flowFillMatch (flowExtractFields m).1 (flowExtractFields m).2) =
      flowExtractFields m := by
  have hnwtp : (ofpfwNw ||| ofpfwTp) &&& ofpfwAll = ofpfwNw ||| ofpfwTp := by decide
  have htp : ofpfwTp &&& ofpfwAll = ofpfwTp := by decide
  have htype : ~~~ofpfwTp &&& ofpfwDlType = ofpfwDlType := by decide
  have hproto : ~~~ofpfwTp &&& ofpfwNwProto = ofpfwNwProto := by decide
  have htpType : wild ofpfwTp ofpfwDlType = false := by decide
  have htos : m.nwTos &&& 0xfc &&& 0xfc = m.nwTos &&& 0xfc := by
    rw [BitVec.and_assoc, BitVec.and_self]
  have hclear : m.wildcards &&& ofpfwAll &&& ~~~ofpfwTp &&& ~~~ofpfwTp =
      m.wildcards &&& ofpfwAll &&& ~~~ofpfwTp := by
    rw [BitVec.and_assoc _ (~~~ofpfwTp), BitVec.and_self]
  -- the cases of the source, in its order
  cases hdl : wild (m.wildcards &&& ofpfwAll) ofpfwDlType
  case true =>
    simp only [flowExtractFields, flowFillMatch, hdl, if_true, or_and_ofpfwAll hnwtp, wild_or,
      Bool.true_or, BitVec.or_assoc, BitVec.or_self]
  cases hip : m.dlType == ethTypeIp
  case true =>
    cases hpr : wild (m.wildcards &&& ofpfwAll) ofpfwNwProto
    case true =>
      simp only [flowExtractFields, flowFillMatch, hdl, hip, hpr, or_and_ofpfwAll htp, wild_or,
        htpType, htos, Bool.or_false, Bool.true_or, if_true, Bool.false_eq_true, if_false,
        BitVec.or_assoc, BitVec.or_self]
    cases htcp : m.nwProto == 6 || m.nwProto == 17 || m.nwProto == 1
    case true =>
      simp only [flowExtractFields, flowFillMatch, hdl, hip, hpr, htcp, htos, and_ofpfwAll_idem,
        if_true, Bool.false_eq_true, if_false]
    case false =>
      simp only [flowExtractFields, flowFillMatch, hdl, hip, hpr, htcp, htos, hclear,
        and_not_and_ofpfwAll, wild_and_not htype, wild_and_not hproto, if_true,
        Bool.false_eq_true, if_false]
  cases harp : m.dlType == ethTypeArp
  case true =>
    simp only [flowExtractFields, flowFillMatch, hdl, hip, harp, hclear, and_not_and_ofpfwAll,
      wild_and_not htype, if_true, Bool.false_eq_true, if_false]
  case false =>
    simp only [flowExtractFields, flowFillMatch, hdl, hip, harp, and_ofpfwAll_idem,
      Bool.false_eq_true, if_false]

/-- A normalised key survives the way through an `ofp_match`. -/
theorem flowExtractMatch_flowFillMatch {k : SwFlowKey} (h : k.Normal) :
    flowExtractMatch (flowFillMatch k.flow k.wildcards) = k := by
  obtain ⟨m, rfl⟩ := h
  have hm := flowExtractFields_flowFillMatch m
  change flowExtractMatch (flowFillMatch (flowExtractFields m).1 (flowExtractFields m).2) = _
  simp only [flowExtractMatch, hm]

end OfAgent
