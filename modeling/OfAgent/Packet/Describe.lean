import OfAgent.Packet.Extract

/-!
# The packets that a match describes

An `ofp_match` describes a packet when every field that it does not wildcard, and that makes sense
for its Ethernet type and protocol, is the packet's. The datapath compares something else: the
key that `flow_extract` makes of the packet with the key that `flow_extract_match` makes of the
match, whose wildcards and fields it has rewritten.

* `OfpMatch.Describes`: the description, field by field.
* `flowMatches1wild_extract_iff`: the comparison decides the description.
-/

namespace OfAgent

/-! ### Descriptions -/

namespace OfpMatch

variable (m : OfpMatch)

/-- The field with the given wildcard bit is not wildcarded. -/
def Exact (bit : BitVec 32) : Prop := wild m.wildcards bit = false

/-- The match asks for the given Ethernet type. -/
def HasType (dlType : BitVec 16) : Prop := m.Exact ofpfwDlType ∧ m.dlType = dlType

/-- The addresses and the protocol of the match make sense. -/
def HasNetwork : Prop := m.HasType ethTypeIp ∨ m.HasType ethTypeArp

/-- The ports of the match make sense. -/
def HasTransport : Prop :=
  m.HasType ethTypeIp ∧ m.Exact ofpfwNwProto ∧ hasPorts m.nwProto = true

/-- The number of bits of the source address that are wildcarded, from the lowest one on. -/
def nwSrcWild : ℕ := ((m.wildcards >>> ofpfwNwSrcShift) &&& 63).toNat

/-- The number of bits of the destination address that are wildcarded. -/
def nwDstWild : ℕ := ((m.wildcards >>> ofpfwNwDstShift) &&& 63).toNat

/-- The frames of the packets that the match describes. -/
structure DescribesFrame (f : Flow) : Prop where
  /-- Input switch port. -/
  inPort : m.Exact ofpfwInPort → f.inPort = m.inPort
  /-- Input VLAN id. -/
  dlVlan : m.Exact ofpfwDlVlan → f.dlVlan = m.dlVlan
  /-- Input VLAN priority. -/
  dlVlanPcp : m.Exact ofpfwDlVlanPcp → f.dlVlanPcp = m.dlVlanPcp
  /-- Ethernet source address. -/
  dlSrc : m.Exact ofpfwDlSrc → f.dlSrc = m.dlSrc
  /-- Ethernet destination address. -/
  dlDst : m.Exact ofpfwDlDst → f.dlDst = m.dlDst
  /-- Ethernet frame type. -/
  dlType : m.Exact ofpfwDlType → f.dlType = m.dlType

/-- What the frames of the packets that the match describes carry. -/
structure DescribesNetwork (f : Flow) : Prop where
  /-- IP ToS, in the upper six bits. -/
  nwTos : m.HasType ethTypeIp → m.Exact ofpfwNwTos → f.nwTos &&& 0xfc = m.nwTos &&& 0xfc
  /-- IP protocol or lower 8 bits of ARP opcode. -/
  nwProto : m.HasNetwork → m.Exact ofpfwNwProto → f.nwProto = m.nwProto
  /-- IP source address, above the wildcarded bits. -/
  nwSrc : m.HasNetwork → f.nwSrc >>> m.nwSrcWild = m.nwSrc >>> m.nwSrcWild
  /-- IP destination address, above the wildcarded bits. -/
  nwDst : m.HasNetwork → f.nwDst >>> m.nwDstWild = m.nwDst >>> m.nwDstWild
  /-- TCP/UDP source port, or ICMP type. -/
  tpSrc : m.HasTransport → m.Exact ofpfwTpSrc → f.tpSrc = m.tpSrc
  /-- TCP/UDP destination port, or ICMP code. -/
  tpDst : m.HasTransport → m.Exact ofpfwTpDst → f.tpDst = m.tpDst

/-- The match describes the packets with the given flow. -/
structure Describes (f : Flow) : Prop extends m.DescribesFrame f, m.DescribesNetwork f

end OfpMatch

/-! ### Comparisons -/

/-- The fields of the frame agree, as far as they are not wildcarded. -/
structure Flow.FrameAgrees (f k : Flow) (w : BitVec 32) : Prop where
  /-- The ports agree. -/
  inPort : wild w ofpfwInPort = false → f.inPort = k.inPort
  /-- The VLAN ids agree. -/
  dlVlan : wild w ofpfwDlVlan = false → f.dlVlan = k.dlVlan
  /-- The VLAN priorities agree. -/
  dlVlanPcp : wild w ofpfwDlVlanPcp = false → f.dlVlanPcp = k.dlVlanPcp
  /-- The source addresses agree. -/
  dlSrc : wild w ofpfwDlSrc = false → f.dlSrc = k.dlSrc
  /-- The destination addresses agree. -/
  dlDst : wild w ofpfwDlDst = false → f.dlDst = k.dlDst
  /-- The types agree. -/
  dlType : wild w ofpfwDlType = false → f.dlType = k.dlType

/-- The fields of the network and transport layers agree, as far as they are not wildcarded. -/
structure Flow.NetworkAgrees (f k : Flow) (w : BitVec 32) : Prop where
  /-- The types of service agree. -/
  nwTos : wild w ofpfwNwTos = false → f.nwTos = k.nwTos
  /-- The protocols agree. -/
  nwProto : wild w ofpfwNwProto = false → f.nwProto = k.nwProto
  /-- The source addresses agree under their mask. -/
  nwSrc : (f.nwSrc ^^^ k.nwSrc) &&& makeNwMask (w >>> ofpfwNwSrcShift) = 0
  /-- The destination addresses agree under their mask. -/
  nwDst : (f.nwDst ^^^ k.nwDst) &&& makeNwMask (w >>> ofpfwNwDstShift) = 0
  /-- The source ports agree. -/
  tpSrc : wild w ofpfwTpSrc = false → f.tpSrc = k.tpSrc
  /-- The destination ports agree. -/
  tpDst : wild w ofpfwTpDst = false → f.tpDst = k.tpDst

theorem wild_or_beq_iff {n : ℕ} {w bit : BitVec 32} {a b : BitVec n} :
    (wild w bit || a == b) = true ↔ (wild w bit = false → a = b) := by
  cases wild w bit <;> simp

/-- The comparison of a packet with a normalised match, layer by layer. -/
theorem flowMatches1wild_flowExtractMatch (f : Flow) (m : OfpMatch) :
    flowMatches1wild (packetKey f) (flowExtractMatch m) = true ↔
      f.FrameAgrees (flowExtractFields m).1 (flowExtractFields m).2 ∧
        f.NetworkAgrees (flowExtractFields m).1 (flowExtractFields m).2 := by
  change flowFieldsMatch f (flowExtractFields m).1 (flowExtractFields m).2 _ _ = true ↔ _
  rw [flowFieldsMatch]
  simp only [Bool.and_eq_true, wild_or_beq_iff, beq_iff_eq]
  constructor
  · rintro ⟨⟨⟨⟨⟨⟨⟨⟨⟨⟨⟨h1, h2⟩, h3⟩, h4⟩, h5⟩, h6⟩, h7⟩, h8⟩, h9⟩, h10⟩, h11⟩, h12⟩
    exact ⟨⟨h1, h2, h3, h4, h5, h6⟩, ⟨h7, h8, h9, h10, h11, h12⟩⟩
  · rintro ⟨⟨h1, h2, h3, h4, h5, h6⟩, ⟨h7, h8, h9, h10, h11, h12⟩⟩
    exact ⟨⟨⟨⟨⟨⟨⟨⟨⟨⟨⟨h1, h2⟩, h3⟩, h4⟩, h5⟩, h6⟩, h7⟩, h8⟩, h9⟩, h10⟩, h11⟩, h12⟩

/-! ### Masks and wildcards -/

/-- Two addresses agree under a network mask when they agree above the wildcarded bits. -/
theorem xor_and_makeNwMask (a b w : BitVec 32) :
    (a ^^^ b) &&& makeNwMask w = 0 ↔ a >>> (w &&& 63).toNat = b >>> (w &&& 63).toNat := by
  have h63 : ((1 <<< ofpfwNwSrcBits : ℕ) : BitVec 32) - 1 = 63 := by decide
  unfold makeNwMask
  rw [h63]
  simp only
  generalize (w &&& 63).toNat = n
  split
  next hn =>
    have hmask : ((1 <<< n : ℕ) : BitVec 32) - 1 = BitVec.ofNat 32 (2 ^ n - 1) := by
      have hpow : 2 ^ n < 2 ^ 32 := Nat.pow_lt_pow_right (by omega) hn
      have hpos : 0 < 2 ^ n := Nat.two_pow_pos n
      have hone : (1 : BitVec 32).toNat = 1 := rfl
      apply BitVec.eq_of_toNat_eq
      rw [Nat.one_shiftLeft, BitVec.natCast_eq_ofNat, BitVec.toNat_sub, BitVec.toNat_ofNat,
        BitVec.toNat_ofNat, hone]
      omega
    rw [hmask, Ternary.xor_and_dropLow_iff]
  next hn =>
    -- no bit is left to compare
    have hle : 32 ≤ n := Nat.not_lt.1 hn
    rw [BitVec.ushiftRight_eq_zero hle, BitVec.ushiftRight_eq_zero hle]
    simp

theorem wild_and_ofpfwAll {w bit : BitVec 32} (h : ofpfwAll &&& bit = bit) :
    wild (w &&& ofpfwAll) bit = wild w bit := by
  rw [wild, wild, BitVec.and_assoc, h]

/-- The wildcard bits of the frame's fields. -/
def frameBits : List (BitVec 32) :=
  [ofpfwInPort, ofpfwDlVlan, ofpfwDlVlanPcp, ofpfwDlSrc, ofpfwDlDst, ofpfwDlType]

/-- A property of the wildcard bits of the frame's fields, bit by bit. -/
theorem forall_frameBits {P : BitVec 32 → Prop} :
    (∀ bit ∈ frameBits, P bit) ↔ P ofpfwInPort ∧ P ofpfwDlVlan ∧ P ofpfwDlVlanPcp ∧
      P ofpfwDlSrc ∧ P ofpfwDlDst ∧ P ofpfwDlType := by
  simp [frameBits]

/-- Normalisation does not touch the fields of the frame. -/
theorem flowExtractFields_frame (m : OfpMatch) :
    (flowExtractFields m).1.inPort = m.inPort ∧ (flowExtractFields m).1.dlVlan = m.dlVlan ∧
      (flowExtractFields m).1.dlVlanPcp = m.dlVlanPcp ∧ (flowExtractFields m).1.dlSrc = m.dlSrc ∧
      (flowExtractFields m).1.dlDst = m.dlDst ∧ (flowExtractFields m).1.dlType = m.dlType ∧
      ∀ bit ∈ frameBits, wild (flowExtractFields m).2 bit = wild m.wildcards bit := by
  have hall : ∀ bit ∈ frameBits, ofpfwAll &&& bit = bit := forall_frameBits.2 (by decide)
  have hor : ∀ bit ∈ frameBits, wild (ofpfwNw ||| ofpfwTp) bit = false :=
    forall_frameBits.2 (by decide)
  have hor' : ∀ bit ∈ frameBits, wild ofpfwTp bit = false := forall_frameBits.2 (by decide)
  have hnot : ∀ bit ∈ frameBits, ~~~ofpfwTp &&& bit = bit := forall_frameBits.2 (by decide)
  have h0 : ∀ bit ∈ frameBits, wild (m.wildcards &&& ofpfwAll) bit = wild m.wildcards bit :=
    fun bit hb => wild_and_ofpfwAll (hall bit hb)
  -- the three ways in which the wildcards change
  have h1 : ∀ bit ∈ frameBits,
      wild (m.wildcards &&& ofpfwAll ||| (ofpfwNw ||| ofpfwTp)) bit = wild m.wildcards bit :=
    fun bit hb => by rw [wild_or, hor bit hb, Bool.or_false, h0 bit hb]
  have h2 : ∀ bit ∈ frameBits,
      wild (m.wildcards &&& ofpfwAll ||| ofpfwTp) bit = wild m.wildcards bit :=
    fun bit hb => by rw [wild_or, hor' bit hb, Bool.or_false, h0 bit hb]
  have h3 : ∀ bit ∈ frameBits,
      wild (m.wildcards &&& ofpfwAll &&& ~~~ofpfwTp) bit = wild m.wildcards bit :=
    fun bit hb => by rw [wild_and_not (hnot bit hb), h0 bit hb]
  unfold flowExtractFields
  simp only
  split
  · exact ⟨rfl, rfl, rfl, rfl, rfl, rfl, h1⟩
  · split
    · split
      · exact ⟨rfl, rfl, rfl, rfl, rfl, rfl, h2⟩
      · split
        · exact ⟨rfl, rfl, rfl, rfl, rfl, rfl, h0⟩
        · exact ⟨rfl, rfl, rfl, rfl, rfl, rfl, h3⟩
    · split
      · exact ⟨rfl, rfl, rfl, rfl, rfl, rfl, h3⟩
      · exact ⟨rfl, rfl, rfl, rfl, rfl, rfl, h0⟩

/-- The comparison of the frames decides their description. -/
theorem frameAgrees_iff (f : Flow) (m : OfpMatch) :
    f.FrameAgrees (flowExtractFields m).1 (flowExtractFields m).2 ↔ m.DescribesFrame f := by
  obtain ⟨h1, h2, h3, h4, h5, h6, hbits⟩ := flowExtractFields_frame m
  obtain ⟨b1, b2, b3, b4, b5, b6⟩ := forall_frameBits.1 hbits
  constructor
  · rintro ⟨g1, g2, g3, g4, g5, g6⟩
    rw [h1, b1] at g1
    rw [h2, b2] at g2
    rw [h3, b3] at g3
    rw [h4, b4] at g4
    rw [h5, b5] at g5
    rw [h6, b6] at g6
    exact ⟨g1, g2, g3, g4, g5, g6⟩
  · rintro ⟨g1, g2, g3, g4, g5, g6⟩
    refine ⟨?_, ?_, ?_, ?_, ?_, ?_⟩
    · rw [h1, b1]
      exact g1
    · rw [h2, b2]
      exact g2
    · rw [h3, b3]
      exact g3
    · rw [h4, b4]
      exact g4
    · rw [h5, b5]
      exact g5
    · rw [h6, b6]
      exact g6

/-! ### The layers above the frame -/

/-- The wildcard bits of the other fields, the addresses apart. -/
def networkBits : List (BitVec 32) := [ofpfwNwTos, ofpfwNwProto, ofpfwTpSrc, ofpfwTpDst]

theorem forall_networkBits {P : BitVec 32 → Prop} :
    (∀ bit ∈ networkBits, P bit) ↔
      P ofpfwNwTos ∧ P ofpfwNwProto ∧ P ofpfwTpSrc ∧ P ofpfwTpDst := by
  simp [networkBits]

theorem xor_and_makeNwMask_of_all {a b w : BitVec 32} (h : w &&& 63 = 63) :
    (a ^^^ b) &&& makeNwMask w = 0 := by
  have hle : 32 ≤ (63 : BitVec 32).toNat := by decide
  rw [xor_and_makeNwMask, h, BitVec.ushiftRight_eq_zero hle, BitVec.ushiftRight_eq_zero hle]

theorem shift_and_63 {w c : BitVec 32} {k : ℕ} (h : (c >>> k) &&& 63 = 63) :
    ((w &&& c) >>> k) &&& 63 = (w >>> k) &&& 63 := by
  rw [BitVec.ushiftRight_and_distrib, BitVec.and_assoc, h]

section Network

variable {f : Flow} {m : OfpMatch}

/-- Without an exact Ethernet type nothing above the frame is compared or described. -/
theorem networkAgrees_iff_of_wild (hdl : wild m.wildcards ofpfwDlType = true) :
    f.NetworkAgrees (flowExtractFields m).1 (flowExtractFields m).2 ↔ m.DescribesNetwork f := by
  have hall : wild (m.wildcards &&& ofpfwAll) ofpfwDlType = true := by
    rw [wild_and_ofpfwAll (by decide), hdl]
  -- the normalisation wildcards everything above the frame
  have hw : (flowExtractFields m).2 = m.wildcards &&& ofpfwAll ||| (ofpfwNw ||| ofpfwTp) := by
    simp only [flowExtractFields, hall, if_true]
  have hset : ∀ bit ∈ networkBits, wild (ofpfwNw ||| ofpfwTp) bit = true :=
    forall_networkBits.2 (by decide)
  have hbit : ∀ bit ∈ networkBits, ¬ wild (flowExtractFields m).2 bit = false := by
    intro bit hb
    rw [hw, wild_or, hset bit hb, Bool.or_true]
    exact Bool.noConfusion
  obtain ⟨b1, b2, b3, b4⟩ := forall_networkBits.1 hbit
  have hcount : ∀ k : ℕ, ((ofpfwNw ||| ofpfwTp) >>> k) &&& 63 = 63 →
      ((flowExtractFields m).2 >>> k) &&& 63 = 63 := by
    intro k hk
    rw [hw, BitVec.ushiftRight_or_distrib, BitVec.and_or_distrib_right, hk]
    apply BitVec.eq_of_getLsbD_eq
    intro i _
    simp only [BitVec.getLsbD_or, BitVec.getLsbD_and]
    cases (63 : BitVec 32).getLsbD i <;> simp
  have hnot : ∀ t, ¬ m.HasType t := by
    rintro t ⟨he, -⟩
    rw [OfpMatch.Exact, hdl] at he
    cases he
  have hnet : ¬ m.HasNetwork := fun h => h.elim (hnot _) (hnot _)
  constructor
  · intro _
    exact ⟨fun h => absurd h (hnot _), fun h => absurd h hnet, fun h => absurd h hnet,
      fun h => absurd h hnet, fun h => absurd h.1 (hnot _), fun h => absurd h.1 (hnot _)⟩
  · intro _
    have hsrc := hcount ofpfwNwSrcShift (by decide)
    have hdst := hcount ofpfwNwDstShift (by decide)
    exact ⟨fun h => absurd h b1, fun h => absurd h b2, xor_and_makeNwMask_of_all hsrc,
      xor_and_makeNwMask_of_all hdst, fun h => absurd h b3, fun h => absurd h b4⟩

/-- The wildcards `w` are those of the match, as far as the network layer is concerned. -/
structure KeepsNetwork (m : OfpMatch) (w : BitVec 32) : Prop where
  /-- The type of service is wildcarded alike. -/
  nwTos : wild w ofpfwNwTos = wild m.wildcards ofpfwNwTos
  /-- The protocol is wildcarded alike. -/
  nwProto : wild w ofpfwNwProto = wild m.wildcards ofpfwNwProto
  /-- As many bits of the source address are wildcarded. -/
  nwSrc : ((w >>> ofpfwNwSrcShift) &&& 63).toNat = m.nwSrcWild
  /-- As many bits of the destination address are wildcarded. -/
  nwDst : ((w >>> ofpfwNwDstShift) &&& 63).toNat = m.nwDstWild

variable (m) in
/-- The wildcards of the match, restricted to the defined bits. -/
theorem keepsNetwork_all : KeepsNetwork m (m.wildcards &&& ofpfwAll) where
  nwTos := wild_and_ofpfwAll (by decide)
  nwProto := wild_and_ofpfwAll (by decide)
  nwSrc := by rw [shift_and_63 (by decide), OfpMatch.nwSrcWild]
  nwDst := by rw [shift_and_63 (by decide), OfpMatch.nwDstWild]

variable {k : Flow} {w : BitVec 32}

/-- Marking the ports as exact leaves the network layer alone. -/
theorem KeepsNetwork.clear (h : KeepsNetwork m w) : KeepsNetwork m (w &&& ~~~ofpfwTp) where
  nwTos := by rw [wild_and_not (by decide), h.nwTos]
  nwProto := by rw [wild_and_not (by decide), h.nwProto]
  nwSrc := by rw [shift_and_63 (by decide), h.nwSrc]
  nwDst := by rw [shift_and_63 (by decide), h.nwDst]

/-- Wildcarding the ports leaves the network layer alone. -/
theorem KeepsNetwork.set (h : KeepsNetwork m w) : KeepsNetwork m (w ||| ofpfwTp) := by
  have hcount : ∀ s : ℕ, (ofpfwTp >>> s) &&& 63 = 0 →
      ((w ||| ofpfwTp) >>> s) &&& 63 = (w >>> s) &&& 63 := by
    intro s hs
    have hzero : ∀ v : BitVec 32, v ||| 0 = v := fun _ => BitVec.or_zero
    rw [BitVec.ushiftRight_or_distrib, BitVec.and_or_distrib_right, hs, hzero]
  have htos : wild ofpfwTp ofpfwNwTos = false := by decide
  have hproto : wild ofpfwTp ofpfwNwProto = false := by decide
  constructor
  · rw [wild_or, htos, Bool.or_false, h.nwTos]
  · rw [wild_or, hproto, Bool.or_false, h.nwProto]
  · rw [hcount _ (by decide), h.nwSrc]
  · rw [hcount _ (by decide), h.nwDst]

/-- An IP match is compared and described alike when its ports are. -/
theorem networkAgrees_iff_of_ip (hf : f.Layered) (hip : m.HasType ethTypeIp)
    (hw : KeepsNetwork m w) (htos : k.nwTos = m.nwTos &&& 0xfc) (hproto : k.nwProto = m.nwProto)
    (hsrc : k.nwSrc = m.nwSrc) (hdst : k.nwDst = m.nwDst)
    (hports : (m.Exact ofpfwNwProto → f.nwProto = m.nwProto) →
      ((wild w ofpfwTpSrc = false → f.tpSrc = k.tpSrc) ↔
          (m.HasTransport → m.Exact ofpfwTpSrc → f.tpSrc = m.tpSrc)) ∧
        ((wild w ofpfwTpDst = false → f.tpDst = k.tpDst) ↔
          (m.HasTransport → m.Exact ofpfwTpDst → f.tpDst = m.tpDst))) :
    f.NetworkAgrees k w ↔ m.DescribesNetwork f := by
  have hnet : m.HasNetwork := .inl hip
  constructor
  · rintro ⟨g1, g2, g3, g4, g5, g6⟩
    -- field by field; the ports are those of the hypothesis, for the protocol that has been
    -- compared
    rw [hw.nwTos, htos] at g1
    rw [hw.nwProto, hproto] at g2
    rw [xor_and_makeNwMask, hw.nwSrc, hsrc] at g3
    rw [xor_and_makeNwMask, hw.nwDst, hdst] at g4
    obtain ⟨hps, hpd⟩ := hports g2
    exact ⟨fun _ he => hf.nwTos_upper.trans (g1 he), fun _ => g2, fun _ => g3, fun _ => g4,
      hps.1 g5, hpd.1 g6⟩
  · rintro ⟨g1, g2, g3, g4, g5, g6⟩
    obtain ⟨hps, hpd⟩ := hports (g2 hnet)
    refine ⟨?_, ?_, ?_, ?_, hps.2 g5, hpd.2 g6⟩
    · rw [hw.nwTos, htos]
      exact fun he => hf.nwTos_upper.symm.trans (g1 hip he)
    · rw [hw.nwProto, hproto]
      exact g2 hnet
    · rw [xor_and_makeNwMask, hw.nwSrc, hsrc]
      exact g3 hnet
    · rw [xor_and_makeNwMask, hw.nwDst, hdst]
      exact g4 hnet

/-- An ARP match is compared and described alike: the fields that only IP has are zero on both
sides. -/
theorem networkAgrees_iff_of_arp (hf : f.Layered) (harp : m.HasType ethTypeArp)
    (htype : f.dlType = ethTypeArp) (hw : KeepsNetwork m w) (htos : k.nwTos = 0)
    (hproto : k.nwProto = m.nwProto) (hsrc : k.nwSrc = m.nwSrc) (hdst : k.nwDst = m.nwDst)
    (hports : k.tpSrc = 0 ∧ k.tpDst = 0) :
    f.NetworkAgrees k w ↔ m.DescribesNetwork f := by
  have hne : ethTypeArp ≠ ethTypeIp := by decide
  have hnip : ¬ m.HasType ethTypeIp := fun h => hne (harp.2.symm.trans h.2)
  have hnet : m.HasNetwork := .inr harp
  have htos' : f.nwTos = 0 := hf.nwTos (htype ▸ hne)
  have hports' := hf.transport fun h => hne (htype.symm.trans h.1)
  constructor
  · rintro ⟨-, g2, g3, g4, -, -⟩
    rw [hw.nwProto, hproto] at g2
    rw [xor_and_makeNwMask, hw.nwSrc, hsrc] at g3
    rw [xor_and_makeNwMask, hw.nwDst, hdst] at g4
    exact ⟨fun h => absurd h hnip, fun _ => g2, fun _ => g3, fun _ => g4,
      fun h => absurd h.1 hnip, fun h => absurd h.1 hnip⟩
  · rintro ⟨-, g2, g3, g4, -, -⟩
    refine ⟨fun _ => htos'.trans htos.symm, ?_, ?_, ?_, fun _ => hports'.1.trans hports.1.symm,
      fun _ => hports'.2.trans hports.2.symm⟩
    · rw [hw.nwProto, hproto]
      exact g2 hnet
    · rw [xor_and_makeNwMask, hw.nwSrc, hsrc]
      exact g3 hnet
    · rw [xor_and_makeNwMask, hw.nwDst, hdst]
      exact g4 hnet

/-- For any other type everything above the frame is zero on both sides. -/
theorem networkAgrees_of_other (hf : f.Layered) (hip : f.dlType ≠ ethTypeIp)
    (harp : f.dlType ≠ ethTypeArp) (hk : k.Bare) : f.NetworkAgrees k w := by
  obtain ⟨hsrc, hdst, hproto⟩ := hf.network hip harp
  have hports := hf.transport fun h => hip h.1
  refine ⟨fun _ => (hf.nwTos hip).trans hk.nwTos.symm, fun _ => hproto.trans hk.nwProto.symm,
    ?_, ?_, fun _ => hports.1.trans hk.ports.1.symm, fun _ => hports.2.trans hk.ports.2.symm⟩
  · rw [hsrc, hk.addresses.1]
    simp
  · rw [hdst, hk.addresses.2]
    simp

/-- The comparison of the layers above the frame decides their description. -/
theorem networkAgrees_iff (hf : f.Layered) (htype : m.Exact ofpfwDlType → f.dlType = m.dlType) :
    f.NetworkAgrees (flowExtractFields m).1 (flowExtractFields m).2 ↔ m.DescribesNetwork f := by
  by_cases hdl : m.Exact ofpfwDlType
  swap
  · exact networkAgrees_iff_of_wild (Bool.eq_true_of_not_eq_false hdl)
  have htype := htype hdl
  have hkeep := keepsNetwork_all m
  have hdl' : wild (m.wildcards &&& ofpfwAll) ofpfwDlType = false := by
    rw [wild_and_ofpfwAll (by decide)]
    exact hdl
  have hsrc' : wild (m.wildcards &&& ofpfwAll) ofpfwTpSrc = wild m.wildcards ofpfwTpSrc :=
    wild_and_ofpfwAll (by decide)
  have hdst' : wild (m.wildcards &&& ofpfwAll) ofpfwTpDst = wild m.wildcards ofpfwTpDst :=
    wild_and_ofpfwAll (by decide)
  unfold flowExtractFields
  simp only [hdl', Bool.false_eq_true, if_false]
  -- the cases of the source, in its order
  split
  next hip =>
    have hip : m.HasType ethTypeIp := ⟨hdl, beq_iff_eq.1 hip⟩
    split
    next hproto =>
      -- the protocol is not known, and neither are the ports
      rw [hkeep.nwProto] at hproto
      have hnot : ¬ m.HasTransport := fun h => by
        have he : wild m.wildcards ofpfwNwProto = false := h.2.1
        rw [hproto] at he
        cases he
      have hs : wild (m.wildcards &&& ofpfwAll ||| ofpfwTp) ofpfwTpSrc = true := by
        have htp : wild ofpfwTp ofpfwTpSrc = true := by decide
        rw [wild_or, htp, Bool.or_true]
      have hd : wild (m.wildcards &&& ofpfwAll ||| ofpfwTp) ofpfwTpDst = true := by
        have htp : wild ofpfwTp ofpfwTpDst = true := by decide
        rw [wild_or, htp, Bool.or_true]
      refine networkAgrees_iff_of_ip hf hip hkeep.set rfl rfl rfl rfl fun _ => ⟨?_, ?_⟩
      · rw [hs]
        exact ⟨fun _ h => absurd h hnot, fun _ h => by cases h⟩
      · rw [hd]
        exact ⟨fun _ h => absurd h hnot, fun _ h => by cases h⟩
    next hproto =>
      rw [hkeep.nwProto, Bool.not_eq_true] at hproto
      split
      next htcp =>
        -- TCP, UDP and ICMP
        have htrans : m.HasTransport := ⟨hip, hproto, htcp⟩
        refine networkAgrees_iff_of_ip hf hip hkeep rfl rfl rfl rfl fun _ => ⟨?_, ?_⟩
        · rw [hsrc']
          exact ⟨fun h _ => h, fun h => h htrans⟩
        · rw [hdst']
          exact ⟨fun h _ => h, fun h => h htrans⟩
      next htcp =>
        -- a protocol without ports: they are zero in the packet as well
        have hnot : ¬ m.HasTransport := fun h => htcp h.2.2
        refine networkAgrees_iff_of_ip hf hip hkeep.clear rfl rfl rfl rfl fun hagree => ?_
        have hzero := hf.transport fun h => by
          rw [hagree hproto] at h
          exact htcp h.2
        exact ⟨⟨fun _ h => absurd h hnot, fun _ _ => hzero.1⟩,
          ⟨fun _ h => absurd h hnot, fun _ _ => hzero.2⟩⟩
  next hip =>
    have hip : m.dlType ≠ ethTypeIp := fun h => hip (beq_iff_eq.2 h)
    split
    next harp =>
      rw [beq_iff_eq] at harp
      exact networkAgrees_iff_of_arp hf ⟨hdl, harp⟩ (htype.trans harp) hkeep.clear rfl rfl rfl
        rfl ⟨rfl, rfl⟩
    next harp =>
      have harp : m.dlType ≠ ethTypeArp := fun h => harp (beq_iff_eq.2 h)
      have hnip : ¬ m.HasType ethTypeIp := fun h => hip h.2
      have hnet : ¬ m.HasNetwork := fun h => h.elim hnip fun h => harp h.2
      constructor
      · intro _
        exact ⟨fun h => absurd h hnip, fun h => absurd h hnet, fun h => absurd h hnet,
          fun h => absurd h hnet, fun h => absurd h.1 hnip, fun h => absurd h.1 hnip⟩
      · intro _
        exact networkAgrees_of_other hf (htype ▸ hip) (htype ▸ harp)
          ⟨⟨rfl, rfl⟩, rfl, rfl, ⟨rfl, rfl⟩⟩

end Network

/-- The key of a packet matches the key of a match exactly when the match describes the packet:
normalisation neither widens nor narrows the set of packets that a match describes. -/
theorem flowMatches1wild_extract_iff (m : OfpMatch) (packet : Ofpbuf) (inPort : BitVec 16) :
    flowMatches1wild (packetKey (packetFlow packet inPort)) (flowExtractMatch m) = true ↔
      m.Describes (packetFlow packet inPort) := by
  have hf := layered_packetFlow packet inPort
  rw [flowMatches1wild_flowExtractMatch, frameAgrees_iff]
  constructor
  · rintro ⟨hframe, hnet⟩
    exact ⟨hframe, (networkAgrees_iff hf hframe.dlType).1 hnet⟩
  · rintro ⟨hframe, hnet⟩
    exact ⟨hframe, (networkAgrees_iff hf hframe.dlType).2 hnet⟩

end OfAgent
